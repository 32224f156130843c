import DiagramSketch.Proofs.Text.Lines
import DiagramSketch.Text.Scan

/-!
# Reading JSON objects

A reader of JSON that knows nothing of the writer.  A text is first read as tokens, with white
space wherever JSON allows it, and the object is then put together from them.  In a string, an
escape with four digits is a UTF-16 code unit, and two of them may be needed for a character.

The members of an object are strings, truth values and nulls.  Numbers, lists and objects inside of
objects are not read, nor is an object that has two members of one name.
-/

namespace DiagramSketch.Json

open DiagramSketch (Text)

/-! ## Strings -/

/-- The value of a hexadecimal digit. -/
def digitValue? (digit : Char) : Option Nat :=
  let code := digit.toNat
  if 0x30 ≤ code ∧ code ≤ 0x39 then some (code - 0x30)
  else if 0x61 ≤ code ∧ code ≤ 0x66 then some (code - 0x61 + 10)
  else if 0x41 ≤ code ∧ code ≤ 0x46 then some (code - 0x41 + 10)
  else none

/-- The value of a hexadecimal numeral. -/
def numeralValue? (numeral : Text) : Option Nat :=
  numeral.foldlM (fun value digit => (digitValue? digit).map (16 * value + ·)) 0

/-- What the letters behind a backslash stand for. -/
def escapes : List (Char × Char) :=
  [('"', '"'), ('\\', '\\'), ('/', '/'), ('b', '\x08'), ('f', '\x0c'), ('n', '\n'), ('r', '\r'),
   ('t', '\t')]

/-- A piece of a string. -/
inductive Piece where
  | character (character : Char)
  | unit (unit : Nat)
deriving DecidableEq, Repr

/-- Reads a string up to its closing quote. Control characters must be escaped. -/
def pieces? : Text → Option (List Piece × Text)
  | [] => none
  | '"' :: rest => some ([], rest)
  | '\\' :: 'u' :: first :: second :: third :: fourth :: rest => do
      let unit ← numeralValue? [first, second, third, fourth]
      let (pieces, after) ← pieces? rest
      return (.unit unit :: pieces, after)
  | '\\' :: letter :: rest => do
      let character ← escapes.lookup letter
      let (pieces, after) ← pieces? rest
      return (.character character :: pieces, after)
  | character :: rest =>
      if character = '\\' ∨ character < ' ' then none
      else do
        let (pieces, after) ← pieces? rest
        return (.character character :: pieces, after)

/-- The characters that pieces stand for. The first code unit of a pair stands before the second,
and neither without the other. -/
def characters? : List Piece → Option Text
  | [] => some []
  | .character character :: pieces => (characters? pieces).map (character :: ·)
  | .unit unit :: pieces =>
      if unit < 0xD800 ∨ 0xDFFF < unit then (characters? pieces).map (Char.ofNat unit :: ·)
      else
        match pieces with
        | .unit second :: pieces =>
            if unit < 0xDC00 ∧ 0xDC00 ≤ second ∧ second ≤ 0xDFFF then
              (characters? pieces).map
                (Char.ofNat (0x10000 + (unit - 0xD800) * 0x400 + (second - 0xDC00)) :: ·)
            else none
        | _ => none

/-- Reads a string from its opening quote. -/
def string? : Text → Option (Text × Text)
  | '"' :: text => do
      let (pieces, rest) ← pieces? text
      return (← characters? pieces, rest)
  | _ => none

theorem length_pieces? {text rest : Text} {pieces : List Piece}
    (read : pieces? text = some (pieces, rest)) : rest.length < text.length := by
  fun_induction pieces? text generalizing pieces with
  | case1 => cases read
  | case2 =>
      cases read
      exact Nat.lt_succ_self _
  | case3 first second third fourth text induction =>
      simp only [Option.bind_eq_bind, Option.bind_eq_some_iff, Option.pure_def] at read
      obtain ⟨unit, -, ⟨later, after⟩, readLater, same⟩ := read
      cases same
      have shorter : after.length < text.length := induction readLater
      simp only [List.length_cons]
      omega
  | case4 letter text _ induction =>
      simp only [Option.bind_eq_bind, Option.bind_eq_some_iff, Option.pure_def] at read
      obtain ⟨character, -, ⟨later, after⟩, readLater, same⟩ := read
      cases same
      have shorter : after.length < text.length := induction readLater
      simp only [List.length_cons]
      omega
  | case5 => cases read
  | case6 character text _ _ _ _ induction =>
      simp only [Option.bind_eq_bind, Option.bind_eq_some_iff, Option.pure_def] at read
      obtain ⟨⟨later, after⟩, readLater, same⟩ := read
      cases same
      have shorter : after.length < text.length := induction readLater
      simp only [List.length_cons]
      omega

theorem length_string? {text content rest : Text} (read : string? text = some (content, rest)) :
    rest.length < text.length := by
  unfold string? at read
  split at read
  · simp only [Option.bind_eq_bind, Option.bind_eq_some_iff, Option.pure_def] at read
    obtain ⟨⟨pieces, after⟩, readPieces, characters, -, same⟩ := read
    cases same
    exact (length_pieces? readPieces).trans (Nat.lt_succ_self _)
  · cases read

/-! ## Tokens -/

/-- What a member of an object is. -/
inductive Scalar where
  | null
  | truth (holds : Bool)
  | text (content : Text)
deriving DecidableEq, Repr

/-- The words, and what they stand for. -/
def words : List (Text × Scalar) :=
  [("null", .null), ("true", .truth true), ("false", .truth false)]

/-- A piece of an object. -/
inductive Token where
  | opening
  | closing
  | colon
  | comma
  | scalar (value : Scalar)
deriving DecidableEq, Repr

/-- Reads a string or a word. -/
def scalar? (text : Text) : Option (Scalar × Text) :=
  match string? text with
  | some (content, rest) => some (.text content, rest)
  | none => words.findSome? fun (word, value) => (Text.literal? word text).map (value, ·)

/-- Reads a token. -/
def token? : Text → Option (Token × Text)
  | '{' :: rest => some (.opening, rest)
  | '}' :: rest => some (.closing, rest)
  | ':' :: rest => some (.colon, rest)
  | ',' :: rest => some (.comma, rest)
  | text => (scalar? text).map fun (value, rest) => (.scalar value, rest)

theorem length_scalar? {text rest : Text} {value : Scalar}
    (read : scalar? text = some (value, rest)) : rest.length < text.length := by
  unfold scalar? at read
  split at read
  · next readString =>
      cases read
      exact length_string? readString
  · obtain ⟨⟨word, own⟩, listed, found⟩ := List.exists_of_findSome?_eq_some read
    obtain ⟨after, readWord, same⟩ := Option.map_eq_some_iff.mp found
    cases same
    have filled : ∀ entry ∈ words, 0 < entry.1.length := by decide
    have some : 0 < word.length := filled _ listed
    rw [Text.literal?_eq_some_iff.mp readWord, List.length_append]
    omega

theorem length_token? {text rest : Text} {token : Token}
    (read : token? text = some (token, rest)) : rest.length < text.length := by
  unfold token? at read
  split at read
  all_goals try
    cases read
    exact Nat.lt_succ_self _
  obtain ⟨⟨value, after⟩, readScalar, same⟩ := Option.map_eq_some_iff.mp read
  cases same
  exact length_scalar? readScalar

/-- White space between tokens. -/
def isSpace (character : Char) : Bool :=
  character == ' ' || character == '\t' || character == '\r' || character == '\n'

/-- Reads a text as tokens. -/
def tokens? (text : Text) : Option (List Token) :=
  if (text.dropWhile isSpace).isEmpty then some []
  else
    match read : token? (text.dropWhile isSpace) with
    | none => none
    | some (token, rest) =>
        have := (length_token? read).trans_le (List.dropWhile_sublist isSpace).length_le
        (tokens? rest).map (token :: ·)
termination_by text.length

/-! ## Objects -/

/-- Reads the members of an object, of which there is at least one, and its end. -/
def members? : List Token → Option (List (Text × Scalar))
  | [.scalar (.text name), .colon, .scalar value, .closing] => some [(name, value)]
  | .scalar (.text name) :: .colon :: .scalar value :: .comma :: tokens =>
      (members? tokens).map ((name, value) :: ·)
  | _ => none

/-- Reads a text as an object, with its members in their order. -/
def object? (text : Text) : Option (List (Text × Scalar)) := do
  let members ←
    match ← tokens? text with
    | [.opening, .closing] => some []
    | .opening :: tokens => members? tokens
    | _ => none
  if (members.map Prod.fst).Nodup then some members else none

end DiagramSketch.Json
