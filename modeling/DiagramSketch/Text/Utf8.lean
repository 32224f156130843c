import DiagramSketch.Text.Hexadecimal

/-!
# UTF-8

Reading a text from its bytes. Surrogates and spellings longer than needed are refused.
A refusal says where the bytes stop being UTF-8 and why, and how many bytes up to there
could have been the start of a character.
-/

namespace DiagramSketch.Text

/-- Why bytes are not UTF-8. -/
inductive Utf8Flaw where
  /-- No character starts with this byte. -/
  | start
  /-- The character that was begun cannot go on with the byte that follows. -/
  | continuation
  /-- The bytes end inside a character. -/
  | truncated
deriving DecidableEq, Repr

/-- Bytes that are not UTF-8: the place and the first of the bytes that make no character, and
their number. -/
structure Utf8Error where
  position : Nat
  first : UInt8
  length : Nat
  flaw : Utf8Flaw
deriving DecidableEq, Repr

/-- The wording of each flaw. -/
def Utf8Flaw.reason : Utf8Flaw → String
  | start => "invalid start byte"
  | continuation => "invalid continuation byte"
  | truncated => "unexpected end of data"

/-- The message about the bytes: a single byte is shown, several are located. -/
def Utf8Error.message (error : Utf8Error) : Text :=
  let place :=
    if error.length = 1 then
      "byte 0x" ++ hexadecimal 2 error.first.toNat ++ " in position "
        ++ (toString error.position).toList
    else
      "bytes in position " ++ (toString error.position).toList ++ ['-']
        ++ (toString (error.position + error.length - 1)).toList
  "'utf-8' codec can't decode " ++ place ++ ": " ++ error.flaw.reason.toList

/-- A byte that continues a character. -/
def isContinuation (byte : UInt8) : Bool :=
  0x80 ≤ byte && byte ≤ 0xBF

/-- The second byte of a character of three bytes: some spellings after the first byte would be
too long or a surrogate. -/
def secondOfThree (first second : UInt8) : Bool :=
  isContinuation second && !(first == 0xE0 && second < 0xA0) && !(first == 0xED && second ≥ 0xA0)

/-- The second byte of a character of four bytes: some spellings after the first byte would be too
long or beyond the last code point. -/
def secondOfFour (first second : UInt8) : Bool :=
  isContinuation second && !(first == 0xF0 && second < 0x90) && !(first == 0xF4 && second ≥ 0x90)

/-- The low six bits that a continuation byte carries. -/
def payload (byte : UInt8) : Nat :=
  byte.toNat % 0x40

/-- Reads the bytes from `position` on, after the characters in `before`, the last one first. -/
def ofUtf8From (position : Nat) (before : Text) : List UInt8 → Except Utf8Error Text
  | [] => .ok before.reverse
  | first :: rest =>
      let refuse (length : Nat) (flaw : Utf8Flaw) : Except Utf8Error Text :=
        .error { position, first, length, flaw }
      if first < 0x80 then
        ofUtf8From (position + 1) (Char.ofNat first.toNat :: before) rest
      else if first < 0xC2 then refuse 1 .start
      else if first < 0xE0 then
        match rest with
        | [] => refuse 1 .truncated
        | second :: rest =>
            if isContinuation second then
              let code := first.toNat % 0x20 * 0x40 + payload second
              ofUtf8From (position + 2) (Char.ofNat code :: before) rest
            else refuse 1 .continuation
      else if first < 0xF0 then
        match rest with
        | [] => refuse 1 .truncated
        | second :: rest =>
            if secondOfThree first second then
              match rest with
              | [] => refuse 2 .truncated
              | third :: rest =>
                  if isContinuation third then
                    let code := first.toNat % 0x10 * 0x1000 + payload second * 0x40 + payload third
                    ofUtf8From (position + 3) (Char.ofNat code :: before) rest
                  else refuse 2 .continuation
            else refuse 1 .continuation
      else if first < 0xF5 then
        match rest with
        | [] => refuse 1 .truncated
        | second :: rest =>
            if secondOfFour first second then
              match rest with
              | [] => refuse 2 .truncated
              | third :: rest =>
                  if isContinuation third then
                    match rest with
                    | [] => refuse 3 .truncated
                    | fourth :: rest =>
                        if isContinuation fourth then
                          let code := first.toNat % 0x08 * 0x40000 + payload second * 0x1000
                            + payload third * 0x40 + payload fourth
                          ofUtf8From (position + 4) (Char.ofNat code :: before) rest
                        else refuse 3 .continuation
                  else refuse 2 .continuation
            else refuse 1 .continuation
      else refuse 1 .start

/-- The text that the bytes spell. -/
def ofUtf8 (bytes : List UInt8) : Except Utf8Error Text :=
  ofUtf8From 0 [] bytes

/-- The bytes of one character. -/
def utf8Char (character : Char) : List UInt8 :=
  let code := character.toNat
  let continuing (value : Nat) : UInt8 := UInt8.ofNat (0x80 + value % 0x40)
  if code < 0x80 then [UInt8.ofNat code]
  else if code < 0x800 then [UInt8.ofNat (0xC0 + code / 0x40), continuing code]
  else if code < 0x10000 then
    [UInt8.ofNat (0xE0 + code / 0x1000), continuing (code / 0x40), continuing code]
  else
    [UInt8.ofNat (0xF0 + code / 0x40000), continuing (code / 0x1000), continuing (code / 0x40),
      continuing code]

/-- The bytes that spell a text. -/
def toUtf8 (text : Text) : List UInt8 :=
  text.flatMap utf8Char

/-- Every line end becomes a line feed, whether it is a carriage return, a line feed, or the one
followed by the other. `afterReturn` says that a carriage return has just been read. -/
def unifyLineEndsFrom (afterReturn : Bool) (before : Text) : Text → Text
  | [] => before.reverse
  | character :: rest =>
      if character = '\n' then
        unifyLineEndsFrom false (if afterReturn then before else '\n' :: before) rest
      else if character = '\r' then unifyLineEndsFrom true ('\n' :: before) rest
      else unifyLineEndsFrom false (character :: before) rest

/-- The text with line feeds for all its line ends. -/
def unifyLineEnds (text : Text) : Text :=
  unifyLineEndsFrom false [] text

end DiagramSketch.Text
