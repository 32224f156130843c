import DiagramSketch.Components.Source
import DiagramSketch.Proofs.Text.Sources

/-!
# Manuscripts of components

Packages with their components, components on their own and connections are written down line by
line, and every line is read as what was written down in it, whatever names and labels are like.
-/

namespace DiagramSketch.Components

open Text (IsName IsLine IsUnbroken EndsName EndsGap)

/-! ## Writing -/

/-- A component as it is declared: its name, and the alias that is given. -/
structure Entry where
  name : Text
  given : Option Text
deriving DecidableEq, Repr

structure Block where
  title : Text
  entries : List Entry
deriving DecidableEq, Repr

/-- An end of a connection: a name in brackets, or a word. -/
inductive Mention where
  | bracketed (name : Text)
  | word (name : Text)
deriving DecidableEq, Repr

/-- A connection as it is written. A label that is empty is left out. -/
structure Link where
  source : Mention
  arrow : Text
  target : Mention
  label : Text
deriving DecidableEq, Repr

structure Manuscript where
  blocks : List Block
  standalone : List Entry
  links : List Link
deriving DecidableEq, Repr

/-- What stands behind the name of a component. -/
def aliasSuffix : Option Text → Text
  | none => []
  | some chosen => ' ' :: ("as" ++ ' ' :: chosen)

/-- The line that declares a component. -/
def Entry.text (entry : Entry) : Text :=
  '[' :: (entry.name ++ ']' :: aliasSuffix entry.given)

def openingText (title : Text) : Text :=
  "package" ++ ' ' :: '"' :: (title ++ '"' :: ' ' :: ['\x7b'])

def Block.lines (block : Block) : List Text :=
  openingText block.title :: (block.entries.map Entry.text ++ [['\x7d']])

def Mention.name : Mention → Text
  | .bracketed name => name
  | .word name => name

def Mention.text : Mention → Text
  | .bracketed name => '[' :: (name ++ [']'])
  | .word name => name

/-- What stands behind the ends of a connection. -/
def labelSuffix (label : Text) : Text :=
  Text.marked [' ', ':', ' '] label

def Link.text (link : Link) : Text :=
  link.source.text ++ ' ' ::
    (link.arrow ++ ' ' :: (link.target.text ++ labelSuffix link.label))

namespace Manuscript

def lines (manuscript : Manuscript) : List Text :=
  manuscript.blocks.flatMap Block.lines ++ manuscript.standalone.map Entry.text ++
    manuscript.links.map Link.text

def source (manuscript : Manuscript) : Text :=
  List.intercalate ['\n'] manuscript.lines

/-- All components of a manuscript, in order. -/
def entries (manuscript : Manuscript) : List Entry :=
  manuscript.blocks.flatMap Block.entries ++ manuscript.standalone

end Manuscript

/-- The connection that is recorded for what is written. -/
def Link.recorded (link : Link) : Connection :=
  { source := withoutBrackets link.source.text, arrow := link.arrow,
    target := withoutBrackets link.target.text, label := link.label }

/-- The connection that is written. -/
def Link.read (link : Link) : Connection :=
  { source := link.source.name, arrow := link.arrow, target := link.target.name,
    label := link.label }

/-! ## What can be written -/

/-- A name that can stand in brackets. -/
structure IsBracketable (name : Text) : Prop where
  filled : name ≠ []
  plain : ∀ character ∈ name, isBracket character = false
  unbroken : IsUnbroken name

/-- A text in brackets that is read as a whole. It may have other brackets that open. -/
structure IsEnclosable (name : Text) : Prop where
  filled : name ≠ []
  plain : ']' ∉ name

/-- A component that is read from its line as it is declared there. -/
structure Entry.IsReadable (entry : Entry) : Prop where
  name : IsEnclosable entry.name
  given : ∀ chosen ∈ entry.given, IsName chosen

/-- A component that can be declared. Its alias is a word. -/
structure Entry.IsWritable (entry : Entry) : Prop where
  name : IsBracketable entry.name
  given : ∀ chosen ∈ entry.given, IsName chosen

structure Block.IsWritable (block : Block) : Prop where
  filled : block.title ≠ []
  plain : '"' ∉ block.title
  unbroken : IsUnbroken block.title
  entries : ∀ entry ∈ block.entries, entry.IsWritable

/-- An end of a connection that is read as a whole. -/
def Mention.IsReadable : Mention → Prop
  | .bracketed name => IsEnclosable name
  | .word name => IsName name

def Mention.IsWritable : Mention → Prop
  | .bracketed name => IsBracketable name
  | .word name => IsName name

/-- A connection that is read from its line, end by end. -/
structure Link.IsReadable (link : Link) : Prop where
  source : link.source.IsReadable
  arrow : link.arrow ∈ arrows
  target : link.target.IsReadable
  trimmed : Text.trim link.label = link.label
  unbroken : IsUnbroken link.label

structure Link.IsWritable (link : Link) : Prop where
  source : link.source.IsWritable
  arrow : link.arrow ∈ arrows
  target : link.target.IsWritable
  trimmed : Text.trim link.label = link.label
  unbroken : IsUnbroken link.label

/-- A manuscript whose parts can be written, and whose components have different names. -/
structure Manuscript.IsWritable (manuscript : Manuscript) : Prop where
  blocks : ∀ block ∈ manuscript.blocks, block.IsWritable
  standalone : ∀ entry ∈ manuscript.standalone, entry.IsWritable
  links : ∀ link ∈ manuscript.links, link.IsWritable
  distinct : (manuscript.entries.map Entry.name).Nodup

/-! ## Lines -/

variable {entry : Entry} {block : Block} {mention : Mention} {link : Link}

theorem IsBracketable.isEnclosable {name : Text} (writable : IsBracketable name) :
    IsEnclosable name := by
  refine ⟨writable.filled, fun member => ?_⟩
  cases writable.plain ']' member

theorem Entry.IsWritable.isReadable (writable : entry.IsWritable) : entry.IsReadable :=
  ⟨writable.name.isEnclosable, writable.given⟩

theorem Mention.isReadable_of_isWritable (writable : mention.IsWritable) : mention.IsReadable := by
  cases mention with
  | bracketed name => exact IsBracketable.isEnclosable writable
  | word name => exact writable

theorem Link.IsWritable.isReadable (writable : link.IsWritable) : link.IsReadable :=
  ⟨Mention.isReadable_of_isWritable writable.source, writable.arrow,
    Mention.isReadable_of_isWritable writable.target, writable.trimmed, writable.unbroken⟩

theorem isName_package : IsName "package" :=
  Text.isName_of_isLower (by decide) (by decide)

theorem isSigned_arrow {arrow : Text} (listed : arrow ∈ arrows) : Text.IsSigned arrow :=
  Text.isSigned_of_mem (by decide) listed

theorem anyOf?_arrow {arrow : Text} (listed : arrow ∈ arrows) (rest : Text) :
    Text.anyOf? arrows (arrow ++ ' ' :: rest) = some (arrow, ' ' :: rest) := by
  have own : ∀ arrow ∈ arrows, Text.anyOf? arrows arrow = some (arrow, []) := by decide
  exact Text.anyOf?_append_space (fun _ => isSigned_arrow) (own arrow listed) rest

theorem enclosed?_arrow {arrow : Text} (listed : arrow ∈ arrows) (rest : Text) :
    Text.enclosed? '"' '"' (arrow ++ rest) = none := by
  simp only [arrows, List.mem_cons, List.not_mem_nil, or_false] at listed
  rcases listed with rfl | rfl | rfl
  · rfl
  · rfl
  · rfl

/-- A line that begins with a bracket opens no package. -/
theorem package?_bracket (rest : Text) : package? ('[' :: rest) = none :=
  rfl

/-- A line with a space in it closes no package. -/
theorem ne_brace_of_space {line : Text} (space : ' ' ∈ line) : line ≠ ['\x7d'] := by
  rintro rfl
  cases List.mem_singleton.mp space

/-! ### Declarations of components -/

theorem isUnbroken_aliasSuffix {given : Option Text} (words : ∀ chosen ∈ given, IsName chosen) :
    IsUnbroken (aliasSuffix given) := by
  have space : Text.isLineBreak ' ' = false := by decide
  have keyword : IsName "as" := Text.isName_of_isLower (by decide) (by decide)
  cases given with
  | none => exact List.forall_mem_nil _
  | some chosen =>
      rw [aliasSuffix, Text.isUnbroken_cons, Text.isUnbroken_append, Text.isUnbroken_cons]
      exact ⟨space, keyword.isUnbroken, space, (words chosen rfl).isUnbroken⟩

theorem isLine_entry (writable : entry.IsWritable) : IsLine entry.text := by
  have bracket : Text.isBlank ']' = false := by decide
  have ends : Text.EndsSolid (']' :: aliasSuffix entry.given) := by
    cases given : entry.given with
    | none => exact Text.endsSolid_append_singleton [] bracket
    | some chosen =>
        have word := (writable.given chosen given).endsSolid
        exact ((word.append [' ']).append "as").append [']', ' ']
  constructor
  case starts => exact Text.startsSolid_cons (by decide) _
  case ends => exact (ends.append entry.name).append ['[']
  case unbroken =>
    rw [Entry.text, Text.isUnbroken_cons, Text.isUnbroken_append, Text.isUnbroken_cons]
    exact ⟨by decide, writable.name.unbroken, by decide, isUnbroken_aliasSuffix writable.given⟩

/-- The alias is read as it is given. -/
theorem givenAlias?_aliasSuffix {given : Option Text} (words : ∀ chosen ∈ given, IsName chosen) :
    givenAlias? (aliasSuffix given) = given := by
  cases given with
  | none => rfl
  | some chosen =>
      have word := words chosen rfl
      have keyword : IsName "as" := Text.isName_of_isLower (by decide) (by decide)
      have first : Text.blanks? (aliasSuffix (some chosen)) = some ("as" ++ ' ' :: chosen) :=
        Text.blanks?_space (keyword.endsGap_append _)
      have second : Text.blanks? (' ' :: chosen) = some chosen :=
        Text.blanks?_space word.startsSolid.endsGap
      rw [givenAlias?, first, Option.bind_eq_bind, Option.bind_some, Text.literal?_append,
        Option.bind_some, second, Option.bind_some, Text.word?_eq_self word]
      rfl

theorem enclosed?_entry (readable : entry.IsReadable) :
    Text.enclosed? '[' ']' entry.text = some (entry.name, aliasSuffix entry.given) :=
  Text.enclosed?_eq_some_iff.mpr ⟨readable.name.filled, readable.name.plain, rfl⟩

theorem component?_entry (readable : entry.IsReadable) :
    component? entry.text = some (entry.name, entry.given) := by
  have found : Text.firstEnclosed? '[' ']' entry.text =
      some (entry.name, aliasSuffix entry.given) := by
    rw [Entry.text, Text.firstEnclosed?, ← Entry.text, enclosed?_entry readable]
  have given := givenAlias?_aliasSuffix readable.given
  simp only [component?, found, Option.map_some, given]

/-- An alias is no arrow. -/
theorem connection?_entry (readable : entry.IsReadable) : connection? entry.text = none := by
  have keyword : IsName "as" := Text.isName_of_isLower (by decide) (by decide)
  have first : endpoint? entry.text =
      some ('[' :: (entry.name ++ [']']), aliasSuffix entry.given) := by
    rw [endpoint?, Entry.text, Text.word?_eq_none (Text.endsName_sign (by decide) _), ← Entry.text,
      enclosed?_entry readable]
    rfl
  have second : Text.anyOf? arrows (Text.dropBlanks (aliasSuffix entry.given)) = none := by
    cases entry.given with
    | none => rfl
    | some chosen =>
        rw [aliasSuffix, Text.dropBlanks_space (keyword.endsGap_append _)]
        rfl
  simp only [connection?, first, Option.bind_eq_bind, Option.bind_some, second, Option.bind_none]

theorem read?_entry (readable : entry.IsReadable) :
    Line.read? entry.text = some (.component entry.name entry.given) := by
  have other : entry.text ≠ ['\x7d'] := fun same => by cases same
  have unopened : package? entry.text = none := package?_bracket _
  rw [Line.read?, if_neg other, unopened, connection?_entry readable, component?_entry readable]
  rfl

/-! ### Packages -/

theorem isLine_opening (writable : block.IsWritable) : IsLine (openingText block.title) := by
  unfold openingText
  constructor
  case starts => exact isName_package.startsSolid.append _
  case ends =>
    have brace : Text.EndsSolid (['"', ' '] ++ ['\x7b']) :=
      Text.endsSolid_append_singleton ['"', ' '] (by decide)
    exact ((brace.append block.title).append [' ', '"']).append "package"
  case unbroken =>
    rw [Text.isUnbroken_append, Text.isUnbroken_cons, Text.isUnbroken_cons, Text.isUnbroken_append]
    exact ⟨isName_package.isUnbroken, by decide, by decide, writable.unbroken,
      Text.isUnbroken_of_all (by decide)⟩

theorem read?_opening (writable : block.IsWritable) :
    Line.read? (openingText block.title) = some (.package block.title) := by
  have other : openingText block.title ≠ ['\x7d'] :=
    ne_brace_of_space (List.mem_append_right "package".toList List.mem_cons_self)
  have blanks : Text.blanks? (' ' :: '"' :: (block.title ++ '"' :: ' ' :: ['\x7b'])) =
      some ('"' :: (block.title ++ '"' :: ' ' :: ['\x7b'])) :=
    Text.blanks?_space (Text.endsGap_sign (by decide) _)
  have quoted : Text.enclosed? '"' '"' ('"' :: (block.title ++ '"' :: ' ' :: ['\x7b'])) =
      some (block.title, ' ' :: ['\x7b']) :=
    Text.enclosed?_eq_some_iff.mpr ⟨writable.filled, writable.plain, rfl⟩
  have opened : package? (openingText block.title) = some block.title := by
    unfold package? openingText
    rw [Text.literal?_append, Option.bind_eq_bind, Option.bind_some, blanks, Option.bind_eq_bind,
      Option.bind_some, quoted]
    rfl
  rw [Line.read?, if_neg other, opened]

theorem isLine_closing : IsLine ['\x7d'] := by
  refine ⟨Text.startsSolid_cons (by decide) _, ?_, Text.isUnbroken_of_all (by decide)⟩
  exact Text.endsSolid_append_singleton [] (by decide)

/-! ### Connections -/

theorem not_isBracket_of_isWord {character : Char} (word : Text.isWord character = true) :
    isBracket character = false := by
  have each : ['[', ']'].all (fun sign => !Text.isWord sign) = true := by decide +kernel
  by_contra bracket
  have listed : character ∈ ['[', ']'] := by
    simpa [isBracket] using Bool.eq_true_of_not_eq_false bracket
  have other := List.all_eq_true.mp each character listed
  rw [word] at other
  cases other

/-- A text has no bracket at either end. -/
structure HasPlainEnds (text : Text) : Prop where
  first : ∀ character ∈ text.head?, isBracket character = false
  last : ∀ character ∈ text.getLast?, isBracket character = false

theorem hasPlainEnds_of_plain {name : Text}
    (plain : ∀ character ∈ name, isBracket character = false) : HasPlainEnds name :=
  ⟨fun character first => plain character (List.mem_of_mem_head? first),
    fun character last => plain character (List.mem_of_mem_getLast? last)⟩

/-- Brackets are taken off at both ends. -/
theorem withoutBrackets_append {before name after : Text}
    (opening : ∀ character ∈ before, isBracket character = true)
    (plain : HasPlainEnds name) (filled : name ≠ [])
    (closing : ∀ character ∈ after, isBracket character = true) :
    withoutBrackets (before ++ (name ++ after)) = name := by
  have starts : ∀ character ∈ (name ++ after).head?, isBracket character = false := by
    rw [List.head?_append_of_ne_nil _ filled]
    exact plain.first
  have ends : ∀ character ∈ name.reverse.head?, isBracket character = false := by
    rw [List.head?_reverse]
    exact plain.last
  have left := (splitWhile_append opening starts).2
  have right := (splitWhile_append
    (fun character member => closing character (List.mem_reverse.mp member)) ends).2
  rw [withoutBrackets, left, List.reverse_append, right, List.reverse_reverse]

theorem Mention.withoutBrackets_text (writable : mention.IsWritable) :
    withoutBrackets mention.text = mention.name := by
  cases mention with
  | bracketed name =>
      exact withoutBrackets_append (List.forall_mem_singleton.mpr rfl)
        (hasPlainEnds_of_plain writable.plain) writable.filled (List.forall_mem_singleton.mpr rfl)
  | word name =>
      have plain : HasPlainEnds name := hasPlainEnds_of_plain fun character member =>
        not_isBracket_of_isWord (writable.solid character member)
      have whole := withoutBrackets_append (List.forall_mem_nil _) plain writable.filled
        (List.forall_mem_nil _)
      rwa [List.append_nil] at whole

theorem Mention.endpoint?_text (readable : mention.IsReadable) {rest : Text}
    (ends : EndsName rest) : endpoint? (mention.text ++ rest) = some (mention.text, rest) := by
  cases mention with
  | bracketed name =>
      have inside : Text.enclosed? '[' ']' ('[' :: (name ++ ']' :: rest)) = some (name, rest) :=
        Text.enclosed?_eq_some_iff.mpr ⟨readable.filled, readable.plain, rfl⟩
      have whole : (Mention.bracketed name).text ++ rest = '[' :: (name ++ ']' :: rest) := by
        simp [Mention.text]
      rw [whole, endpoint?, Text.word?_eq_none (Text.endsName_sign (by decide) _), inside]
      rfl
  | word name =>
      rw [endpoint?, Mention.text, Text.word?_append readable ends]
      rfl

theorem endsName_labelSuffix (label : Text) : EndsName (labelSuffix label) := by
  unfold labelSuffix Text.marked
  split
  · exact Text.endsName_nil
  · exact Text.isGap_space.endsName_append (Text.endsName_sign (by decide) _)

theorem labelOf_labelSuffix {label : Text} (trimmed : Text.trim label = label)
    (unbroken : IsUnbroken label) : labelOf (labelSuffix label) = label := by
  unfold labelSuffix Text.marked
  split
  · next empty =>
      rw [List.isEmpty_iff.mp empty]
      rfl
  · have gap : Text.dropBlanks ([' ', ':', ' '] ++ label) = ':' :: ' ' :: label :=
      Text.dropBlanks_space (Text.endsGap_sign (by decide) _)
    have space : Text.dropBlanks (' ' :: label) = label :=
      Text.dropBlanks_space (Text.trim_eq_self_iff.mp trimmed).1
    have read : Text.trim (Text.upToLineFeed (Text.dropBlanks (' ' :: label))) = label := by
      rw [space, Text.upToLineFeed_eq_self unbroken, trimmed]
    rw [labelOf, gap]
    exact read

theorem Mention.endsGap_text (readable : mention.IsReadable) (rest : Text) :
    EndsGap (mention.text ++ rest) := by
  cases mention with
  | bracketed name => exact Text.endsGap_sign (by decide) _
  | word name => exact readable.endsGap_append rest

/-- A connection is read from its line, end by end. -/
theorem connection?_link (readable : link.IsReadable) :
    connection? link.text = some link.recorded := by
  let afterArrow : Text := ' ' :: (link.target.text ++ labelSuffix link.label)
  have signed := isSigned_arrow readable.arrow
  have source : endpoint? link.text = some (link.source.text, ' ' :: (link.arrow ++ afterArrow)) :=
    Mention.endpoint?_text readable.source
      (Text.isGap_space.endsName_append (signed.endsName_append _))
  have gap : Text.dropBlanks (' ' :: (link.arrow ++ afterArrow)) = link.arrow ++ afterArrow :=
    Text.dropBlanks_space (signed.endsGap_append _)
  have arrow : Text.anyOf? arrows (link.arrow ++ afterArrow) = some (link.arrow, afterArrow) :=
    anyOf?_arrow readable.arrow _
  have gapToo : Text.dropBlanks afterArrow = link.target.text ++ labelSuffix link.label :=
    Text.dropBlanks_space (Mention.endsGap_text readable.target _)
  have target : endpoint? (link.target.text ++ labelSuffix link.label) =
      some (link.target.text, labelSuffix link.label) :=
    Mention.endpoint?_text readable.target (endsName_labelSuffix _)
  have label := labelOf_labelSuffix readable.trimmed readable.unbroken
  simp only [connection?, source, gap, arrow, gapToo, target, label, Option.bind_eq_bind,
    Option.bind_some, Option.pure_def, Link.recorded]

/-- A connection opens no package, even where its source goes by the name of the keyword: an arrow
follows, and not a name. -/
theorem package?_link (readable : link.IsReadable) : package? link.text = none := by
  have signed := isSigned_arrow readable.arrow
  cases source : link.source with
  | bracketed name =>
      rw [Link.text, source]
      exact package?_bracket _
  | word name =>
      have named : (Mention.word name).IsReadable := source ▸ readable.source
      rw [Option.eq_none_iff_forall_ne_some]
      intro title read
      simp only [package?, Option.bind_eq_bind, Option.bind_eq_some_iff, Option.pure_def,
        Link.text, source] at read
      obtain ⟨left, first, after, blanks, found, either, -⟩ := read
      have next := Text.eq_append_of_literal?_of_blanks? isName_package named signed first blanks
      rw [next, enclosed?_arrow readable.arrow,
        Text.word?_eq_none (signed.endsName_append _)] at either
      cases either

theorem read?_recorded (readable : link.IsReadable) :
    Line.read? link.text = some (.connection link.recorded) := by
  have other : link.text ≠ ['\x7d'] :=
    ne_brace_of_space (List.mem_append_right link.source.text List.mem_cons_self)
  rw [Line.read?, if_neg other, package?_link readable, connection?_link readable]

/-- A connection that can be written is recorded as it is written. -/
theorem read?_link (writable : link.IsWritable) :
    Line.read? link.text = some (.connection link.read) := by
  rw [read?_recorded writable.isReadable, Link.recorded,
    Mention.withoutBrackets_text writable.source, Mention.withoutBrackets_text writable.target]
  rfl

theorem Mention.isUnbroken_text (writable : mention.IsWritable) : IsUnbroken mention.text := by
  cases mention with
  | bracketed name =>
      rw [Mention.text, Text.isUnbroken_cons, Text.isUnbroken_append]
      exact ⟨by decide, writable.unbroken, Text.isUnbroken_of_all (by decide)⟩
  | word name => exact IsName.isUnbroken writable

theorem Mention.startsSolid_text (writable : mention.IsWritable) :
    Text.StartsSolid mention.text := by
  cases mention with
  | bracketed name => exact Text.startsSolid_cons (by decide) _
  | word name => exact IsName.startsSolid writable

theorem Mention.head?_text_ne (readable : mention.IsReadable) (rest : Text) :
    (mention.text ++ rest).head? ≠ some '@' := by
  cases mention with
  | bracketed name => simp [Mention.text]
  | word name => exact IsName.head?_append_ne readable (by decide +kernel) rest

theorem Mention.endsSolid_text (writable : mention.IsWritable) : Text.EndsSolid mention.text := by
  cases mention with
  | bracketed name => exact (Text.endsSolid_append_singleton name (by decide)).append ['[']
  | word name => exact IsName.endsSolid writable

theorem isLine_link (writable : link.IsWritable) : IsLine link.text := by
  have space : Text.isLineBreak ' ' = false := by decide
  have ends : Text.EndsSolid (link.target.text ++ labelSuffix link.label) :=
    (Mention.endsSolid_text writable.target).append_marked writable.trimmed _
  have suffix : IsUnbroken (labelSuffix link.label) :=
    Text.isUnbroken_marked (Text.isUnbroken_of_all (by decide)) writable.unbroken
  constructor
  case starts => exact (Mention.startsSolid_text writable.source).append _
  case ends => exact (((ends.append [' ']).append link.arrow).append [' ']).append link.source.text
  case unbroken =>
    rw [Link.text, Text.isUnbroken_append, Text.isUnbroken_cons, Text.isUnbroken_append,
      Text.isUnbroken_cons, Text.isUnbroken_append]
    exact ⟨Mention.isUnbroken_text writable.source, space,
      (isSigned_arrow writable.arrow).isUnbroken, space, Mention.isUnbroken_text writable.target,
      suffix⟩

end DiagramSketch.Components
