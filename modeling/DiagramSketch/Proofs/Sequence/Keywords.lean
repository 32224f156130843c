import DiagramSketch.Font.Bundled
import DiagramSketch.Proofs.Kind.Boundaries
import DiagramSketch.Proofs.Sequence.Source
import DiagramSketch.Proofs.Text.Words
import DiagramSketch.Render

/-!
# Keywords of declarations

The reader of sequences takes six keywords for the same.  The kind of a source is decided before,
by tokens, and one of the keywords is a token for use cases.  The other five are interchangeable:
where the names have no tokens, the source is a sequence, and its document does not depend on which
of the five its declarations begin with.
-/

namespace DiagramSketch

open Text (IsName IsGap IsSeparator IsLetters)

namespace Sequence

/-- How a line is worded that declares a participant, or tells an interaction without a message. -/
inductive Wording where
  | declaration (keyword gap name : Text)
  | interaction (source before arrow after target : Text)

namespace Wording

/-- The word that a line begins with. -/
def first : Wording → Text
  | declaration keyword _ _ => keyword
  | interaction source _ _ _ _ => source

/-- What stands between the words of a line. -/
def middle : Wording → Text
  | declaration _ gap _ => gap
  | interaction _ before arrow after _ => before ++ (arrow ++ after)

/-- The word that a line ends with. -/
def last : Wording → Text
  | declaration _ _ name => name
  | interaction _ _ _ _ target => target

/-- The line. -/
def text (wording : Wording) : Text :=
  wording.first ++ (wording.middle ++ wording.last)

/-- What the line is read as. -/
def line : Wording → Line
  | declaration _ _ name => .declaration name
  | interaction source _ arrow _ target => .interaction { source, target, arrow, message := [] }

/-- The keyword of a declaration. -/
def keyword? : Wording → Option Text
  | declaration keyword _ _ => some keyword
  | interaction _ _ _ _ _ => none

/-- The wording without its keyword. -/
def bare : Wording → Wording
  | declaration _ gap name => declaration [] gap name
  | interaction source before arrow after target => interaction source before arrow after target

/-- A wording that the reader takes. -/
inductive IsReadable : Wording → Prop where
  | declaration {keyword gap name : Text} (listed : keyword ∈ declarationKeywords)
      (filled : gap ≠ []) (blank : IsGap gap) (named : IsName name) :
      IsReadable (declaration keyword gap name)
  | interaction {source before arrow after target : Text} (first : IsName source)
      (blank : IsGap before) (listed : arrow ∈ arrows) (blankToo : IsGap after)
      (second : IsName target) : IsReadable (interaction source before arrow after target)

variable {wording : Wording}

theorem IsReadable.read? (readable : wording.IsReadable) :
    Line.read? wording.text = some wording.line := by
  cases readable with
  | declaration listed filled blank named =>
      rw [Line.read?, text, first, middle, last, declared?_append listed filled blank named]
      rfl
  | @interaction source before arrow after target first blank listed blankToo second =>
      have told := interaction?_append first blank listed blankToo second Text.endsName_nil
        (rfl : message? [] = some [])
      rw [List.append_nil] at told
      have spelled : (Wording.interaction source before arrow after target).text =
          source ++ (before ++ (arrow ++ (after ++ target))) := by
        simp [text, Wording.first, middle, last]
      rw [spelled, Line.read?, declared?_of_arrow first blank listed, told]
      rfl

theorem IsReadable.isName_first (readable : wording.IsReadable) : IsName wording.first := by
  cases readable with
  | declaration listed => exact isName_of_mem_declarationKeywords listed
  | interaction first => exact first

theorem IsReadable.isName_last (readable : wording.IsReadable) : IsName wording.last := by
  cases readable with
  | declaration _ _ _ named => exact named
  | interaction _ _ _ _ second => exact second

/-- The characters of arrows. -/
def arrowSigns : List Char :=
  ['-', '<', '>']

/-- Between two words there are blanks and the characters of arrows. -/
theorem IsReadable.mem_middle (readable : wording.IsReadable) :
    ∀ character ∈ wording.middle, Text.isBlank character = true ∨ character ∈ arrowSigns := by
  have each : ∀ arrow ∈ arrows, arrow ⊆ arrowSigns := by decide
  intro character member
  cases readable with
  | declaration _ _ blank => exact .inl (blank character member)
  | interaction _ blank listed blankToo =>
      simp only [middle, List.mem_append] at member
      rcases member with inside | inside | inside
      · exact .inl (blank character inside)
      · exact .inr (each _ listed inside)
      · exact .inl (blankToo character inside)

theorem IsReadable.middle_ne_nil (readable : wording.IsReadable) : wording.middle ≠ [] := by
  cases readable with
  | declaration _ filled => exact filled
  | interaction _ _ listed =>
      simp only [middle, ne_eq, List.append_eq_nil_iff, not_and]
      exact fun _ none => absurd none (isSigned_arrow listed).filled

theorem IsReadable.isSeparator_middle (readable : wording.IsReadable) :
    IsSeparator wording.middle := by
  refine ⟨readable.middle_ne_nil, fun character member => ?_⟩
  rcases readable.mem_middle character member with blank | sign
  · exact Text.not_isWord_of_isBlank blank
  · have known : arrowSigns ⊆ Text.signs := by decide
    exact Text.not_isWord_sign (known sign)

/-- The name in a line that has a space right behind it. -/
def spacedName? : Wording → Option Text
  | declaration _ _ _ => none
  | interaction source before _ _ _ => if before.head? = some ' ' then some source else none

end Wording

/-! ## Lines side by side -/

/-- The names that have a space right behind them when the lines stand side by side: those before a
gap that begins with a space, and those at the end of a line that is not the last one. -/
def spacedNames (wordings : List Wording) : List Text :=
  wordings.filterMap Wording.spacedName? ++ wordings.dropLast.map Wording.last

/-- The words of lines side by side, after the first word, each with the gap before it. -/
def pieces (wording : Wording) (others : List Wording) : List (Text × Text) :=
  (wording.middle, wording.last) ::
    others.flatMap fun other => [([' '], other.first), (other.middle, other.last)]

variable {wording : Wording} {wordings others : List Wording}

theorem isSeparator_of_mem_pieces
    (readable : ∀ other ∈ wording :: others, other.IsReadable) :
    ∀ piece ∈ pieces wording others, IsSeparator piece.1 := by
  obtain ⟨own, later⟩ := List.forall_mem_cons.mp readable
  refine List.forall_mem_cons.mpr ⟨own.isSeparator_middle, List.forall_mem_flatMap.mpr ?_⟩
  intro other member
  have space : IsSeparator [' '] := ⟨List.cons_ne_nil _ _,
    List.forall_mem_singleton.mpr (Text.not_isWord_of_isBlank rfl)⟩
  simp [space, (later other member).isSeparator_middle]

/-- Every word of the lines is one that a line begins or ends with. -/
theorem mem_words_iff {word : Text} :
    word ∈ wording.first :: (pieces wording others).map Prod.snd ↔
      ∃ other ∈ wording :: others, word = other.first ∨ word = other.last := by
  simp [pieces, List.map_flatMap, or_assoc]

/-- The lines side by side are a row of words. -/
theorem intercalate_text (wording : Wording) (others : List Wording) :
    List.intercalate [' '] ((wording :: others).map Wording.text) =
      Text.row wording.first (pieces wording others) := by
  induction others generalizing wording with
  | nil => simp [Wording.text, pieces, Text.row]
  | cons next others induction =>
      have rest := induction next
      simp only [List.map_cons] at rest ⊢
      rw [List.intercalate_cons_cons, rest]
      simp [Wording.text, pieces, Text.row]

theorem Wording.IsReadable.spacedName?_eq (readable : wording.IsReadable)
    (space : wording.middle.head? = some ' ') :
    wording.spacedName? = some wording.first ∨ wording.first ∈ declarationKeywords := by
  cases readable with
  | declaration listed => exact .inr listed
  | @interaction source before arrow after target _ _ listed =>
      left
      cases before with
      | nil =>
          obtain ⟨sign, more, same⟩ := List.exists_cons_of_ne_nil (isSigned_arrow listed).filled
          have member := (isSigned_arrow listed).signs sign (by simp [same])
          rw [Wording.middle, same] at space
          cases space
          exact absurd member (by decide)
      | cons next before =>
          cases space
          rfl

theorem spacedNames_cons (next : Wording) (others : List Wording) (wording : Wording) :
    spacedNames (next :: others) ⊆ spacedNames (wording :: next :: others) := by
  intro name member
  simp only [spacedNames, List.mem_append, List.dropLast_cons_cons, List.map_cons,
    List.mem_cons] at member ⊢
  rcases member with inside | ends
  · left
    obtain ⟨other, listed, spaced⟩ := List.mem_filterMap.mp inside
    exact List.mem_filterMap.mpr ⟨other, List.mem_cons_of_mem _ listed, spaced⟩
  · exact .inr (.inr ends)

theorem spaced_pieces_cons (next : Wording) (others : List Wording) :
    Text.spaced wording.first (pieces wording (next :: others)) =
      Text.spaced wording.first (pieces wording []) ++
        wording.last :: Text.spaced next.first (pieces next others) := by
  simp [pieces, Text.spaced]

/-- What has a space behind it is the keyword of a line, or one of the names that have. -/
theorem mem_spaced (readable : ∀ other ∈ wording :: others, other.IsReadable) :
    ∀ word ∈ Text.spaced wording.first (pieces wording others),
      word ∈ spacedNames (wording :: others) ∨ word ∈ declarationKeywords := by
  have within : ∀ wording : Wording, wording.IsReadable → ∀ others,
      ∀ word ∈ Text.spaced wording.first (pieces wording []),
        word ∈ spacedNames (wording :: others) ∨ word ∈ declarationKeywords := by
    intro wording readable others word member
    simp only [pieces, List.flatMap_nil, Text.spaced, List.append_nil] at member
    split at member
    · next space =>
        obtain rfl := List.mem_singleton.mp member
        refine (readable.spacedName?_eq space).imp_left fun spaced => ?_
        exact List.mem_append_left _ (List.mem_filterMap.mpr ⟨_, List.mem_cons_self, spaced⟩)
    · cases member
  induction others generalizing wording with
  | nil => exact within wording (readable wording List.mem_cons_self) []
  | cons next others induction =>
      intro word member
      rw [spaced_pieces_cons, List.mem_append, List.mem_cons] at member
      rcases member with inside | rfl | later
      · exact within wording (readable wording List.mem_cons_self) _ word inside
      · exact .inl (List.mem_append_right _ (by simp))
      · have rest := induction (fun other member => readable other (List.mem_cons_of_mem _ member))
          word later
        exact rest.imp_left fun known => spacedNames_cons next others wording known

/-! ## The kind of the lines -/

/-- The tokens of all rules. -/
def tokens : List Text :=
  Kind.ruled.flatMap fun kind => kind.tokens.flatten

/-- Lines that declare participants and tell one interaction at least, with names that have no
tokens, and none that ends in the word of a class before a space. -/
structure IsScript (wordings : List Wording) : Prop where
  readable : ∀ wording ∈ wordings, wording.IsReadable
  told : ∃ wording ∈ wordings, ∃ told, wording.line = .interaction told
  tokenless : ∀ wording ∈ wordings, ∀ name ∈ wording.line.participants,
    ∀ token ∈ tokens, ¬ token <:+: Text.lowered name
  classless : ∀ name ∈ spacedNames wordings, ¬ "class" <:+ Text.lowered name

/-- The lines, side by side and in lower case. -/
def code (wordings : List Wording) : Text :=
  Kind.codeOf (wordings.map Wording.text)

theorem IsScript.exists_cons (script : IsScript wordings) :
    ∃ wording others, wordings = wording :: others := by
  obtain ⟨wording, member, -⟩ := script.told
  exact List.exists_cons_of_ne_nil (List.ne_nil_of_mem member)

/-- A token of letters is in the lines if it is in a word of a line. -/
theorem IsScript.isInfix_code_iff (script : IsScript wordings) {token : Text}
    (letters : IsLetters token) :
    token <:+: code wordings ↔ ∃ wording ∈ wordings,
      token <:+: Text.lowered wording.first ∨ token <:+: Text.lowered wording.last := by
  obtain ⟨wording, others, rfl⟩ := script.exists_cons
  rw [code, Kind.codeOf, intercalate_text,
    letters.isInfix_lowered_row_iff (isSeparator_of_mem_pieces script.readable)]
  simp only [mem_words_iff]
  constructor
  · rintro ⟨word, ⟨other, listed, rfl | rfl⟩, inside⟩
    · exact ⟨other, listed, .inl inside⟩
    · exact ⟨other, listed, .inr inside⟩
  · rintro ⟨other, listed, inside | inside⟩
    · exact ⟨_, ⟨other, listed, .inl rfl⟩, inside⟩
    · exact ⟨_, ⟨other, listed, .inr rfl⟩, inside⟩

theorem IsScript.isName_of_mem_words (script : IsScript (wording :: others)) :
    ∀ word ∈ wording.first :: (pieces wording others).map Prod.snd, IsName word := by
  intro word member
  obtain ⟨other, listed, rfl | rfl⟩ := mem_words_iff.mp member
  · exact (script.readable other listed).isName_first
  · exact (script.readable other listed).isName_last

/-- The word of a class has no space behind it anywhere. -/
theorem IsScript.not_isInfix_class (script : IsScript wordings) :
    ¬ "class " <:+: code wordings := by
  have letters : IsLetters "class" := Text.isLetters_of_all (by decide) (by decide)
  have space : Text.isWord ' ' = false := Text.not_isWord_of_isBlank rfl
  obtain ⟨wording, others, rfl⟩ := script.exists_cons
  intro inside
  rw [code, Kind.codeOf, intercalate_text] at inside
  obtain ⟨word, spaced, ends⟩ := letters.exists_of_isInfix_lowered_row
    (isSeparator_of_mem_pieces script.readable)
    (fun word member inWord => Bool.noConfusion
      (((script.isName_of_mem_words word member).solid ' ' inWord).symm.trans space)) inside
  rcases mem_spaced script.readable word spaced with known | keyword
  · exact script.classless word known ends
  · have none : ∀ keyword ∈ declarationKeywords, ¬ "class" <:+ Text.lowered keyword := by decide
    exact none word keyword ends

/-- The signs of tokens that are in no line. -/
def foreignSigns : List Char :=
  ['@', '[', '|', '(']

/-- A foreign sign is in no word and no gap, and nothing becomes one in lower case. -/
theorem plain_of_mem_foreignSigns {sign : Char} (foreign : sign ∈ foreignSigns) :
    Text.isWord sign = false ∧ Text.isBlank sign = false ∧ sign ∉ Wording.arrowSigns ∧
      sign.isLower = false ∧ sign ≠ '\u0307' := by
  have wordless : foreignSigns.all (fun sign => !Text.isWord sign) = true := by decide +kernel
  refine ⟨by simpa using List.all_eq_true.mp wordless sign foreign, ?_⟩
  simp only [foreignSigns, List.mem_cons, List.not_mem_nil, or_false] at foreign
  rcases foreign with rfl | rfl | rfl | rfl
  all_goals decide

theorem IsScript.not_mem_code (script : IsScript wordings) {sign : Char}
    (foreign : sign ∈ foreignSigns) : sign ∉ code wordings := by
  obtain ⟨wordless, solid, arrowless, other, dotless⟩ := plain_of_mem_foreignSigns foreign
  have spaceless : ' ' ∉ [sign] := by
    intro space
    rw [← List.mem_singleton.mp space] at solid
    cases solid
  intro member
  rw [code, Kind.codeOf_eq, ← List.singleton_infix_iff,
    Text.isInfix_intercalate_iff spaceless (List.cons_ne_nil _ _), List.map_map] at member
  obtain ⟨line, listed, inside⟩ := member
  obtain ⟨wording, own, rfl⟩ := List.mem_map.mp listed
  have readable := script.readable wording own
  have present :=
    Text.mem_of_mem_lowered ((List.singleton_infix_iff sign _).mp inside) other dotless
  rw [Wording.text, List.mem_append, List.mem_append] at present
  rcases present with inFirst | inMiddle | inLast
  · exact Bool.noConfusion ((readable.isName_first.solid sign inFirst).symm.trans wordless)
  · rcases readable.mem_middle sign inMiddle with blank | arrow
    · exact Bool.noConfusion (blank.symm.trans solid)
    · exact arrowless arrow
  · exact Bool.noConfusion ((readable.isName_last.solid sign inLast).symm.trans wordless)

/-- The tokens of letters that keep a source from being a sequence. -/
def letterTokens : List Text :=
  ["actor", "usecase", "rectangle", "start", "endif"]

/-- No keyword is the one of an actor. -/
def IsActorless (wordings : List Wording) : Prop :=
  ∀ wording ∈ wordings, wording.keyword? ≠ some "actor"

theorem IsScript.not_isInfix_letterToken (script : IsScript wordings)
    (actorless : IsActorless wordings) {token : Text} (listed : token ∈ letterTokens) :
    ¬ token <:+: code wordings := by
  have letters : ∀ token ∈ letterTokens, token ≠ [] ∧ token.all Char.isLower = true := by decide
  have known : letterTokens ⊆ tokens := by decide
  have keywords : ∀ keyword ∈ declarationKeywords, keyword ≠ "actor" → ∀ token ∈ letterTokens,
      ¬ token <:+: Text.lowered keyword := by decide
  obtain ⟨filled, small⟩ := letters token listed
  rw [script.isInfix_code_iff (Text.isLetters_of_all filled small)]
  rintro ⟨wording, own, inside⟩
  have tokenless := script.tokenless wording own
  cases script.readable wording own with
  | @declaration keyword gap name keyed =>
      have other : keyword ≠ "actor" := fun same => actorless _ own (congrArg some same)
      rcases inside with inKeyword | inName
      · exact keywords keyword keyed other token listed inKeyword
      · exact tokenless name (by simp [Wording.line, Line.participants]) token (known listed) inName
  | @interaction source before arrow after target =>
      rcases inside with inSource | inTarget
      · exact tokenless source (by simp [Wording.line, Line.participants]) token (known listed)
          inSource
      · exact tokenless target (by simp [Wording.line, Line.participants]) token (known listed)
          inTarget

/-- Every group of tokens of these kinds has one that no script has. -/
theorem IsScript.shownBy_eq_false (script : IsScript wordings) {kind : Kind}
    (absent : List Text) (missing : ∀ token ∈ absent, ¬ token <:+: code wordings)
    (each : kind.tokens.all (fun group => group.any fun token =>
      absent.contains token || foreignSigns.any token.contains) = true) :
    kind.shownBy (code wordings) = false := by
  simp only [Kind.shownBy, List.any_eq_false, List.all_eq_true, not_forall]
  intro group listed
  obtain ⟨token, member, known⟩ := List.any_eq_true.mp (List.all_eq_true.mp each group listed)
  refine ⟨token, member, fun found => ?_⟩
  have inside := Text.occursIn_iff.mp found
  rcases Bool.or_eq_true_iff.mp known with listed | foreign
  · exact missing token (List.contains_iff_mem.mp listed) inside
  · obtain ⟨sign, foreign, within⟩ := List.any_eq_true.mp foreign
    exact script.not_mem_code foreign (inside.subset (List.contains_iff_mem.mp within))

/-- A script shows no kind that comes before use cases. -/
theorem IsScript.shownBy_eq_false_of_lt_useCase (script : IsScript wordings) {kind : Kind}
    (earlier : kind.rank < Kind.useCase.rank) : kind.shownBy (code wordings) = false := by
  apply script.shownBy_eq_false ["class "]
  · exact List.forall_mem_singleton.mpr script.not_isInfix_class
  · cases kind <;> first | decide | exact absurd earlier (by decide)

/-- Without the keyword of an actor, a script shows no kind that comes before sequences. -/
theorem IsScript.shownBy_eq_false_of_lt_sequence (script : IsScript wordings)
    (actorless : IsActorless wordings) {kind : Kind}
    (earlier : kind.rank < Kind.sequence.rank) : kind.shownBy (code wordings) = false := by
  by_cases before : kind.rank < Kind.useCase.rank
  · exact script.shownBy_eq_false_of_lt_useCase before
  · apply script.shownBy_eq_false letterTokens
    · exact fun token listed => script.not_isInfix_letterToken actorless listed
    · cases kind <;> first | decide | exact absurd earlier (by decide) |
        exact absurd (by decide) before

theorem IsScript.shownBy_sequence (script : IsScript wordings) :
    Kind.sequence.shownBy (code wordings) = true := by
  have each : ∀ arrow ∈ arrows, ("->" : Text) <:+: arrow ∨ ("<-" : Text) <:+: arrow := by decide
  obtain ⟨wording, own, told, same⟩ := script.told
  cases script.readable wording own with
  | declaration => cases same
  | @interaction source before arrow after target _ _ listed =>
      have inside : arrow <:+: (Wording.interaction source before arrow after target).text :=
        ⟨source ++ before, after ++ target, by simp [Wording.text, Wording.first, Wording.middle,
          Wording.last]⟩
      have member := List.mem_map_of_mem (f := Wording.text) own
      simp only [Kind.shownBy, Kind.tokens, List.any_cons, List.all_cons, List.all_nil,
        Bool.and_true, Bool.or_eq_true]
      rcases each arrow listed with right | left
      · exact .inl (Kind.occursIn_codeOf_of_mem member ((right.trans inside).flatMap
          Text.loweredChar))
      · exact .inr (.inl (Kind.occursIn_codeOf_of_mem member ((left.trans inside).flatMap
          Text.loweredChar)))

theorem shownBy_useCase (listed : wording ∈ wordings) (keyed : wording.keyword? = some "actor") :
    Kind.useCase.shownBy (code wordings) = true := by
  have inside : ("actor" : Text) <:+: wording.text := by
    cases wording with
    | declaration keyword gap name =>
        cases keyed
        exact (List.prefix_append _ _).isInfix
    | interaction => cases keyed
  have member := List.mem_map_of_mem (f := Wording.text) listed
  have found := Kind.occursIn_codeOf_of_mem member (inside.flatMap Text.loweredChar)
  simp only [Kind.shownBy, Kind.tokens, List.any_cons, List.all_cons, List.all_nil,
    Bool.and_true, Bool.or_eq_true]
  exact .inl found

/-! ## What the lines are read as -/

theorem ofLines_wordings (readable : ∀ wording ∈ wordings, wording.IsReadable) :
    ofLines (wordings.map Wording.text) =
      { participants := ((wordings.map Wording.line).flatMap Line.participants).eraseDups
        interactions := (wordings.map Wording.line).flatMap Line.interactions } := by
  have mark : Text.isWord '@' = false := by decide +kernel
  have content : Text.contentLines (wordings.map Wording.text) = wordings.map Wording.text := by
    refine Text.contentLines_eq_self (List.forall_mem_map.mpr fun wording member => ?_)
    have first := (readable wording member).isName_first
    exact ⟨(first.startsSolid.append _).ne_nil, first.head?_append_ne mark _⟩
  have read : statements (wordings.map Wording.text) = wordings.map Wording.line := by
    rw [statements, content]
    exact filterMap_map_eq_map fun wording member => (readable wording member).read?
  rw [← read, ← participants_ofLines, ← interactions_ofLines]

theorem map_eq_map_of_bare {β : Type} (view : Wording → β)
    (blind : ∀ wording : Wording, view wording.bare = view wording)
    (same : others.map Wording.bare = wordings.map Wording.bare) :
    others.map view = wordings.map view := by
  have viewed := congrArg (List.map view) same
  simpa only [List.map_map, Function.comp_def, blind] using viewed

theorem map_line_eq (same : others.map Wording.bare = wordings.map Wording.bare) :
    others.map Wording.line = wordings.map Wording.line :=
  map_eq_map_of_bare Wording.line (fun wording => by cases wording <;> rfl) same

/-- Lines that differ from a script in their keywords only are a script. -/
theorem IsScript.of_bare (script : IsScript wordings)
    (same : others.map Wording.bare = wordings.map Wording.bare)
    (readable : ∀ other ∈ others, other.IsReadable) : IsScript others := by
  have lines := map_line_eq same
  have partner : ∀ other ∈ others, ∃ wording ∈ wordings, wording.line = other.line := by
    intro other member
    have listed := List.mem_map_of_mem (f := Wording.line) member
    rw [lines] at listed
    exact List.mem_map.mp listed
  constructor
  case readable => exact readable
  case told =>
    obtain ⟨wording, member, told, reads⟩ := script.told
    have listed := List.mem_map_of_mem (f := Wording.line) member
    rw [← lines] at listed
    obtain ⟨other, own, agrees⟩ := List.mem_map.mp listed
    exact ⟨other, own, told, agrees.trans reads⟩
  case tokenless =>
    intro other member name mentioned
    obtain ⟨wording, own, agrees⟩ := partner other member
    exact script.tokenless wording own name (agrees ▸ mentioned)
  case classless =>
    have spaced : spacedNames others = spacedNames wordings := by
      have inner := congrArg (List.filterMap id) (map_eq_map_of_bare Wording.spacedName?
        (fun wording => by cases wording <;> rfl) same)
      have ends := congrArg List.dropLast (map_eq_map_of_bare Wording.last
        (fun wording => by cases wording <;> rfl) same)
      rw [List.filterMap_map, List.filterMap_map, Function.id_comp] at inner
      rw [spacedNames, spacedNames, inner, List.map_dropLast, List.map_dropLast, ends]
    rw [spaced]
    exact script.classless

/-- Whatever keywords a script has besides the one of an actor, it is read as a sequence of all that
its lines mention, and its document is the same for other such keywords.  In particular participants
that are declared before all interactions come first.  With the keyword of an actor among its
keywords, a script is of another kind. -/
theorem keywords_interchangeable (wordings : List Wording) (script : IsScript wordings)
    (source : Text) (written : Text.sourceLines source = wordings.map Wording.text) :
    (IsActorless wordings →
      Diagram.ofLines (Text.sourceLines source) = .ok (.sequence
        { participants := ((wordings.map Wording.line).flatMap Line.participants).eraseDups
          interactions := (wordings.map Wording.line).flatMap Line.interactions }) ∧
      (∀ (declared : List Text) (told : List Interaction), wordings.map Wording.line =
          declared.map Line.declaration ++ told.map Line.interaction →
        ((wordings.map Wording.line).flatMap Line.participants).eraseDups = declared.eraseDups ++
          ((told.flatMap fun told => [told.source, told.target]).removeAll declared).eraseDups) ∧
      ∀ (others : List Wording) (otherSource : Text),
        others.map Wording.bare = wordings.map Wording.bare →
        (∀ other ∈ others, other.IsReadable) → IsActorless others →
        Text.sourceLines otherSource = others.map Wording.text →
        ∀ font, render font otherSource = render font source) ∧
    (¬ IsActorless wordings → Kind.classify (Text.sourceLines source) = .useCase) := by
  have read : ∀ wordings : List Wording, IsScript wordings → IsActorless wordings →
      Diagram.ofLines (wordings.map Wording.text) = .ok (.sequence
        { participants := ((wordings.map Wording.line).flatMap Line.participants).eraseDups
          interactions := (wordings.map Wording.line).flatMap Line.interactions }) := by
    intro wordings script actorless
    have kind : Kind.classify (wordings.map Wording.text) = .sequence :=
      Kind.classify_eq_of_shownBy (by decide) script.shownBy_sequence fun earlier before =>
        script.shownBy_eq_false_of_lt_sequence actorless before
    rw [Diagram.ofLines, kind, Diagram.read, ofLines_wordings script.readable]
  rw [written]
  refine ⟨fun actorless => ⟨read wordings script actorless, ?_, ?_⟩, ?_⟩
  · intro declared told lines
    have each : declared.flatMap (fun name => (Line.declaration name).participants) = declared :=
      List.flatMap_singleton' declared
    rw [lines, List.flatMap_append, List.flatMap_map, List.flatMap_map, List.eraseDups_append, each]
    rfl
  · intro others otherSource same readable actorlessToo writtenToo font
    have kept := script.of_bare same readable
    rw [render_eq, render_eq, written, writtenToo, read others kept actorlessToo,
      read wordings script actorless, map_line_eq same]
  · intro keyed
    simp only [IsActorless, not_forall, not_not] at keyed
    obtain ⟨wording, listed, actor⟩ := keyed
    exact Kind.classify_eq_of_shownBy (by decide) (shownBy_useCase listed actor)
      fun earlier before => script.shownBy_eq_false_of_lt_useCase before

/-- Two declarations and an interaction, with two of the keywords. -/
def sampleWordings (first second : Text) : List Wording :=
  [.declaration first " " "web", .declaration second " " "cache",
   .interaction "cache" " " "->" " " "web"]

theorem isReadable_sampleWordings {first second : Text} (listed : first ∈ declarationKeywords)
    (listedToo : second ∈ declarationKeywords) :
    ∀ wording ∈ sampleWordings first second, wording.IsReadable := by
  have web : IsName "web" := Text.isName_of_isLower (by decide) (by decide)
  have cache : IsName "cache" := Text.isName_of_isLower (by decide) (by decide)
  have space : ([' '] : Text) ≠ [] := List.cons_ne_nil _ _
  have arrow : "->".toList ∈ arrows := by decide
  refine List.forall_mem_cons.mpr ⟨.declaration listed space Text.isGap_space web, ?_⟩
  refine List.forall_mem_cons.mpr ⟨.declaration listedToo space Text.isGap_space cache, ?_⟩
  exact List.forall_mem_singleton.mpr
    (.interaction cache Text.isGap_space arrow Text.isGap_space web)

/-- A database and a control are drawn as two participants are. -/
theorem keywords_interchangeable_database_control :
    let wordings := sampleWordings "database" "control"
    let source : Text := "database web\ncontrol cache\ncache -> web"
    IsScript wordings ∧ Text.sourceLines source = wordings.map Wording.text ∧
      Diagram.ofLines (Text.sourceLines source) = .ok (.sequence
        { participants := ["web", "cache"]
          interactions :=
            [{ source := "cache", target := "web", arrow := "->", message := [] }] }) ∧
      render .bundled "participant web\nparticipant cache\ncache -> web" =
        render .bundled source := by
  intro wordings source
  have free : (["web", "cache"] : List Text).all (fun name => tokens.all fun token =>
      !Text.occursIn token (Text.lowered name)) = true := by decide
  have named : ∀ wording ∈ wordings, ∀ name ∈ wording.line.participants,
      name ∈ (["web", "cache"] : List Text) := by decide
  have script : IsScript wordings := by
    constructor
    case readable => exact isReadable_sampleWordings (by decide) (by decide)
    case told =>
      exact ⟨_, List.mem_cons_of_mem _ (List.mem_cons_of_mem _ List.mem_cons_self), _, rfl⟩
    case tokenless =>
      intro wording own name mentioned token listed inside
      have absent := List.all_eq_true.mp (List.all_eq_true.mp free name
        (named wording own name mentioned)) token listed
      rw [Text.occursIn_iff.mpr inside] at absent
      cases absent
    case classless => decide
  have written : Text.sourceLines source = wordings.map Wording.text := by decide
  have written' : Text.sourceLines "participant web\nparticipant cache\ncache -> web" =
      (sampleWordings "participant" "participant").map Wording.text := by decide
  obtain ⟨read, -, same⟩ :=
    (keywords_interchangeable wordings script source written).1 (by unfold IsActorless; decide)
  exact ⟨script, written, read, same (sampleWordings "participant" "participant") _ rfl
    (isReadable_sampleWordings (by decide) (by decide)) (by unfold IsActorless; decide) written'
      .bundled⟩

/-- A declared actor makes a use case of a source, and so does the word of a class at the end of a
name make it a class model.  A name that is declared after it was told keeps its place. -/
theorem not_interchangeable_actor :
    Kind.classify (Text.sourceLines "participant A\nA -> B") = .sequence ∧
      (Diagram.ofLines (Text.sourceLines "actor A\nA -> B")).map Diagram.kind = .ok .useCase ∧
      render .bundled "actor A\nA -> B" ≠ render .bundled "participant A\nA -> B" ∧
      Kind.classify (Text.sourceLines "participant Subclass\nSubclass -> B") = .classes ∧
      (ofLines (Text.sourceLines "A -> B\nparticipant C\nparticipant B")).participants =
        ["A", "B", "C"] := by
  decide +kernel

end Sequence

end DiagramSketch
