import DiagramSketch.Proofs.Diagram.Distinct
import DiagramSketch.Proofs.Sequence.Drawing
import DiagramSketch.Proofs.Text.Sources

/-!
# Sources of sequences

A sequence is written as a source that declares every participant and then tells every interaction,
and this source is read as the sequence.  Whatever a source is, the interactions that are read from
it are between participants, so that all of them are drawn.
-/

namespace DiagramSketch

open Text (IsName IsLine IsUnbroken EndsName EndsGap)

/-- An interaction that can be told in a line. -/
structure Interaction.IsWritable (told : Interaction) : Prop where
  arrow : told.arrow ∈ Sequence.arrows
  trimmed : Text.trim told.message = told.message
  unbroken : IsUnbroken told.message

namespace Sequence

/-! ## Writing -/

/-- The line that declares a participant. -/
def participantLine (name : Text) : Text :=
  "participant" ++ ' ' :: name

/-- What is written behind the names of an interaction. An empty message is left out. -/
def messageSuffix (message : Text) : Text :=
  Text.marked [':', ' '] message

/-- The line that tells an interaction. -/
def interactionLine (told : Interaction) : Text :=
  told.source ++ ' ' :: (told.arrow ++ ' ' :: (told.target ++ messageSuffix told.message))

/-- The lines of a sequence: one for each participant, and then one for each interaction. -/
def lines (sequence : Sequence) : List Text :=
  sequence.participants.map participantLine ++ sequence.interactions.map interactionLine

/-- The source of a sequence. -/
def source (sequence : Sequence) : Text :=
  List.intercalate ['\n'] sequence.lines

/-- A sequence that can be written as a source. -/
structure IsWritable (sequence : Sequence) : Prop where
  distinct : sequence.participants.Nodup
  names : ∀ name ∈ sequence.participants, IsName name
  connects : ∀ told ∈ sequence.interactions,
    told.source ∈ sequence.participants ∧ told.target ∈ sequence.participants
  interactions : ∀ told ∈ sequence.interactions, told.IsWritable

variable {name : Text} {told : Interaction}

theorem isName_of_mem_declarationKeywords {keyword : Text}
    (listed : keyword ∈ declarationKeywords) : IsName keyword := by
  have filled : ∀ keyword ∈ declarationKeywords, keyword ≠ [] := by decide
  have lower : ∀ keyword ∈ declarationKeywords, keyword.all Char.isLower = true := by decide
  exact Text.isName_of_isLower (filled keyword listed) (lower keyword listed)

theorem endsName_messageSuffix (message : Text) : EndsName (messageSuffix message) := by
  unfold messageSuffix Text.marked
  split
  · exact Text.endsName_nil
  · exact Text.endsName_sign (by decide) _

theorem isSigned_arrow {arrow : Text} (listed : arrow ∈ arrows) : Text.IsSigned arrow :=
  Text.isSigned_of_mem (by decide) listed

/-! ## Reading lines -/

/-- A keyword, a gap and a name declare a participant. -/
theorem declared?_append {keyword gap : Text} (listed : keyword ∈ declarationKeywords)
    (filled : gap ≠ []) (blank : Text.IsGap gap) (named : IsName name) :
    declared? (keyword ++ (gap ++ name)) = some name := by
  have own : ∀ keyword ∈ declarationKeywords,
      Text.anyOf? declarationKeywords keyword = some (keyword, []) := by decide
  have solid : ∀ first ∈ gap, ∀ other ∈ declarationKeywords, first ∉ other := by
    intro first member other listed inside
    have word := (isName_of_mem_declarationKeywords listed).solid first inside
    exact Bool.noConfusion (word.symm.trans (Text.not_isWord_of_isBlank (blank first member)))
  have first : Text.anyOf? declarationKeywords (keyword ++ (gap ++ name)) =
      some (keyword, gap ++ name) := by
    obtain ⟨start, more, rfl⟩ := List.exists_cons_of_ne_nil filled
    rw [List.cons_append, Text.anyOf?_append_cons (solid start List.mem_cons_self), own _ listed]
    rfl
  have blanks : Text.blanks? (gap ++ name) = some name :=
    Text.blanks?_eq_some_iff.mpr ⟨named.startsSolid.endsGap, gap, filled, blank, rfl⟩
  simp [declared?, first, blanks, Text.word?_eq_self named]

/-- A name with an arrow behind it declares nothing, even where it is a keyword: what comes next is
the arrow, and not a name. -/
theorem declared?_of_arrow {source gap arrow : Text} (named : IsName source)
    (blank : Text.IsGap gap) (listed : arrow ∈ arrows) (rest : Text) :
    declared? (source ++ (gap ++ (arrow ++ rest))) = none := by
  have signed := isSigned_arrow listed
  rw [Option.eq_none_iff_forall_ne_some]
  intro name read
  simp only [declared?, Option.bind_eq_bind, Option.bind_eq_some_iff, Option.pure_def,
    Option.some.injEq] at read
  obtain ⟨⟨keyword, left⟩, first, after, blanks, ⟨found, further⟩, word, -⟩ := read
  obtain ⟨known, whole⟩ := Text.anyOf?_eq_some first
  obtain ⟨-, rfl⟩ := Text.eq_of_literal?_of_blanks? (isName_of_mem_declarationKeywords known) named
    (blank.endsName_append (signed.endsName_append rest)) (Text.literal?_eq_some_iff.mpr whole)
    blanks
  obtain ⟨ends, other, -, blankToo, same⟩ := Text.blanks?_eq_some_iff.mp blanks
  have next : arrow ++ rest = after := by
    dsimp only at same
    rw [← Text.dropBlanks_append blank (signed.endsGap_append rest), same,
      Text.dropBlanks_append blankToo ends]
  rw [← next, Text.word?_eq_none (signed.endsName_append rest)] at word
  cases word

/-- No arrow is taken for a shorter one, where a gap or a name comes next. -/
theorem anyOf?_arrow {arrow gap : Text} (listed : arrow ∈ arrows) (blank : Text.IsGap gap)
    (named : IsName name) (rest : Text) :
    Text.anyOf? arrows (arrow ++ (gap ++ (name ++ rest))) =
      some (arrow, gap ++ (name ++ rest)) := by
  have own : ∀ arrow ∈ arrows, Text.anyOf? arrows arrow = some (arrow, []) := by decide
  obtain ⟨next, more, same, other⟩ : ∃ next more, gap ++ (name ++ rest) = next :: more ∧
      next ∉ Text.signs := by
    cases gap with
    | nil =>
        obtain ⟨next, more, rfl⟩ := List.exists_cons_of_ne_nil named.filled
        refine ⟨next, more ++ rest, rfl, fun sign => ?_⟩
        have word := named.solid next List.mem_cons_self
        exact Bool.noConfusion (word.symm.trans (Text.not_isWord_sign sign))
    | cons next more =>
        refine ⟨next, more ++ (name ++ rest), rfl, fun sign => ?_⟩
        have gap := blank next List.mem_cons_self
        exact Bool.noConfusion (gap.symm.trans (Text.not_isBlank_sign sign))
  have solid : ∀ arrow ∈ arrows, next ∉ arrow := fun arrow listed member =>
    other ((isSigned_arrow listed).signs next member)
  rw [same, Text.anyOf?_append_cons solid, own arrow listed]
  rfl

/-- Two names with an arrow between them tell an interaction, with gaps around the arrow or not. -/
theorem interaction?_append {source before arrow after target suffix message : Text}
    (first : IsName source) (blank : Text.IsGap before) (listed : arrow ∈ arrows)
    (blankToo : Text.IsGap after) (second : IsName target) (ends : EndsName suffix)
    (told : message? suffix = some message) :
    interaction? (source ++ (before ++ (arrow ++ (after ++ (target ++ suffix))))) =
      some { source, target, arrow, message } := by
  have signed := isSigned_arrow listed
  have word := Text.word?_append first
    (blank.endsName_append (signed.endsName_append (after ++ (target ++ suffix))))
  have gap := Text.dropBlanks_append blank (signed.endsGap_append (after ++ (target ++ suffix)))
  have gapToo := Text.dropBlanks_append blankToo (second.endsGap_append suffix)
  have last := Text.word?_append second ends
  simp [interaction?, word, gap, anyOf?_arrow listed blankToo second, gapToo, last, told]

/-! ## Reading what is written -/

theorem isLine_participantLine (named : IsName name) : IsLine (participantLine name) := by
  have broken : Text.isLineBreak ' ' = false := by decide
  have keyword : IsName "participant" := isName_of_mem_declarationKeywords (by decide)
  refine ⟨keyword.startsSolid.append _, ?_, ?_⟩
  · exact (named.endsSolid.append [' ']).append "participant"
  · exact Text.isUnbroken_append.mpr
      ⟨keyword.isUnbroken, Text.isUnbroken_cons.mpr ⟨broken, named.isUnbroken⟩⟩

theorem read?_participantLine (named : IsName name) :
    Line.read? (participantLine name) = some (.declaration name) := by
  have listed : "participant".toList ∈ declarationKeywords := by decide
  have declared : declared? (participantLine name) = some name :=
    declared?_append listed (List.cons_ne_nil ' ' []) Text.isGap_space named
  rw [Line.read?, declared]

theorem isLine_interactionLine (source : IsName told.source) (target : IsName told.target)
    (writable : told.IsWritable) : IsLine (interactionLine told) := by
  have space : Text.isLineBreak ' ' = false := by decide
  have ends : Text.EndsSolid (told.target ++ messageSuffix told.message) :=
    target.endsSolid.append_marked writable.trimmed _
  have suffix : IsUnbroken (messageSuffix told.message) :=
    Text.isUnbroken_marked (Text.isUnbroken_of_all (by decide)) writable.unbroken
  constructor
  case starts => exact source.startsSolid.append _
  case ends => exact (((ends.append [' ']).append told.arrow).append [' ']).append told.source
  case unbroken =>
    rw [interactionLine, Text.isUnbroken_append, Text.isUnbroken_cons, Text.isUnbroken_append,
      Text.isUnbroken_cons, Text.isUnbroken_append]
    exact ⟨source.isUnbroken, space, (isSigned_arrow writable.arrow).isUnbroken, space,
      target.isUnbroken, suffix⟩

/-- A message is read with nothing around it. -/
theorem message?_messageSuffix {message : Text} (trimmed : Text.trim message = message)
    (unbroken : IsUnbroken message) : message? (messageSuffix message) = some message := by
  unfold messageSuffix Text.marked
  split
  · next empty =>
      rw [List.isEmpty_iff.mp empty]
      rfl
  · have colon : Text.dropBlanks ([':', ' '] ++ message) = ':' :: ' ' :: message :=
      Text.dropBlanks_eq_self_iff.mpr (Text.endsGap_sign (by decide) _)
    have space : Text.dropBlanks (' ' :: message) = message :=
      Text.dropBlanks_space (Text.trim_eq_self_iff.mp trimmed).1
    have read : (Text.toEnd? (Text.dropBlanks (' ' :: message))).map Text.trim = some message := by
      rw [space, Text.toEnd?_eq_self unbroken, Option.map_some, trimmed]
    rw [message?, colon]
    exact read

theorem read?_interactionLine (source : IsName told.source) (target : IsName told.target)
    (writable : told.IsWritable) :
    Line.read? (interactionLine told) = some (.interaction told) := by
  have declared : declared? (interactionLine told) = none :=
    declared?_of_arrow source Text.isGap_space writable.arrow _
  have interaction : interaction? (interactionLine told) = some told :=
    interaction?_append source Text.isGap_space writable.arrow Text.isGap_space target
      (endsName_messageSuffix _) (message?_messageSuffix writable.trimmed writable.unbroken)
  rw [Line.read?, declared, interaction]
  rfl

/-! ## Whole sources -/

variable {sequence : Sequence}

theorem IsWritable.isName_source (writable : sequence.IsWritable)
    (member : told ∈ sequence.interactions) : IsName told.source :=
  writable.names _ (writable.connects told member).1

theorem IsWritable.isName_target (writable : sequence.IsWritable)
    (member : told ∈ sequence.interactions) : IsName told.target :=
  writable.names _ (writable.connects told member).2

theorem IsWritable.isLine (writable : sequence.IsWritable) :
    ∀ line ∈ sequence.lines, IsLine line := by
  refine List.forall_mem_append.mpr ⟨List.forall_mem_map.mpr ?_, List.forall_mem_map.mpr ?_⟩
  · exact fun name member => isLine_participantLine (writable.names name member)
  · exact fun told member => isLine_interactionLine (writable.isName_source member)
      (writable.isName_target member) (writable.interactions told member)

/-- No line is marked. -/
theorem IsWritable.unmarked (writable : sequence.IsWritable) :
    ∀ line ∈ sequence.lines, line.head? ≠ some '@' := by
  have mark : Text.isWord '@' = false := by decide +kernel
  have keyword : IsName "participant" := isName_of_mem_declarationKeywords (by decide)
  refine List.forall_mem_append.mpr ⟨List.forall_mem_map.mpr ?_, List.forall_mem_map.mpr ?_⟩
  · exact fun name _ => keyword.head?_append_ne mark _
  · exact fun told member => (writable.isName_source member).head?_append_ne mark _

theorem IsWritable.statements_source (writable : sequence.IsWritable) :
    statements (Text.sourceLines sequence.source) =
      sequence.participants.map .declaration ++ sequence.interactions.map .interaction := by
  have content := Text.contentLines_eq_self fun line member =>
    ⟨(writable.isLine line member).starts.ne_nil, writable.unmarked line member⟩
  have declarations : (sequence.participants.map participantLine).filterMap Line.read? =
      sequence.participants.map .declaration :=
    filterMap_map_eq_map fun name member => read?_participantLine (writable.names name member)
  have interactions : (sequence.interactions.map interactionLine).filterMap Line.read? =
      sequence.interactions.map .interaction :=
    filterMap_map_eq_map fun told member => read?_interactionLine (writable.isName_source member)
      (writable.isName_target member) (writable.interactions told member)
  rw [statements, source, Text.sourceLines_intercalate writable.isLine, content, lines,
    List.filterMap_append, declarations, interactions]

/-- The interactions that a line tells. -/
def Line.interactions : Line → List Interaction
  | .declaration _ => []
  | .interaction told => [told]

/-- Every interaction that a source tells is read, and in order. -/
theorem interactions_ofLines (lines : List Text) :
    (ofLines lines).interactions = (statements lines).flatMap Line.interactions := by
  refine foldl_flatMap Sequence.interactions Line.interactions (fun sequence line => ?_) empty _
  cases line with
  | declaration name => simp [follow, Line.interactions]
  | interaction told => simp [follow, Line.interactions]

theorem mem_interactions_ofLines_iff {lines : List Text} {told : Interaction} :
    told ∈ (ofLines lines).interactions ↔ .interaction told ∈ statements lines := by
  rw [interactions_ofLines, List.mem_flatMap]
  constructor
  · rintro ⟨line, stated, tells⟩
    cases line with
    | declaration name => cases tells
    | interaction other =>
        obtain rfl := List.mem_singleton.mp tells
        exact stated
  · exact fun stated => ⟨_, stated, List.mem_singleton_self told⟩

theorem mem_arrows_of_interaction? {line : Text} {told : Interaction}
    (read : interaction? line = some told) : told.arrow ∈ arrows := by
  simp only [interaction?, Option.bind_eq_bind, Option.bind_eq_some_iff, Option.pure_def,
    Option.some.injEq] at read
  obtain ⟨⟨source, afterSource⟩, -, ⟨arrow, afterArrow⟩, found, ⟨target, afterTarget⟩, -, message,
    -, rfl⟩ := read
  exact (Text.anyOf?_eq_some found).1

/-- Every interaction has one of the arrows. -/
theorem mem_arrows_ofLines (lines : List Text) :
    ∀ told ∈ (ofLines lines).interactions, told.arrow ∈ arrows := by
  intro told member
  obtain ⟨line, -, read⟩ := List.mem_filterMap.mp (mem_interactions_ofLines_iff.mp member)
  unfold Line.read? at read
  split at read
  · cases read
  · obtain ⟨found, spoken, same⟩ := Option.map_eq_some_iff.mp read
    cases same
    exact mem_arrows_of_interaction? spoken

/-- Both ends of every interaction are participants. -/
theorem connects_ofLines (lines : List Text) :
    ∀ told ∈ (ofLines lines).interactions,
      told.source ∈ (ofLines lines).participants ∧ told.target ∈ (ofLines lines).participants := by
  intro told member
  have stated := mem_interactions_ofLines_iff.mp member
  rw [participants_ofLines, List.mem_eraseDups, List.mem_eraseDups]
  constructor
  · exact List.mem_flatMap.mpr ⟨_, stated, List.mem_cons_self⟩
  · exact List.mem_flatMap.mpr ⟨_, stated, List.mem_cons_of_mem _ List.mem_cons_self⟩

theorem connected_ofLines (lines : List Text) :
    (ofLines lines).connected = (ofLines lines).interactions.zipIdx := by
  refine List.filter_eq_self.mpr fun (told, index) member => ?_
  obtain ⟨source, target⟩ := connects_ofLines lines told (List.fst_mem_of_mem_zipIdx member)
  simp [connects, source, target]

theorem ofLines_source (writable : sequence.IsWritable) :
    ofLines (Text.sourceLines sequence.source) = sequence := by
  have interactions : (ofLines (Text.sourceLines sequence.source)).interactions =
      sequence.interactions := by
    rw [interactions_ofLines, writable.statements_source]
    simp [Line.interactions, List.flatMap_map]
  have participants : (ofLines (Text.sourceLines sequence.source)).participants =
      sequence.participants := by
    have known : sequence.interactions.flatMap (fun told => [told.source, told.target]) ⊆
        sequence.participants := by
      intro name member
      obtain ⟨told, tells, ends⟩ := List.mem_flatMap.mp member
      obtain ⟨source, target⟩ := writable.connects told tells
      rcases List.mem_pair.mp ends with rfl | rfl
      · exact source
      · exact target
    rw [participants_ofLines, writable.statements_source, List.flatMap_append, List.flatMap_map,
      List.flatMap_map]
    change (sequence.participants.flatMap (fun name => [name]) ++ _).eraseDups = _
    rw [List.flatMap_singleton']
    exact eraseDups_append_of_subset writable.distinct known
  exact congrArg₂ Sequence.mk participants interactions

end Sequence

end DiagramSketch
