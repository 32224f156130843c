import DiagramSketch.Proofs.Diagram.Anatomy
import DiagramSketch.Proofs.Text.Scanning

/-!
# Where the texts of a diagram come from

The texts that a diagram takes from its source have no characters but those of the source.
-/

namespace DiagramSketch

open Text (subset_of_word? subset_of_enclosed? isSuffix_of_blanks? isSuffix_of_anyOf?
  isSuffix_of_literal? isSuffix_of_keyword? isSuffix_dropBlanks)

theorem subset_flatten_contentLines {lines : List Text} {line : Text}
    (kept : line ∈ Text.contentLines lines) : line ⊆ lines.flatten := by
  intro character inside
  exact List.mem_flatten.mpr ⟨line, (List.mem_filter.mp kept).1, inside⟩

/-- What is read from the lines that count has its texts from the lines. -/
theorem subset_flatten_of_read {Line : Type} {read? : Text → Option Line} {texts : Line → List Text}
    (within : ∀ {text line}, read? text = some line → ∀ part ∈ texts line, part ⊆ text)
    {lines : List Text} {line : Line}
    (member : line ∈ (Text.contentLines lines).filterMap read?) :
    ∀ part ∈ texts line, part ⊆ lines.flatten := by
  intro part inside
  obtain ⟨source, kept, read⟩ := List.mem_filterMap.mp member
  exact List.Subset.trans (within read part inside) (subset_flatten_contentLines kept)

namespace Sequence

/-- The texts that a line of a sequence has. -/
def Line.texts : Line → List Text
  | .declaration name => [name]
  | .interaction told => [told.source, told.target, told.message]

/-- The texts that are drawn for a sequence. -/
def texts (sequence : Sequence) : List Text :=
  sequence.participants ++ sequence.interactions.map Interaction.message

theorem subset_of_declared? {line name : Text} (read : declared? line = some name) :
    name ⊆ line := by
  simp only [declared?, Option.bind_eq_bind, Option.bind_eq_some_iff, Option.pure_def,
    Option.some.injEq] at read
  obtain ⟨⟨keyword, afterKeyword⟩, first, afterBlanks, blanks, ⟨found, rest⟩, word, rfl⟩ := read
  exact List.Subset.trans (subset_of_word? word).1
    ((isSuffix_of_blanks? blanks).trans (isSuffix_of_anyOf? first)).subset

theorem subset_of_message? {text message : Text} (read : message? text = some message) :
    message ⊆ text := by
  unfold message? at read
  split at read
  · cases read
    exact List.nil_subset _
  · next rest colon =>
      obtain ⟨line, ended, rfl⟩ := Option.map_eq_some_iff.mp read
      have tail : rest <:+ text :=
        (List.suffix_cons ':' rest).trans (colon ▸ isSuffix_dropBlanks text)
      exact List.Subset.trans (Text.trim_subset line) (List.Subset.trans
        (Text.subset_of_toEnd? ended) ((isSuffix_dropBlanks rest).trans tail).subset)
  · cases read

theorem subset_of_interaction? {line : Text} {told : Interaction}
    (read : interaction? line = some told) :
    ∀ text ∈ (Line.interaction told).texts, text ⊆ line := by
  simp only [interaction?, Option.bind_eq_bind, Option.bind_eq_some_iff, Option.pure_def,
    Option.some.injEq] at read
  obtain ⟨⟨source, afterSource⟩, first, ⟨arrow, afterArrow⟩, second, ⟨target, afterTarget⟩, third,
    message, last, rfl⟩ := read
  obtain ⟨sourceWithin, sourceLeft⟩ := subset_of_word? first
  obtain ⟨targetWithin, targetLeft⟩ := subset_of_word? third
  have arrowLeft : afterArrow <:+ line :=
    ((isSuffix_of_anyOf? second).trans (isSuffix_dropBlanks _)).trans sourceLeft
  have between := (isSuffix_dropBlanks afterArrow).trans arrowLeft
  simp only [Line.texts, List.forall_mem_cons, List.not_mem_nil, false_implies, implies_true,
    and_true]
  exact ⟨sourceWithin, List.Subset.trans targetWithin between.subset,
    List.Subset.trans (subset_of_message? last) (targetLeft.trans between).subset⟩

theorem subset_of_read? {text : Text} {line : Line} (read : Line.read? text = some line) :
    ∀ part ∈ line.texts, part ⊆ text := by
  unfold Line.read? at read
  split at read
  · next name declared =>
      cases read
      exact List.forall_mem_singleton.mpr (subset_of_declared? declared)
  · obtain ⟨told, found, rfl⟩ := Option.map_eq_some_iff.mp read
    exact subset_of_interaction? found

theorem texts_introduce {holds : Text → Prop} {sequence : Sequence} {name : Text}
    (before : ∀ text ∈ sequence.texts, holds text) (own : holds name) :
    ∀ text ∈ (sequence.introduce name).texts, holds text := by
  obtain ⟨participants, messages⟩ := List.forall_mem_append.mp before
  unfold introduce
  split
  · exact before
  · refine List.forall_mem_append.mpr ⟨List.forall_mem_append.mpr ⟨participants, ?_⟩, messages⟩
    exact List.forall_mem_singleton.mpr own

theorem texts_follow {holds : Text → Prop} {sequence : Sequence} {line : Line}
    (before : ∀ text ∈ sequence.texts, holds text) (own : ∀ text ∈ line.texts, holds text) :
    ∀ text ∈ (sequence.follow line).texts, holds text := by
  cases line with
  | declaration name => exact texts_introduce before (own name List.mem_cons_self)
  | interaction told =>
      obtain ⟨source, target, message⟩ : holds told.source ∧ holds told.target ∧
          holds told.message := by
        simpa [Line.texts] using own
      obtain ⟨participants, messages⟩ :=
        List.forall_mem_append.mp (texts_introduce (texts_introduce before source) target)
      refine List.forall_mem_append.mpr ⟨participants, ?_⟩
      change ∀ text ∈ (_ ++ [told]).map Interaction.message, holds text
      rw [List.map_append]
      exact List.forall_mem_append.mpr ⟨messages, List.forall_mem_singleton.mpr message⟩

theorem texts_ofLines (lines : List Text) :
    ∀ text ∈ (ofLines lines).texts, text ⊆ lines.flatten := by
  refine List.foldlRecOn (motive := fun sequence : Sequence =>
    ∀ text ∈ sequence.texts, text ⊆ lines.flatten) _ follow (List.forall_mem_nil _)
    fun sequence before line member => ?_
  exact texts_follow before (subset_flatten_of_read subset_of_read? member)

end Sequence

namespace ClassModel

/-- The texts that are drawn for a class model. -/
def texts (model : ClassModel) : List Text :=
  model.classes.flatMap ClassEntry.lines

theorem subset_of_declared? {line name : Text} (read : declared? line = some name) :
    name ⊆ line :=
  Text.subset_of_named read

variable {holds : Text → Prop}

theorem texts_introduce {model : ClassModel} {name : Text}
    (before : ∀ text ∈ model.texts, holds text) (own : holds name) :
    ∀ text ∈ (model.introduce name).texts, holds text := by
  unfold introduce
  split
  · exact before
  · unfold texts
    rw [List.flatMap_append]
    exact List.forall_mem_append.mpr ⟨before, List.forall_mem_singleton.mpr own⟩

theorem lines_addMember {line : Text} {entry : ClassEntry} (member : Member)
    (before : ∀ text ∈ entry.lines, holds text) (own : holds line) :
    ∀ text ∈ (addMember line entry member).lines, holds text := by
  obtain ⟨name, members⟩ := List.forall_mem_cons.mp before
  obtain ⟨attributes, methods⟩ := List.forall_mem_append.mp members
  have added {others : List Text} (old : ∀ text ∈ others, holds text) :
      ∀ text ∈ others ++ [line], holds text :=
    List.forall_mem_append.mpr ⟨old, List.forall_mem_singleton.mpr own⟩
  cases member
  · exact List.forall_mem_cons.mpr ⟨name, List.forall_mem_append.mpr ⟨added attributes, methods⟩⟩
  · exact List.forall_mem_cons.mpr ⟨name, List.forall_mem_append.mpr ⟨attributes, added methods⟩⟩

theorem texts_addTo {model : ClassModel} {name line : Text}
    (before : ∀ text ∈ model.texts, holds text) (own : holds line) :
    ∀ text ∈ (model.addTo name line).texts, holds text := by
  unfold addTo
  cases member? line with
  | none => exact before
  | some member =>
      intro text inside
      obtain ⟨entry, changed, listed⟩ := List.mem_flatMap.mp inside
      obtain ⟨old, kept, rfl⟩ := List.mem_map.mp changed
      have oldHolds : ∀ text ∈ old.lines, holds text := fun text within =>
        before text (List.mem_flatMap.mpr ⟨old, kept, within⟩)
      split at listed
      · exact lines_addMember member oldHolds own text listed
      · exact oldHolds text listed

theorem texts_follow {reading : Reading} {line : Text}
    (before : ∀ text ∈ reading.model.texts, holds text) (own : ∀ text, text ⊆ line → holds text) :
    ∀ text ∈ (follow reading (Line.read line)).model.texts, holds text := by
  unfold Line.read
  cases declared : declared? line with
  | some name => exact texts_introduce before (own name (subset_of_declared? declared))
  | none =>
      dsimp only
      split
      · exact before
      · unfold follow
        cases reading.openClass with
        | none => exact before
        | some name => exact texts_addTo before (own line (List.Subset.refl line))

theorem texts_ofLines (lines : List Text) :
    ∀ text ∈ (ofLines lines).texts, text ⊆ lines.flatten := by
  refine List.foldlRecOn (motive := fun reading : Reading =>
    ∀ text ∈ reading.model.texts, text ⊆ lines.flatten) _ follow (List.forall_mem_nil _)
    fun reading before line member => ?_
  obtain ⟨source, kept, rfl⟩ := List.mem_map.mp member
  exact texts_follow before fun text within =>
    List.Subset.trans within (subset_flatten_contentLines kept)

end ClassModel

namespace UseCases

/-- The texts that are drawn for use cases. -/
def texts (useCases : UseCases) : List Text :=
  useCases.actors ++ useCases.labels

theorem subset_of_declared? {line name : Text} (read : declared? line = some name) :
    name ⊆ line :=
  Text.subset_of_named read

theorem subset_of_labelIn? {piece label : Text} (read : labelIn? piece = some label) :
    label ⊆ piece := by
  unfold labelIn? at read
  split at read
  · next first head tail dropped =>
      cases read
      have left : piece.dropWhile (· != '(') <:+ piece := List.dropWhile_suffix _
      rw [dropped] at left
      exact ((List.suffix_cons first _).trans left).subset
  · cases read

theorem subset_of_mem_labelsOf {line label : Text} (member : label ∈ labelsOf line) :
    label ⊆ line := by
  obtain ⟨piece, inside, read⟩ := List.mem_filterMap.mp member
  have within := (Text.isInfix_of_mem_splitOnP (· == ')') line).2 piece
    (List.mem_of_mem_dropLast inside)
  exact List.Subset.trans (subset_of_labelIn? read) within.subset

variable {holds : Text → Prop}

theorem forall_including {names : List Text} {name : Text} (before : ∀ text ∈ names, holds text)
    (own : holds name) : ∀ text ∈ including names name, holds text := by
  unfold including
  split
  · exact before
  · exact List.forall_mem_append.mpr ⟨before, List.forall_mem_singleton.mpr own⟩

theorem texts_follow {useCases : UseCases} {line : Text}
    (before : ∀ text ∈ useCases.texts, holds text) (own : ∀ text, text ⊆ line → holds text) :
    ∀ text ∈ (useCases.follow (Line.read line)).texts, holds text := by
  obtain ⟨actors, labels⟩ := List.forall_mem_append.mp before
  unfold Line.read
  cases declared : declared? line with
  | some name =>
      exact List.forall_mem_append.mpr
        ⟨forall_including actors (own name (subset_of_declared? declared)), labels⟩
  | none =>
      refine List.forall_mem_append.mpr ⟨actors, ?_⟩
      exact List.foldlRecOn (motive := fun names : List Text => ∀ text ∈ names, holds text)
        (labelsOf line) including labels fun names before label member =>
          forall_including before (own label (subset_of_mem_labelsOf member))

theorem texts_ofLines (lines : List Text) :
    ∀ text ∈ (ofLines lines).texts, text ⊆ lines.flatten := by
  refine List.foldlRecOn (motive := fun useCases : UseCases =>
    ∀ text ∈ useCases.texts, text ⊆ lines.flatten) _ follow (List.forall_mem_nil _)
    fun useCases before line member => ?_
  obtain ⟨source, kept, rfl⟩ := List.mem_map.mp member
  exact texts_follow before fun text within =>
    List.Subset.trans within (subset_flatten_contentLines kept)

end UseCases

namespace Activity

/-- The texts that are drawn for an activity and come from its source. -/
def texts (activity : Activity) : List Text :=
  activity.steps.map ActivityStep.label

/-- The texts that a line of an activity has. -/
def Line.texts : Line → List Text
  | .start | .stop => []
  | .step read => [read.label]

theorem subset_of_decision? {line label : Text} (read : decision? line = some label) :
    label ⊆ line := by
  simp only [decision?, Option.bind_eq_bind, Option.bind_eq_some_iff, Option.pure_def,
    Option.some.injEq] at read
  obtain ⟨afterKeyword, first, ⟨condition, rest⟩, enclosed, rfl⟩ := read
  have left := (isSuffix_dropBlanks afterKeyword).trans (isSuffix_of_literal? first)
  exact List.Subset.trans (Text.trim_subset condition)
    (List.Subset.trans (subset_of_enclosed? enclosed).1 left.subset)

theorem subset_of_action? {line label : Text} (read : action? line = some label) :
    label ⊆ line := by
  simp only [action?, Option.bind_eq_bind, Option.bind_eq_some_iff] at read
  obtain ⟨afterColon, first, body, ended, read⟩ := read
  split at read
  · next reversed same =>
      cases read
      have within : reversed.reverse ⊆ body := by
        intro character member
        have inside : character ∈ body.reverse :=
          same ▸ List.mem_cons_of_mem ';' (List.mem_reverse.mp member)
        exact List.mem_reverse.mp inside
      have left := (isSuffix_of_literal? first).subset
      exact List.Subset.trans (Text.trim_subset reversed.reverse) (List.Subset.trans within
        (List.Subset.trans (Text.subset_of_toEnd? ended) left))
  · cases read

theorem subset_of_read? {text : Text} {line : Line} (read : Line.read? text = some line) :
    ∀ part ∈ line.texts, part ⊆ text := by
  unfold Line.read? at read
  split at read
  · cases read
    exact List.forall_mem_nil _
  · split at read
    · cases read
      exact List.forall_mem_nil _
    · split at read
      · next label decided =>
          cases read
          exact List.forall_mem_singleton.mpr (subset_of_decision? decided)
      · obtain ⟨label, found, rfl⟩ := Option.map_eq_some_iff.mp read
        exact List.forall_mem_singleton.mpr (subset_of_action? found)

theorem texts_ofLines (lines : List Text) :
    ∀ text ∈ (ofLines lines).texts, text ⊆ lines.flatten := by
  refine List.foldlRecOn (motive := fun activity : Activity =>
    ∀ text ∈ activity.texts, text ⊆ lines.flatten) _ follow (List.forall_mem_nil _)
    fun activity before line member => ?_
  have own := subset_flatten_of_read subset_of_read? member
  cases line with
  | start => exact before
  | stop => exact before
  | step step =>
      change ∀ text ∈ (activity.steps ++ [step]).map ActivityStep.label, text ⊆ lines.flatten
      rw [List.map_append]
      exact List.forall_mem_append.mpr ⟨before, own⟩

end Activity

namespace MindMap

/-- The texts that are drawn for a mind map. -/
def texts (map : MindMap) : List Text :=
  map.nodes.map MindMapNode.text

theorem subset_of_node? {line : Text} {node : MindMapNode} (read : node? line = some node) :
    node.text ⊆ line := by
  have left : line.dropWhile (· == '*') <:+ line := List.dropWhile_suffix _
  unfold node? at read
  dsimp only at read
  split at read
  · cases read
  · split at read
    · next first rest dropped =>
        cases read
        have within := (Text.isPrefix_upToLineFeed (first :: rest)).subset
        refine List.Subset.trans (Text.trim_subset _) (List.Subset.trans within ?_)
        rw [← dropped]
        exact ((isSuffix_dropBlanks _).trans left).subset
    · split at read
      · cases read
        exact List.nil_subset line
      · split at read
        · next many =>
            cases read
            -- The text is an asterisk, and the line has at least two.
            intro character member
            obtain rfl : character = '*' := List.mem_singleton.mp member
            obtain ⟨found, inside⟩ :=
              List.exists_mem_of_length_pos (Nat.lt_of_lt_of_le two_pos many)
            obtain rfl : found = '*' := by simpa using List.mem_takeWhile_imp inside
            exact (List.takeWhile_prefix _).subset inside
        · cases read

theorem texts_ofLines (lines : List Text) :
    ∀ text ∈ (ofLines lines).texts, text ⊆ lines.flatten := by
  refine List.forall_mem_map.mpr fun node member => ?_
  obtain ⟨line, kept, read⟩ := List.mem_filterMap.mp member
  exact List.Subset.trans (subset_of_node? read) (subset_flatten_contentLines kept)

end MindMap

namespace Schedule

/-- The texts that a task has from its source. -/
def taskTexts (task : Task) : List Text :=
  task.name :: task.after.toList

/-- The texts that are drawn for a schedule and come from its source. -/
def texts (schedule : Schedule) : List Text :=
  schedule.start.toList ++ schedule.tasks.flatMap taskTexts

/-- The texts that a line of a schedule has. -/
def Line.texts : Line → List Text
  | .start date => [date]
  | .duration name _ => [name]
  | .order name predecessor => [name, predecessor]

theorem isSuffix_of_mem_afterBlanksFrom {found : List Text} {text rest : Text}
    (member : rest ∈ afterBlanksFrom found text) : rest ∈ found ∨ rest <:+ text := by
  induction text generalizing found with
  | nil => exact .inl member
  | cons character text induction =>
      unfold afterBlanksFrom at member
      split at member
      · rcases induction member with earlier | later
        · rcases List.mem_cons.mp earlier with rfl | old
          · exact .inr (List.suffix_cons character rest)
          · exact .inl old
        · exact .inr (later.trans (List.suffix_cons character text))
      · exact .inl member

theorem isSuffix_of_mem_afterBlanks {text rest : Text} (member : rest ∈ afterBlanks text) :
    rest <:+ text :=
  (isSuffix_of_mem_afterBlanksFrom member).resolve_left List.not_mem_nil

theorem subset_of_date? {text date : Text} (read : date? text = some date) : date ⊆ text := by
  unfold date? at read
  split at read
  · next first rest ended =>
      cases read
      exact List.Subset.trans (Text.trim_subset _) (Text.subset_of_toEnd? ended)
  · cases read

theorem exists_of_dateWithArticle? {text date : Text} (read : dateWithArticle? text = some date) :
    ∃ rest, rest <:+ text ∧ date? rest = some date := by
  unfold dateWithArticle? at read
  rcases Option.or_eq_some_iff.mp read with article | ⟨-, plain⟩
  · obtain ⟨rest, member, found⟩ := List.exists_of_findSome?_eq_some article
    cases keyword : Text.keyword? "the" text with
    | none =>
        rw [keyword] at member
        cases member
    | some afterArticle =>
        rw [keyword] at member
        have left := (isSuffix_of_mem_afterBlanks member).trans (isSuffix_of_keyword? keyword)
        exact ⟨rest, left, found⟩
  · exact ⟨text, List.suffix_refl text, plain⟩

/-- The date of a start is read from the end of the line. -/
theorem exists_of_start? {line date : Text} (read : start? line = some date) :
    ∃ rest, rest <:+ line ∧ date? rest = some date := by
  simp only [start?, Option.bind_eq_bind, Option.bind_eq_some_iff] at read
  obtain ⟨afterKeyword, keyword, found⟩ := read
  obtain ⟨later, member, dated⟩ := List.exists_of_findSome?_eq_some found
  obtain ⟨rest, within, ends⟩ := exists_of_dateWithArticle? dated
  have left := (isSuffix_of_mem_afterBlanks member).trans (isSuffix_of_keyword? keyword)
  exact ⟨rest, within.trans left, ends⟩

theorem subset_of_start? {line date : Text} (read : start? line = some date) : date ⊆ line := by
  obtain ⟨rest, within, dated⟩ := exists_of_start? read
  exact List.Subset.trans (subset_of_date? dated) within.subset

/-- The name of a predecessor is read from brackets. -/
theorem exists_of_predecessor? {text name : Text} (read : predecessor? text = some name) :
    ∃ rest after, rest <:+ text ∧ Text.enclosed? '[' ']' rest = some (name, after) := by
  simp only [predecessor?, Option.bind_eq_bind, Option.bind_eq_some_iff, Option.pure_def,
    Option.some.injEq] at read
  obtain ⟨first, blanksBefore, afterStarts, starts, second, blanksBetween, afterAt, reached,
    bracket, blanksAfter, ⟨found, afterName⟩, enclosed, afterPossessive, -, last, -, unread, -,
    rfl⟩ := read
  have startsLeft := (isSuffix_of_keyword? starts).trans (isSuffix_of_blanks? blanksBefore)
  have atLeft := (isSuffix_of_keyword? reached).trans (isSuffix_of_blanks? blanksBetween)
  have left := ((isSuffix_of_blanks? blanksAfter).trans atLeft).trans startsLeft
  exact ⟨bracket, afterName, left, enclosed⟩

theorem subset_of_predecessor? {text name : Text} (read : predecessor? text = some name) :
    name ⊆ text := by
  obtain ⟨rest, after, within, enclosed⟩ := exists_of_predecessor? read
  exact List.Subset.trans (subset_of_enclosed? enclosed).1 within.subset

theorem subset_of_read? {text : Text} {line : Line} (read : Line.read? text = some line) :
    ∀ part ∈ line.texts, part ⊆ text := by
  unfold Line.read? at read
  split at read
  · next date started =>
      cases read
      exact List.forall_mem_singleton.mpr (subset_of_start? started)
  · simp only [taskLine?, Option.bind_eq_bind, Option.bind_eq_some_iff] at read
    obtain ⟨⟨name, rest⟩, enclosed, read⟩ := read
    obtain ⟨within, left⟩ := subset_of_enclosed? enclosed
    split at read
    · cases read
      exact List.forall_mem_singleton.mpr within
    · obtain ⟨predecessor, found, same⟩ := Option.bind_eq_some_iff.mp read
      cases same
      refine List.forall_mem_cons.mpr ⟨within, List.forall_mem_singleton.mpr ?_⟩
      exact List.Subset.trans (subset_of_predecessor? found) left.subset

variable {holds : Text → Prop}

theorem texts_alter {schedule : Schedule} {name : Text} {change : Task → Task}
    (before : ∀ text ∈ schedule.texts, holds text)
    (keeps : ∀ task, (∀ text ∈ taskTexts task, holds text) →
      ∀ text ∈ taskTexts (change task), holds text) :
    ∀ text ∈ (schedule.alter name change).texts, holds text := by
  obtain ⟨start, tasks⟩ := List.forall_mem_append.mp before
  refine List.forall_mem_append.mpr ⟨start, fun text inside => ?_⟩
  obtain ⟨task, changed, listed⟩ := List.mem_flatMap.mp inside
  obtain ⟨old, kept, rfl⟩ := List.mem_map.mp changed
  have oldHolds : ∀ text ∈ taskTexts old, holds text := fun text within =>
    tasks text (List.mem_flatMap.mpr ⟨old, kept, within⟩)
  split at listed
  · exact keeps old oldHolds text listed
  · exact oldHolds text listed

theorem texts_setDuration {schedule : Schedule} {name : Text} (days : Int)
    (before : ∀ text ∈ schedule.texts, holds text) (own : holds name) :
    ∀ text ∈ (schedule.setDuration name days).texts, holds text := by
  unfold setDuration
  split
  · exact texts_alter before fun task old => old
  · obtain ⟨start, tasks⟩ := List.forall_mem_append.mp before
    refine List.forall_mem_append.mpr ⟨start, ?_⟩
    dsimp only
    rw [List.flatMap_append]
    exact List.forall_mem_append.mpr ⟨tasks, List.forall_mem_singleton.mpr own⟩

theorem texts_follow {schedule next : Schedule} {line : Line}
    (before : ∀ text ∈ schedule.texts, holds text) (own : ∀ text ∈ line.texts, holds text)
    (success : schedule.follow line = .ok next) : ∀ text ∈ next.texts, holds text := by
  cases line with
  | start date =>
      cases success
      exact List.forall_mem_cons.mpr
        ⟨own date List.mem_cons_self, (List.forall_mem_append.mp before).2⟩
  | duration name amount =>
      obtain ⟨days, -, rfl⟩ := map_eq_ok_iff.mp success
      exact texts_setDuration days before (own name List.mem_cons_self)
  | order name predecessor =>
      cases success
      refine texts_alter before fun task old => ?_
      exact List.forall_mem_cons.mpr ⟨old task.name List.mem_cons_self,
        List.forall_mem_singleton.mpr (own predecessor (by simp [Line.texts]))⟩

theorem texts_ofLines {lines : List Text} {schedule : Schedule}
    (success : ofLines lines = .ok schedule) :
    ∀ text ∈ schedule.texts, text ⊆ lines.flatten := by
  refine foldlM_counts (fun _ (read : Schedule) => ∀ text ∈ read.texts, text ⊆ lines.flatten) empty
    ((Text.contentLines lines).filterMap Line.read?) ?_ (List.forall_mem_nil _) success
  intro done read line next member before stepped
  exact texts_follow before (subset_flatten_of_read subset_of_read? member) stepped

end Schedule

namespace Components

/-- The texts that are drawn for a package. -/
def packageTexts (package : Package) : List Text :=
  package.name.getD [] :: package.members

/-- The texts that are drawn for components. -/
def texts (components : Components) : List Text :=
  components.packages.flatMap packageTexts ++ components.standalone
    ++ components.connections.map Connection.label

/-- The texts that a line has of what is drawn. -/
def Line.texts : Line → List Text
  | .closing => []
  | .package name => [name]
  | .connection read => [read.label]
  | .component name _ => [name]

theorem subset_of_package? {line name : Text} (read : package? line = some name) :
    name ⊆ line := by
  simp only [package?, Option.bind_eq_bind, Option.bind_eq_some_iff, Option.pure_def,
    Option.some.injEq] at read
  obtain ⟨afterKeyword, first, afterBlanks, blanks, ⟨found, rest⟩, read, rfl⟩ := read
  have left := ((isSuffix_of_blanks? blanks).trans (isSuffix_of_literal? first)).subset
  rcases Option.or_eq_some_iff.mp read with quoted | ⟨-, word⟩
  · exact List.Subset.trans (subset_of_enclosed? quoted).1 left
  · exact List.Subset.trans (subset_of_word? word).1 left

theorem isSuffix_of_endpoint? {text name rest : Text} (read : endpoint? text = some (name, rest)) :
    rest <:+ text := by
  rcases Option.or_eq_some_iff.mp read with word | ⟨-, bracketed⟩
  · exact (subset_of_word? word).2
  · obtain ⟨⟨found, left⟩, enclosed, same⟩ := Option.map_eq_some_iff.mp bracketed
    cases same
    exact (subset_of_enclosed? enclosed).2

theorem subset_labelOf (text : Text) : labelOf text ⊆ text := by
  unfold labelOf
  split
  · next rest colon =>
      have left : rest <:+ text :=
        (List.suffix_cons ':' rest).trans (colon ▸ isSuffix_dropBlanks text)
      have within := (Text.isPrefix_upToLineFeed (Text.dropBlanks rest)).subset
      exact List.Subset.trans (Text.trim_subset _) (List.Subset.trans within
        ((isSuffix_dropBlanks rest).trans left).subset)
  · exact List.nil_subset text

theorem subset_of_connection? {line : Text} {read : Connection}
    (found : connection? line = some read) : read.label ⊆ line := by
  simp only [connection?, Option.bind_eq_bind, Option.bind_eq_some_iff, Option.pure_def,
    Option.some.injEq] at found
  obtain ⟨⟨source, afterSource⟩, first, ⟨arrow, afterArrow⟩, second, ⟨target, afterTarget⟩, third,
    rfl⟩ := found
  have sourceLeft := isSuffix_of_endpoint? first
  have arrowLeft := ((isSuffix_of_anyOf? second).trans (isSuffix_dropBlanks _)).trans sourceLeft
  have targetLeft := ((isSuffix_of_endpoint? third).trans (isSuffix_dropBlanks _)).trans arrowLeft
  exact List.Subset.trans (subset_labelOf afterTarget) targetLeft.subset

theorem subset_of_read? {text : Text} {line : Line} (read : Line.read? text = some line) :
    ∀ part ∈ line.texts, part ⊆ text := by
  unfold Line.read? at read
  split at read
  · cases read
    exact List.forall_mem_nil _
  · split at read
    · next name package =>
        cases read
        exact List.forall_mem_singleton.mpr (subset_of_package? package)
    · split at read
      · next connection found =>
          cases read
          exact List.forall_mem_singleton.mpr (subset_of_connection? found)
      · obtain ⟨⟨name, given⟩, component, same⟩ := Option.map_eq_some_iff.mp read
        cases same
        obtain ⟨⟨body, rest⟩, enclosed, same⟩ := Option.map_eq_some_iff.mp component
        cases same
        exact List.forall_mem_singleton.mpr (Text.subset_of_firstEnclosed? enclosed).1

variable {holds : Text → Prop}

theorem forall_texts {components : Components} : (∀ text ∈ components.texts, holds text) ↔
    (∀ package ∈ components.packages, ∀ text ∈ packageTexts package, holds text) ∧
      (∀ text ∈ components.standalone, holds text) ∧
      ∀ connection ∈ components.connections, holds connection.label := by
  rw [texts, List.forall_mem_append, List.forall_mem_append, List.forall_mem_map, and_assoc]
  refine and_congr_left fun _ => ?_
  simp only [List.mem_flatMap, forall_exists_index, and_imp]
  exact ⟨fun all package member text inside => all text package member inside,
    fun all text package member inside => all package member text inside⟩

theorem texts_place {components : Components} {name : Text} (container : Container)
    (before : ∀ text ∈ components.texts, holds text) (own : holds name) :
    ∀ text ∈ (components.place name container).texts, holds text := by
  obtain ⟨packages, standalone, connections⟩ := forall_texts.mp before
  cases container with
  | none =>
      refine forall_texts.mpr ⟨packages, ?_, connections⟩
      exact List.forall_mem_append.mpr ⟨standalone, List.forall_mem_singleton.mpr own⟩
  | some index =>
      refine forall_texts.mpr ⟨fun package member => ?_, standalone, connections⟩
      rcases exists_of_mem_modify member with ⟨old, inside, rfl | rfl⟩
      · exact packages package inside
      · obtain ⟨called, members⟩ := List.forall_mem_cons.mp (packages old inside)
        exact List.forall_mem_cons.mpr ⟨called, List.forall_mem_append.mpr
          ⟨members, List.forall_mem_singleton.mpr own⟩⟩

theorem texts_declare {components : Components} {name : Text} (given : Option Text)
    (container : Container) (before : ∀ text ∈ components.texts, holds text) (own : holds name) :
    ∀ text ∈ (components.declare name given container).texts, holds text := by
  change ∀ text ∈ (if (components.aliases.find? name).isSome then components
    else components.place name container).texts, holds text
  split
  · exact before
  · exact texts_place container before own

theorem texts_follow {reading : Reading} {line : Line}
    (before : ∀ text ∈ reading.components.texts, holds text)
    (own : ∀ text ∈ line.texts, holds text) :
    ∀ text ∈ (follow reading line).components.texts, holds text := by
  obtain ⟨packages, standalone, connections⟩ := forall_texts.mp before
  cases line with
  | closing => exact before
  | package name =>
      refine forall_texts.mpr ⟨List.forall_mem_append.mpr ⟨packages, ?_⟩, standalone, connections⟩
      exact List.forall_mem_singleton.mpr own
  | connection read =>
      refine forall_texts.mpr ⟨packages, standalone, List.forall_mem_append.mpr ⟨connections, ?_⟩⟩
      exact List.forall_mem_singleton.mpr (own read.label List.mem_cons_self)
  | component name given =>
      exact texts_declare given reading.container before (own name List.mem_cons_self)

theorem texts_ofLines (lines : List Text) :
    ∀ text ∈ (ofLines lines).texts, text ⊆ lines.flatten := by
  refine List.foldlRecOn (motive := fun reading : Reading =>
    ∀ text ∈ reading.components.texts, text ⊆ lines.flatten) _ follow (List.forall_mem_nil _)
    fun reading before line member => ?_
  exact texts_follow before (subset_flatten_of_read subset_of_read? member)

end Components

namespace Diagram

/-- The texts that are drawn for a diagram and come from its source. -/
def texts : Diagram → List Text
  | sequence read => read.texts
  | classes model => model.texts
  | useCase read => read.texts
  | activity read => read.texts
  | component read => read.texts
  | mindMap map => map.texts
  | gantt schedule => schedule.texts
  | panel _ => []

/-- The texts of a diagram have no characters but those of the lines that it was read from. -/
theorem texts_ofLines {lines : List Text} {diagram : Diagram}
    (success : ofLines lines = .ok diagram) : ∀ text ∈ diagram.texts, text ⊆ lines.flatten := by
  unfold ofLines at success
  cases kind : Kind.classify lines with
  | gantt =>
      rw [kind] at success
      obtain ⟨schedule, read, rfl⟩ := map_eq_ok_iff.mp success
      exact Schedule.texts_ofLines read
  | sequence =>
      cases kind ▸ success
      exact Sequence.texts_ofLines lines
  | classes =>
      cases kind ▸ success
      exact ClassModel.texts_ofLines lines
  | useCase =>
      cases kind ▸ success
      exact UseCases.texts_ofLines lines
  | activity =>
      cases kind ▸ success
      exact Activity.texts_ofLines lines
  | component =>
      cases kind ▸ success
      exact Components.texts_ofLines lines
  | mindMap =>
      cases kind ▸ success
      exact MindMap.texts_ofLines lines
  | panel =>
      cases kind ▸ success
      exact List.forall_mem_nil _

end Diagram

end DiagramSketch
