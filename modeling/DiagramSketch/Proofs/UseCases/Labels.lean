import DiagramSketch.Proofs.UseCases.Links

/-!
# Which labels are registered

A line that declares an actor is not searched for labels, so that a label beside a declaration is
registered only by another line.  The list is nevertheless that of all labels as long as each label
that stands beside a declaration first is the next new one of those that are read.
-/

namespace DiagramSketch.UseCases

/-- A label in parentheses as it stands in a source. -/
structure Mention where
  label : Text
  /-- Whether its line declares an actor. -/
  besideActor : Bool
deriving DecidableEq, Repr

/-- All labels of a source, from left to right and from the first line to the last. -/
def mentions (lines : List Text) : List Mention :=
  (Text.contentLines lines).flatMap fun line =>
    (labelsOf line).map fun label => ⟨label, decide (IsDeclaration line)⟩

/-- The labels that do not stand beside the declaration of an actor. -/
def apart (mentions : List Mention) : List Text :=
  (mentions.filter fun mention => !mention.besideActor).map Mention.label

/-- The label is the first one of the list that is not known. -/
def ComesNext (known : List Text) (label : Text) (labels : List Text) : Prop :=
  ∃ middle rest, labels = middle ++ label :: rest ∧ middle ⊆ known

/-- A label that is first mentioned beside an actor is made up for: it is the next new one of those
that stand apart. -/
def IsMadeUp (mentions : List Mention) : Prop :=
  ∀ earlier label later, mentions = earlier ++ ⟨label, true⟩ :: later →
    label ∉ earlier.map Mention.label → ComesNext (earlier.map Mention.label) label (apart later)

/-! ## Labels that stand apart -/

@[simp] theorem apart_append (first second : List Mention) :
    apart (first ++ second) = apart first ++ apart second := by
  simp [apart]

@[simp] theorem apart_cons (mention : Mention) (mentions : List Mention) :
    apart (mention :: mentions) =
      if mention.besideActor then apart mentions else mention.label :: apart mentions := by
  cases beside : mention.besideActor <;> simp [apart, beside]

theorem apart_subset (mentions : List Mention) : apart mentions ⊆ mentions.map Mention.label :=
  List.map_subset _ (List.filter_subset_self mentions)

theorem map_label_mentions (lines : List Text) :
    (mentions lines).map Mention.label = (Text.contentLines lines).flatMap labelsOf := by
  simp [mentions, List.map_flatMap, Function.comp_def]

theorem apart_mentions (lines : List Text) :
    apart (mentions lines) = ((Text.contentLines lines).filter fun line =>
      decide (¬ IsDeclaration line)).flatMap labelsOf := by
  rw [mentions]
  induction Text.contentLines lines with
  | nil => rfl
  | cons line lines induction =>
      rw [List.flatMap_cons, apart_append, induction]
      by_cases declaration : IsDeclaration line <;>
        simp [apart, declaration, List.filter_map, Function.comp_def]

theorem labels_eq_eraseDups_apart (lines : List Text) :
    (ofLines lines).labels = (apart (mentions lines)).eraseDups := by
  rw [labels_ofLines, statements, List.flatMap_map, apart_mentions]
  refine congrArg List.eraseDups ?_
  induction Text.contentLines lines with
  | nil => rfl
  | cons line lines induction =>
      rw [List.flatMap_cons, labels_read, induction]
      by_cases declaration : IsDeclaration line <;> simp [declaration]

/-- If the labels are the same, one that is first mentioned beside an actor is found again behind
those that stand apart and are known. -/
theorem isMadeUp_of_eraseDups_eq {mentions : List Mention}
    (same : (apart mentions).eraseDups = (mentions.map Mention.label).eraseDups) :
    IsMadeUp mentions := by
  rintro earlier label later rfl fresh
  have freshApart : label ∉ apart earlier := fun member => fresh (apart_subset earlier member)
  simp only [apart_append, apart_cons, if_true, List.map_append, List.map_cons] at same
  obtain ⟨behind, all⟩ := exists_eraseDups_append_cons fresh (later.map Mention.label)
  have listed : label ∈ apart earlier ++ apart later := by
    rw [← List.mem_eraseDups, same, all]
    simp
  have again : label ∈ apart later := (List.mem_append.mp listed).resolve_left freshApart
  obtain ⟨middle, rest, whole, freshMiddle⟩ := List.eq_append_cons_of_mem again
  refine ⟨middle, rest, whole, fun other member => ?_⟩
  have freshBefore : label ∉ apart earlier ++ middle := by simp [freshApart, freshMiddle]
  obtain ⟨behindToo, read⟩ := exists_eraseDups_append_cons freshBefore rest
  rw [whole, ← List.append_assoc, read, all] at same
  obtain ⟨equal, -⟩ := eq_of_append_cons_eq (by simpa using freshBefore) (by simpa using fresh) same
  rw [← List.mem_eraseDups, ← equal, List.mem_eraseDups]
  exact List.mem_append_right _ member

/-- Of the labels that stand apart from a mention on, the first new one is that of the mention. -/
theorem IsMadeUp.comesNext {mentions earlier later : List Mention} {mention : Mention}
    (madeUp : IsMadeUp mentions) (whole : mentions = earlier ++ mention :: later)
    (fresh : mention.label ∉ earlier.map Mention.label) :
    ComesNext (earlier.map Mention.label) mention.label (apart (mention :: later)) := by
  obtain ⟨label, besideActor⟩ := mention
  cases besideActor with
  | false => exact ⟨[], apart later, rfl, List.nil_subset _⟩
  | true => exact madeUp earlier label later whole fresh

/-- As far as the mentions go, the labels that are registered begin with all of theirs. -/
theorem IsMadeUp.isPrefix {mentions : List Mention} (madeUp : IsMadeUp mentions)
    (done : List Mention) (start : done <+: mentions) :
    (done.map Mention.label).eraseDups <+: (apart mentions).eraseDups := by
  induction done using List.reverseRecOn with
  | nil => exact List.nil_prefix
  | append_singleton done mention induction =>
      have before := induction ((List.prefix_append done [mention]).trans start)
      rw [List.map_append, List.map_singleton, eraseDups_append_singleton]
      split
      · exact before
      · next new =>
          have fresh : mention.label ∉ done.map Mention.label := by simpa using new
          obtain ⟨later, rfl⟩ := start
          rw [List.append_assoc, List.singleton_append] at madeUp before ⊢
          obtain ⟨middle, rest, whole, known⟩ := madeUp.comesNext rfl fresh
          rw [apart_append, whole, ← List.append_assoc] at before ⊢
          refine isPrefix_eraseDups_append (by simpa using fresh) ?_ before
          intro other member
          rw [List.mem_eraseDups]
          exact (List.mem_append.mp member).elim (fun inside => apart_subset done inside)
            fun inside => known inside

theorem eraseDups_apart_eq_iff (mentions : List Mention) :
    (apart mentions).eraseDups = (mentions.map Mention.label).eraseDups ↔ IsMadeUp mentions := by
  refine ⟨isMadeUp_of_eraseDups_eq, fun madeUp => Eq.symm ?_⟩
  refine eq_of_isPrefix_of_subset (madeUp.isPrefix mentions (List.prefix_refl _))
    (nodup_eraseDups _) fun label member => ?_
  rw [List.mem_eraseDups] at member ⊢
  exact apart_subset mentions member

/-! ## What is registered -/

/-- The labels of the lines that declare no actor are registered, each of them once and in the order
in which they are found.  These are the labels of all lines exactly if those that stand beside an
actor first are made up for. -/
theorem labels_ofLines_eq_iff (lines : List Text) :
    (∀ line labels, Finds line labels ↔ labels = labelsOf line) ∧
    (ofLines lines).labels = (((Text.contentLines lines).filter fun line =>
      decide (¬ IsDeclaration line)).flatMap labelsOf).eraseDups ∧
    ((ofLines lines).labels = ((Text.contentLines lines).flatMap labelsOf).eraseDups ↔
      IsMadeUp (mentions lines)) := by
  refine ⟨fun line labels => finds_iff, ?_, ?_⟩
  · rw [labels_eq_eraseDups_apart, apart_mentions]
  · rw [labels_eq_eraseDups_apart, ← map_label_mentions]
    exact eraseDups_apart_eq_iff _

/-- The only label stands beside the declaration of an actor, and there is no use case. -/
theorem labels_beside_declaration_ne :
    Finds "actor A (Login)" ["Login"] ∧
    ((Text.contentLines ["actor A (Login)"]).flatMap labelsOf).eraseDups = ["Login"] ∧
    (ofLines ["actor A (Login)"]).labels = [] :=
  ⟨finds_iff.mpr (by decide +kernel), by decide +kernel, by decide +kernel⟩

/-- A label beside a declaration that the next line repeats. -/
example : IsMadeUp (mentions ["actor A (Login)", "(Login) -- A"]) :=
  (eraseDups_apart_eq_iff _).mp (by decide +kernel)

end DiagramSketch.UseCases
