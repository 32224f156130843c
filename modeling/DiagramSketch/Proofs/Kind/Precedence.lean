import DiagramSketch.Kind
import DiagramSketch.Proofs.Text.Joining
import Mathlib.Order.Monotone.Defs

/-!
# The order of precedence

Whatever kind some lines show is shown by them among other lines too.  So the kind of a source only
moves up in the order of precedence while lines are added before and after those that are there.
-/

namespace DiagramSketch

/-- The entries that are tried before one is found are those that stand before it. -/
theorem idxOf_getD_find? {α : Type} [DecidableEq α] {entries : List α} {other : α}
    (distinct : (entries ++ [other]).Nodup) (found : α → Bool) :
    (entries ++ [other]).idxOf ((entries.find? found).getD other) = entries.findIdx found := by
  induction entries with
  | nil => simp
  | cons entry entries induction =>
      obtain ⟨fresh, distinct⟩ := List.nodup_cons.mp distinct
      cases matched : found entry with
      | true => simp [List.findIdx_cons, matched]
      | false =>
          have listed : (entries.find? found).getD other ∈ entries ++ [other] := by
            cases result : entries.find? found with
            | none => exact List.mem_append_right _ (List.mem_singleton.mpr rfl)
            | some value => exact List.mem_append_left _ (List.mem_of_find?_eq_some result)
          have different : entry ≠ (entries.find? found).getD other := fun same =>
            fresh (same ▸ listed)
          rw [List.find?_cons_of_neg (by simp [matched]), List.findIdx_cons, matched,
            List.cons_append, List.idxOf_cons_ne _ different]
          exact congrArg Nat.succ (induction distinct)

namespace Kind

/-- The place of a kind in the order of precedence. -/
def rank (kind : Kind) : Nat :=
  all.idxOf kind

theorem rank_classify (lines : List Text) :
    (classify lines).rank = ruled.findIdx fun kind => kind.shownBy (codeOf lines) :=
  idxOf_getD_find? (by decide : (ruled ++ [panel]).Nodup) _

theorem isInfix_codeOf (before lines after : List Text) :
    codeOf lines <:+: codeOf (before ++ lines ++ after) :=
  (Text.isInfix_intercalate_append [' '] before lines after).flatMap Text.loweredChar

theorem shownBy_of_isInfix {kind : Kind} {code longer : Text} (inside : code <:+: longer)
    (shown : kind.shownBy code = true) : kind.shownBy longer = true := by
  obtain ⟨group, listed, found⟩ := List.any_eq_true.mp shown
  refine List.any_eq_true.mpr ⟨group, listed, List.all_eq_true.mpr fun token member => ?_⟩
  have occurs := Text.occursIn_iff.mp (List.all_eq_true.mp found token member)
  exact Text.occursIn_iff.mpr (occurs.trans inside)

theorem shownBy_append {kind : Kind} (before after : List Text) {lines : List Text}
    (shown : kind.shownBy (codeOf lines) = true) :
    kind.shownBy (codeOf (before ++ lines ++ after)) = true :=
  shownBy_of_isInfix (isInfix_codeOf before lines after) shown

theorem rank_classify_append_le (before lines after : List Text) :
    (classify (before ++ lines ++ after)).rank ≤ (classify lines).rank := by
  rw [rank_classify, rank_classify]
  exact List.findIdx_le_findIdx fun kind _ shown => shownBy_append before after shown

theorem rank_classify_le_of_prefix {earlier later : List Text} (start : earlier <+: later) :
    (classify later).rank ≤ (classify earlier).rank := by
  obtain ⟨after, rfl⟩ := start
  exact rank_classify_append_le [] earlier after

/-- A token of a rule that stands in a line is found among the lines. -/
theorem occursIn_codeOf_of_mem {token line : Text} {lines : List Text} (member : line ∈ lines)
    (inside : token <:+: Text.lowered line) : token.occursIn (codeOf lines) = true := by
  obtain ⟨before, after, rfl⟩ := List.append_of_mem member
  have around := isInfix_codeOf before [line] after
  rw [codeOf, List.intercalate_singleton, List.append_assoc] at around
  exact Text.occursIn_iff.mpr (inside.trans around)

theorem rank_inj {kind other : Kind} (same : kind.rank = other.rank) : kind = other := by
  cases kind <;> cases other <;> first | rfl | cases same

/-- A kind that is shown keeps away those that come after it. -/
theorem rank_classify_le_of_shownBy {kind : Kind} {lines : List Text} (listed : kind ∈ ruled)
    (shown : kind.shownBy (codeOf lines) = true) : (classify lines).rank ≤ kind.rank := by
  have place : ∀ kind ∈ ruled, ruled[kind.rank]? = some kind := by decide
  obtain ⟨bound, there⟩ := List.getElem?_eq_some_iff.mp (place kind listed)
  rw [rank_classify]
  by_contra more
  have unshown := List.not_of_lt_findIdx (not_le.mp more)
  rw [there, shown] at unshown
  cases unshown

/-- Lines are of a kind that they show if they show none that comes before it. -/
theorem classify_eq_of_shownBy {kind : Kind} {lines : List Text} (listed : kind ∈ ruled)
    (shown : kind.shownBy (codeOf lines) = true)
    (first : ∀ earlier : Kind, earlier.rank < kind.rank →
      earlier.shownBy (codeOf lines) = false) : classify lines = kind := by
  have less := rank_classify_le_of_shownBy listed shown
  cases found : ruled.find? fun kind => kind.shownBy (codeOf lines) with
  | none => exact absurd shown (List.find?_eq_none.mp found kind listed)
  | some other =>
      have only : classify lines = other := congrArg (Option.getD · panel) found
      rw [only] at less ⊢
      rcases Nat.lt_or_eq_of_le less with before | same
      · have unshown := first other before
        rw [List.find?_some found] at unshown
        cases unshown
      · exact rank_inj same

/-- A rule that holds of lines holds of them among others, and so their kind never comes later in
the order of precedence for other lines around them, nor for the next line that is written. -/
theorem precedence_append (before lines after : List Text) :
    (∀ kind : Kind, kind.shownBy (codeOf lines) = true →
      kind.shownBy (codeOf (before ++ lines ++ after)) = true) ∧
    (classify (before ++ lines ++ after)).rank ≤ (classify lines).rank ∧
    Antitone fun count => (classify (lines.take count)).rank := by
  refine ⟨fun kind => shownBy_append before after, rank_classify_append_le before lines after, ?_⟩
  intro count more less
  exact rank_classify_le_of_prefix (List.take_prefix_take_left less)

/-- An arrow shows a sequence wherever it stands.  With a bracket before it and a package after it,
the source moves up to a component diagram. -/
theorem precedence_append_arrow :
    let before : List Text := ["[A]"]
    let lines : List Text := ["A -> B"]
    let after : List Text := ["package P"]
    let around := before ++ lines ++ after
    sequence.shownBy (codeOf lines) = true ∧ sequence.shownBy (codeOf around) = true ∧
      (classify around).rank ≤ (classify lines).rank ∧
      classify lines = sequence ∧ classify around = component ∧
      (Antitone fun count => (classify (around.take count)).rank) ∧
      ((List.range 4).map fun count => classify (around.take count)) =
        [panel, panel, sequence, component] := by
  intro before lines after around
  have shown : sequence.shownBy (codeOf lines) = true := by decide +kernel
  obtain ⟨kept, less, -⟩ := precedence_append before lines after
  obtain ⟨-, -, typed⟩ := precedence_append [] around []
  refine ⟨shown, kept sequence shown, less, ?_, ?_, typed, ?_⟩
  all_goals decide +kernel

end Kind

end DiagramSketch
