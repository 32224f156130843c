import DiagramSketch.Proofs.Results

/-!
# Lists that grow

A list grows when entries are added at its end and none of those that are there is dropped or
moved.  What is there may change as far as a relation allows.  The relation between two states that
every step keeps is kept by a run.
-/

namespace DiagramSketch

variable {α β ε σ : Type}

/-- The later list has the entries of the earlier one at its start, each as the relation allows. -/
inductive GrowsInto (relation : α → α → Prop) : List α → List α → Prop where
  | start (added : List α) : GrowsInto relation [] added
  | keep {entry other : α} {earlier later : List α} :
      relation entry other → GrowsInto relation earlier later →
        GrowsInto relation (entry :: earlier) (other :: later)

namespace GrowsInto

variable {relation : α → α → Prop} {earlier later : List α}

theorem append_right (reflexive : ∀ entry, relation entry entry)
    (entries added : List α) : GrowsInto relation entries (entries ++ added) := by
  induction entries with
  | nil => exact .start added
  | cons entry entries induction => exact .keep (reflexive entry) induction

theorem refl (reflexive : ∀ entry, relation entry entry) (entries : List α) :
    GrowsInto relation entries entries := by
  have whole := append_right reflexive entries []
  rwa [List.append_nil] at whole

theorem trans
    (transitive : ∀ first second third, relation first second → relation second third →
      relation first third)
    {latest : List α} (first : GrowsInto relation earlier later)
    (second : GrowsInto relation later latest) : GrowsInto relation earlier latest := by
  induction first generalizing latest with
  | start added => exact .start latest
  | keep related rest induction =>
      cases second with
      | keep next others => exact .keep (transitive _ _ _ related next) (induction others)

theorem map {change : α → α} {entries : List α}
    (each : ∀ entry ∈ entries, relation entry (change entry)) :
    GrowsInto relation entries (entries.map change) := by
  induction entries with
  | nil => exact .start []
  | cons entry entries induction =>
      apply GrowsInto.keep (each entry List.mem_cons_self)
      apply induction
      intro other member
      exact each other (List.mem_cons_of_mem entry member)

theorem modify (reflexive : ∀ entry, relation entry entry) {change : α → α}
    (each : ∀ entry, relation entry (change entry)) (entries : List α) (index : Nat) :
    GrowsInto relation entries (entries.modify index change) := by
  induction entries generalizing index with
  | nil =>
      rw [List.modify_nil]
      exact .start []
  | cons entry entries induction =>
      cases index with
      | zero => exact .keep (each entry) (refl reflexive entries)
      | succ index => exact .keep (reflexive entry) (induction index)

theorem length_le (grows : GrowsInto relation earlier later) : earlier.length ≤ later.length := by
  induction grows with
  | start added => exact Nat.zero_le _
  | keep _ _ induction => exact Nat.succ_le_succ induction

theorem exists_of_mem (grows : GrowsInto relation earlier later) {entry : α}
    (member : entry ∈ earlier) : ∃ other ∈ later, relation entry other := by
  induction grows with
  | start added => cases member
  | @keep first other earlier later related rest induction =>
      rcases List.mem_cons.mp member with rfl | inside
      · exact ⟨other, List.mem_cons_self, related⟩
      · obtain ⟨found, listed, holds⟩ := induction inside
        exact ⟨found, List.mem_cons_of_mem other listed, holds⟩

/-- What the relation leaves alone makes a prefix. -/
theorem prefix_map (grows : GrowsInto relation earlier later) {part : α → β}
    (same : ∀ entry other, relation entry other → part entry = part other) :
    earlier.map part <+: later.map part := by
  induction grows with
  | start added => exact List.nil_prefix
  | keep related rest induction =>
      rw [List.map_cons, List.map_cons, same _ _ related]
      exact List.cons_prefix_cons.mpr ⟨rfl, induction⟩

end GrowsInto

/-! ## Runs -/

theorem relates_foldl (relation : σ → σ → Prop) (reflexive : ∀ state, relation state state)
    (transitive : ∀ {first second third}, relation first second → relation second third →
      relation first third)
    {step : σ → α → σ} (each : ∀ state entry, relation state (step state entry))
    (start : σ) (entries : List α) : relation start (entries.foldl step start) := by
  induction entries generalizing start with
  | nil => exact reflexive start
  | cons entry entries induction => exact transitive (each start entry) (induction _)

theorem relates_foldlM (relation : σ → σ → Prop) (reflexive : ∀ state, relation state state)
    (transitive : ∀ {first second third}, relation first second → relation second third →
      relation first third)
    {step : σ → α → Except ε σ} {entries : List α}
    (each : ∀ state next, ∀ entry ∈ entries, step state entry = .ok next → relation state next)
    {start final : σ} (success : entries.foldlM step start = .ok final) :
    relation start final := by
  induction entries generalizing start with
  | nil =>
      cases success
      exact reflexive final
  | cons entry entries induction =>
      rw [List.foldlM_cons] at success
      obtain ⟨next, stepped, rest⟩ := bind_eq_ok_iff.mp success
      apply transitive (each _ next entry List.mem_cons_self stepped)
      apply induction _ rest
      intro state reached other member
      exact each state reached other (List.mem_cons_of_mem entry member)

theorem foldlM_append_eq_ok_iff {step : σ → α → Except ε σ} {first second : List α}
    {start final : σ} : (first ++ second).foldlM step start = .ok final ↔
      ∃ middle, first.foldlM step start = .ok middle ∧ second.foldlM step middle = .ok final := by
  rw [List.foldlM_append]
  exact bind_eq_ok_iff

end DiagramSketch
