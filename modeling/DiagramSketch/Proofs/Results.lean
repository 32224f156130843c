import Mathlib

/-!
# Lists of results

A list is gone through with a step that may fail, and the results are collected.  The whole
succeeds exactly when every step does, and then the results stand beside the entries in order;
otherwise it fails as the step for one of the entries does.  A state that is taken through a list
grows by no more than all steps together.
-/

namespace DiagramSketch

variable {α β γ δ ε σ : Type}

theorem exists_right_of_mem {relation : α → β → Prop} {lefts : List α} {rights : List β}
    (related : List.Forall₂ relation lefts rights) {left : α} (member : left ∈ lefts) :
    ∃ right ∈ rights, relation left right := by
  induction related with
  | nil => cases member
  | @cons head other lefts rights first rest induction =>
      rcases List.mem_cons.mp member with rfl | later
      · exact ⟨other, List.mem_cons_self, first⟩
      · obtain ⟨right, inside, holds⟩ := induction later
        exact ⟨right, List.mem_cons_of_mem other inside, holds⟩

theorem exists_left_of_mem {relation : α → β → Prop} {lefts : List α} {rights : List β}
    (related : List.Forall₂ relation lefts rights) {right : β} (member : right ∈ rights) :
    ∃ left ∈ lefts, relation left right :=
  exists_right_of_mem related.flip member

/-- Related entries that agree under two functions make equal lists. -/
theorem map_eq_map_of_forall₂ {relation : α → β → Prop} {left : α → γ} {right : β → γ}
    {entries : List α} {results : List β} (related : List.Forall₂ relation entries results)
    (same : ∀ entry result, relation entry result → right result = left entry) :
    results.map right = entries.map left := by
  induction related with
  | nil => rfl
  | cons first rest induction => rw [List.map_cons, List.map_cons, same _ _ first, induction]

theorem bind_eq_ok_iff {first : Except ε α} {next : α → Except ε β} {value : β} :
    first.bind next = .ok value ↔ ∃ found, first = .ok found ∧ next found = .ok value := by
  cases first with
  | error fault => simp [Except.bind]
  | ok found => simp [Except.bind]

theorem map_eq_ok_iff {first : Except ε α} {function : α → β} {value : β} :
    first.map function = .ok value ↔ ∃ found, first = .ok found ∧ function found = value := by
  cases first with
  | error fault => simp [Except.map]
  | ok found => simp [Except.map]

theorem mapError_eq_ok_iff {first : Except ε α} {change : ε → δ} {value : α} :
    first.mapError change = .ok value ↔ first = .ok value := by
  cases first with
  | error fault => simp [Except.mapError]
  | ok found => simp [Except.mapError]

theorem mapError_eq_error_iff {first : Except ε α} {change : ε → δ} {fault : δ} :
    first.mapError change = .error fault ↔
      ∃ cause, first = .error cause ∧ change cause = fault := by
  cases first with
  | error cause => simp [Except.mapError]
  | ok found => simp [Except.mapError]

/-- What follows a result that has only one value, under a condition. -/
theorem bind_eq_ok_iff_of_only {first : Except ε α} {condition : Prop} {only : α}
    (unique : ∀ value, first = .ok value ↔ condition ∧ value = only)
    {next : α → Except ε β} {result : β} (found : next only = .ok result) {value : β} :
    first.bind next = .ok value ↔ condition ∧ value = result := by
  rw [bind_eq_ok_iff]
  constructor
  · rintro ⟨middle, reached, success⟩
    obtain ⟨holds, rfl⟩ := (unique middle).mp reached
    rw [found] at success
    exact ⟨holds, (Except.ok.inj success).symm⟩
  · rintro ⟨holds, rfl⟩
    exact ⟨only, (unique only).mpr ⟨holds, rfl⟩, found⟩

theorem map_eq_ok_iff_of_only {first : Except ε α} {condition : Prop} {only : α}
    (unique : ∀ value, first = .ok value ↔ condition ∧ value = only) {function : α → β}
    {value : β} : first.map function = .ok value ↔ condition ∧ value = function only := by
  rw [map_eq_ok_iff]
  constructor
  · rintro ⟨middle, reached, rfl⟩
    obtain ⟨holds, rfl⟩ := (unique middle).mp reached
    exact ⟨holds, rfl⟩
  · rintro ⟨holds, rfl⟩
    exact ⟨only, (unique only).mpr ⟨holds, rfl⟩, rfl⟩

theorem bind_eq_error_iff {first : Except ε α} {next : α → Except ε β} {fault : ε} :
    first.bind next = .error fault ↔
      first = .error fault ∨ ∃ found, first = .ok found ∧ next found = .error fault := by
  cases first with
  | error other => simp [Except.bind]
  | ok found => simp [Except.bind]

theorem map_eq_error_iff {first : Except ε α} {function : α → β} {fault : ε} :
    first.map function = .error fault ↔ first = .error fault := by
  cases first with
  | error other => simp [Except.map]
  | ok found => simp [Except.map]

/-- The results of a list stand beside its entries. -/
theorem mapM_eq_ok_iff {step : α → Except ε β} {entries : List α} {results : List β} :
    entries.mapM step = .ok results ↔
      List.Forall₂ (fun entry result => step entry = .ok result) entries results := by
  induction entries generalizing results with
  | nil =>
      rw [List.mapM_nil, List.forall₂_nil_left_iff]
      exact ⟨fun equal => by cases equal; rfl, fun equal => by rw [equal]; rfl⟩
  | cons entry entries induction =>
      rw [List.mapM_cons]
      constructor
      · intro success
        obtain ⟨result, found, success⟩ := bind_eq_ok_iff.mp success
        obtain ⟨others, rest, success⟩ := bind_eq_ok_iff.mp success
        cases success
        exact .cons found (induction.mp rest)
      · intro related
        cases related with
        | cons found rest =>
            exact bind_eq_ok_iff.mpr ⟨_, found, bind_eq_ok_iff.mpr ⟨_, induction.mpr rest, rfl⟩⟩

theorem exists_mapM_eq_ok (step : α → Except ε β) (entries : List α)
    (each : ∀ entry ∈ entries, ∃ result, step entry = .ok result) :
    ∃ results, entries.mapM step = .ok results := by
  induction entries with
  | nil => exact ⟨[], rfl⟩
  | cons entry entries induction =>
      obtain ⟨result, found⟩ := each entry List.mem_cons_self
      obtain ⟨results, rest⟩ := induction fun other member =>
        each other (List.mem_cons_of_mem entry member)
      exact ⟨result :: results, mapM_eq_ok_iff.mpr (.cons found (mapM_eq_ok_iff.mp rest))⟩

theorem mapM_eq_ok_map (step : α → Except ε β) (result : α → β) (entries : List α)
    (each : ∀ entry ∈ entries, step entry = .ok (result entry)) :
    entries.mapM step = .ok (entries.map result) := by
  rw [mapM_eq_ok_iff, List.forall₂_map_right_iff, List.forall₂_same]
  exact each

theorem exists_of_mapM_eq_error {step : α → Except ε β} {entries : List α} {fault : ε}
    (failure : entries.mapM step = .error fault) :
    ∃ entry ∈ entries, step entry = .error fault := by
  induction entries with
  | nil => cases failure
  | cons entry entries induction =>
      rw [List.mapM_cons] at failure
      rcases bind_eq_error_iff.mp failure with first | ⟨result, found, later⟩
      · exact ⟨entry, List.mem_cons_self, first⟩
      · rcases bind_eq_error_iff.mp later with rest | ⟨results, rest, done⟩
        · obtain ⟨other, member, failed⟩ := induction rest
          exact ⟨other, List.mem_cons_of_mem entry member, failed⟩
        · cases done

/-- Where entries can only fail in one way and one of them does, so does the list. -/
theorem filterMap_eq_map_filter {keep : α → Option β} {test : α → Bool} {result : α → β}
    (each : ∀ entry, keep entry = if test entry then some (result entry) else none)
    (entries : List α) : entries.filterMap keep = (entries.filter test).map result := by
  induction entries with
  | nil => rfl
  | cons entry entries induction =>
      rw [List.filterMap_cons, each entry, List.filter_cons, induction]
      cases test entry with
      | true => rfl
      | false => rfl

/-- What is written entry by entry is read entry by entry. -/
theorem filterMap_map_eq_map {read : β → Option γ} {written : α → β} {result : α → γ}
    {entries : List α} (each : ∀ entry ∈ entries, read (written entry) = some (result entry)) :
    (entries.map written).filterMap read = entries.map result := by
  rw [List.filterMap_map, ← List.filterMap_eq_map]
  exact List.filterMap_congr each

/-- What is read of related entries, one by one, is what was to be read. -/
theorem filterMap_eq_map_of_forall₂ {relation : α → β → Prop} {read : β → Option γ}
    {result : α → γ} {entries : List α} {results : List β}
    (related : List.Forall₂ relation entries results)
    (each : ∀ entry ∈ entries, ∀ found, relation entry found → read found = some (result entry)) :
    results.filterMap read = entries.map result := by
  induction related with
  | nil => rfl
  | cons first rest induction =>
      obtain ⟨own, others⟩ := List.forall_mem_cons.mp each
      rw [List.filterMap_cons_some (own _ first), List.map_cons, induction others]

theorem forall₂_and_mem {relation : α → β → Prop} {lefts : List α} {rights : List β}
    (related : List.Forall₂ relation lefts rights) :
    List.Forall₂ (fun left right => relation left right ∧ left ∈ lefts ∧ right ∈ rights)
      lefts rights := by
  obtain ⟨lengths, each⟩ := List.forall₂_iff_get.mp related
  refine List.forall₂_iff_get.mpr ⟨lengths, fun index first second => ?_⟩
  exact ⟨each index first second, List.get_mem _ _, List.get_mem _ _⟩

/-- Lists whose entries look the same are the same, where entries that look the same are. -/
theorem eq_of_map_eq {look : α → β} {lefts rights : List α}
    (same : lefts.map look = rights.map look)
    (each : ∀ left ∈ lefts, ∀ right ∈ rights, look left = look right → left = right) :
    lefts = rights := by
  rw [← List.forall₂_eq_eq_eq, List.forall₂_map_left_iff, List.forall₂_map_right_iff] at same
  rw [← List.forall₂_eq_eq_eq]
  refine (forall₂_and_mem same).imp fun left right ⟨looks, member, otherMember⟩ => ?_
  exact each left member right otherMember looks

/-- Entries stand beside one another where what they are related to looks the same. -/
theorem forall₂_of_map_eq {δ : Type} {relation : α → β → Prop} {otherRelation : γ → β → Prop}
    {goal : α → γ → Prop} {look : β → δ} {lefts : List α} {rights : List γ} {firsts lasts : List β}
    (left : List.Forall₂ relation lefts firsts) (right : List.Forall₂ otherRelation rights lasts)
    (same : firsts.map look = lasts.map look)
    (each : ∀ first ∈ firsts, ∀ last ∈ lasts, ∀ entry other, look first = look last →
      relation entry first → otherRelation other last → goal entry other) :
    List.Forall₂ goal lefts rights := by
  rw [← List.forall₂_eq_eq_eq, List.forall₂_map_left_iff, List.forall₂_map_right_iff] at same
  obtain ⟨leftLength, left⟩ := List.forall₂_iff_get.mp left
  obtain ⟨rightLength, right⟩ := List.forall₂_iff_get.mp right
  obtain ⟨sameLength, beside⟩ := List.forall₂_iff_get.mp same
  refine List.forall₂_iff_get.mpr ⟨by omega, fun index first second => ?_⟩
  exact each _ (List.get_mem _ _) _ (List.get_mem _ _) _ _ (beside index (by omega) (by omega))
    (left index first (by omega)) (right index second (by omega))

/-- The results of a reader stand beside the entries that it can read. -/
theorem forall₂_filter_filterMap_of_mem {relation : α → β → Prop} {read : α → Option β}
    {test : α → Bool} {entries : List α}
    (each : ∀ entry ∈ entries, test entry = true ↔ (read entry).isSome = true)
    (related : ∀ entry ∈ entries, ∀ result, read entry = some result → relation entry result) :
    List.Forall₂ relation (entries.filter test) (entries.filterMap read) := by
  induction entries with
  | nil => exact .nil
  | cons entry entries induction =>
      obtain ⟨tells, eachOther⟩ := List.forall_mem_cons.mp each
      obtain ⟨relates, relatedOther⟩ := List.forall_mem_cons.mp related
      cases found : read entry with
      | none =>
          have refused : ¬ test entry = true := by simp [tells, found]
          rw [List.filter_cons_of_neg refused, List.filterMap_cons_none found]
          exact induction eachOther relatedOther
      | some result =>
          have tested : test entry = true := by simp [tells, found]
          rw [List.filter_cons_of_pos tested, List.filterMap_cons_some found]
          exact .cons (relates result found) (induction eachOther relatedOther)

theorem forall₂_filter_filterMap {relation : α → β → Prop} {read : α → Option β}
    {test : α → Bool} (each : ∀ entry, test entry = true ↔ (read entry).isSome = true)
    (related : ∀ entry result, read entry = some result → relation entry result)
    (entries : List α) : List.Forall₂ relation (entries.filter test) (entries.filterMap read) :=
  forall₂_filter_filterMap_of_mem (fun entry _ => each entry) fun entry _ => related entry

theorem zip_map_range (entries : List α) (place : Nat → β) :
    entries.zip ((List.range entries.length).map place) =
      entries.zipIdx.map fun (entry, index) => (entry, place index) := by
  rw [List.zipIdx_eq_zip_range', List.range_eq_range', List.zip_map_right]
  rfl

/-- Where the numbers of entries do not matter, they can be left out. -/
theorem map_zipIdx (numbered : α × Nat → β) (plain : α → β)
    (each : ∀ entry, numbered entry = plain entry.1) (entries : List α) :
    entries.zipIdx.map numbered = entries.map plain := by
  have own := congrArg (List.map plain) (List.zipIdx_map_fst 0 entries)
  rw [List.map_map] at own
  exact (List.map_congr_left fun entry _ => each entry).trans own

/-- Changing the entry with a number is changing it by its number. -/
theorem modify_map_zipIdx (result : α × Nat → β) (entries : List α) (index : Nat)
    (change : β → β) : (entries.zipIdx.map result).modify index change =
      entries.zipIdx.map fun entry =>
        if index = entry.2 then change (result entry) else result entry := by
  apply List.ext_getElem?
  intro number
  rw [List.getElem?_modify, List.getElem?_map, List.getElem?_map, List.getElem?_zipIdx]
  cases entries[number]? with
  | none => rfl
  | some entry =>
      rw [Nat.zero_add]
      rfl

/-- What is asked of two entries of which the first has the smaller number. -/
theorem pairwise_zipIdx {relation : α × Nat → α × Nat → Prop} {entries : List α}
    (each : ∀ first ∈ entries.zipIdx, ∀ second ∈ entries.zipIdx, first.2 < second.2 →
      relation first second) : entries.zipIdx.Pairwise relation := by
  rw [List.pairwise_iff_getElem]
  intro index other inside otherInside before
  apply each _ (List.getElem_mem inside) _ (List.getElem_mem otherInside)
  rw [List.getElem_zipIdx, List.getElem_zipIdx, Nat.zero_add, Nat.zero_add]
  exact before

theorem nodup_append_singleton {entries : List α} {entry : α} (distinct : entries.Nodup)
    (fresh : entry ∉ entries) : (entries ++ [entry]).Nodup := by
  rw [← List.concat_eq_append]
  exact distinct.concat fresh

/-- Where candidates are in the order of their size, the first one that can be read is the smallest
one that can be read. -/
theorem findSome?_eq_some_iff_of_pairwise {read : α → Option β} {size : α → Nat}
    {candidates : List α} {result : β}
    (ascending : candidates.Pairwise fun first second => size first < size second) :
    candidates.findSome? read = some result ↔
      ∃ candidate ∈ candidates, read candidate = some result ∧
        ∀ other ∈ candidates, (read other).isSome = true → size candidate ≤ size other := by
  rw [List.findSome?_eq_some_iff]
  constructor
  · rintro ⟨before, candidate, after, rfl, found, refused⟩
    obtain ⟨-, later, -⟩ := List.pairwise_append.mp ascending
    obtain ⟨behind, -⟩ := List.pairwise_cons.mp later
    refine ⟨candidate, List.mem_append_right before List.mem_cons_self, found, ?_⟩
    intro other member readable
    rcases List.mem_append.mp member with early | late
    · rw [refused other early] at readable
      cases readable
    · rcases List.mem_cons.mp late with rfl | late
      · exact le_refl _
      · exact (behind other late).le
  · rintro ⟨candidate, member, found, least⟩
    obtain ⟨before, after, rfl⟩ := List.append_of_mem member
    refine ⟨before, candidate, after, rfl, found, fun other early => ?_⟩
    obtain ⟨-, -, across⟩ := List.pairwise_append.mp ascending
    have smaller := across other early candidate List.mem_cons_self
    by_contra readable
    have bound := least other (List.mem_append_left _ early)
      (Option.isSome_iff_ne_none.mpr readable)
    omega

/-! ## First occurrences -/

section FirstOccurrences

variable {entry : α} {entries others before : List α}

theorem eq_of_isPrefix_of_subset (start : entries <+: others) (distinct : others.Nodup)
    (known : others ⊆ entries) : entries = others :=
  start.eq_of_length_le (List.subperm_of_subset distinct known).length_le

theorem isPrefix_of_isPrefix_append_cons {behind : List α}
    (start : entries <+: before ++ entry :: behind) (fresh : entry ∉ entries) :
    entries <+: before := by
  obtain ⟨rest, whole⟩ := start
  rcases List.append_eq_append_iff.mp whole with ⟨more, same, -⟩ | ⟨more, same, left⟩
  · exact ⟨more, same.symm⟩
  · rcases List.cons_eq_append_iff.mp left with ⟨rfl, -⟩ | ⟨between, rfl, -⟩
    · rw [same, List.append_nil]
    · exact absurd (same ▸ List.mem_append_right before List.mem_cons_self) fresh

variable [BEq α] [LawfulBEq α]

theorem eraseDups_append_singleton (entries : List α) (entry : α) :
    (entries ++ [entry]).eraseDups =
      if entries.eraseDups.contains entry then entries.eraseDups
      else entries.eraseDups ++ [entry] := by
  rw [List.eraseDups_append]
  by_cases member : entry ∈ entries <;> simp [List.removeAll, List.eraseDups_cons, member]

theorem nodup_eraseDups (entries : List α) : entries.eraseDups.Nodup := by
  induction entries using List.reverseRecOn with
  | nil => exact List.nodup_nil
  | append_singleton entries entry induction =>
      rw [eraseDups_append_singleton]
      split
      · exact induction
      · next fresh => exact nodup_append_singleton induction (by simpa using fresh)

theorem eraseDups_eq_self {entries : List α} (distinct : entries.Nodup) :
    entries.eraseDups = entries := by
  induction entries using List.reverseRecOn with
  | nil => rfl
  | append_singleton entries entry induction =>
      obtain ⟨before, -, apart⟩ := List.nodup_append'.mp distinct
      have fresh : entry ∉ entries := fun member => apart member (List.mem_singleton.mpr rfl)
      rw [eraseDups_append_singleton, induction before, if_neg (by simpa using fresh)]

/-- What is there already adds nothing. -/
theorem eraseDups_append_of_subset {entries others : List α} (distinct : entries.Nodup)
    (known : others ⊆ entries) : (entries ++ others).eraseDups = entries := by
  have none : others.removeAll entries = [] := by
    refine List.filter_eq_nil_iff.mpr fun entry member => ?_
    simpa using known member
  rw [List.eraseDups_append, eraseDups_eq_self distinct, none]
  exact List.append_nil entries

theorem exists_eraseDups_append_cons (fresh : entry ∉ before) (after : List α) :
    ∃ behind, (before ++ entry :: after).eraseDups = before.eraseDups ++ entry :: behind := by
  have kept : (entry :: after).removeAll before = entry :: after.removeAll before := by
    simp [List.removeAll, fresh]
  exact ⟨_, by rw [List.eraseDups_append, kept, List.eraseDups_cons]⟩

/-- An entry that follows on known ones is the next of those that occur first. -/
theorem isPrefix_eraseDups_append (fresh : entry ∉ entries) (known : before ⊆ entries)
    {after : List α}
    (start : entries <+: (before ++ entry :: after).eraseDups) :
    entries ++ [entry] <+: (before ++ entry :: after).eraseDups := by
  have freshBefore : entry ∉ before := fun member => fresh (known member)
  obtain ⟨behind, whole⟩ := exists_eraseDups_append_cons freshBefore after
  rw [whole] at start ⊢
  have same : entries = before.eraseDups :=
    eq_of_isPrefix_of_subset (isPrefix_of_isPrefix_append_cons start fresh) (nodup_eraseDups before)
      fun other member => known (List.mem_eraseDups.mp member)
  exact ⟨behind, by rw [same, List.append_assoc]; rfl⟩

end FirstOccurrences

theorem modify_append_singleton (entries : List α) (entry : α) (change : α → α) :
    (entries ++ [entry]).modify entries.length change = entries ++ [change entry] := by
  induction entries with
  | nil => rfl
  | cons first entries induction =>
      rw [List.cons_append, List.length_cons, List.modify_succ_cons, induction, List.cons_append]

theorem exists_of_mem_modify {entries : List α} {index : Nat} {change : α → α} {entry : α}
    (member : entry ∈ entries.modify index change) :
    ∃ old ∈ entries, entry = old ∨ entry = change old := by
  obtain ⟨place, found⟩ := List.getElem?_of_mem member
  rw [List.getElem?_modify] at found
  obtain ⟨old, listed, rfl⟩ := Option.map_eq_some_iff.mp found
  refine ⟨old, List.mem_of_getElem? listed, ?_⟩
  by_cases here : index = place
  · exact .inr (if_pos here)
  · exact .inl (if_neg here)

/-! ## States -/

/-- What holds of a state after a number of steps holds after all of them. -/
theorem foldl_counts (holds : Nat → σ → Prop) {step : σ → α → σ} (start : σ) (entries : List α)
    (each : ∀ count state, ∀ entry ∈ entries, holds count state →
      holds (count + 1) (step state entry)) (initial : holds 0 start) :
    holds entries.length (entries.foldl step start) := by
  have onward (done : Nat) (state : σ) (reached : holds done state) :
      holds (done + entries.length) (entries.foldl step state) := by
    induction entries generalizing done state with
    | nil => exact reached
    | cons entry entries induction =>
        have first := each done state entry List.mem_cons_self reached
        have rest := induction (fun count state other member =>
          each count state other (List.mem_cons_of_mem entry member)) _ _ first
        rwa [Nat.add_right_comm] at rest
  have whole := onward 0 start initial
  rwa [Nat.zero_add] at whole

/-- What holds of a state after a number of steps that succeed holds after all of them. -/
theorem foldlM_counts (holds : Nat → σ → Prop) {step : σ → α → Except ε σ} {final : σ} (start : σ)
    (entries : List α) (each : ∀ count state next, ∀ entry ∈ entries, holds count state →
      step state entry = .ok next → holds (count + 1) next) (initial : holds 0 start) :
    entries.foldlM step start = .ok final → holds entries.length final := by
  have onward (done : Nat) (state : σ) (reached : holds done state)
      (success : entries.foldlM step state = .ok final) : holds (done + entries.length) final := by
    induction entries generalizing done state with
    | nil =>
        cases success
        exact reached
    | cons entry entries induction =>
        rw [List.foldlM_cons] at success
        obtain ⟨next, stepped, rest⟩ := bind_eq_ok_iff.mp success
        have first := each done state next entry List.mem_cons_self reached stepped
        have whole := induction (fun count state next other member =>
          each count state next other (List.mem_cons_of_mem entry member)) _ _ first rest
        rwa [Nat.add_right_comm] at whole
  intro success
  have whole := onward 0 start initial success
  rwa [Nat.zero_add] at whole

/-- A list to which every step adds something at the end has all of it in order. -/
theorem foldl_flatMap (listed : σ → List γ) (adds : α → List γ) {step : σ → α → σ}
    (each : ∀ state entry, listed (step state entry) = listed state ++ adds entry)
    (start : σ) (entries : List α) :
    listed (entries.foldl step start) = listed start ++ entries.flatMap adds := by
  have appended : entries.foldl (fun found entry => found ++ adds entry) (listed start) =
      listed (entries.foldl step start) :=
    List.foldl_hom listed fun state entry => (each state entry).symm
  rw [← appended, List.foldl_append_eq_append, List.flatMap_def]

/-- A list to which every step adds what is mentioned, unless it is there, has what is mentioned in
all steps, in the order in which it is mentioned first. -/
theorem foldl_eraseDups [BEq γ] (listed : σ → List γ) (mentions : α → List γ) {step : σ → α → σ}
    (each : ∀ state entry mentioned, listed state = mentioned.eraseDups →
      listed (step state entry) = (mentioned ++ mentions entry).eraseDups)
    {start : σ} (mentioned : List γ) (initial : listed start = mentioned.eraseDups)
    (entries : List α) :
    listed (entries.foldl step start) = (mentioned ++ entries.flatMap mentions).eraseDups := by
  induction entries generalizing start mentioned with
  | nil =>
      rw [List.flatMap_nil, List.append_nil]
      exact initial
  | cons entry entries induction =>
      rw [List.flatMap_cons, ← List.append_assoc]
      exact induction _ (each start entry mentioned initial)

/-- The same for steps that can fail. -/
theorem foldlM_eraseDups [BEq γ] (listed : σ → List γ) (mentions : α → List γ)
    {step : σ → α → Except ε σ}
    (each : ∀ state next entry mentioned, listed state = mentioned.eraseDups →
      step state entry = .ok next → listed next = (mentioned ++ mentions entry).eraseDups)
    {start final : σ} (mentioned : List γ) (initial : listed start = mentioned.eraseDups)
    {entries : List α} (success : entries.foldlM step start = .ok final) :
    listed final = (mentioned ++ entries.flatMap mentions).eraseDups := by
  induction entries generalizing start mentioned with
  | nil =>
      cases success
      rw [List.flatMap_nil, List.append_nil]
      exact initial
  | cons entry entries induction =>
      rw [List.foldlM_cons] at success
      obtain ⟨next, stepped, rest⟩ := bind_eq_ok_iff.mp success
      rw [List.flatMap_cons, ← List.append_assoc]
      exact induction _ (each start next entry mentioned initial stepped) rest

/-- Where an entry is refused in every state or in none, the first one that is refused decides. -/
theorem foldlM_eq_error_iff {step : σ → α → Except ε σ} {refusal : α → Option ε} {entries : List α}
    (each : ∀ state entry fault, step state entry = .error fault ↔ refusal entry = some fault)
    {start : σ} {fault : ε} :
    entries.foldlM step start = .error fault ↔ entries.findSome? refusal = some fault := by
  induction entries generalizing start with
  | nil => exact iff_of_false (fun failure => by cases failure) (fun found => by cases found)
  | cons entry entries induction =>
      rw [List.foldlM_cons, List.findSome?_cons]
      cases stepped : step start entry with
      | error other =>
          rw [(each start entry other).mp stepped]
          exact ⟨fun same => by cases same; rfl, fun same => by cases same; rfl⟩
      | ok next =>
          have accepted : refusal entry = none := by
            cases refused : refusal entry with
            | none => rfl
            | some other =>
                rw [(each start entry other).mpr refused] at stepped
                cases stepped
          rw [accepted]
          exact induction

/-- Of entries with different values, a filter that lets one value through keeps one at most. -/
theorem length_filter_le_one [DecidableEq β] {entries : List α} {keeps : α → Bool}
    (view : α → β) (value : β) (distinct : (entries.map view).Nodup)
    (tells : ∀ entry ∈ entries, keeps entry = true → view entry = value) :
    (entries.filter keeps).length ≤ 1 :=
  calc (entries.filter keeps).length
      _ = entries.countP keeps := List.countP_eq_length_filter.symm
      _ ≤ entries.countP ((· == value) ∘ view) :=
        List.countP_mono_left fun entry member kept => beq_iff_eq.mpr (tells entry member kept)
      _ = (entries.map view).count value := List.countP_map.symm
      _ ≤ 1 := List.nodup_iff_count_le_one.mp distinct value

end DiagramSketch
