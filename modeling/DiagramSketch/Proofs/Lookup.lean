import DiagramSketch.Lookup
import DiagramSketch.Proofs.Results

/-!
# Keyed entries and what was assigned

Assigning never uses a name twice and never makes up an entry, so a name is found exactly when
something was assigned to it, and what is found is something that was.
-/

namespace DiagramSketch.Keyed

variable {α : Type}

theorem mem_of_find? {name : Text} {entries : Keyed α} {value : α}
    (found : entries.find? name = some value) : (name, value) ∈ entries := by
  induction entries with
  | nil => cases found
  | cons entry entries induction =>
      obtain ⟨other, old⟩ := entry
      unfold find? at found
      split at found
      · next same =>
          cases found
          rw [same]
          exact List.mem_cons_self
      · exact List.mem_cons_of_mem _ (induction found)

theorem find?_isSome_iff {name : Text} {entries : Keyed α} :
    (entries.find? name).isSome = true ↔ name ∈ entries.names := by
  induction entries with
  | nil => simp [find?, names]
  | cons entry entries induction =>
      obtain ⟨other, old⟩ := entry
      by_cases same : other = name
      · simp [find?, names, same]
      · simp only [names] at induction
        simp [find?, names, same, Ne.symm same, induction]

theorem exists_find?_iff {name : Text} {entries : Keyed α} :
    (∃ value, entries.find? name = some value) ↔ name ∈ entries.names := by
  rw [← find?_isSome_iff, Option.isSome_iff_exists]

theorem mem_of_mem_assign {name : Text} {value : α} {entries : Keyed α} {entry : Text × α}
    (member : entry ∈ entries.assign name value) : entry = (name, value) ∨ entry ∈ entries := by
  induction entries with
  | nil => exact .inl (List.mem_singleton.mp member)
  | cons head entries induction =>
      obtain ⟨other, old⟩ := head
      unfold assign at member
      split at member
      · next same =>
          rcases List.mem_cons.mp member with rfl | later
          · exact .inl (by rw [same])
          · exact .inr (List.mem_cons_of_mem _ later)
      · rcases List.mem_cons.mp member with rfl | later
        · exact .inr List.mem_cons_self
        · exact (induction later).imp_right (List.mem_cons_of_mem _)

theorem assign_of_not_mem {entries : Keyed α} {name : Text} (unused : name ∉ entries.names)
    (value : α) : entries.assign name value = entries ++ [(name, value)] := by
  induction entries with
  | nil => rfl
  | cons entry entries induction =>
      obtain ⟨key, old⟩ := entry
      obtain ⟨different, unused⟩ := not_or.mp (mt List.mem_cons.mpr unused)
      rw [assign, if_neg (Ne.symm different), induction unused, List.cons_append]

theorem nodup_names_assign {entries : Keyed α} (distinct : entries.names.Nodup) (name : Text)
    (value : α) : (entries.assign name value).names.Nodup := by
  rw [names_assign]
  split
  · exact distinct
  · next fresh => exact nodup_append_singleton distinct fresh

theorem mem_names_assign {entries : Keyed α} {name other : Text} {value : α} :
    other ∈ (entries.assign name value).names ↔ other = name ∨ other ∈ entries.names := by
  rw [← find?_isSome_iff, find?_assign]
  split
  · next same => simp [same]
  · next different => simp [find?_isSome_iff, Ne.symm different]

/-- Assigns the values one after the other to what is there already. -/
def assignAll (entries : Keyed α) (assignments : List (Text × α)) : Keyed α :=
  assignments.foldl (fun entries assignment => entries.assign assignment.1 assignment.2) entries

theorem ofList_eq (assignments : List (Text × α)) : ofList assignments = assignAll [] assignments :=
  rfl

theorem assignAll_cons (entries : Keyed α) (assignment : Text × α)
    (assignments : List (Text × α)) : assignAll entries (assignment :: assignments) =
      assignAll (entries.assign assignment.1 assignment.2) assignments :=
  rfl

theorem mem_of_mem_assignAll {assignments : List (Text × α)} {entries : Keyed α}
    {entry : Text × α} (member : entry ∈ entries.assignAll assignments) :
    entry ∈ assignments ∨ entry ∈ entries := by
  induction assignments generalizing entries with
  | nil => exact .inr member
  | cons assignment assignments induction =>
      rw [assignAll_cons] at member
      rcases induction member with later | earlier
      · exact .inl (List.mem_cons_of_mem _ later)
      · rcases mem_of_mem_assign earlier with rfl | old
        · exact .inl List.mem_cons_self
        · exact .inr old

theorem mem_of_mem_ofList {assignments : List (Text × α)} {entry : Text × α}
    (member : entry ∈ ofList assignments) : entry ∈ assignments := by
  rcases mem_of_mem_assignAll member with assigned | none
  · exact assigned
  · cases none

theorem nodup_names_ofList (assignments : List (Text × α)) : (ofList assignments).names.Nodup := by
  have preserved (entries : Keyed α) (distinct : entries.names.Nodup) :
      (entries.assignAll assignments).names.Nodup := by
    induction assignments generalizing entries with
    | nil => exact distinct
    | cons assignment assignments induction =>
        exact induction _ (nodup_names_assign distinct assignment.1 assignment.2)
  exact preserved [] List.nodup_nil

theorem mem_names_ofList {assignments : List (Text × α)} {name : Text} :
    name ∈ (ofList assignments).names ↔ name ∈ assignments.map Prod.fst := by
  have counted (entries : Keyed α) : name ∈ (entries.assignAll assignments).names ↔
      name ∈ entries.names ∨ name ∈ assignments.map Prod.fst := by
    induction assignments generalizing entries with
    | nil => simp [assignAll]
    | cons assignment assignments induction =>
        rw [assignAll_cons, induction, mem_names_assign, List.map_cons, List.mem_cons]
        tauto
  rw [ofList_eq, counted []]
  exact or_iff_right List.not_mem_nil

theorem mem_of_find?_ofList {assignments : List (Text × α)} {name : Text} {value : α}
    (found : (ofList assignments).find? name = some value) : (name, value) ∈ assignments :=
  mem_of_mem_ofList (mem_of_find? found)

theorem get_eq_ok_iff {name : Text} {entries : Keyed α} {value : α} :
    entries.get name = .ok value ↔ entries.find? name = some value := by
  unfold get
  split
  · next other found => simp [found]
  · next missing => simp [missing]

/-- A name in use is found with its value, which any other value may stand in for otherwise. -/
theorem find?_eq_some_getD {entries : Keyed α} {name : Text} (used : name ∈ entries.names)
    (other : α) : entries.find? name = some ((entries.find? name).getD other) := by
  obtain ⟨value, found⟩ := exists_find?_iff.mpr used
  rw [found]
  rfl

theorem find?_eq_none {entries : Keyed α} {name : Text} (unused : name ∉ entries.names) :
    entries.find? name = none := by
  rw [← Option.not_isSome_iff_eq_none, find?_isSome_iff]
  exact unused

theorem get_eq_ok_getD {entries : Keyed α} {name : Text} (used : name ∈ entries.names)
    (other : α) : entries.get name = .ok ((entries.find? name).getD other) :=
  get_eq_ok_iff.mpr (find?_eq_some_getD used other)

/-- Both of two names are found exactly when both are in use. -/
theorem bind_find?_eq_ite {β γ : Type} {firsts : Keyed α} {lasts : Keyed β} {first last : Text}
    {uses : Bool} (decides : uses = true ↔ first ∈ firsts.names ∧ last ∈ lasts.names)
    (join : α → β → γ) (otherFirst : α) (otherLast : β) :
    ((firsts.find? first).bind fun found => (lasts.find? last).bind fun reached =>
        some (join found reached)) =
      if uses then some (join ((firsts.find? first).getD otherFirst)
        ((lasts.find? last).getD otherLast)) else none := by
  by_cases both : first ∈ firsts.names ∧ last ∈ lasts.names
  · rw [if_pos (decides.mpr both), find?_eq_some_getD both.1 otherFirst,
      find?_eq_some_getD both.2 otherLast]
    rfl
  · rw [if_neg (fun used => both (decides.mp used))]
    by_cases used : first ∈ firsts.names
    · rw [find?_eq_none (fun reached => both ⟨used, reached⟩)]
      cases firsts.find? first <;> rfl
    · rw [find?_eq_none used]
      rfl

/-! ## Names that are assigned to once -/

theorem find?_ofList_of_mem {assignments : List (Text × α)}
    (distinct : (assignments.map Prod.fst).Nodup) {name : Text} {value : α}
    (member : (name, value) ∈ assignments) : (ofList assignments).find? name = some value := by
  have used : name ∈ (ofList assignments).names :=
    mem_names_ofList.mpr (List.mem_map_of_mem member)
  obtain ⟨found, reached⟩ := exists_find?_iff.mpr used
  have same := List.inj_on_of_nodup_map distinct (mem_of_find?_ofList reached) member rfl
  cases same
  exact reached

/-- What holds of assigned values in their order holds of what is found under the names. -/
theorem pairwise_find?_ofList (relation : α → α → Prop) {assignments : List (Text × α)}
    (distinct : (assignments.map Prod.fst).Nodup)
    (each : assignments.Pairwise fun first last => relation first.2 last.2) (other : α) :
    (assignments.map Prod.fst).Pairwise fun first last =>
      relation (((ofList assignments).find? first).getD other)
        (((ofList assignments).find? last).getD other) := by
  rw [List.pairwise_map]
  apply each.imp_of_mem
  intro first last firstMember lastMember holds
  rw [find?_ofList_of_mem distinct firstMember, find?_ofList_of_mem distinct lastMember]
  exact holds

theorem map_fst_numbered (names : List Text) (place : Nat → α) :
    (names.zipIdx.map fun (name, index) => (name, place index)).map Prod.fst = names := by
  rw [List.map_map]
  exact List.zipIdx_map_fst 0 names

/-- The values are given by the numbers of the names. -/
theorem pairwise_find?_numbered (relation : α → α → Prop) (place : Nat → α) {names : List Text}
    (distinct : names.Nodup)
    (each : ∀ index other, index < other → relation (place index) (place other)) (other : α) :
    names.Pairwise fun first last =>
      relation (((ofList (names.zipIdx.map fun (name, index) => (name, place index))).find?
          first).getD other)
        (((ofList (names.zipIdx.map fun (name, index) => (name, place index))).find?
          last).getD other) := by
  have numbered : (names.zipIdx.map fun (name, index) => (name, place index)).Pairwise
      fun first last => relation first.2 last.2 := by
    rw [List.pairwise_map]
    apply pairwise_zipIdx
    rintro ⟨first, index⟩ - ⟨last, number⟩ - before
    exact each index number before
  rw [← map_fst_numbered names place] at distinct
  have found := pairwise_find?_ofList relation distinct numbered other
  rwa [map_fst_numbered] at found

/-- Where no name is assigned to twice, the assignments are what is kept. -/
theorem ofList_eq_self {assignments : List (Text × α)}
    (distinct : (assignments.map Prod.fst).Nodup) : ofList assignments = assignments := by
  have added (entries : Keyed α) (fresh : ((entries ++ assignments).map Prod.fst).Nodup) :
      entries.assignAll assignments = entries ++ assignments := by
    induction assignments generalizing entries with
    | nil => exact (List.append_nil entries).symm
    | cons assignment assignments induction =>
        have unused : assignment.1 ∉ entries.names := by
          rw [List.map_append, List.nodup_append'] at fresh
          exact fun used => List.disjoint_left.mp fresh.2.2 used List.mem_cons_self
        rw [List.append_cons] at fresh ⊢
        rw [assignAll_cons, assign_of_not_mem unused]
        exact induction (List.nodup_cons.mp distinct).2 _ fresh
  exact added [] distinct

/-! ## Entries with the values of a function -/

theorem find?_mapValues {β : Type} (change : α → β) (entries : Keyed α) (name : Text) :
    find? name (entries.map fun (key, value) => (key, change value)) =
      (find? name entries).map change := by
  induction entries with
  | nil => rfl
  | cons entry entries induction =>
      obtain ⟨key, value⟩ := entry
      simp only [List.map_cons, find?, induction]
      split
      · rfl
      · rfl

theorem find?_map_names (value : Text → α) (names : List Text) (name : Text) :
    find? name (names.map fun other => (other, value other)) =
      if name ∈ names then some (value name) else none := by
  induction names with
  | nil => rfl
  | cons other names induction =>
      by_cases same : other = name
      · simp [find?, same]
      · simp [find?, same, Ne.symm same, induction]

/-- Assigning gives the entries with a function that differs in what it says of the name. -/
theorem assign_map_names {value later : Text → α} {names : List Text} (distinct : names.Nodup)
    {name : Text} (others : ∀ other, other ≠ name → later other = value other) :
    assign name (later name) (names.map fun other => (other, value other)) =
      (if name ∈ names then names else names ++ [name]).map fun other => (other, later other) := by
  induction names with
  | nil => rfl
  | cons other names induction =>
      obtain ⟨fresh, distinct⟩ := List.nodup_cons.mp distinct
      by_cases same : other = name
      · subst same
        have rest : (names.map fun other => (other, value other)) =
            names.map fun other => (other, later other) :=
          List.map_congr_left fun entry member => by
            rw [others entry (fun same => fresh (same ▸ member))]
        simp [assign, rest]
      · rw [List.map_cons, assign, if_neg same, induction distinct, ← others other same]
        by_cases member : name ∈ names
        · simp [member]
        · simp [member, Ne.symm same]

end DiagramSketch.Keyed
