import DiagramSketch.Text.Basic

/-!
# Keyed entries

Entries under names, in the order in which the names were first used. Assigning to a
name that is in use keeps its place and gives it the new value.
-/

namespace DiagramSketch

/-- Values under names, in a fixed order. -/
abbrev Keyed (α : Type) := List (Text × α)

namespace Keyed

variable {α : Type}

/-- The value under a name. -/
def find? (name : Text) : Keyed α → Option α
  | [] => none
  | (other, value) :: entries => if other = name then some value else find? name entries

/-- The names, in order. -/
def names (entries : Keyed α) : List Text :=
  entries.map Prod.fst

/-- Puts a value under a name: in its place when the name is in use, at the end otherwise. -/
def assign (name : Text) (value : α) : Keyed α → Keyed α
  | [] => [(name, value)]
  | (other, old) :: entries =>
      if other = name then (other, value) :: entries
      else (other, old) :: assign name value entries

/-- Assigns the values one after the other. -/
def ofList (assignments : List (Text × α)) : Keyed α :=
  assignments.foldl (fun entries assignment => entries.assign assignment.1 assignment.2) []

theorem find?_assign (entries : Keyed α) (name other : Text) (value : α) :
    find? other (assign name value entries) =
      if name = other then some value else find? other entries := by
  induction entries with
  | nil => rfl
  | cons entry entries induction =>
      obtain ⟨key, old⟩ := entry
      by_cases same : key = name
      · subst key
        by_cases asked : name = other <;> simp [assign, find?, asked]
      · by_cases asked : key = other
        · subst key
          simp [assign, find?, same, Ne.symm same]
        · simp [assign, find?, same, asked, induction]

theorem names_assign (entries : Keyed α) (name : Text) (value : α) :
    names (assign name value entries) =
      if name ∈ names entries then names entries else names entries ++ [name] := by
  induction entries with
  | nil => rfl
  | cons entry entries induction =>
      obtain ⟨key, old⟩ := entry
      by_cases same : key = name
      · simp [assign, names, same]
      · have induction' := induction
        simp only [names] at induction'
        by_cases member : name ∈ entries.map Prod.fst
        · simp [assign, names, same, Ne.symm same, member, induction']
        · simp [assign, names, same, Ne.symm same, member, induction']

end Keyed

end DiagramSketch
