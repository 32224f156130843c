import DiagramSketch.Components.Source
import DiagramSketch.Proofs.Components.Drawing

/-!
# The store of components

Every component that goes by an alias has a place, and every key stands for a component that has
one.  Declarations keep this as long as they are made in a package that is there, as those of a
source are.
-/

namespace DiagramSketch.Components

/-- The container is there. -/
def Container.IsValid (components : Components) : Container → Prop
  | none => True
  | some index => index < components.packages.length

/-- Whatever is known by an alias or a key has a place. -/
structure IsStored (components : Components) : Prop where
  aliased : ∀ name ∈ components.aliases.names, name ∈ components.placed
  complete : components.IsComplete

variable {components : Components}

theorem perm_flatMap_modify {packages : List Package} {index : Nat}
    (inside : index < packages.length) (name : Text) :
    ((packages.modify index fun package =>
        { package with members := package.members ++ [name] }).flatMap Package.members).Perm
      (name :: packages.flatMap Package.members) := by
  induction packages generalizing index with
  | nil => cases inside
  | cons package packages induction =>
      cases index with
      | zero =>
          simp only [List.modify_zero_cons, List.flatMap_cons, List.append_assoc,
            List.singleton_append]
          exact List.perm_middle
      | succ index =>
          have rest := induction (Nat.lt_of_succ_lt_succ inside)
          simp only [List.modify_succ_cons, List.flatMap_cons]
          exact (rest.append_left _).trans List.perm_middle

/-- A component that is put in a container comes in addition to all others. -/
theorem perm_placed_place {container : Container} (valid : container.IsValid components)
    (name : Text) :
    (components.place name container).placed.Perm (name :: components.placed) := by
  cases container with
  | none =>
      simp only [placed, place, ← List.append_assoc]
      exact List.perm_append_singleton _ _
  | some index => exact (perm_flatMap_modify valid name).append_right components.standalone

theorem mem_placed_place {container : Container} (valid : container.IsValid components)
    (name other : Text) :
    other ∈ (components.place name container).placed ↔
      other = name ∨ other ∈ components.placed :=
  (perm_placed_place valid name).mem_iff.trans List.mem_cons

/-- A declaration keeps the store. -/
theorem IsStored.declare (stored : components.IsStored) (name : Text) (given : Option Text)
    {container : Container} (valid : container.IsValid components) :
    (components.declare name given container).IsStored := by
  have places (other : Text) : other = name ∨ other ∈ components.placed ↔
      other ∈ (if (components.aliases.find? name).isSome then components
        else components.place name container).placed := by
    split
    · next known =>
        have own := stored.aliased name (Keyed.find?_isSome_iff.mp known)
        exact ⟨fun either => either.elim (fun same => same ▸ own) id, .inr⟩
    · exact (mem_placed_place valid name other).symm
  refine ⟨fun other used => (places other).mp ?_, fun entry member => (places entry.2).mp ?_⟩
  · rcases Keyed.mem_names_assign.mp used with same | old
    · exact .inl same
    · exact .inr (stored.aliased other old)
  · rcases Keyed.mem_of_mem_assign member with rfl | earlier
    · exact .inl rfl
    · rcases Keyed.mem_of_mem_assign earlier with rfl | old
      · exact .inl rfl
      · exact .inr (stored.complete entry old)

theorem IsStored.addPackage (stored : components.IsStored) (name : Option Text) :
    (components.addPackage name).IsStored := by
  have same : (components.addPackage name).placed = components.placed := by
    simp [placed, Components.addPackage]
  exact ⟨fun other used => same ▸ stored.aliased other used,
    fun entry member => same ▸ stored.complete entry member⟩

/-- The store is kept, and the package that is open is there. -/
structure Reading.IsStored (reading : Reading) : Prop where
  store : reading.components.IsStored
  isOpen : reading.isOpen = true → reading.components.packages ≠ []

theorem Reading.IsStored.isValid_container {reading : Reading} (stored : reading.IsStored) :
    reading.container.IsValid reading.components := by
  unfold Reading.container
  split
  · next isOpen =>
      have some := List.length_pos_iff.mpr (stored.isOpen isOpen)
      exact Nat.sub_lt some Nat.one_pos
  · trivial

theorem length_packages_declare (name : Text) (given : Option Text) (container : Container) :
    (components.declare name given container).packages.length = components.packages.length := by
  unfold Components.declare
  dsimp only
  split
  · rfl
  · cases container with
    | none => rfl
    | some index => exact List.length_modify _ _ _

theorem Reading.IsStored.follow {reading : Reading} (stored : reading.IsStored) (line : Line) :
    (Components.follow reading line).IsStored := by
  obtain ⟨store, isOpen⟩ := stored
  cases line with
  | closing => exact ⟨store, fun opened => by cases opened⟩
  | package name =>
      refine ⟨store.addPackage _, fun _ => ?_⟩
      exact List.append_ne_nil_of_right_ne_nil _ (List.cons_ne_nil _ _)
  | connection read => exact ⟨⟨store.aliased, store.complete⟩, isOpen⟩
  | component name given =>
      refine ⟨store.declare name given (Reading.IsStored.isValid_container ⟨store, isOpen⟩), ?_⟩
      intro opened
      have some := List.length_pos_iff.mpr (isOpen opened)
      refine List.length_pos_iff.mp ?_
      change 0 < (reading.components.declare name given reading.container).packages.length
      rwa [length_packages_declare]

theorem isStored_start : Reading.IsStored { components := empty, isOpen := false } := by
  refine ⟨⟨List.forall_mem_nil _, List.forall_mem_nil _⟩, ?_⟩
  exact fun opened => by cases opened

theorem isStored_ofLines (lines : List Text) : (ofLines lines).IsStored :=
  Reading.IsStored.store (List.foldlRecOn _ follow isStored_start
    fun _ stored line _ => stored.follow line)

end DiagramSketch.Components
