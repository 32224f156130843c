import DiagramSketch.Proofs.Components.History
import DiagramSketch.Proofs.Diagram.Distinct

/-!
# What declarations leave in the store

The store of components after any declarations is told from their history alone: who is in which
container, who goes by which alias, and what every key stands for.  So every component has one box,
and every key leads to the middle of the box of what it stands for.
-/

namespace DiagramSketch.Components

/-- Declares components one after the other. -/
def declareAll (history : List Declaration) (components : Components) : Components :=
  history.foldl (fun components declaration =>
    components.declare declaration.name declaration.given declaration.container) components

/-- Packages with nothing in them. -/
def ofPackages (names : List (Option Text)) : Components :=
  { empty with packages := names.map fun name => { name, members := [] } }

/-- What packages with the names, and the tables beside them, hold after the declarations. -/
structure IsStoreOf (components : Components) (names : List (Option Text))
    (history : List Declaration) : Prop where
  packages : components.packages = names.zipIdx.map fun (name, index) =>
    { name, members := housed history (some index) }
  standalone : components.standalone = housed history none
  aliases : components.aliases =
    (introduced history).map fun name => (name, aliasAfter history name)
  distinct : components.registry.names.Nodup
  keys : ∀ key, key ∈ components.registry.names ↔
    key ∈ introduced history ∨ IsEverAlias history key
  registry : ∀ key name, components.registry.find? key = some name ↔ StandsFor history key name

variable {components : Components} {names : List (Option Text)} {history : List Declaration}

/-! ## One declaration -/

namespace IsStoreOf

theorem find?_aliases (stored : components.IsStoreOf names history) (name : Text) :
    components.aliases.find? name =
      if name ∈ introduced history then some (aliasAfter history name) else none := by
  rw [stored.aliases, Keyed.find?_map_names]

theorem isSome_find?_aliases (stored : components.IsStoreOf names history) (name : Text) :
    (components.aliases.find? name).isSome = true ↔ name ∈ introduced history := by
  rw [stored.find?_aliases]
  split
  · next known => simp [known]
  · next fresh => simp [fresh]

/-- The alias that a declaration chooses is the one that the component goes by afterwards. -/
theorem chosenAlias_eq (stored : components.IsStoreOf names history)
    (declaration : Declaration) :
    chosenAlias declaration.given (components.aliases.find? declaration.name) declaration.name =
      aliasAfter (history ++ [declaration]) declaration.name := by
  rw [stored.find?_aliases, aliasAfter_append_singleton, if_pos rfl]
  change (declaration.alias?.or _).getD _ = _
  cases declaration.alias? with
  | some chosen => rfl
  | none =>
      split
      · rfl
      · next fresh => exact (aliasAfter_of_not_mem fresh).symm

theorem packages_place (stored : components.IsStoreOf names history) {declaration : Declaration}
    (fresh : declaration.name ∉ introduced history) :
    (components.place declaration.name declaration.container).packages =
      names.zipIdx.map fun (name, index) =>
        { name, members := housed (history ++ [declaration]) (some index) } := by
  simp only [housed_of_not_mem fresh]
  cases place : declaration.container with
  | none => simpa [Components.place] using stored.packages
  | some index =>
      simp only [Components.place, stored.packages, Option.some_inj]
      rw [modify_map_zipIdx]
      refine List.map_congr_left fun entry _ => ?_
      split
      · rfl
      · rw [List.append_nil]

theorem standalone_place (stored : components.IsStoreOf names history)
    {declaration : Declaration} (fresh : declaration.name ∉ introduced history) :
    (components.place declaration.name declaration.container).standalone =
      housed (history ++ [declaration]) none := by
  rw [housed_of_not_mem fresh, ← stored.standalone]
  cases declaration.container with
  | none => rfl
  | some index => exact (List.append_nil _).symm

theorem aliases_assign (stored : components.IsStoreOf names history)
    (declaration : Declaration) :
    components.aliases.assign declaration.name
        (aliasAfter (history ++ [declaration]) declaration.name) =
      (introduced (history ++ [declaration])).map fun name =>
        (name, aliasAfter (history ++ [declaration]) name) := by
  have others (name : Text) (different : name ≠ declaration.name) :
      aliasAfter (history ++ [declaration]) name = aliasAfter history name := by
    rw [aliasAfter_append_singleton, if_neg (Ne.symm different)]
  rw [stored.aliases, Keyed.assign_map_names (nodup_introduced history) others,
    introduced_append_singleton]

/-- A store of some declarations becomes one of one more. -/
theorem declare (stored : components.IsStoreOf names history) (declaration : Declaration) :
    (components.declare declaration.name declaration.given declaration.container).IsStoreOf names
      (history ++ [declaration]) := by
  have known := stored.isSome_find?_aliases declaration.name
  unfold Components.declare
  dsimp only
  rw [stored.chosenAlias_eq]
  constructor
  case packages =>
    split
    · next found =>
        simp only [housed_of_mem (known.mp found)]
        exact stored.packages
    · next missing => exact stored.packages_place (mt known.mpr missing)
  case standalone =>
    split
    · next found =>
        rw [housed_of_mem (known.mp found)]
        exact stored.standalone
    · next missing => exact stored.standalone_place (mt known.mpr missing)
  case aliases => exact stored.aliases_assign declaration
  case distinct => exact Keyed.nodup_names_assign (Keyed.nodup_names_assign stored.distinct _ _) _ _
  case keys =>
    intro key
    rw [Keyed.mem_names_assign, Keyed.mem_names_assign, stored.keys,
      isEverAlias_append_singleton_iff, mem_introduced, mem_introduced, List.map_append,
      List.mem_append, List.map_singleton, List.mem_singleton]
    tauto
  case registry =>
    intro key name
    rw [Keyed.find?_assign, Keyed.find?_assign]
    by_cases binds : declaration.name = key ∨
        aliasAfter (history ++ [declaration]) declaration.name = key
    · rw [standsFor_append_iff binds]
      rcases binds with named | left
      · simp [named]
      · simp [left]
    · obtain ⟨unnamed, unleft⟩ := not_or.mp binds
      rw [standsFor_append_iff_of_not binds, if_neg unleft, if_neg unnamed]
      exact stored.registry key name

theorem addPackage (stored : components.IsStoreOf names history) (name : Option Text)
    (valid : ∀ declaration ∈ history, declaration.container.IsValid components) :
    (components.addPackage name).IsStoreOf (names ++ [name]) history := by
  obtain ⟨packages, standalone, aliases, distinct, keys, registry⟩ := stored
  refine ⟨?_, standalone, aliases, distinct, keys, registry⟩
  have count : names.length = components.packages.length := by simp [packages]
  have empty : housed history (some names.length) = [] := by
    refine housed_eq_nil fun declaration member same => ?_
    have inside := valid declaration member
    rw [same, count] at inside
    exact Nat.lt_irrefl _ inside
  change components.packages ++ [_] = _
  rw [List.zipIdx_append, List.map_append, packages, Nat.zero_add]
  simp [empty]

end IsStoreOf

/-! ## All declarations -/

theorem isStoreOf_ofPackages (names : List (Option Text)) :
    (ofPackages names).IsStoreOf names [] where
  packages := (map_zipIdx _ _ (fun _ => rfl) names).symm
  standalone := rfl
  aliases := rfl
  distinct := List.nodup_nil
  keys := by
    refine fun key => iff_of_false List.not_mem_nil (not_or.mpr ⟨List.not_mem_nil, ?_⟩)
    rintro ⟨earlier, start, declaration, member, -⟩
    rw [List.prefix_nil.mp start] at member
    cases member
  registry := by
    refine fun key name => iff_of_false (fun found => by cases found) ?_
    rintro ⟨number, bound, -⟩
    exact Nat.not_lt_zero _ bound.lt_length

theorem IsStoreOf.declareAll (stored : components.IsStoreOf names history)
    (later : List Declaration) :
    (declareAll later components).IsStoreOf names (history ++ later) := by
  induction later generalizing components history with
  | nil =>
      rw [List.append_nil]
      exact stored
  | cons declaration later induction =>
      rw [List.append_cons]
      exact induction (stored.declare declaration)

theorem Container.IsValid.of_length_le {container : Container} {later : Components}
    (valid : container.IsValid components)
    (longer : components.packages.length ≤ later.packages.length) : container.IsValid later := by
  cases container with
  | none => trivial
  | some index => exact Nat.lt_of_lt_of_le valid longer

/-- Declarations in containers that are there keep every component in one place. -/
theorem isDistinct_declareAll (stored : components.IsStored) (distinct : components.IsDistinct)
    (valid : ∀ declaration ∈ history, declaration.container.IsValid components) :
    (declareAll history components).IsStored ∧ (declareAll history components).IsDistinct := by
  induction history generalizing components with
  | nil => exact ⟨stored, distinct⟩
  | cons declaration history induction =>
      obtain ⟨own, others⟩ := List.forall_mem_cons.mp valid
      refine induction (stored.declare _ _ own) (distinct.declare _ _ own) fun other member => ?_
      exact (others other member).of_length_le (length_packages_declare _ _ _).ge

theorem placed_ofPackages (names : List (Option Text)) : (ofPackages names).placed = [] := by
  simp [placed, ofPackages, empty]

/-! ## The layout -/

/-- Every component has one box, and every key leads to the middle of that of its component. -/
structure Layout.Locates (layout : Layout) (components : Components) : Prop where
  boxes : layout.components.names = components.placed
  keys : layout.positions.names = components.registry.names
  centers : ∀ key name, components.registry.find? key = some name →
    ∃ box, layout.components.find? name = some box ∧
      layout.positions.find? key = some box.center

theorem names_boxes (distinct : components.placed.Nodup) :
    components.boxes.names = components.placed := by
  rw [← map_fst_boxes] at distinct ⊢
  rw [boxes, Keyed.ofList_eq_self distinct]
  rfl

theorem locates_plan (complete : components.IsComplete) (distinct : components.placed.Nodup) :
    components.plan.Locates components where
  boxes := names_boxes distinct
  keys := components.names_positions
  centers := by
    intro key name found
    refine ⟨_, components.find?_boxes_boxOf (complete _ (Keyed.mem_of_find? found)), ?_⟩
    rw [find?_positions, found, Option.map_some]

/-- Whatever is declared in packages and on its own, the store is what the history says, with every
component in one container, and its layout has a box for each component and a place for each key. -/
theorem isStoreOf_declareAll {names : List (Option Text)} {history : List Declaration}
    (valid : ∀ declaration ∈ history, declaration.container.IsValid (ofPackages names)) :
    (declareAll history (ofPackages names)).IsStoreOf names history ∧
      (declareAll history (ofPackages names)).placed.Nodup ∧
      (∀ name, name ∈ (declareAll history (ofPackages names)).placed ↔
        name ∈ introduced history) ∧
      ∃ layout, (declareAll history (ofPackages names)).layout = .ok layout ∧
        layout.Locates (declareAll history (ofPackages names)) := by
  have nowhere (name : Text) : name ∉ (ofPackages names).placed := by
    rw [placed_ofPackages]
    exact List.not_mem_nil
  obtain ⟨stored, distinct⟩ := isDistinct_declareAll
    ⟨List.forall_mem_nil _, fun entry none => by cases none⟩
    ⟨(placed_ofPackages names).symm ▸ List.nodup_nil, fun name there => absurd there (nowhere name)⟩
    valid
  have store : (declareAll history (ofPackages names)).IsStoreOf names history :=
    (isStoreOf_ofPackages names).declareAll history
  refine ⟨store, distinct.placed, fun name => ?_, _, layout_of_isComplete stored.complete,
    locates_plan stored.complete distinct.placed⟩
  rw [← store.isSome_find?_aliases, Keyed.find?_isSome_iff]
  exact ⟨distinct.known name, stored.aliased name⟩

/-- An alias becomes the name of one component and goes to another one, and a component that is
declared again keeps its place. -/
theorem isStoreOf_rebound_keys :
    let names : List (Option Text) := [some "P", none]
    let history : List Declaration :=
      [⟨"A", some "X", some 1⟩, ⟨"B", some "A", none⟩, ⟨"A", none, none⟩, ⟨"C", some "X", some 0⟩,
        ⟨"B", some "", some 0⟩]
    let components := declareAll history (ofPackages names)
    (∀ declaration ∈ history, declaration.container.IsValid (ofPackages names)) ∧
      components.IsStoreOf names history ∧ components.placed.Nodup ∧
      components.packages = [⟨some "P", ["C"]⟩, ⟨none, ["A"]⟩] ∧ components.standalone = ["B"] ∧
      components.aliases = ([("A", "X"), ("B", "A"), ("C", "X")] : List (Text × Text)) ∧
      components.registry =
        ([("A", "B"), ("X", "C"), ("B", "B"), ("C", "C")] : List (Text × Text)) ∧
      ∃ layout, components.layout = .ok layout ∧ layout.Locates components := by
  intro names history components
  have valid : ∀ declaration ∈ history, declaration.container.IsValid (ofPackages names) := by
    simp [history, names, Container.IsValid, ofPackages]
  obtain ⟨store, distinct, -, located⟩ := isStoreOf_declareAll valid
  refine ⟨valid, store, distinct, ?_, ?_, ?_, ?_, located⟩
  all_goals decide +kernel

end DiagramSketch.Components
