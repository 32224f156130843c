import DiagramSketch.Proofs.Components.Arrangement
import DiagramSketch.Proofs.Components.Declarations
import DiagramSketch.Proofs.Diagram.Growth

/-!
# What the names of components lead to

The store of a source is that of the declarations in its lines.  A name leads to the middle of its
own component's box unless a later declaration leaves another component with it as its alias.
-/

namespace DiagramSketch.Components

/-- The declaration that a line makes in a container. -/
def Line.declaration? (container : Container) : Line → Option Declaration
  | .component name given => some { name, given, container }
  | _ => none

/-- The name of the package that a line opens. -/
def Line.title? : Line → Option Text
  | .package name => some name
  | _ => none

/-- The declarations that lines make when they are read on. -/
def declarationsFrom (reading : Reading) : List Line → List Declaration
  | [] => []
  | line :: lines =>
      (line.declaration? reading.container).toList ++ declarationsFrom (follow reading line) lines

/-- The lines of a source that are read. -/
def statements (lines : List Text) : List Line :=
  (Text.contentLines lines).filterMap Line.read?

/-- The declarations in the lines of a source. -/
def declarations (lines : List Text) : List Declaration :=
  declarationsFrom { components := empty, isOpen := false } (statements lines)

/-- The names of the packages in the lines of a source. -/
def titles (lines : List Text) : List (Option Text) :=
  ((statements lines).filterMap Line.title?).map some

/-- A declaration leaves another component with the name as its alias, and no later one is of the
component that has the name. -/
def IsTakenOver (history : List Declaration) (name : Text) : Prop :=
  ∃ number declaration, history[number]? = some declaration ∧ declaration.name ≠ name ∧
    aliasAfter (history.take (number + 1)) declaration.name = name ∧
    ∀ later, number < later → history[later]?.map Declaration.name ≠ some name

/-! ## The store of a source -/

variable {reading : Reading} {names : List (Option Text)} {history : List Declaration}

theorem IsStoreOf.follow (stored : reading.components.IsStoreOf names history)
    (valid : ∀ declaration ∈ history, declaration.container.IsValid reading.components)
    (line : Line) : (Components.follow reading line).components.IsStoreOf
      (names ++ line.title?.toList.map some)
      (history ++ (line.declaration? reading.container).toList) := by
  cases line with
  | closing =>
      change reading.components.IsStoreOf (names ++ []) (history ++ [])
      rwa [List.append_nil, List.append_nil]
  | package name =>
      change (reading.components.addPackage (some name)).IsStoreOf (names ++ [some name])
        (history ++ [])
      rw [List.append_nil]
      exact stored.addPackage (some name) valid
  | connection read =>
      obtain ⟨packages, standalone, aliases, distinct, keys, registry⟩ := stored
      change (reading.components.addConnection read).IsStoreOf (names ++ []) (history ++ [])
      rw [List.append_nil, List.append_nil]
      exact ⟨packages, standalone, aliases, distinct, keys, registry⟩
  | component name given =>
      change (reading.components.declare name given reading.container).IsStoreOf (names ++ [])
        (history ++ [{ name, given, container := reading.container }])
      rw [List.append_nil]
      exact stored.declare { name, given, container := reading.container }

theorem Reading.IsStored.isValid_follow (sound : reading.IsStored)
    (valid : ∀ declaration ∈ history, declaration.container.IsValid reading.components)
    (line : Line) : ∀ declaration ∈ history ++ (line.declaration? reading.container).toList,
      declaration.container.IsValid (Components.follow reading line).components := by
  have longer := (isExtendedBy_follow reading line).packages.length_le
  refine List.forall_mem_append.mpr ⟨fun declaration member => ?_, fun declaration member => ?_⟩
  · exact (valid declaration member).of_length_le longer
  · cases line with
    | component name given =>
        obtain rfl := List.mem_singleton.mp member
        exact sound.isValid_container.of_length_le longer
    | closing => cases member
    | package name => cases member
    | connection read => cases member

theorem IsStoreOf.foldl_follow (stored : reading.components.IsStoreOf names history)
    (sound : reading.IsStored)
    (valid : ∀ declaration ∈ history, declaration.container.IsValid reading.components)
    (lines : List Line) : (lines.foldl Components.follow reading).components.IsStoreOf
      (names ++ (lines.filterMap Line.title?).map some)
      (history ++ declarationsFrom reading lines) := by
  induction lines generalizing reading names history with
  | nil => simpa [declarationsFrom] using stored
  | cons line lines induction =>
      have rest := induction (stored.follow valid line) (sound.follow line)
        (sound.isValid_follow valid line)
      rw [declarationsFrom, ← List.append_assoc]
      cases titled : line.title? with
      | none =>
          rw [titled] at rest
          rw [List.filterMap_cons_none titled]
          simpa using rest
      | some name =>
          rw [titled] at rest
          rw [List.filterMap_cons_some titled]
          simpa using rest

/-- The store of a source holds what its declarations say. -/
theorem isStoreOf_ofLines (lines : List Text) :
    (ofLines lines).IsStoreOf (titles lines) (declarations lines) := by
  have start : (Reading.mk empty false).components.IsStoreOf [] [] := isStoreOf_ofPackages []
  exact start.foldl_follow isStored_start (List.forall_mem_nil _) (statements lines)

/-! ## Names -/

/-- What a name stands for is its own component unless another one has taken it over. -/
theorem StandsFor.eq_iff {name other : Text} (stands : StandsFor history name other) :
    other = name ↔ ¬ IsTakenOver history name := by
  obtain ⟨number, ⟨declaration, found, binds⟩, latest, named⟩ := stands
  have own : declaration.name = other := Option.some.inj (by rwa [found] at named)
  subst own
  constructor
  · rintro same ⟨place, taker, foundToo, different, left, last⟩
    have before : place ≤ number := not_lt.mp fun beyond =>
      latest place beyond ⟨taker, foundToo, .inr left⟩
    rcases before.eq_or_lt with rfl | earlier
    · rw [found] at foundToo
      exact different (Option.some.inj foundToo ▸ same)
    · exact last number earlier (by rw [named, same])
  · intro free
    by_contra different
    refine free ⟨number, declaration, found, different, binds.resolve_left different, ?_⟩
    intro later beyond again
    obtain ⟨next, foundToo, same⟩ := Option.map_eq_some_iff.mp again
    exact latest later beyond ⟨next, foundToo, .inl same⟩

variable {components : Components}

/-- The middles of the boxes of two components are different. -/
theorem center_boxOf_injective (distinct : components.placed.Nodup) {name other : Text}
    (member : name ∈ components.placed) (memberToo : other ∈ components.placed)
    (same : (components.boxOf name).center = (components.boxOf other).center) : name = other := by
  by_contra different
  have symmetric : Std.Symm fun name other =>
      (components.boxOf name).IsApartFrom (components.boxOf other) :=
    ⟨fun _ _ => Box.IsApartFrom.symm⟩
  have apart := (pairwise_boxOf distinct).forall member memberToo different
  have inside {name : Text} (member : name ∈ components.placed) :
      (components.boxOf name).center.IsIn (components.boxOf name) := by
    obtain ⟨-, -, -, -, width, height⟩ := components.isPlace_boxOf member
    apply Box.isIn_center
    constructor <;> linarith
  exact apart.not_isIn (inside member) (same ▸ inside memberToo)

/-- The name of a component leads to the middle of its own box exactly when no other component has
taken it over. -/
theorem find?_positions_eq_iff (lines : List Text) :
    ∃ layout, (ofLines lines).layout = .ok layout ∧ ∀ name ∈ (ofLines lines).placed,
      ∃ box, layout.components.find? name = some box ∧
        (layout.positions.find? name = some box.center ↔
          ¬ IsTakenOver (declarations lines) name) := by
  have store := isStoreOf_ofLines lines
  have stored := isStored_ofLines lines
  have distinct := isDistinct_ofLines lines
  refine ⟨_, layout_of_isComplete stored.complete, fun name member => ?_⟩
  refine ⟨_, find?_boxes_boxOf _ member, ?_⟩
  have used : name ∈ (ofLines lines).registry.names := by
    rw [store.keys, ← store.isSome_find?_aliases, Keyed.find?_isSome_iff]
    exact .inl (distinct.known name member)
  obtain ⟨other, found⟩ := Keyed.exists_find?_iff.mpr used
  have placed := stored.complete _ (Keyed.mem_of_find? found)
  rw [find?_positions, found, Option.map_some, Option.some_inj,
    ← ((store.registry name other).mp found).eq_iff]
  constructor
  · exact center_boxOf_injective distinct.placed placed member
  · rintro rfl
    rfl

/-- A component has its name back if it is declared after the name has become an alias. -/
theorem find?_positions_returned :
    let lines : List Text := ["package \"P\" \x7b", "[Api] as DB", "[DB]", "\x7d"]
    ("DB" : Text) ∈ (ofLines lines).placed ∧ ¬ IsTakenOver (declarations lines) "DB" ∧
      ∃ layout, (ofLines lines).layout = .ok layout ∧
        ∃ box, layout.components.find? "DB" = some box ∧
          layout.positions.find? "DB" = some box.center := by
  intro lines
  have member : ("DB" : Text) ∈ (ofLines lines).placed := by decide +kernel
  have free : ¬ IsTakenOver (declarations lines) "DB" := by
    have history : declarations lines = [⟨"Api", some "DB", some 0⟩, ⟨"DB", none, some 0⟩] := by
      decide +kernel
    rw [history]
    rintro ⟨number, declaration, found, different, -, last⟩
    match number with
    | 0 => exact last 1 Nat.one_pos rfl
    | 1 => exact different (Option.some.inj found ▸ rfl)
    | number + 2 => cases found
  obtain ⟨layout, laid, each⟩ := find?_positions_eq_iff lines
  obtain ⟨box, boxed, led⟩ := each "DB" member
  exact ⟨member, free, layout, laid, box, boxed, led.mpr free⟩

/-- The name of a component leads to another one that is given the name as its alias later on. -/
theorem find?_positions_ne_center :
    let components := ofLines ["[A] as X", "[B] as A"]
    components.layout = .ok components.plan ∧
      components.boxes.find? "A" = some ⟨50, 300, 120, 50⟩ ∧
      components.plan.positions.find? "X" = some (Box.center ⟨50, 300, 120, 50⟩) ∧
      components.plan.positions.find? "A" = some ⟨260, 325⟩ ∧
      components.plan.positions.find? "A" ≠ some (Box.center ⟨50, 300, 120, 50⟩) := by
  intro components
  refine ⟨layout_of_isComplete (isStored_ofLines _).complete, ?_, ?_, ?_, ?_⟩
  all_goals decide +kernel

end DiagramSketch.Components
