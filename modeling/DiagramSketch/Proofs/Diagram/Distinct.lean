import DiagramSketch.Diagram
import DiagramSketch.Proofs.Components.Store

/-!
# Names that are taken once

Lines that name a thing again mean the one that is there.  So the things of a sort go by the names
that the lines mention, in the order in which they are mentioned first, and no two of them go by the
same name.
-/

namespace DiagramSketch

namespace Sequence

/-- The participants that a line mentions. -/
def Line.participants : Line → List Text
  | .declaration name => [name]
  | .interaction told => [told.source, told.target]

/-- The lines of a source that are read. -/
def statements (lines : List Text) : List Line :=
  (Text.contentLines lines).filterMap Line.read?

theorem participants_introduce {sequence : Sequence} {mentioned : List Text}
    (taken : sequence.participants = mentioned.eraseDups) (name : Text) :
    (sequence.introduce name).participants = (mentioned ++ [name]).eraseDups := by
  unfold introduce
  rw [eraseDups_append_singleton, ← taken]
  split
  · rfl
  · rfl

/-- A line mentions participants, and each is taken once. -/
theorem participants_follow {sequence : Sequence} {mentioned : List Text}
    (taken : sequence.participants = mentioned.eraseDups) (line : Line) :
    (sequence.follow line).participants = (mentioned ++ line.participants).eraseDups := by
  cases line with
  | declaration name => exact participants_introduce taken name
  | interaction told =>
      rw [Line.participants, List.append_cons]
      exact participants_introduce (participants_introduce taken told.source) told.target

theorem participants_ofLines (lines : List Text) :
    (ofLines lines).participants = ((statements lines).flatMap Line.participants).eraseDups :=
  foldl_eraseDups Sequence.participants Line.participants
    (fun _ line _ taken => participants_follow taken line) [] rfl (statements lines)

theorem nodup_participants_ofLines (lines : List Text) :
    (ofLines lines).participants.Nodup := by
  rw [participants_ofLines]
  exact nodup_eraseDups _

end Sequence

namespace ClassModel

/-- The class that a line declares. -/
def Line.declared : Line → List Text
  | .declaration name => [name]
  | .closing => []
  | .content _ => []

/-- The lines of a source as they are read. -/
def statements (lines : List Text) : List Line :=
  (Text.contentLines lines).map Line.read

/-- The names of the classes, in order. -/
def names (model : ClassModel) : List Text :=
  model.classes.map ClassEntry.name

/-- No two classes have the same name. -/
def IsDistinct (model : ClassModel) : Prop :=
  (model.classes.map ClassEntry.name).Nodup

theorem names_introduce {model : ClassModel} {declared : List Text}
    (taken : model.names = declared.eraseDups) (name : Text) :
    (model.introduce name).names = (declared ++ [name]).eraseDups := by
  have known : model.names.contains name = model.classes.any (·.name == name) := by
    rw [names, List.contains_eq_any_beq, List.any_map]
    exact congrArg (List.any model.classes) (funext fun _ => BEq.comm)
  rw [eraseDups_append_singleton, ← taken, known]
  unfold introduce
  split
  · rfl
  · exact List.map_append

theorem names_addTo (name line : Text) (model : ClassModel) :
    (model.addTo name line).names = model.names := by
  unfold addTo
  cases member? line with
  | none => rfl
  | some member =>
      unfold names
      rw [List.map_map]
      apply List.map_congr_left
      intro entry _
      dsimp only [Function.comp_apply]
      split
      · cases member <;> rfl
      · rfl

/-- Only a declaration can add a class. -/
theorem names_follow {reading : Reading} {declared : List Text}
    (taken : reading.model.names = declared.eraseDups) (line : Line) :
    (follow reading line).model.names = (declared ++ line.declared).eraseDups := by
  cases line with
  | declaration name => exact names_introduce taken name
  | closing =>
      rw [Line.declared, List.append_nil]
      exact taken
  | content line =>
      rw [Line.declared, List.append_nil]
      unfold follow
      cases reading.openClass with
      | none => exact taken
      | some name => exact (names_addTo name line reading.model).trans taken

/-- The classes that are declared are there, whichever lines have been read. -/
theorem names_foldl (lines : List Line) :
    (lines.foldl follow { model := empty, openClass := none }).model.names =
      (lines.flatMap Line.declared).eraseDups :=
  foldl_eraseDups (fun reading : Reading => reading.model.names) Line.declared
    (fun _ line _ taken => names_follow taken line) [] rfl lines

theorem names_ofLines (lines : List Text) :
    (ofLines lines).names = ((statements lines).flatMap Line.declared).eraseDups :=
  names_foldl (statements lines)

theorem isDistinct_ofLines (lines : List Text) : (ofLines lines).IsDistinct := by
  change (ofLines lines).names.Nodup
  rw [names_ofLines]
  exact nodup_eraseDups _

end ClassModel

namespace UseCases

/-- The actor that a line declares. -/
def Line.actors : Line → List Text
  | .declaration actor => [actor]
  | .content _ _ => []

/-- The use cases that a line mentions. -/
def Line.labels : Line → List Text
  | .declaration _ => []
  | .content labels _ => labels

/-- The lines of a source as they are read. -/
def statements (lines : List Text) : List Line :=
  (Text.contentLines lines).map Line.read

/-- No actor and no use case is there twice. -/
structure IsDistinct (useCases : UseCases) : Prop where
  actors : useCases.actors.Nodup
  labels : useCases.labels.Nodup

theorem including_eq {names mentioned : List Text} (taken : names = mentioned.eraseDups)
    (name : Text) : including names name = (mentioned ++ [name]).eraseDups := by
  rw [eraseDups_append_singleton, ← taken]
  rfl

theorem actors_follow {useCases : UseCases} {mentioned : List Text}
    (taken : useCases.actors = mentioned.eraseDups) (line : Line) :
    (useCases.follow line).actors = (mentioned ++ line.actors).eraseDups := by
  cases line with
  | declaration actor => exact including_eq taken actor
  | content labels link =>
      rw [Line.actors, List.append_nil]
      exact taken

theorem labels_follow {useCases : UseCases} {mentioned : List Text}
    (taken : useCases.labels = mentioned.eraseDups) (line : Line) :
    (useCases.follow line).labels = (mentioned ++ line.labels).eraseDups := by
  cases line with
  | declaration actor =>
      rw [Line.labels, List.append_nil]
      exact taken
  | content labels link =>
      have included := foldl_eraseDups id (fun label : Text => [label])
        (fun _ label _ taken => including_eq taken label) mentioned taken labels
      rwa [List.flatMap_singleton'] at included

theorem actors_ofLines (lines : List Text) :
    (ofLines lines).actors = ((statements lines).flatMap Line.actors).eraseDups :=
  foldl_eraseDups UseCases.actors Line.actors (fun _ line _ taken => actors_follow taken line) []
    rfl (statements lines)

theorem labels_ofLines (lines : List Text) :
    (ofLines lines).labels = ((statements lines).flatMap Line.labels).eraseDups :=
  foldl_eraseDups UseCases.labels Line.labels (fun _ line _ taken => labels_follow taken line) []
    rfl (statements lines)

theorem isDistinct_ofLines (lines : List Text) : (ofLines lines).IsDistinct := by
  constructor
  · rw [actors_ofLines]
    exact nodup_eraseDups _
  · rw [labels_ofLines]
    exact nodup_eraseDups _

end UseCases

namespace Components

/-- No component has two places, and each of them goes by an alias. -/
structure IsDistinct (components : Components) : Prop where
  placed : components.placed.Nodup
  known : ∀ name ∈ components.placed, name ∈ components.aliases.names

variable {components : Components}

/-- Only a component that is not known yet is placed. -/
theorem IsDistinct.declare (distinct : components.IsDistinct) (name : Text) (given : Option Text)
    {container : Container} (valid : container.IsValid components) :
    (components.declare name given container).IsDistinct := by
  obtain ⟨placed, known⟩ := distinct
  unfold Components.declare
  dsimp only
  constructor
  · split
    · exact placed
    · next fresh =>
        have unknown : name ∉ components.aliases.names := fun used =>
          fresh (Keyed.find?_isSome_iff.mpr used)
        apply (perm_placed_place valid name).nodup_iff.mpr
        exact List.nodup_cons.mpr ⟨fun there => unknown (known name there), placed⟩
  · intro other there
    apply Keyed.mem_names_assign.mpr
    split at there
    · exact .inr (known other there)
    · rcases (mem_placed_place valid name other).mp there with same | old
      · exact .inl same
      · exact .inr (known other old)

theorem IsDistinct.follow {reading : Reading} (distinct : reading.components.IsDistinct)
    (stored : reading.IsStored) (line : Line) :
    (Components.follow reading line).components.IsDistinct := by
  cases line with
  | closing => exact distinct
  | package name =>
      have same : (reading.components.addPackage (some name)).placed =
          reading.components.placed := by
        simp [Components.placed, addPackage]
      exact ⟨same ▸ distinct.placed, fun other there => distinct.known other (same ▸ there)⟩
  | connection read => exact ⟨distinct.placed, distinct.known⟩
  | component name given => exact distinct.declare name given stored.isValid_container

theorem isDistinct_ofLines (lines : List Text) : (ofLines lines).IsDistinct := by
  let holds (reading : Reading) := reading.IsStored ∧ reading.components.IsDistinct
  have start : holds { components := empty, isOpen := false } :=
    ⟨isStored_start, List.nodup_nil, List.forall_mem_nil _⟩
  have final := List.foldlRecOn ((Text.contentLines lines).filterMap Line.read?) follow start
    fun reading both line _ => ⟨both.1.follow line, both.2.follow both.1 line⟩
  exact final.2

end Components

end DiagramSketch
