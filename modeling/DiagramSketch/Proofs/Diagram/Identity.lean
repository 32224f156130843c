import DiagramSketch.Proofs.Components.Resolution

/-!
# Which entities a diagram has

A name that a source mentions again is the name of the entity that is there already.  So the
entities of a sort go by the names that are mentioned, each of them by its own.  Packages are an
exception: every line that opens a package makes a new one, whatever its name.
-/

namespace DiagramSketch

/-! ## Tasks -/

namespace Schedule

/-- The tasks that a line makes sure of. -/
def Line.tasks : Line → List Text
  | .start _ => []
  | .duration name _ => [name]
  | .order _ _ => []

/-- The lines of a source that are read. -/
def statements (lines : List Text) : List Line :=
  (Text.contentLines lines).filterMap Line.read?

/-- The names of the tasks, in order. -/
def names (schedule : Schedule) : List Text :=
  schedule.tasks.map Task.name

theorem names_setDuration {schedule : Schedule} {mentioned : List Text}
    (taken : schedule.names = mentioned.eraseDups) (name : Text) (days : Int) :
    (schedule.setDuration name days).names = (mentioned ++ [name]).eraseDups := by
  have known : schedule.names.contains name = schedule.hasTask name := by
    rw [names, List.contains_eq_any_beq, List.any_map]
    exact congrArg (List.any schedule.tasks) (funext fun _ => BEq.comm)
  rw [eraseDups_append_singleton, ← taken, known]
  unfold setDuration
  split
  · exact names_alter name (fun task => { task with days }) (fun _ => rfl) schedule
  · exact List.map_append

/-- Only a duration can add a task. -/
theorem names_follow {schedule next : Schedule} {mentioned : List Text}
    (taken : schedule.names = mentioned.eraseDups) {line : Line}
    (success : schedule.follow line = .ok next) :
    next.names = (mentioned ++ line.tasks).eraseDups := by
  cases line with
  | start date =>
      cases success
      rw [Line.tasks, List.append_nil]
      exact taken
  | duration name amount =>
      obtain ⟨days, -, rfl⟩ := map_eq_ok_iff.mp success
      exact names_setDuration taken name days
  | order name predecessor =>
      cases success
      rw [Line.tasks, List.append_nil, ← taken]
      exact names_alter name (fun task => { task with after := some predecessor }) (fun _ => rfl)
        schedule

theorem names_ofLines {lines : List Text} {schedule : Schedule}
    (success : ofLines lines = .ok schedule) :
    schedule.names = ((statements lines).flatMap Line.tasks).eraseDups :=
  foldlM_eraseDups names Line.tasks (fun _ _ _ _ taken => names_follow taken) [] rfl success

end Schedule

/-! ## Components and packages -/

namespace Components

/-- Over all containers, the components are those that are declared, each of them once. -/
theorem perm_placed_ofLines (lines : List Text) :
    (ofLines lines).placed.Perm ((declarations lines).map Declaration.name).eraseDups := by
  have distinct := isDistinct_ofLines lines
  have stored := isStored_ofLines lines
  refine (List.perm_ext_iff_of_nodup distinct.placed (nodup_eraseDups _)).mpr fun name => ?_
  rw [List.mem_eraseDups, ← mem_introduced, ← (isStoreOf_ofLines lines).isSome_find?_aliases,
    Keyed.find?_isSome_iff]
  exact ⟨distinct.known name, stored.aliased name⟩

/-- The packages are those that are opened, one for each time. -/
theorem packages_ofLines (lines : List Text) :
    (ofLines lines).packages.map Package.name = titles lines := by
  rw [(isStoreOf_ofLines lines).packages, List.map_map]
  exact List.zipIdx_map_fst 0 (titles lines)

end Components

/-! ## All sorts -/

namespace Diagram

/-- The sorts of entities that go by names. -/
inductive EntitySort where
  | participants
  | classes
  | actors
  | labels
  | packages
  | components
  | tasks
deriving DecidableEq, Repr

/-- The names of the entities of a sort. -/
def names : Diagram → EntitySort → List Text
  | sequence read, .participants => read.participants
  | classes model, .classes => model.names
  | useCase read, .actors => read.actors
  | useCase read, .labels => read.labels
  | component read, .packages => read.packages.filterMap Package.name
  | component read, .components => read.placed
  | gantt schedule, .tasks => schedule.names
  | _, _ => []

/-- The names of a sort that lines mention when they are read as a diagram of the kind, as often as
they mention them. -/
def mentioned (lines : List Text) : Kind → EntitySort → List Text
  | .sequence, .participants => (Sequence.statements lines).flatMap Sequence.Line.participants
  | .classes, .classes => (ClassModel.statements lines).flatMap ClassModel.Line.declared
  | .useCase, .actors => (UseCases.statements lines).flatMap UseCases.Line.actors
  | .useCase, .labels => (UseCases.statements lines).flatMap UseCases.Line.labels
  | .component, .packages => (Components.statements lines).filterMap Components.Line.title?
  | .component, .components => (Components.declarations lines).map Components.Declaration.name
  | .gantt, .tasks => (Schedule.statements lines).flatMap Schedule.Line.tasks
  | _, _ => []

variable {lines : List Text} {kind : Kind} {diagram : Diagram}

theorem perm_names_of_read (success : read lines kind = .ok diagram) {sort : EntitySort}
    (other : sort ≠ .packages) :
    (diagram.names sort).Perm (mentioned lines kind sort).eraseDups := by
  cases kind with
  | sequence =>
      cases success
      cases sort with
      | participants => exact .of_eq (Sequence.participants_ofLines lines)
      | _ => exact .refl []
  | classes =>
      cases success
      cases sort with
      | classes => exact .of_eq (ClassModel.names_ofLines lines)
      | _ => exact .refl []
  | useCase =>
      cases success
      cases sort with
      | actors => exact .of_eq (UseCases.actors_ofLines lines)
      | labels => exact .of_eq (UseCases.labels_ofLines lines)
      | _ => exact .refl []
  | component =>
      cases success
      cases sort with
      | packages => exact absurd rfl other
      | components => exact Components.perm_placed_ofLines lines
      | _ => exact .refl []
  | gantt =>
      obtain ⟨schedule, readSchedule, rfl⟩ := map_eq_ok_iff.mp success
      cases sort with
      | tasks => exact .of_eq (Schedule.names_ofLines readSchedule)
      | _ => exact .refl []
  | _ =>
      cases success
      cases sort <;> exact .refl []

theorem packages_of_read (success : read lines kind = .ok diagram) :
    diagram.names .packages = mentioned lines kind .packages := by
  cases kind with
  | component =>
      cases success
      have opened := congrArg (List.filterMap id) (Components.packages_ofLines lines)
      rw [Components.titles, List.filterMap_map, List.filterMap_map] at opened
      simpa [names, mentioned] using opened
  | gantt =>
      obtain ⟨schedule, -, rfl⟩ := map_eq_ok_iff.mp success
      rfl
  | _ =>
      cases success
      rfl

/-- Apart from packages, a name that is mentioned again means the entity that is there already, so
that no two entities of a sort have the same name.  A package is new each time that one is opened,
so that two have the same name exactly if a name is opened twice. -/
theorem nodup_names_of_read (success : read lines kind = .ok diagram) :
    (∀ sort, sort ≠ .packages → (diagram.names sort).Nodup ∧
      (diagram.names sort).Perm (mentioned lines kind sort).eraseDups) ∧
    diagram.names .packages = mentioned lines kind .packages ∧
    ((∀ sort, (diagram.names sort).Nodup) ↔ (mentioned lines kind .packages).Nodup) := by
  have each (sort : EntitySort) (other : sort ≠ .packages) : (diagram.names sort).Nodup ∧
      (diagram.names sort).Perm (mentioned lines kind sort).eraseDups := by
    have same := perm_names_of_read success other
    exact ⟨same.nodup_iff.mpr (nodup_eraseDups _), same⟩
  have packages := packages_of_read success
  refine ⟨each, packages, fun distinct => packages ▸ distinct .packages, fun once sort => ?_⟩
  by_cases other : sort = .packages
  · rw [other, packages]
    exact once
  · exact (each sort other).1

/-- A component that is declared again in another package stays where it is. -/
theorem nodup_names_declared_again :
    let lines : List Text := ["package \"P\" \x7b", "[A]", "\x7d", "package \"Q\" \x7b", "[A] as B"]
    ∃ components, read lines .component = .ok (component components) ∧
      components.packages = [⟨some "P", ["A"]⟩, ⟨some "Q", []⟩] ∧
      ∀ sort, ((component components).names sort).Nodup := by
  intro lines
  have success : read lines .component = .ok (component (.ofLines lines)) := rfl
  refine ⟨_, success, by decide +kernel, ?_⟩
  exact (nodup_names_of_read success).2.2.mpr (by decide +kernel)

/-- A package that is opened again is there twice. -/
theorem not_nodup_names_opened_again :
    let lines : List Text :=
      ["package \"P\" \x7b", "[A]", "\x7d", "package \"P\" \x7b", "[B]", "\x7d"]
    ∃ components, read lines .component = .ok (component components) ∧
      components.packages = [⟨some "P", ["A"]⟩, ⟨some "P", ["B"]⟩] ∧
      ¬ ((component components).names .packages).Nodup := by
  intro lines
  refine ⟨.ofLines lines, rfl, by decide +kernel, by decide +kernel⟩

end Diagram

end DiagramSketch
