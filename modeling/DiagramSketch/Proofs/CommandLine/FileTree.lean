import DiagramSketch.CommandLine.FileTree
import DiagramSketch.Proofs.CommandLine.FileSystem
import Mathlib.Tactic.ByContra

/-!
# File trees as file systems

A file is written at the place that its path leads to.  Only directories and links are passed on the
way, and neither is written over, so every path that led to this place leads there afterwards, and
every other path leads where it led before.
-/

namespace DiagramSketch.CommandLine

/-- The place that a path leads to. -/
def Target.place : Target → Place
  | present place _ => place
  | vacant place => place

/-- What is found there. -/
def Target.found? : Target → Option Entry
  | present _ entry => some entry
  | vacant _ => none

namespace FileTree

/-- The place that a path leads to, if it leads to any. -/
def reached (path : Path) (tree : FileTree) : Option Place :=
  if path.hasNull then none
  else
    match tree.locate path with
    | .ok target => some target.place
    | .error _ => none

/-- The places that the paths of trees lead to. All but devices hold what is written. -/
def places : Places FileTree Place where
  reached := reached
  Keeps place tree := tree.found? place ≠ some .sink

variable {tree : FileTree} {path other : Path} {place goal : Place} {bytes : List UInt8}

theorem reached_eq_some_iff : reached path tree = some place ↔
    ¬ path.hasNull = true ∧ ∃ target, tree.locate path = .ok target ∧ target.place = place := by
  rw [reached]
  split
  · next null => exact iff_of_false nofun fun both => both.1 null
  · next valid => cases tree.locate path <;> simp [valid]

/-! ## Entries -/

theorem lookup_put (entry : Entry) (place : Place) (entries : List (Place × Entry)) :
    (put entry place entries).lookup place = some entry := by
  induction entries with
  | nil => simp [put]
  | cons head entries induction =>
      obtain ⟨other, old⟩ := head
      by_cases same : other = place
      · simp [put, same]
      · have different : (place == other) = false := beq_eq_false_iff_ne.mpr (Ne.symm same)
        simp [put, same, List.lookup_cons, different, induction]

theorem lookup_put_of_ne (different : place ≠ goal) (entry : Entry)
    (entries : List (Place × Entry)) :
    (put entry goal entries).lookup place = entries.lookup place := by
  have apart : (place == goal) = false := beq_eq_false_iff_ne.mpr different
  induction entries with
  | nil => simp [put, List.lookup_cons, apart]
  | cons head entries induction =>
      obtain ⟨other, old⟩ := head
      by_cases same : other = goal
      · subst same
        simp [put, List.lookup_cons, apart]
      · simp [put, same, List.lookup_cons, induction]

/-- There is a file at a place, or nothing yet. -/
def IsFree (tree : FileTree) (place : Place) : Prop :=
  ∀ entry, tree.found? place = some entry → ∃ bytes, entry = .file bytes

theorem IsFree.found?_withFile (free : tree.IsFree goal) (bytes : List UInt8) :
    (tree.withFile bytes goal).found? goal = some (.file bytes) := by
  have below : ¬ (goal = [] ∨ goal = tree.workingDirectory) := by
    intro above
    obtain ⟨old, other⟩ := free .directory (if_pos above)
    cases other
  exact (if_neg below).trans (lookup_put _ _ _)

/-- A file that is written is the only entry that changes. -/
theorem found?_withFile_of_ne (different : place ≠ goal) (bytes : List UInt8) :
    (tree.withFile bytes goal).found? place = tree.found? place := by
  unfold found?
  rw [show (tree.withFile bytes goal).entries.lookup place = tree.entries.lookup place from
    lookup_put_of_ne different _ _]
  rfl

/-! ## Paths after a file is written -/

/-- What becomes of the way of a path when a file is written. -/
inductive Becomes (goal : Place) (bytes : List UInt8) :
    Except SystemError Target → Except SystemError Target → Prop
  /-- The path leads to the file. -/
  | file {target : Target} (reached : target.place = goal) :
      Becomes goal bytes (.ok target) (.ok (.present goal (.file bytes)))
  /-- The path leads somewhere else. -/
  | same {way : Except SystemError Target}
      (apart : ∀ target, way = .ok target → target.place ≠ goal) : Becomes goal bytes way way
  /-- The path went on from where nothing was, and now a file is in the way. -/
  | blocked : Becomes goal bytes (.error .notFound) (.error .notDirectory)

theorem becomes_error (error : SystemError) : Becomes goal bytes (.error error) (.error error) :=
  .same fun _ found => by cases found

/-- The directories and links on the way to anywhere are as they were. -/
theorem becomes_walk (free : tree.IsFree goal)
    {onLink onLinkAfter : Place → List Text → Except SystemError Target}
    (links : ∀ place names, Becomes goal bytes (onLink place names) (onLinkAfter place names))
    (place : Place) (names : List Text) :
    Becomes goal bytes (tree.walk onLink place names)
      ((tree.withFile bytes goal).walk onLinkAfter place names) := by
  induction names generalizing place with
  | nil =>
      rw [walk, walk]
      by_cases here : place = goal
      · subst here
        rw [free.found?_withFile]
        cases tree.found? place <;> exact .file rfl
      · rw [found?_withFile_of_ne here]
        cases tree.found? place <;> exact .same fun _ found => by cases found; exact here
  | cons name names induction =>
      rw [walk, walk]
      by_cases here : place = goal
      · subst here
        rw [free.found?_withFile]
        cases there : tree.found? place with
        | none => exact .blocked
        | some entry =>
            obtain ⟨old, rfl⟩ := free entry there
            exact becomes_error _
      · rw [found?_withFile_of_ne here]
        split
        · exact becomes_error _
        · split
          · exact induction _
          · split
            · exact becomes_error _
            · by_cases next : place ++ [name] = goal
              · rw [next, free.found?_withFile]
                split
                · next target link =>
                    obtain ⟨old, other⟩ := free _ link
                    cases other
                · exact induction goal
              · rw [found?_withFile_of_ne next]
                split
                · exact links _ _
                · exact induction _
        · exact becomes_error _

theorem becomes_follow (free : tree.IsFree goal) (bytes : List UInt8) (links : Nat) (place : Place)
    (names : List Text) :
    Becomes goal bytes (tree.follow links place names)
      ((tree.withFile bytes goal).follow links place names) := by
  induction links generalizing place names with
  | zero => exact becomes_walk free (fun _ _ => becomes_error _) place names
  | succ links induction => exact becomes_walk free induction place names

theorem becomes_locate (free : tree.IsFree goal) (bytes : List UInt8) (path : Path) :
    Becomes goal bytes (tree.locate path) ((tree.withFile bytes goal).locate path) := by
  unfold locate
  split
  · exact becomes_error _
  · exact becomes_follow free bytes linkLimit _ path.parts

/-- Reading a path that leads to the file gives what is in it. -/
theorem read_withFile (free : tree.IsFree goal) (bytes : List UInt8)
    (there : reached other tree = some goal) :
    read other (tree.withFile bytes goal) = .content bytes := by
  obtain ⟨valid, target, found, rfl⟩ := reached_eq_some_iff.mp there
  have becomes := becomes_locate free bytes other
  rw [found] at becomes
  rw [read, if_neg valid]
  generalize (tree.withFile bytes target.place).locate other = after at becomes ⊢
  cases becomes with
  | file => rfl
  | same apart => exact absurd rfl (apart target rfl)

/-- Reading any other path gives what it gave before. -/
theorem read_withFile_of_ne (free : tree.IsFree goal) (bytes : List UInt8)
    (elsewhere : reached other tree ≠ some goal) :
    read other (tree.withFile bytes goal) = read other tree := by
  have becomes := becomes_locate free bytes other
  rw [read, read]
  split
  · rfl
  · next valid =>
      rw [reached, if_neg valid] at elsewhere
      generalize (tree.withFile bytes goal).locate other = after at becomes ⊢
      generalize tree.locate other = before at becomes elsewhere ⊢
      cases becomes with
      | file there => exact absurd (congrArg some there) elsewhere
      | same apart => rfl
      | blocked => rfl

/-! ## Reading and writing -/

/-- A path leads to what is at its place. -/
theorem found?_place_of_walk {onLink : Place → List Text → Except SystemError Target}
    (links : ∀ place names target, onLink place names = .ok target →
      tree.found? target.place = target.found?) {names : List Text} {target : Target}
    (found : tree.walk onLink place names = .ok target) :
    tree.found? target.place = target.found? := by
  induction names generalizing place with
  | nil =>
      rw [walk] at found
      split at found
      · next entry there =>
          cases found
          exact there
      · next vacant =>
          cases found
          exact vacant
  | cons name names induction =>
      rw [walk] at found
      split at found
      · cases found
      · split at found
        · exact induction found
        · split at found
          · cases found
          · split at found
            · exact links _ _ _ found
            · exact induction found
      · cases found

theorem found?_place_of_follow {links : Nat} {names : List Text} {target : Target}
    (found : tree.follow links place names = .ok target) :
    tree.found? target.place = target.found? := by
  induction links generalizing place names target with
  | zero => exact found?_place_of_walk (fun _ _ _ refused => by cases refused) found
  | succ links induction => exact found?_place_of_walk (fun _ _ _ => induction) found

theorem found?_place_of_locate {target : Target} (found : tree.locate path = .ok target) :
    tree.found? target.place = target.found? := by
  unfold locate at found
  split at found
  · cases found
  · exact found?_place_of_follow found

/-- A file is not opened, or it is a device, or the text is stored at the place of the path. -/
theorem write_cases (path : Path) (text : Text) (tree : FileTree) :
    (∃ error : WriteError, error.isLate = false ∧ tree.write path text = (.error error, tree)) ∨
      ∃ place, reached path tree = some place ∧
        (tree.found? place = some .sink ∧ write path text tree = (.ok (), tree) ∨
          tree.IsFree place ∧ write path text tree = tree.store (Text.toUtf8 text) place) := by
  by_cases null : path.hasNull = true
  · exact .inl ⟨.nullCharacter, rfl, if_pos null⟩
  · cases found : tree.locate path with
    | error error =>
        refine .inl ⟨.unopened error, rfl, ?_⟩
        rw [write, if_neg null, found]
    | ok target =>
        have there := found?_place_of_locate found
        have leads : reached path tree = some target.place :=
          reached_eq_some_iff.mpr ⟨null, target, found, rfl⟩
        match target with
        | .present place (.file bytes) =>
            refine .inr ⟨place, leads, .inr ⟨fun entry held => ?_, ?_⟩⟩
            · exact ⟨bytes, (Option.some.inj (there.symm.trans held)).symm⟩
            · rw [write, if_neg null, found]
        | .vacant place =>
            refine .inr ⟨place, leads, .inr ⟨fun entry held => ?_, ?_⟩⟩
            · cases there.symm.trans held
            · rw [write, if_neg null, found]
        | .present place .sink =>
            refine .inr ⟨place, leads, .inl ⟨there, ?_⟩⟩
            rw [write, if_neg null, found]
        | .present place .directory =>
            refine .inl ⟨.unopened .isDirectory, rfl, ?_⟩
            rw [write, if_neg null, found]
        | .present place (.link onward) =>
            refine .inl ⟨.unopened .tooManyLinks, rfl, ?_⟩
            rw [write, if_neg null, found]

theorem read_eq_content_iff : read path tree = .content bytes ↔
    ¬ path.hasNull = true ∧ ∃ place, tree.locate path = .ok (.present place (.file bytes)) ∨
      bytes = [] ∧ tree.locate path = .ok (.present place .sink) := by
  rw [read]
  split
  · next null => exact iff_of_false nofun fun both => both.1 null
  · next valid =>
      rw [and_iff_right valid]
      match tree.locate path with
      | .ok (.present place (.file held)) => simp [readingOf]
      | .ok (.present place .sink) => simp [readingOf, eq_comm]
      | .ok (.present place .directory) => simp [readingOf]
      | .ok (.present place (.link target)) => simp [readingOf]
      | .ok (.vacant place) => simp [readingOf]
      | .error error => cases error <;> simp [readingOf]

/-- A file or a device is below the root and the working directory. -/
theorem parts_ne_nil_of_locate {entry : Entry}
    (found : tree.locate path = .ok (.present place entry)) (below : entry ≠ .directory) :
    path.parts ≠ [] := by
  intro none
  have start : tree.found? (if path.root.isEmpty then tree.workingDirectory else []) =
      some .directory := by
    split
    · exact if_pos (.inr rfl)
    · exact if_pos (.inl rfl)
  unfold locate at found
  split at found
  · cases found
  · rw [none, linkLimit, follow, walk, start] at found
    cases found
    exact below rfl

theorem parts_ne_nil_of_read (held : read path tree = .content bytes) : path.parts ≠ [] := by
  obtain ⟨-, place, file | ⟨-, device⟩⟩ := read_eq_content_iff.mp held
  · exact parts_ne_nil_of_locate file nofun
  · exact parts_ne_nil_of_locate device nofun

theorem exists_reached_of_read (held : read path tree = .content bytes) :
    ∃ place, reached path tree = some place := by
  obtain ⟨valid, place, file | ⟨-, device⟩⟩ := read_eq_content_iff.mp held
  · exact ⟨place, reached_eq_some_iff.mpr ⟨valid, _, file, rfl⟩⟩
  · exact ⟨place, reached_eq_some_iff.mpr ⟨valid, _, device, rfl⟩⟩

variable {text : Text} {left : FileTree}

theorem eq_of_write_refused {error : WriteError}
    (failed : write path text tree = (.error error, left)) (early : error.isLate = false) : left = tree := by
  obtain ⟨_, -, same⟩ | ⟨place, -, ⟨-, same⟩ | ⟨-, same⟩⟩ := write_cases path text tree
  · rw [same] at failed
    cases failed
    rfl
  · rw [same] at failed
    cases failed
  · rw [same, store] at failed
    split at failed
    · cases failed
    · cases failed
      cases early

theorem read_write_of_apart (text : Text) (apart : ¬ places.Meet path other tree) :
    read other (write path text tree).2 = read other tree := by
  obtain ⟨_, -, same⟩ | ⟨place, leads, ⟨-, same⟩ | ⟨free, same⟩⟩ := write_cases path text tree
  · rw [same]
  · rw [same]
  · rw [same]
    exact read_withFile_of_ne free _ fun there => apart ⟨place, leads, there⟩

theorem exists_place_of_write (success : write path text tree = (.ok (), left)) :
    ∃ place, reached path tree = some place ∧
      (places.Keeps place tree → ∀ other, reached other tree = some place →
        read other left = .content (Text.toUtf8 text)) := by
  obtain ⟨_, -, same⟩ | ⟨place, leads, ⟨device, same⟩ | ⟨free, same⟩⟩ := write_cases path text tree
  · rw [same] at success
    cases success
  · exact ⟨place, leads, fun keeps => absurd device keeps⟩
  · refine ⟨place, leads, fun _ other there => ?_⟩
    rw [same, store] at success
    split at success
    · next whole =>
        cases success
        rw [whole]
        exact read_withFile free _ there
    · cases success

/-- The file system of a tree keeps the laws, also where the disk is full. -/
theorem isLawful_system : system.IsLawful places where
  named := parts_ne_nil_of_read
  held := exists_reached_of_read
  refused := eq_of_write_refused
  elsewhere := read_write_of_apart
  stored := exists_place_of_write

end FileTree

end DiagramSketch.CommandLine
