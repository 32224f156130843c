import DiagramSketch.Proofs.CommandLine.Run
import DiagramSketch.Proofs.Text.Scanning

/-!
# A document beside its source

A document that is not asked for elsewhere goes into the file that has the name of its source with
another suffix.  This is another file, and the source keeps its content, unless its name has the
suffix already, or a link leads from one of the two to the other: then the document takes the place
of the source.
-/

namespace DiagramSketch.CommandLine

/-! ## Suffixes -/

namespace Path

/-- A name has a suffix: it ends with it, and something stands before. -/
def NameHas (suffix name : Text) : Prop :=
  suffix <:+ name ∧ suffix ≠ name

/-- A path has the suffix that its last name has. -/
def Has (suffix : Text) (path : Path) : Prop :=
  ∃ name, path.parts.getLast? = some name ∧ NameHas suffix name

theorem stem_ne_nil {name : Text} (some : name ≠ []) : stem name ≠ [] := by
  unfold stem
  split
  · exact List.reverse_ne_nil_iff.mpr nofun
  · exact some

/-- The stem of a name is what stands before its suffix. -/
theorem stem_append {letters before : Text} (letter : letters ≠ []) (plain : '.' ∉ letters)
    (front : before ≠ []) : stem (before ++ '.' :: letters) = before := by
  have all : ∀ character ∈ letters.reverse, (character != '.') = true := by
    intro character member
    rw [bne_iff_ne]
    rintro rfl
    exact plain (List.mem_reverse.mp member)
  have ends : ∀ character ∈ ('.' :: before.reverse).head?, (character != '.') = false := by
    intro character first
    cases first
    rfl
  have split := splitWhile_append all ends
  have turned : (before ++ '.' :: letters).reverse = letters.reverse ++ '.' :: before.reverse := by
    simp
  obtain ⟨last, others, more⟩ := List.exists_cons_of_ne_nil (List.reverse_ne_nil_iff.mpr letter)
  obtain ⟨final, rest, turnedFront⟩ :=
    List.exists_cons_of_ne_nil (List.reverse_ne_nil_iff.mpr front)
  rw [stem, turned, split.1, split.2, more, turnedFront]
  dsimp only
  rw [← turnedFront, List.reverse_reverse]

/-- Putting a suffix behind the stem gives the name back if and only if the name has it. -/
theorem stem_append_eq_iff {letters : Text} (letter : letters ≠ []) (plain : '.' ∉ letters)
    (name : Text) : stem name ++ '.' :: letters = name ↔ NameHas ('.' :: letters) name := by
  constructor
  · intro same
    refine ⟨⟨stem name, same⟩, fun whole => ?_⟩
    have nothing : stem name = [] := List.append_left_eq_self.mp (same.trans whole.symm)
    have some : name ≠ [] := whole ▸ List.cons_ne_nil '.' letters
    exact stem_ne_nil some nothing
  · rintro ⟨⟨before, rfl⟩, apart⟩
    have front : before ≠ [] := by
      rintro rfl
      exact apart rfl
    rw [stem_append letter plain front]

theorem withSuffix_append_singleton (suffix root name : Text) (names : List Text) :
    withSuffix suffix { root, parts := names ++ [name] } =
      { root, parts := names ++ [stem name ++ suffix] } := by
  simp [withSuffix]

/-- The path for a document is the path of its source if and only if this has the suffix. -/
theorem withSuffix_eq_self_iff {path : Path} (some : path.parts ≠ []) :
    path.withSuffix Destination.suffix = path ↔ path.Has Destination.suffix := by
  obtain ⟨root, parts⟩ := path
  obtain ⟨names, name, rfl⟩ := (List.eq_nil_or_concat' parts).resolve_left some
  rw [withSuffix_append_singleton]
  have same : stem name ++ Destination.suffix = name ↔ NameHas Destination.suffix name :=
    stem_append_eq_iff (List.cons_ne_nil 's' ['v', 'g']) (by decide) name
  simp [Has, same]

end Path

/-! ## The places of a source and its document -/

namespace FileTree

variable {tree : FileTree}

/-- Where the last name of a path leads to from its directory: to the directory above, to a place
inside, or anywhere if there is a link. -/
inductive LeadsTo (tree : FileTree) (directory : Place) (name : Text) : Place → Prop
  | above (dots : name = ['.', '.']) : LeadsTo tree directory name directory.dropLast
  | inside : LeadsTo tree directory name (directory ++ [name])
  | linked {target : Path} {place : Place}
      (link : tree.found? (directory ++ [name]) = some (.link target)) :
      LeadsTo tree directory name place

theorem place_of_walk_nil {onLink : Place → List Text → Except SystemError Target} {place : Place}
    {target : Target} (found : tree.walk onLink place [] = .ok target) : target.place = place := by
  rw [walk] at found
  split at found <;> cases found <;> rfl

/-- Paths that differ in nothing but the last name lead through the same directory. -/
theorem exists_directory_of_walk {onLink : Place → List Text → Except SystemError Target}
    (links : ∀ place names, ∃ directory, ∀ name target,
      onLink place (names ++ [name]) = .ok target → tree.LeadsTo directory name target.place)
    (place : Place) (names : List Text) : ∃ directory, ∀ name target,
      tree.walk onLink place (names ++ [name]) = .ok target →
        tree.LeadsTo directory name target.place := by
  induction names generalizing place with
  | nil =>
      refine ⟨place, fun name target found => ?_⟩
      rw [List.nil_append, walk] at found
      split at found
      · cases found
      · split at found
        · next dots =>
            rw [place_of_walk_nil found]
            exact .above dots
        · split at found
          · cases found
          · split at found
            · next link => exact .linked link
            · rw [place_of_walk_nil found]
              exact .inside
      · cases found
  | cons next names induction =>
      simp only [List.cons_append, walk]
      split
      · exact ⟨place, fun _ _ refused => by cases refused⟩
      · split
        · exact induction _
        · split
          · exact ⟨place, fun _ _ refused => by cases refused⟩
          · split
            · simp only [← List.append_assoc]
              exact links _ _
            · exact induction _
      · exact ⟨place, fun _ _ refused => by cases refused⟩

theorem exists_directory_of_follow (tree : FileTree) (links : Nat) (place : Place)
    (names : List Text) : ∃ directory, ∀ name target,
      tree.follow links place (names ++ [name]) = .ok target →
        tree.LeadsTo directory name target.place := by
  induction links generalizing place names with
  | zero =>
      refine exists_directory_of_walk (fun place _ => ⟨place, ?_⟩) place names
      intro name target refused
      cases refused
  | succ links induction => exact exists_directory_of_walk induction place names

/-- A link has a name. -/
def HasLinkNamed (tree : FileTree) (name : Text) : Prop :=
  ∃ directory target, tree.found? (directory ++ [name]) = some (.link target)

theorem exists_directory_of_reached (tree : FileTree) (root : Text) (names : List Text) :
    ∃ directory, ∀ name place, reached ⟨root, names ++ [name]⟩ tree = some place →
      tree.LeadsTo directory name place := by
  obtain ⟨directory, leads⟩ := exists_directory_of_follow tree linkLimit
    (if root.isEmpty then tree.workingDirectory else []) names
  refine ⟨directory, fun name place there => ?_⟩
  obtain ⟨-, target, found, rfl⟩ := reached_eq_some_iff.mp there
  unfold locate at found
  split at found
  · cases found
  · exact leads name target found

/-- A document has the place of its source only if it has the path of its source, or if one of the
two names is that of a link. -/
theorem has_suffix_or_hasLinkNamed {path : Path} (some : path.parts ≠ [])
    (meet : places.Meet (path.withSuffix Destination.suffix) path tree) :
    path.Has Destination.suffix ∨ ∃ name, tree.HasLinkNamed name ∧
      (path.parts.getLast? = .some name ∨
        (path.withSuffix Destination.suffix).parts.getLast? = .some name) := by
  obtain ⟨place, document, source⟩ := meet
  obtain ⟨root, parts⟩ := path
  obtain ⟨names, name, rfl⟩ := (List.eq_nil_or_concat' parts).resolve_left some
  have own := Path.withSuffix_eq_self_iff some
  rw [Path.withSuffix_append_singleton] at document own ⊢
  rw [List.getLast?_concat, List.getLast?_concat]
  obtain ⟨directory, leads⟩ := exists_directory_of_reached tree root names
  have above : directory.dropLast ≠ directory ++ [Path.stem name ++ Destination.suffix] := by
    intro same
    have lengths := congrArg List.length same
    simp only [List.length_dropLast, List.length_append, List.length_cons] at lengths
    omega
  have down : Path.stem name ++ Destination.suffix ≠ ['.', '.'] := by
    intro dots
    have last := congrArg List.getLast? dots
    rw [List.getLast?_append] at last
    cases last
  generalize Path.stem name ++ Destination.suffix = other at *
  cases leads _ _ source with
  | linked link => exact .inr ⟨name, ⟨directory, _, link⟩, .inl rfl⟩
  | above dots =>
      generalize up : directory.dropLast = upper at *
      cases leads _ _ document with
      | linked link => exact .inr ⟨other, ⟨directory, _, link⟩, .inr rfl⟩
      | above dots => exact absurd dots down
      | inside => exact absurd rfl above
  | inside =>
      generalize here : directory ++ [name] = inside at *
      cases leads _ _ document with
      | linked link => exact .inr ⟨other, ⟨directory, _, link⟩, .inr rfl⟩
      | above dots => exact absurd dots down
      | inside =>
          obtain rfl : name = other := by simpa using here
          exact .inl (own.mp rfl)

end FileTree

/-! ## The run -/

/-- A command to render a file, without anything else for the document to go to. -/
def Command.RendersBeside (file : Text) (command : Command) : Prop :=
  ∃ text output, command = .render (some file) text false output ∧
    output.filter (!·.isEmpty) = none

theorem Command.RendersBeside.eq_of_job {file : Text} {command : Command} {job : Job}
    (renders : command.RendersBeside file) (named : file ≠ []) (sensible : command.job = .ok job) :
    job = .render (.file (.ofText file))
      (.file ((Path.ofText file).withSuffix Destination.suffix)) := by
  obtain ⟨text, output, rfl, unasked⟩ := renders
  have operand : (some file).filter (!·.isEmpty) = some file := by
    simp [named]
  simp only [Command.job, unasked, Origin.ofOptions, operand, Option.isSome_none, Bool.and_false,
    Bool.false_eq_true, if_false] at sensible
  cases text with
  | none => exact (Except.ok.inj sensible).symm
  | some value => cases sensible

theorem exists_source_of_fetch {State : Type} {files : FileSystem State} {path : Path}
    {bytes : List UInt8} {input : StandardInput} {state : State} {source : Text}
    (held : files.read path state = .content bytes)
    (fetched : ((Origin.file path).fetch.run files input state).1 = .ok source) :
    decodedFile bytes = .ok source := by
  rw [Origin.fetch, Dialogue.run, held] at fetched
  obtain ⟨text, decoded, found⟩ := bind_eq_ok_iff.mp fetched
  unfold notEmpty at found
  split at found
  · cases found
  · cases found
    exact decoded

section

variable {State Place : Type} {files : FileSystem State} {places : Places State Place}
  {arguments : List Text} {state : State} {file : Text} {bytes : List UInt8}

/-- A command to render a file changes nothing and fails, or it draws the document of what is in the
file and tries to write it beside. -/
theorem Command.RendersBeside.follow_cases {command : Command}
    (renders : command.RendersBeside file) (named : file ≠ [])
    (held : files.read (.ofText file) state = .content bytes) (font : Font)
    (input : StandardInput) :
    let report := ((follow font (some command)).run files input state).1
    let left := ((follow font (some command)).run files input state).2
    (left = state ∧ ∃ failure, report.result = .error failure) ∨
      ∃ source document answer, decodedFile bytes = .ok source ∧
        DiagramSketch.render font source = .ok document ∧
        files.write ((Path.ofText file).withSuffix Destination.suffix) document state =
          (answer, left) ∧
        ((∃ output, report.result = .ok output) ↔ answer = .ok ()) := by
  simp only [follow]
  cases sensible : command.job with
  | error failure => exact .inl ⟨rfl, failure, rfl⟩
  | ok job =>
      have only := renders.eq_of_job named sensible
      obtain ⟨failure, failed, untouched⟩ | ⟨-, -, -, other⟩ |
        ⟨origin, path, source, document, whole, fetched, drawn, written⟩ :=
        job.perform_cases font files input state
      · exact .inl ⟨untouched, failure, failed⟩
      · exact absurd only (other _ _)
      · cases only.symm.trans whole
        have decoded := exists_source_of_fetch held fetched
        refine .inr ⟨source, document, ?_⟩
        obtain ⟨wrote, told⟩ | ⟨error, wrote, told⟩ := written
        · exact ⟨.ok (), decoded, drawn, wrote, iff_of_true ⟨_, told⟩ rfl⟩
        · refine ⟨.error error, decoded, drawn, wrote, iff_of_false ?_ fun other => by cases other⟩
          rintro ⟨output, success⟩
          cases told.symm.trans success

/-- A run that is to render a file changes nothing and does not succeed, or it draws the document of
what is in the file and tries to write it beside. -/
theorem run_beside_cases (font : Font) (debugVariable : Option Text) (input : StandardInput)
    (named : file ≠ [])
    (asked : ∀ request, Request.read arguments = .ok request →
      ∃ command, request.command = some command ∧ command.RendersBeside file)
    (held : files.read (.ofText file) state = .content bytes) :
    let ending := (run font files debugVariable arguments input state).1
    let left := (run font files debugVariable arguments input state).2
    (left = state ∧ ∀ outcome, ending = .finished outcome → outcome.status ≠ 0) ∨
      ∃ source document answer outcome, decodedFile bytes = .ok source ∧
        DiagramSketch.render font source = .ok document ∧
        files.write ((Path.ofText file).withSuffix Destination.suffix) document state =
          (answer, left) ∧
        ending = .finished outcome ∧ (outcome.status = 0 ↔ answer = .ok ()) := by
  obtain ⟨-, same⟩ | ⟨failure, -, same⟩ | ⟨request, understood, same⟩ :=
    run_cases font files debugVariable arguments input state
  · rw [same]
    exact .inl ⟨rfl, fun _ other => by cases other⟩
  · rw [same]
    refine .inl ⟨rfl, ?_⟩
    rintro _ ⟨⟩
    exact Outcome.status_failed_ne_zero _ _
  · obtain ⟨command, own, renders⟩ := asked request understood
    rw [same, own]
    obtain ⟨untouched, failure, failed⟩ | ⟨source, document, answer, decoded, drawn, wrote, told⟩ :=
      renders.follow_cases named held font input
    · refine .inl ⟨untouched, ?_⟩
      rintro _ ⟨⟩
      exact (Outcome.isRefusal_ofReport failed _ _).status.1
    · exact .inr ⟨source, document, answer, _, decoded, drawn, wrote, rfl,
        Outcome.status_ofReport_eq_zero_iff.trans told⟩

/-- A file that is rendered, and whose document is not asked for elsewhere, keeps its content,
unless the document goes to its own place.  Then a run that succeeds leaves the document there that
is drawn from the content, and one that fails has changed nothing, unless the write of the document
was cut short.  The path of the document is that of the file just if its name has the suffix of
documents; another path leads to the place of the file only over a link. -/
theorem rendered_file_kept_or_replaced (lawful : files.IsLawful places) (font : Font)
    (debugVariable : Option Text) (input : StandardInput)
    (asked : ∀ request, Request.read arguments = .ok request →
      ∃ command, request.command = some command ∧ command.RendersBeside file)
    (held : files.read (.ofText file) state = .content bytes) :
    let path := Path.ofText file
    let beside := path.withSuffix Destination.suffix
    let ending := (run font files debugVariable arguments input state).1
    let left := (run font files debugVariable arguments input state).2
    (¬ places.Meet beside path state → files.read path left = .content bytes) ∧
    (∀ outcome, ending = .finished outcome → outcome.status = 0 →
      ∃ source document, decodedFile bytes = .ok source ∧
        DiagramSketch.render font source = .ok document ∧
        ∀ place, places.reached beside state = some place →
          places.reached path state = some place → places.Keeps place state →
          files.read path left = .content (Text.toUtf8 document)) ∧
    ((∀ outcome, ending = .finished outcome → outcome.status ≠ 0) →
      files.read path left = .content bytes ∨ ∃ source document error,
        decodedFile bytes = .ok source ∧ DiagramSketch.render font source = .ok document ∧
        files.write beside document state = (.error error, left) ∧ error.isLate = true) ∧
    (beside = path ↔ path.Has Destination.suffix) ∧
    ∀ tree, FileTree.places.Meet beside path tree → path.Has Destination.suffix ∨
      ∃ name, tree.HasLinkNamed name ∧
        (path.parts.getLast? = some name ∨ beside.parts.getLast? = some name) := by
  intro path beside ending left
  have some := lawful.named held
  have named : file ≠ [] := by
    rintro rfl
    exact some rfl
  have own := Path.withSuffix_eq_self_iff some
  have linked (tree : FileTree) (meet : FileTree.places.Meet beside path tree) :=
    FileTree.has_suffix_or_hasLinkNamed some meet
  obtain ⟨same, fails⟩ |
    ⟨source, document, answer, outcome, decoded, drawn, wrote, ends, success⟩ :=
    run_beside_cases font debugVariable input named asked held
  · have kept : files.read path left = .content bytes := by
      rw [show left = state from same]
      exact held
    exact ⟨fun _ => kept, fun outcome ends success => absurd success (fails outcome ends),
      fun _ => .inl kept, own, linked⟩
  · refine ⟨fun apart => ?_, fun other also done => ?_, fun failed => ?_, own, linked⟩
    · exact (lawful.read_elsewhere wrote path apart).trans held
    · cases ends.symm.trans also
      obtain rfl := success.mp done
      refine ⟨source, document, decoded, drawn, fun place leads there keeps => ?_⟩
      obtain ⟨goal, leadsToo, stored⟩ := lawful.stored wrote
      cases leadsToo.symm.trans leads
      exact stored keeps path there
    · cases answer with
      | ok done => exact absurd (success.mpr rfl) (failed outcome ends)
      | error error =>
          cases early : error.isLate with
          | true => exact .inr ⟨source, document, error, decoded, drawn, wrote, early⟩
          | false =>
              left
              rw [show left = state from lawful.refused wrote early]
              exact held

/-- A name that is nothing but the suffix is another name than that of its document. -/
theorem rendered_file_kept_with_dotted_name :
    let arguments : List Text := ["render", "d/.svg"]
    let bytes := Text.toUtf8 "A -> B"
    let tree : FileTree := { entries := [(["d"], .directory), (["d", ".svg"], .file bytes)] }
    FileTree.system.IsLawful FileTree.places ∧
    (∀ request, Request.read arguments = .ok request →
      ∃ command, request.command = some command ∧ command.RendersBeside "d/.svg") ∧
    FileTree.read (.ofText "d/.svg") tree = .content bytes ∧
    FileTree.read (.ofText "d/.svg")
      (run .bundled FileTree.system none arguments .terminal tree).2 = .content bytes := by
  intro arguments bytes tree
  have asked : ∀ request, Request.read arguments = .ok request →
      ∃ command, request.command = some command ∧ command.RendersBeside "d/.svg" := by
    intro request understood
    have known : Request.read arguments =
        .ok ⟨.text, false, some (.render (some "d/.svg") none false none)⟩ := by decide
    obtain rfl := Except.ok.inj (known.symm.trans understood)
    exact ⟨_, rfl, none, none, rfl, rfl⟩
  have held : FileTree.system.read (.ofText "d/.svg") tree = .content bytes := by decide
  have apart : ¬ FileTree.places.Meet ((Path.ofText "d/.svg").withSuffix Destination.suffix)
      (.ofText "d/.svg") tree := by
    rintro ⟨place, document, source⟩
    have other : FileTree.reached ((Path.ofText "d/.svg").withSuffix Destination.suffix) tree ≠
        FileTree.reached (.ofText "d/.svg") tree := by decide
    exact other (document.trans source.symm)
  -- Nothing else is to be computed from here on.
  clear_value tree bytes arguments
  obtain ⟨kept, -⟩ := rendered_file_kept_or_replaced FileTree.isLawful_system .bundled none
    .terminal asked held
  exact ⟨FileTree.isLawful_system, asked, held, kept apart⟩

/-- A file is lost when it is rendered if it has the suffix of documents, or if there is a link to
it that has the name of its document. -/
theorem rendered_file_lost :
    let bytes := Text.toUtf8 "A -> B"
    let lost (file : Text) (tree : FileTree) :=
      FileTree.read (.ofText file) tree = .content bytes ∧
        FileTree.read (.ofText file)
          (run .bundled FileTree.system none ["render", file] .terminal tree).2 ≠ .content bytes
    lost "a.svg" { entries := [(["a.svg"], .file bytes)] } ∧
      lost "a.puml"
        { entries := [(["a.puml"], .file bytes), (["a.svg"], .link (.ofText "a.puml"))] } := by
  decide +kernel

end

end DiagramSketch.CommandLine
