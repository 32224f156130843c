import DiagramSketch.CommandLine.Run
import DiagramSketch.Font.Bundled
import DiagramSketch.Proofs.CommandLine.FileTree
import DiagramSketch.Proofs.CommandLine.Help
import DiagramSketch.Proofs.Results

/-!
# What a run leaves behind

A run shows the help that one of its arguments asks for, or it reports one failure, or it has done a
job.  Nothing is written before a source is read and its document is complete, and nothing is asked
for after a file is written.  So a run that fails has changed nothing, unless the file for the
document was opened before the system refused the rest of it.
-/

namespace DiagramSketch.CommandLine

variable {State Place : Type} {font : Font} {files : FileSystem State} {places : Places State Place}
  {input : StandardInput} {state left : State}

/-! ## Jobs -/

/-- Reading a source changes nothing. -/
theorem Origin.run_fetch_snd (origin : Origin) (files : FileSystem State) (input : StandardInput)
    (state : State) : (origin.fetch.run files input state).2 = state := by
  cases origin with
  | given text => rfl
  | file path =>
      simp only [fetch, Dialogue.run]
      cases files.read path state <;> rfl
  | standardInput => cases input <;> rfl

/-- Once the source is known, a document is handed over or the source is not rendered. -/
theorem Job.run_perform_render (origin : Origin) (destination : Destination) (font : Font)
    (files : FileSystem State) (input : StandardInput) (state : State) :
    ((render origin destination).perform font).run files input state =
      match (origin.fetch.run files input state).1 with
      | .ok source => (drawn font destination source).run files input state
      | .error failure => ({ events := [], result := .error failure }, state) := by
  simp only [perform, Dialogue.run_andThen, origin.run_fetch_snd]
  cases (origin.fetch.run files input state).1 <;> rfl

theorem Destination.run_deliver_file (path : Path) (events : List Event) (document : Text)
    (files : FileSystem State) (input : StandardInput) (state : State) :
    ((file path).deliver events document).run files input state =
      ({ events
         result := match (files.write path document state).1 with
          | .ok () => .ok ("Wrote " ++ path.shown ++ "\n")
          | .error error => .error (refusal path error) },
        (files.write path document state).2) := by
  simp only [deliver, Dialogue.run]
  cases (files.write path document state).1 <;> rfl

/-- What a job comes to: a failure that changes nothing, something else than a file, or an attempt
to write the document of its source. -/
theorem Job.perform_cases (job : Job) (font : Font) (files : FileSystem State)
    (input : StandardInput) (state : State) :
    let report := ((job.perform font).run files input state).1
    let left := ((job.perform font).run files input state).2
    (∃ failure, report.result = .error failure ∧ left = state) ∨
      (∃ output, report.result = .ok output ∧ left = state ∧
        ∀ origin path, job ≠ .render origin (.file path)) ∨
      ∃ origin path source document, job = .render origin (.file path) ∧
        (origin.fetch.run files input state).1 = .ok source ∧
        DiagramSketch.render font source = .ok document ∧
        (files.write path document state = (.ok (), left) ∧
            report.result = .ok ("Wrote " ++ path.shown ++ "\n") ∨
          ∃ error, files.write path document state = (.error error, left) ∧
            report.result = .error (Destination.refusal path error)) := by
  cases job with
  | examples name =>
      simp only [perform, Dialogue.run]
      cases shown : showExamples name with
      | ok output => exact .inr (.inl ⟨output, rfl, trivial, fun _ _ other => by cases other⟩)
      | error failure => exact .inl ⟨failure, rfl, trivial⟩
  | classify origin =>
      simp only [perform, Dialogue.run_map, origin.run_fetch_snd]
      cases (origin.fetch.run files input state).1 with
      | ok source => exact .inr (.inl ⟨_, rfl, trivial, fun _ _ other => by cases other⟩)
      | error failure => exact .inl ⟨failure, rfl, trivial⟩
  | render origin destination =>
      simp only [run_perform_render]
      cases fetched : (origin.fetch.run files input state).1 with
      | error failure => exact .inl ⟨failure, rfl, rfl⟩
      | ok source =>
          simp only [drawn]
          cases rendered : (rendering font source).result with
          | error failure => exact .inl ⟨_, rfl, rfl⟩
          | ok document =>
              cases destination with
              | standardOutput =>
                  exact .inr (.inl ⟨_, rfl, rfl, fun _ _ other => by cases other⟩)
              | file path =>
                  refine .inr (.inr ⟨origin, path, source, document, rfl, fetched, rendered, ?_⟩)
                  simp only [Destination.run_deliver_file]
                  obtain ⟨answer, after⟩ := files.write path document state
                  cases answer with
                  | ok done => exact .inl ⟨rfl, rfl⟩
                  | error error => exact .inr ⟨error, rfl, rfl⟩

/-- A write leaves all other files as they were. -/
theorem FileSystem.IsLawful.read_elsewhere (lawful : files.IsLawful places) {path : Path}
    {text : Text} {answer : Except WriteError Unit}
    (wrote : files.write path text state = (answer, left)) (other : Path)
    (apart : ¬ places.Meet path other state) : files.read other left = files.read other state := by
  have kept := lawful.elsewhere text apart
  rw [wrote] at kept
  exact kept

/-- The words for the codes of failures, each with the exit status that it settles. -/
def FailureCode.table : List (Text × Nat) :=
  [("E_ARGS", 2), ("E_IO_READ", 2), ("E_EXAMPLE", 2), ("E_RENDER", 3), ("E_IO_WRITE", 4),
   ("E_INTERNAL", 1)]

theorem FailureCode.mem_table (code : FailureCode) : (code.name, code.status) ∈ table := by
  cases code <;> decide

namespace Outcome

/-- An outcome that prints nothing but the record of a failure, whose code settles the exit status.
What else is shown while debugging is left open. -/
structure IsRefusal (outcome : Outcome) (failure : Failure) (format : ErrorFormat)
    (isQuiet : Prop) : Prop where
  output : outcome.output = []
  code : (failure.code.name, outcome.status) ∈ FailureCode.table
  record : isQuiet → outcome.errors = failure.record format

variable {outcome : Outcome} {report : Report} {failure : Failure} {format : ErrorFormat}

theorem IsRefusal.status {isQuiet : Prop}
    (refusal : outcome.IsRefusal failure format isQuiet) :
    outcome.status ≠ 0 ∧ outcome.status ∈ [0, 1, 2, 3, 4] := by
  have listed := refusal.code
  simp only [FailureCode.table, List.mem_cons, Prod.mk.injEq, List.not_mem_nil, or_false] at listed
  simp only [List.mem_cons, List.not_mem_nil, or_false]
  omega

theorem isRefusal_failed (format : ErrorFormat) (failure : Failure) (isQuiet : Prop) :
    (failed format failure).IsRefusal failure format isQuiet where
  output := rfl
  code := failure.code.mem_table
  record _ := rfl

theorem status_failed_ne_zero (format : ErrorFormat) (failure : Failure) :
    (failed format failure).status ≠ 0 :=
  (isRefusal_failed format failure True).status.1

theorem ofReport_quiet_of_error (failed : report.result = .error failure) (format : ErrorFormat) :
    ofReport format false report = .failed format failure := by
  simp [ofReport, failed, Outcome.failed]

theorem isRefusal_ofReport (failed : report.result = .error failure) (format : ErrorFormat)
    (isDebugging : Bool) :
    (ofReport format isDebugging report).IsRefusal failure format (isDebugging = false) := by
  constructor
  case output => simp [ofReport, failed, Outcome.failed]
  case code =>
    simp only [ofReport, failed]
    exact failure.code.mem_table
  case record =>
    rintro rfl
    rw [ofReport_quiet_of_error failed]
    rfl

theorem ofReport_of_ok {output : Text} (succeeded : report.result = .ok output)
    (format : ErrorFormat) (isDebugging : Bool) :
    (ofReport format isDebugging report).status = 0 ∧
      (ofReport format isDebugging report).output = output ∧
      (isDebugging = false → (ofReport format isDebugging report).errors = []) := by
  simp only [ofReport, succeeded]
  refine ⟨rfl, rfl, fun quiet => ?_⟩
  simp [quiet]

theorem status_ofReport_eq_zero_iff {report : Report} {format : ErrorFormat} {isDebugging : Bool} :
    (ofReport format isDebugging report).status = 0 ↔ ∃ output, report.result = .ok output := by
  cases result : report.result with
  | ok output => exact iff_of_true (ofReport_of_ok result format isDebugging).1 ⟨output, rfl⟩
  | error failure =>
      refine iff_of_false (isRefusal_ofReport result format isDebugging).status.1 ?_
      rintro ⟨output, other⟩
      cases other

end Outcome

/-! ## Runs -/

/-- The failure that a run ends with, if it does. -/
def failure? (font : Font) (files : FileSystem State) (arguments : List Text)
    (input : StandardInput) (state : State) : Option Failure :=
  match Request.read arguments with
  | .error .help => none
  | .error (.usage error) => some (.usage error)
  | .ok request =>
      match ((follow font request.command).run files input state).1.result with
      | .ok _ => none
      | .error failure => some failure

/-- The form in which a run reports a failure. -/
def reportedFormat (arguments : List Text) : ErrorFormat :=
  match Request.read arguments with
  | .ok request => request.format
  | .error _ => announcedFormat arguments

theorem failure?_of_read {arguments : List Text} {request : Request}
    (read : Request.read arguments = .ok request) {failure : Failure} :
    failure? font files arguments input state = some failure ↔
      ((follow font request.command).run files input state).1.result = .error failure := by
  rw [failure?, read]
  dsimp only
  cases ((follow font request.command).run files input state).1.result <;> simp

/-- A run shows the help, or it fails at once, or it ends with the report on what its request asks
for. -/
theorem run_cases (font : Font) (files : FileSystem State) (debugVariable : Option Text)
    (arguments : List Text) (input : StandardInput) (state : State) :
    (Request.read arguments = .error .help ∧
        run font files debugVariable arguments input state = (.help, state)) ∨
      (∃ failure, failure? font files arguments input state = some failure ∧
        run font files debugVariable arguments input state =
          (.finished (.failed (reportedFormat arguments) failure), state)) ∨
      ∃ request, Request.read arguments = .ok request ∧
        run font files debugVariable arguments input state =
          (.finished (.ofReport request.format (showsLog debugVariable arguments)
              ((follow font request.command).run files input state).1),
            ((follow font request.command).run files input state).2) := by
  cases arguments with
  | nil => exact .inr (.inl ⟨.missingCommand, rfl, rfl⟩)
  | cons argument arguments =>
      simp only [run, converse, List.isEmpty_cons, Bool.false_eq_true, if_false]
      match understood : Request.read (argument :: arguments) with
      | .error .help => exact .inl ⟨rfl, rfl⟩
      | .error (.usage error) =>
          refine .inr (.inl ⟨.usage error, ?_, ?_⟩)
          · rw [failure?, understood]
          · rw [reportedFormat, understood]
            rfl
      | .ok request => exact .inr (.inr ⟨request, rfl, Dialogue.run_map _ _ _ _ _⟩)

/-- A request asks for no job, or for one that its options do not fit, or for one that is done. -/
theorem follow_cases (font : Font) (command : Option Command) :
    (∃ failure, follow font command = .done { events := [], result := .error failure }) ∨
      ∃ known job, command = some known ∧ known.job = .ok job ∧
        follow font command = job.perform font := by
  cases command with
  | none => exact .inl ⟨_, rfl⟩
  | some known =>
      simp only [follow]
      cases sensible : known.job with
      | error failure => exact .inl ⟨failure, rfl⟩
      | ok job => exact .inr ⟨known, job, rfl, sensible, rfl⟩

end DiagramSketch.CommandLine
