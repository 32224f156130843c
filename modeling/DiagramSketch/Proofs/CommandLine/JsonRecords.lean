import DiagramSketch.Proofs.CommandLine.FailureForms
import DiagramSketch.Proofs.Json.RoundTrip

/-!
# Records of failures in JSON

The record of a failure in JSON is one line of printable ASCII characters.  It is read back as an
object with the code, the message, the file and the hint of the failure, whatever characters they
have.
-/

namespace DiagramSketch.CommandLine

/-- A text that may be missing, as a member of an object. -/
def optionalText : Option Text → Json.Scalar
  | none => .null
  | some text => .text text

/-- What the record of a failure tells, name by name. -/
def Failure.members (failure : Failure) : List (Text × Json.Scalar) :=
  [("ok", .truth false), ("code", .text failure.code.name), ("message", .text failure.message),
   ("file", optionalText failure.file?), ("hint", optionalText failure.hint?),
   ("retryable", .truth failure.code.isRetryable)]

theorem jsonText_eq (text : Option Text) : Failure.jsonText text = (optionalText text).written := by
  cases text <;> rfl

theorem jsonFlag_eq (holds : Bool) :
    Failure.jsonFlag holds = (Json.Scalar.truth holds).written := by
  cases holds <;> rfl

theorem Failure.jsonRecord_eq (failure : Failure) :
    failure.jsonRecord = Json.writtenObject failure.members ++ ['\n'] := by
  have fields : failure.jsonFields =
      failure.members.map fun entry => (entry.1, entry.2.written) := by
    simp only [jsonFields, members, jsonText_eq, jsonFlag_eq]
    rfl
  have entries : failure.jsonFields.map (fun field => Text.jsonString field.1 ++ ": " ++ field.2) =
      failure.members.map Json.writtenMember := by
    rw [fields, List.map_map]
    rfl
  have whole : failure.jsonRecord = "\x7b" ++ joined ", " (failure.jsonFields.map fun field =>
      Text.jsonString field.1 ++ ": " ++ field.2) ++ "\x7d\n" := rfl
  rw [whole, entries, joined, Json.writtenObject, List.append_assoc, List.append_assoc]
  rfl

theorem nodup_names_members (failure : Failure) : (failure.members.map Prod.fst).Nodup := by
  have names : failure.members.map Prod.fst =
      ["ok".toList, "code".toList, "message".toList, "file".toList, "hint".toList,
        "retryable".toList] := rfl
  rw [names]
  decide

/-- The form that arguments announce is the one that the word behind the option spells. -/
theorem announcedFormat_cons (form : ErrorFormat) (rest : List Text) :
    announcedFormat (formatOption :: form.name :: rest) = form := by
  cases form <;> rfl

theorem reportedFormat_formatOption {rest : List Text} (noFurther : ¬ Gives .errorFormat rest) :
    reportedFormat (formatOption :: ErrorFormat.json.name :: rest) = .json := by
  have spells : FormSpelling .json [formatOption, ErrorFormat.json.name] _ := .apart (by decide)
  have read := spells.request_append noFurther
  rw [List.cons_append, List.singleton_append] at read
  rw [reportedFormat, read]
  cases Request.read rest with
  | ok request => rfl
  | error stop => exact announcedFormat_cons .json rest

/-- A run that is asked for JSON in its first two arguments, and for no other form behind them,
reports its failure on one line of printable ASCII characters.  The line is an object, and its
members are what there is to tell of the failure. -/
theorem json_record_read_back {State : Type} (font : Font) (files : FileSystem State)
    (debugVariable : Option Text) {rest : List Text} (input : StandardInput) (state : State)
    (noFurther : ¬ Gives .errorFormat rest)
    (quiet : showsLog debugVariable ("--error-format" :: "json" :: rest) = false)
    {outcome : Outcome}
    (ends : (run font files debugVariable ("--error-format" :: "json" :: rest) input state).1 =
      .finished outcome)
    (failed : outcome.status ≠ 0) :
    ∃ failure, failure? font files ("--error-format" :: "json" :: rest) input state = some failure ∧
      outcome.status = failure.code.status ∧
      (∃ line, outcome.errors = line ++ ['\n'] ∧
        ∀ character ∈ line, Json.IsPrintable character) ∧
      Json.object? outcome.errors = some
        ([("ok", .truth false), ("code", .text failure.code.name),
          ("message", .text failure.message), ("file", optionalText failure.file?),
          ("hint", optionalText failure.hint?),
          ("retryable", .truth failure.code.isRetryable)] : List (Text × Json.Scalar)) := by
  obtain ⟨failure, found, same⟩ := exists_failure_of_run quiet ends failed
  have form := same.trans
    (congrArg (Outcome.failed · failure) (reportedFormat_formatOption noFurther))
  have errors : (Outcome.failed .json failure).errors =
      Json.writtenObject failure.members ++ ['\n'] := failure.jsonRecord_eq
  refine ⟨failure, found, ?_⟩
  rw [form, errors]
  refine ⟨rfl, ⟨_, rfl, Json.isPrintable_writtenObject failure.members⟩, ?_⟩
  have blank : Json.tokens? ['\n'] = some [] := by
    rw [Json.tokens?]
    rfl
  exact Json.object?_writtenObject (nodup_names_members failure) blank

/-- The name of a file that is not there has a quotation mark, a control character, a letter beyond
ASCII and a character beyond U+FFFF. -/
theorem json_record_of_missing_file_read_back :
    let arguments : List Text := ["render", "\"\x01é😀"]
    let tree : FileTree := { entries := [] }
    ¬ Gives .errorFormat arguments ∧ ∃ outcome,
      (run .bundled FileTree.system none ("--error-format" :: "json" :: arguments) .terminal
        tree).1 = .finished outcome ∧
      Json.object? outcome.errors =
        some ([("ok", .truth false), ("code", .text "E_IO_READ"),
          ("message", .text "input file not found: \"\x01é😀"), ("file", .text "\"\x01é😀"),
          ("hint", .null), ("retryable", .truth true)] : List (Text × Json.Scalar)) := by
  intro arguments tree
  have noFurther : ¬ Gives .errorFormat arguments := not_gives_of_word (by decide) _ _
  let missing : Failure := .fileNotFound (.ofText "\"\x01é😀")
  have ends : (run .bundled FileTree.system none ("--error-format" :: "json" :: arguments) .terminal
      tree).1 = .finished (.failed .json missing) := by
    decide +kernel
  have own : failure? .bundled FileTree.system ("--error-format" :: "json" :: arguments) .terminal
      tree = some missing := by
    decide +kernel
  obtain ⟨failure, found, -, -, read⟩ := json_record_read_back .bundled FileTree.system none
    .terminal tree noFurther (by decide) ends (Outcome.status_failed_ne_zero _ _)
  cases own.symm.trans found
  exact ⟨noFurther, _, ends, read⟩

end DiagramSketch.CommandLine
