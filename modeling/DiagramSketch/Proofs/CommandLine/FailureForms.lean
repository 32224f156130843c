import DiagramSketch.Proofs.CommandLine.Diagnostics
import DiagramSketch.Proofs.CommandLine.GeneralOptions

/-!
# The form of a failure

A run that fails ends with one failure and reports it in one form: in the form that its arguments
ask for, or, if they are not understood, in the form that they announce.  Whichever way the option
for JSON is spelled at their start, it decides on the form, unless it is followed by another one.
-/

namespace DiagramSketch.CommandLine

/-! ## Failures -/

/-- A run that fails without debugging reports its failure and nothing else. -/
theorem exists_failure_of_run {State : Type} {font : Font} {files : FileSystem State}
    {debugVariable : Option Text} {arguments : List Text} {input : StandardInput} {state : State}
    {outcome : Outcome} (quiet : showsLog debugVariable arguments = false)
    (ends : (run font files debugVariable arguments input state).1 = .finished outcome)
    (failed : outcome.status ≠ 0) :
    ∃ failure, failure? font files arguments input state = some failure ∧
      outcome = .failed (reportedFormat arguments) failure := by
  obtain ⟨-, same⟩ | ⟨failure, found, same⟩ | ⟨request, understood, same⟩ :=
    run_cases font files debugVariable arguments input state
  · rw [same] at ends
    cases ends
  · rw [same] at ends
    cases ends
    exact ⟨failure, found, rfl⟩
  · rw [same, quiet] at ends
    cases ends
    cases result : ((follow font request.command).run files input state).1.result with
    | ok output => exact absurd (Outcome.ofReport_of_ok result request.format false).1 failed
    | error failure =>
        refine ⟨failure, (failure?_of_read understood).mpr result, ?_⟩
        rw [Outcome.ofReport_quiet_of_error result, reportedFormat, understood]

/-! ## The option for JSON -/

theorem lastGiven_append {Key : Type} [DecidableEq Key] (key : Key)
    (earlier later : List (Key × Value)) :
    lastGiven key (earlier ++ later) = (lastGiven key later).or (lastGiven key earlier) := by
  rw [lastGiven, List.reverse_append, List.find?_append, Option.map_or]
  rfl

theorem lastGiven_eq_none_iff {Key : Type} [DecidableEq Key] {key : Key}
    {given : List (Key × Value)} :
    lastGiven key given = none ↔ ∀ value, (key, value) ∉ given := by
  rw [lastGiven, Option.map_eq_none_iff, List.find?_eq_none]
  constructor
  · intro other value member
    exact other _ (List.mem_reverse.mpr member) (decide_eq_true rfl)
  · intro absent entry member
    rw [decide_eq_true_eq]
    rintro rfl
    exact absent entry.2 (List.mem_reverse.mp member)

/-- The arguments give an option before their command. -/
def Gives (key : GeneralKey) (arguments : List Text) : Prop :=
  ∃ leading value, Leading.read arguments = .ok leading ∧ (key, value) ∈ leading.given

/-- Nothing is given before a command that stands in the first argument. -/
theorem not_gives_of_word {argument : Text}
    (plain : generalGrammar.word argument = .ok (.plain argument)) (key : GeneralKey)
    (rest : List Text) : ¬ Gives key (argument :: rest) := by
  rintro ⟨leading, value, read, member⟩
  obtain ⟨words, own, led⟩ := Leading.read_eq_ok_iff.mp read
  rw [words_cons_general plain] at own
  obtain ⟨others, -, rfl⟩ := map_eq_ok_iff.mp own
  cases led
  cases member

/-- Arguments that are read as the option for JSON, and as nothing else. -/
def SpellsJson (spelling : List Text) : Prop :=
  Leading.read spelling = .ok { given := formGiven .json }

theorem ErrorFormat.ofText_name (form : ErrorFormat) : ofText form.name = form := by
  cases form <;> rfl

/-- The option for a form decides on the form of failures, unless it is followed by another one, and
nothing else depends on it. -/
theorem FormSpelling.request_append {form : ErrorFormat} {spelling rest : List Text}
    {words : List (Word GeneralKey)} (spells : FormSpelling form spelling words)
    (noFurther : ¬ Gives .errorFormat rest) : Request.read (spelling ++ rest) =
      (Request.read rest).map fun request => { request with format := form } := by
  rw [Request.read_eq, Request.read_eq, spells.read_append]
  cases read : Leading.read rest with
  | error stop => rfl
  | ok leading =>
      have none : ∀ value, (GeneralKey.errorFormat, value) ∉ leading.given :=
        fun value member => noFurther ⟨leading, value, read, member⟩
      have format : lastText .errorFormat (leading.after (formGiven form)).given =
          some form.name := by
        rw [lastText, Leading.after, lastGiven_append, lastGiven_eq_none_iff.mpr none]
        rfl
      have debug : lastGiven .debug (leading.after (formGiven form)).given =
          lastGiven .debug leading.given := by
        rw [Leading.after, lastGiven_append]
        exact Option.or_none
      change (readCommand leading.extras leading.rest).map _ =
        ((readCommand leading.extras leading.rest).map _).map _
      cases readCommand leading.extras leading.rest with
      | error stop => rfl
      | ok command =>
          change Except.ok _ = Except.ok _
          rw [format, debug, Option.map_some, ErrorFormat.ofText_name]
          rfl

section

variable {entry : Text × Word GeneralKey} {entries : List (Text × Word GeneralKey)}
variable {given : List (GeneralKey × Value)}

/-- Where nothing but options is read, the first argument has one, and the others follow it. -/
theorem exists_of_lead_cons (listed : AreListed (entry :: entries))
    (led : lead {} (entry :: entries) = .ok { given }) :
    ∃ argument key spelling attached found later,
      entry = (argument, .option key spelling attached) ∧
      TakenBefore (entries.head?.bind fun next => next.2.plain?) key attached found ∧
      given = found.given ++ later ∧
      lead {} (if found.usesNext then entries.drop 1 else entries) = .ok { given := later } := by
  obtain ⟨argument, _ | _ | _ | _⟩ := entry
  case plain | separator => cases led
  case unknown text =>
    obtain ⟨_, _, -, -, leads⟩ :=
      exists_leads (listed.of_subset (List.subset_cons_self _ _)) (by rfl) led
    have none := List.prefix_nil.mp leads.extras
    cases none
  case option key spelling attached =>
    rw [lead_option] at led
    obtain ⟨found, taken, led⟩ := bind_eq_ok_iff.mp led
    have start : { ({} : Leading) with given := [] ++ found.given } =
        Leading.after found.given {} := by
      simp [Leading.after]
    rw [start, lead_after] at led
    obtain ⟨⟨later, extras, rest⟩, onward, same⟩ := map_eq_ok_iff.mp led
    cases same
    exact ⟨argument, key, spelling, attached, found, later, rfl,
      takenBefore_of_take (listed _ _ _ _ List.mem_cons_self) taken, rfl, onward⟩

theorem TakenBefore.exists_given {next attached : Option Text} {key : GeneralKey}
    {found : Grammar.Taken GeneralKey} (own : TakenBefore next key attached found) :
    ∃ value, found.given = [(key, value)] := by
  cases own <;> exact ⟨_, rfl⟩

/-- Where nothing is read, there is nothing to read. -/
theorem eq_nil_of_lead (listed : AreListed entries) (led : lead {} entries = .ok {}) :
    entries = [] := by
  cases entries with
  | nil => rfl
  | cons entry entries =>
      obtain ⟨_, _, _, _, found, later, -, own, none, -⟩ := exists_of_lead_cons listed led
      obtain ⟨value, single⟩ := own.exists_given
      rw [single] at none
      cases none

end

/-- An option that is taken with a form as its value has it attached, or in the next argument. -/
theorem TakenBefore.eq_of_formGiven {form : ErrorFormat} {key : GeneralKey}
    {attached next : Option Text} {found : Grammar.Taken GeneralKey}
    (own : TakenBefore next key attached found) (given : found.given = formGiven form) :
    key = .errorFormat ∧
      (attached = some form.name ∧ found.usesNext = false ∨
        attached = none ∧ next = some form.name ∧ found.usesNext = true) := by
  cases own with
  | debug => cases given
  | errorFormat hasValue known =>
      cases given
      refine ⟨rfl, ?_⟩
      generalize value : Value.text form.name = given at hasValue
      cases hasValue with
      | flag takesNone => cases takesNone
      | next takes =>
          cases value
          exact .inr ⟨rfl, rfl, rfl⟩
      | attached takes =>
          unfold Grammar.attachedValue at value
          split at value
          · cases value
          · cases value
            exact .inl ⟨rfl, rfl⟩

/-- The option for JSON has no other spellings. -/
theorem spellsJson_iff {spelling : List Text} :
    SpellsJson spelling ↔ ∃ words, FormSpelling .json spelling words := by
  constructor
  · intro spells
    obtain ⟨words, read, led⟩ := Leading.read_eq_ok_iff.mp spells
    cases forall₂_readsAs read with
    | nil => cases led
    | @cons argument word arguments words own others =>
        have listed : AreListed ((argument, word) :: arguments.zip words) := areListed_of_words read
        obtain ⟨_, key, spelling, attached, found, later, same, taken, given, onward⟩ :=
          exists_of_lead_cons listed led
        cases same
        obtain ⟨value, single⟩ := taken.exists_given
        rw [single] at given
        obtain rfl : later = [] := (List.cons.inj given).2.symm
        have followers := isSuffix_followers found.usesNext (arguments.zip words)
        have none := eq_nil_of_lead
          (listed.of_subset (List.subset_cons_of_subset _ followers.subset)) onward
        have isListed := listed _ _ _ _ List.mem_cons_self
        have isRead := word_of_mem_words read List.mem_cons_self
        obtain ⟨rfl, value⟩ := taken.eq_of_formGiven (single.trans given.symm)
        obtain rfl := spelling_eq isListed (List.mem_cons_self : (formatOption, _) ∈ longOptions)
        obtain ⟨start, shortens, rfl⟩ := exists_start_of_word isRead (by decide)
        obtain ⟨rfl, uses⟩ | ⟨rfl, next, uses⟩ := value
        · rw [uses, if_neg Bool.false_ne_true] at none
          cases others with
          | nil => exact ⟨_, .attached shortens⟩
          | cons => cases none
        · rw [uses, if_pos rfl] at none
          cases others with
          | nil => cases next
          | @cons value word arguments words own others =>
              cases others with
              | cons => cases none
              | nil =>
                  obtain rfl : word = .plain ErrorFormat.json.name := by
                    cases word <;> cases next
                    rfl
                  rw [← own.eq_of_plain]
                  exact ⟨_, .apart shortens⟩
  · rintro ⟨words, spells⟩
    have read := spells.read_append []
    rwa [List.append_nil] at read

end DiagramSketch.CommandLine
