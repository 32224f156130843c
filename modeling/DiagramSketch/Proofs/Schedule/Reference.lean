import DiagramSketch.Proofs.Diagram.Extents
import DiagramSketch.Proofs.Diagram.Identity
import DiagramSketch.Proofs.Schedule.Lines

/-!
# What the lines of a source say together

The tasks of a schedule are those that have a duration, in the order in which they get one first.
Of the lines that tell the duration of the same task the last one counts, and so does the last one
that tells the start of the project.  Every task has a bar in a row of its own.
-/

namespace DiagramSketch.Schedule

/-- What the last one of the lines tells that tell anything. -/
inductive LastTold {α : Type} (tells : Text → α → Prop) (lines : List Text) : Option α → Prop where
  | never (silent : ∀ line ∈ lines, ∀ value, ¬ tells line value) : LastTold tells lines none
  | told {before after : List Text} {line : Text} {value : α} (telling : tells line value)
      (whole : lines = before ++ line :: after)
      (silent : ∀ other ∈ after, ∀ value, ¬ tells other value) :
      LastTold tells lines (some value)

/-- The number of days that the amount comes to: its digits are those of a decimal number, and a
week has seven days. -/
def Amount.total (amount : Amount) : Nat :=
  Nat.ofDigits 10 (amount.digits.map Text.digitValue).reverse * if amount.isWeeks then 7 else 1

/-- The line tells the duration of some task. -/
def IsTaskLine (line : Text) : Prop :=
  ∃ task amount, Lasts line task amount

/-- The task that a line tells the duration of. -/
def taskOf? (line : Text) : Option Text :=
  (Line.read? line).bind fun read => read.tasks.head?

variable {lines : List Text} {line task date : Text} {amount : Amount} {schedule next : Schedule}

theorem taskOf?_eq_some_iff : taskOf? line = some task ↔ ∃ amount, Lasts line task amount := by
  simp only [taskOf?, ← read?_eq_duration_iff]
  cases Line.read? line with
  | none => simp
  | some read =>
      cases read with
      | start date => simp [Line.tasks]
      | duration name amount => simp [Line.tasks]
      | order name predecessor => simp [Line.tasks]

theorem isSome_taskOf?_iff : (taskOf? line).isSome = true ↔ IsTaskLine line := by
  simp only [Option.isSome_iff_exists, taskOf?_eq_some_iff]
  rfl

instance : Decidable (IsTaskLine line) :=
  decidable_of_iff _ isSome_taskOf?_iff

/-- The durations and the start of the project are those that the lines tell last. -/
structure IsLatest (lines : List Text) (schedule : Schedule) : Prop where
  days : ∀ task ∈ schedule.tasks, ∃ amount : Amount,
    task.days = amount.total ∧ LastTold (fun line => Lasts line task.name) lines (some amount)
  start : LastTold StartsOn lines schedule.start

/-- The tasks of the schedule and the start of the project are as the lines tell them. -/
structure IsToldBy (lines : List Text) (schedule : Schedule) : Prop
    extends IsLatest lines schedule where
  names : ∃ declared,
    List.Forall₂ (fun line task => ∃ amount, Lasts line task amount)
      (lines.filter fun line => IsTaskLine line) declared ∧
    schedule.names = declared.eraseDups

/-- The bar is where and as wide as that of the task with the number has to be, and leaves room for
what is written beside it. -/
structure IsRow (canvas : Canvas) (entry : Task × Nat) (bar : Box) : Prop where
  x : bar.x = 200
  y : bar.y = 80 + 50 * entry.2
  width : bar.width = 20 * entry.1.days
  room : bar.width ≤ canvas.width - 320

/-! ## Lines that count -/

section LastTold

variable {α : Type} {tells : Text → α → Prop} {value : α} {told : Option α}

theorem LastTold.append_told (telling : tells line value) :
    LastTold tells (lines ++ [line]) (some value) :=
  .told telling rfl (List.forall_mem_nil _)

theorem LastTold.append_silent (earlier : LastTold tells lines told)
    (silent : ∀ value, ¬ tells line value) : LastTold tells (lines ++ [line]) told := by
  cases earlier with
  | never none =>
      apply LastTold.never
      exact List.forall_mem_append.mpr ⟨none, List.forall_mem_singleton.mpr silent⟩
  | told telling whole none =>
      apply LastTold.told telling
      · rw [whole, List.append_assoc, List.cons_append]
      · exact List.forall_mem_append.mpr ⟨none, List.forall_mem_singleton.mpr silent⟩

end LastTold

/-- Only content is read. -/
theorem isContent_of_read? {read : Line} (found : Line.read? line = some read) :
    (!line.isEmpty && line.head? != some '@') = true := by
  have bracketed {task rest : Text} (bracketed : Bracketed line task rest) :
      (!line.isEmpty && line.head? != some '@') = true := by
    obtain ⟨-, -, rfl⟩ := bracketed
    rfl
  cases read with
  | start date =>
      obtain ⟨tail, body, ⟨afterWords, -, begins, -⟩, -⟩ := read?_eq_start_iff.mp found
      have same := begins.head (by decide)
      cases line with
      | nil => cases same
      | cons first line =>
          have other : first ≠ '@' := by
            rintro rfl
            have letter : Text.folded '@' = 'p' := Option.some.inj same
            exact absurd letter (by decide)
          simpa using other
  | duration task amount =>
      obtain ⟨afterTask, afterVerb, named, -⟩ := read?_eq_duration_iff.mp found
      exact bracketed named
  | order task predecessor =>
      obtain ⟨afterTask, _, _, _, _, _, _, named, -⟩ := read?_eq_order_iff.mp found
      exact bracketed named

theorem statements_eq (lines : List Text) : statements lines = lines.filterMap Line.read? := by
  rw [statements, Text.contentLines, List.filterMap_filter]
  apply List.filterMap_congr
  intro line _
  cases found : Line.read? line with
  | none => simp
  | some read => rw [if_pos (isContent_of_read? found)]

theorem ofLines_append (first second : List Text) : ofLines (first ++ second) =
    (ofLines first).bind fun schedule => (statements second).foldlM follow schedule := by
  have whole (lines : List Text) : ofLines lines = (statements lines).foldlM follow empty := rfl
  rw [whole, whole, statements_eq, List.filterMap_append, ← statements_eq, ← statements_eq,
    List.foldlM_append]
  rfl

/-! ## One more line -/

theorem Amount.total_of_days {days : Nat} (success : amount.days = .ok days) :
    days = amount.total := by
  unfold Amount.days at success
  split at success
  · cases success
  · cases success
    rw [Amount.total, Text.numeral_eq_ofDigits]

/-- A task that has another name than the one that gets a duration was there before. -/
theorem mem_setDuration {days : Int} {entry : Task}
    (member : entry ∈ (schedule.setDuration task days).tasks) :
    entry.name = task ∧ entry.days = days ∨ entry.name ≠ task ∧ entry ∈ schedule.tasks := by
  unfold setDuration at member
  split at member
  · obtain ⟨old, listed, rfl⟩ := List.mem_map.mp member
    by_cases same : old.name = task
    · simp [same]
    · simp [same, listed]
  · next fresh =>
      rcases List.mem_append.mp member with listed | last
      · refine .inr ⟨fun same => fresh ?_, listed⟩
        exact List.any_eq_true.mpr ⟨entry, listed, beq_iff_eq.mpr same⟩
      · rw [List.mem_singleton.mp last]
        exact .inl ⟨rfl, rfl⟩

theorem exists_of_mem_alter {change : Task → Task} {entry : Task}
    (member : entry ∈ (schedule.alter task change).tasks)
    (name : ∀ old, (change old).name = old.name) (days : ∀ old, (change old).days = old.days) :
    ∃ old ∈ schedule.tasks, old.name = entry.name ∧ old.days = entry.days := by
  obtain ⟨old, listed, rfl⟩ := List.mem_map.mp member
  refine ⟨old, listed, ?_⟩
  split
  · exact ⟨(name old).symm, (days old).symm⟩
  · exact ⟨rfl, rfl⟩

theorem start_setDuration (schedule : Schedule) (task : Text) (days : Int) :
    (schedule.setDuration task days).start = schedule.start := by
  unfold setDuration
  split
  · rfl
  · rfl

/-- A line that does not tell the duration of a task leaves it as it is. -/
theorem IsLatest.days_append (latest : IsLatest lines schedule) {entry : Task}
    (member : entry ∈ schedule.tasks)
    (silent : ∀ amount, Line.read? line ≠ some (.duration entry.name amount)) :
    ∃ amount : Amount, entry.days = amount.total ∧
      LastTold (fun line => Lasts line entry.name) (lines ++ [line]) (some amount) := by
  obtain ⟨amount, days, told⟩ := latest.days entry member
  refine ⟨amount, days, told.append_silent fun other lasts => ?_⟩
  exact silent other (read?_eq_duration_iff.mpr lasts)

/-- A line that does not tell the start of the project leaves it as it is. -/
theorem IsLatest.start_append (latest : IsLatest lines schedule)
    (silent : ∀ date, Line.read? line ≠ some (.start date)) :
    LastTold StartsOn (lines ++ [line]) schedule.start :=
  latest.start.append_silent fun date starts => silent date (read?_eq_start_iff.mpr starts)

theorem IsLatest.append_unread (latest : IsLatest lines schedule)
    (unread : Line.read? line = none) : IsLatest (lines ++ [line]) schedule := by
  constructor
  case days => exact fun entry member => latest.days_append member fun amount => by simp [unread]
  case start => exact latest.start_append fun date => by simp [unread]

/-- What the line tells replaces what earlier lines tell about the same thing, and nothing else. -/
theorem IsLatest.append_read (latest : IsLatest lines schedule) {read : Line}
    (found : Line.read? line = some read) (success : schedule.follow read = .ok next) :
    IsLatest (lines ++ [line]) next := by
  -- A line is read in one way, so that it tells one thing only.
  cases read with
  | start date =>
      cases success
      constructor
      case days => exact fun entry member => latest.days_append member fun amount => by simp [found]
      case start => exact .append_told (read?_eq_start_iff.mp found)
  | duration task amount =>
      obtain ⟨days, counted, rfl⟩ := map_eq_ok_iff.mp success
      obtain ⟨count, reached, counted⟩ := bind_eq_ok_iff.mp counted
      cases counted
      constructor
      case days =>
        intro entry member
        rcases mem_setDuration member with ⟨rfl, days⟩ | ⟨other, listed⟩
        · refine ⟨amount, ?_, .append_told (read?_eq_duration_iff.mp found)⟩
          rw [days, Amount.total_of_days reached]
        · refine latest.days_append listed fun amount same => ?_
          cases found.symm.trans same
          exact other rfl
      case start =>
        rw [start_setDuration]
        exact latest.start_append fun date => by simp [found]
  | order task predecessor =>
      cases success
      constructor
      case days =>
        intro entry member
        obtain ⟨old, listed, name, days⟩ := exists_of_mem_alter member (fun _ => rfl) fun _ => rfl
        rw [← name, ← days]
        exact latest.days_append listed fun amount => by simp [found]
      case start => exact latest.start_append fun date => by simp [found]

/-! ## All lines -/

theorem isLatest_ofLines (success : ofLines lines = .ok schedule) : IsLatest lines schedule := by
  induction lines using List.reverseRecOn generalizing schedule with
  | nil =>
      cases success
      constructor
      case days => exact List.forall_mem_nil _
      case start => exact .never (List.forall_mem_nil _)
  | append_singleton lines line induction =>
      rw [ofLines_append, statements_eq] at success
      obtain ⟨earlier, start, last⟩ := bind_eq_ok_iff.mp success
      have latest := induction start
      cases found : Line.read? line with
      | none =>
          rw [List.filterMap_cons_none found] at last
          cases last
          exact latest.append_unread found
      | some read =>
          rw [List.filterMap_cons_some found, List.filterMap_nil, List.foldlM_cons] at last
          obtain ⟨next, stepped, last⟩ := bind_eq_ok_iff.mp last
          cases last
          exact latest.append_read found stepped

theorem declared_eq (lines : List Text) :
    (statements lines).flatMap Line.tasks = lines.filterMap taskOf? := by
  have single (read : Line) : read.tasks = read.tasks.head?.toList := by
    cases read with
    | start date => rfl
    | duration task amount => rfl
    | order task predecessor => rfl
  rw [List.flatMap_congr fun read _ => single read, ← List.filterMap_eq_flatMap_toList,
    statements_eq, List.filterMap_filterMap]
  rfl

theorem isToldBy_ofLines (success : ofLines lines = .ok schedule) : IsToldBy lines schedule := by
  have declared : List.Forall₂ (fun line task => ∃ amount, Lasts line task amount)
      (lines.filter fun line => IsTaskLine line) (lines.filterMap taskOf?) := by
    apply forall₂_filter_filterMap
    · intro line
      rw [decide_eq_true_iff, isSome_taskOf?_iff]
    · exact fun line task => taskOf?_eq_some_iff.mp
  have names := names_ofLines success
  rw [declared_eq] at names
  exact ⟨isLatest_ofLines success, lines.filterMap taskOf?, declared, names⟩

theorem rows_layout (schedule : Schedule) :
    List.Forall₂ (IsRow schedule.layout.canvas) schedule.tasks.zipIdx schedule.layout.bars := by
  apply List.forall₂_map_right_iff.mpr
  apply List.forall₂_same.mpr
  intro entry member
  have longest := le_longest (List.fst_mem_of_mem_zipIdx member)
  have wide : barLeft + schedule.longest + 120 ≤ schedule.layout.canvas.width :=
    le_larger_right 800 _
  constructor
  case x => rfl
  case y =>
    simp only [barOf, barSpacing]
    ring
  case width =>
    simp only [barOf, dayLength]
    ring
  case room =>
    simp only [barOf, barLeft] at *
    linarith

/-- A source is read as its lines say, and every task has a row. -/
theorem tasks_and_rows_ofLines (success : ofLines lines = .ok schedule) :
    schedule.IsToldBy lines ∧
      List.Forall₂ (IsRow schedule.layout.canvas) schedule.tasks.zipIdx schedule.layout.bars :=
  ⟨isToldBy_ofLines success, schedule.rows_layout⟩

/-- A duration that is told again keeps its place in the list and changes the bar. -/
theorem tasks_and_rows_told_again :
    let lines : List Text := ["[A] lasts 1 day", "Project starts THE 1 May ",
      "[B]  Requires \u0663 wee\u212As", "[B] starts at [A]'s end", "[A] lasts 12 days"]
    let schedule : Schedule :=
      { tasks := [⟨"A", 12, none⟩, ⟨"B", 21, some "A"⟩], start := some "1 May" }
    ofLines lines = .ok schedule ∧ schedule.IsToldBy lines ∧
      List.Forall₂ (IsRow schedule.layout.canvas) schedule.tasks.zipIdx schedule.layout.bars := by
  intro lines schedule
  have success : ofLines lines = .ok schedule := by decide +kernel
  exact ⟨success, tasks_and_rows_ofLines success⟩

end DiagramSketch.Schedule
