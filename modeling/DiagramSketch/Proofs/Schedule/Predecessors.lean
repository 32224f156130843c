import DiagramSketch.Proofs.Schedule.Reference

/-!
# Where a line says what a task comes after

What a task comes after is recorded when the line that says so is read, if the task is known by
then.  A line that stands before every line with the duration of the task is lost, and other than
that its place does not matter.
-/

namespace DiagramSketch.Schedule

/-- One of the lines tells the duration of the task. -/
def IsDeclaredIn (task : Text) (lines : List Text) : Prop :=
  ∃ line ∈ lines, ∃ amount, Lasts line task amount

/-- The schedule in which the task comes after another one, or after none. -/
def setAfter (task : Text) (after : Option Text) (schedule : Schedule) : Schedule :=
  schedule.alter task fun entry => { entry with after }

variable {lines before after : List Text} {line task predecessor : Text} {schedule next : Schedule}
  {previous : Option Text}

theorem isDeclaredIn_iff : IsDeclaredIn task lines ↔ task ∈ lines.filterMap taskOf? := by
  simp only [IsDeclaredIn, List.mem_filterMap, taskOf?_eq_some_iff]

instance : Decidable (IsDeclaredIn task lines) :=
  decidable_of_iff _ isDeclaredIn_iff.symm

/-- A line tells one thing only. -/
theorem Lasts.not_orders {other : Text} {amount : Amount} (lasts : Lasts line task amount)
    (name : Text) : ¬ Orders line other name := by
  intro orders
  have read := read?_eq_duration_iff.mpr lasts
  rw [read?_eq_order_iff.mpr orders] at read
  cases read

/-! ## Tasks that are known -/

theorem hasTask_iff : schedule.hasTask task = true ↔ task ∈ schedule.names := by
  simp [hasTask, names]

theorem hasTask_ofLines (success : ofLines lines = .ok schedule) :
    schedule.hasTask task = true ↔ IsDeclaredIn task lines := by
  rw [hasTask_iff, names_ofLines success, declared_eq, List.mem_eraseDups, isDeclaredIn_iff]

theorem hasTask_follow {read : Line} (known : schedule.hasTask task = true)
    (success : schedule.follow read = .ok next) : next.hasTask task = true := by
  rw [hasTask_iff] at known ⊢
  exact (isExtendedBy_follow success).tasks.subset known

theorem names_setAfter (task : Text) (previous : Option Text) (schedule : Schedule) :
    (schedule.setAfter task previous).names = schedule.names :=
  names_alter task (fun entry => { entry with after := previous }) (fun _ => rfl) schedule

theorem setAfter_of_not_hasTask (unknown : ¬ schedule.hasTask task = true) :
    schedule.setAfter task previous = schedule := by
  have same : schedule.tasks.map (fun entry =>
      if entry.name == task then { entry with after := previous } else entry) = schedule.tasks := by
    refine (List.map_congr_left fun entry member => ?_).trans (List.map_id _)
    exact if_neg fun named => unknown (List.any_eq_true.mpr ⟨entry, member, named⟩)
  rw [setAfter, alter, same]

theorem setAfter_setAfter (task : Text) (first second : Option Text) (schedule : Schedule) :
    (schedule.setAfter task first).setAfter task second = schedule.setAfter task second := by
  simp only [setAfter, alter, List.map_map, mk.injEq, and_true]
  apply List.map_congr_left
  intro entry _
  by_cases named : entry.name = task
  · simp [named]
  · simp [named]

/-! ## Changes that do not meet -/

theorem alter_comm {first second : Text} {change other : Task → Task}
    (name : ∀ entry, (change entry).name = entry.name)
    (otherName : ∀ entry, (other entry).name = entry.name)
    (apart : first = second → ∀ entry, change (other entry) = other (change entry)) :
    (schedule.alter second other).alter first change =
      (schedule.alter first change).alter second other := by
  simp only [alter, List.map_map, mk.injEq, and_true]
  apply List.map_congr_left
  intro entry _
  simp only [Function.comp_apply, beq_iff_eq]
  by_cases named : entry.name = first
  · by_cases otherNamed : entry.name = second
    · rw [if_pos named, if_pos otherNamed, if_pos ((otherName entry).trans named),
        if_pos ((name entry).trans otherNamed)]
      exact apart (named.symm.trans otherNamed) entry
    · rw [if_pos named, if_neg otherNamed, if_pos named, name, if_neg otherNamed]
  · by_cases otherNamed : entry.name = second
    · rw [if_neg named, if_pos otherNamed, otherName, if_neg named]
    · rw [if_neg named, if_neg otherNamed, if_neg named]

theorem setDuration_setAfter (known : schedule.hasTask task = true ∨ previous = none) (name : Text)
    (days : Int) : (schedule.setAfter task previous).setDuration name days =
      (schedule.setDuration name days).setAfter task previous := by
  have same : (schedule.setAfter task previous).hasTask name = schedule.hasTask name := by
    rw [Bool.eq_iff_iff, hasTask_iff, hasTask_iff, names_setAfter]
  unfold setDuration
  rw [same]
  split
  · exact alter_comm (fun _ => rfl) (fun _ => rfl) fun _ _ => rfl
  · next fresh =>
      simp only [setAfter, alter, List.map_append, List.map_cons, List.map_nil, mk.injEq, and_true]
      congr 2
      by_cases named : name = task
      · subst named
        simp [known.resolve_left fresh]
      · simp [named]

/-- What is recorded for a known task stays when lines about other things are read. -/
theorem follow_setAfter (known : schedule.hasTask task = true ∨ previous = none) {read : Line}
    (other : ∀ name, read ≠ .order task name) :
    (schedule.setAfter task previous).follow read =
      (schedule.follow read).map (setAfter task previous) := by
  cases read with
  | start date => rfl
  | duration name amount =>
      simp only [follow, setDuration_setAfter known]
      cases amount.days with
      | error fault => rfl
      | ok days => rfl
  | order name predecessor =>
      have apart : name ≠ task := by
        rintro rfl
        exact other predecessor rfl
      apply congrArg Except.ok
      exact alter_comm (fun _ => rfl) (fun _ => rfl) fun same => absurd same apart

theorem foldlM_setAfter {statements : List Line}
    (known : schedule.hasTask task = true ∨ previous = none)
    (other : ∀ read ∈ statements, ∀ name, read ≠ .order task name) :
    statements.foldlM follow (schedule.setAfter task previous) =
      (statements.foldlM follow schedule).map (setAfter task previous) := by
  induction statements generalizing schedule with
  | nil => rfl
  | cons read statements induction =>
      obtain ⟨own, others⟩ := List.forall_mem_cons.mp other
      rw [List.foldlM_cons, List.foldlM_cons, follow_setAfter known own]
      cases stepped : schedule.follow read with
      | error fault => rfl
      | ok next =>
          exact induction (known.imp_left fun known => hasTask_follow known stepped) others

/-! ## The place of the line -/

theorem ne_order_of_mem_statements (once : ∀ other ∈ lines, ∀ name, ¬ Orders other task name) :
    ∀ read ∈ statements lines, ∀ name, read ≠ .order task name := by
  rw [statements_eq]
  intro read member name same
  subst same
  obtain ⟨line, listed, found⟩ := List.mem_filterMap.mp member
  exact once line listed name (read?_eq_order_iff.mp found)

/-- A line that says what a task comes after, and that no later line takes back, counts exactly if
the duration of the task is known where it stands. -/
theorem ofLines_insert (orders : Orders line task predecessor)
    (once : ∀ other ∈ after, ∀ name, ¬ Orders other task name) :
    ofLines (before ++ line :: after) = (ofLines (before ++ after)).map
      (setAfter task (if IsDeclaredIn task before then some predecessor else none)) := by
  have later := ne_order_of_mem_statements once
  have first : statements (line :: after) = .order task predecessor :: statements after := by
    rw [statements_eq, statements_eq, List.filterMap_cons_some (read?_eq_order_iff.mpr orders)]
  rw [ofLines_append, ofLines_append, first]
  cases start : ofLines before with
  | error fault => rfl
  | ok schedule =>
      change (statements after).foldlM follow (schedule.setAfter task (some predecessor)) =
        ((statements after).foldlM follow schedule).map _
      by_cases declared : IsDeclaredIn task before
      · have known := (hasTask_ofLines start).mpr declared
        rw [if_pos declared]
        exact foldlM_setAfter (.inl known) later
      · have unknown := mt (hasTask_ofLines start).mp declared
        rw [if_neg declared, ← foldlM_setAfter (.inr rfl) later, setAfter_of_not_hasTask unknown,
          setAfter_of_not_hasTask unknown]

theorem after_of_mem_setAfter {entry : Task}
    (member : entry ∈ (schedule.setAfter task previous).tasks) (named : entry.name = task) :
    entry.after = previous := by
  obtain ⟨old, -, rfl⟩ := List.mem_map.mp member
  by_cases oldNamed : old.name = task
  · simp [oldNamed]
  · simp [oldNamed] at named

/-- What a task comes after is recorded exactly if a line with the duration of the task stands
somewhere before the only line that says so.  Wherever that line is moved to, nothing else in the
schedule changes, and the tasks stay the same exactly if there is such a duration before both
places or before none of them. -/
theorem predecessor_told_behind_duration (orders : Orders line task predecessor)
    (once : ∀ other ∈ before ++ after, ∀ name, ¬ Orders other task name)
    (declared : IsDeclaredIn task (before ++ after))
    (success : ofLines (before ++ line :: after) = .ok schedule) :
    (∃ entry ∈ schedule.tasks, entry.name = task) ∧
    (∀ entry ∈ schedule.tasks, entry.name = task →
      entry.after = if IsDeclaredIn task before then some predecessor else none) ∧
    ∀ other others, other ++ others = before ++ after →
      let moved := schedule.setAfter task
        (if IsDeclaredIn task other then some predecessor else none)
      ofLines (other ++ line :: others) = .ok moved ∧
        (moved.tasks = schedule.tasks ↔
          (IsDeclaredIn task other ↔ IsDeclaredIn task before)) := by
  have later := (List.forall_mem_append.mp once).2
  rw [ofLines_insert orders later] at success
  obtain ⟨base, read, rfl⟩ := map_eq_ok_iff.mp success
  have known := (hasTask_ofLines read).mpr declared
  rw [hasTask_iff, ← names_setAfter] at known
  obtain ⟨entry, listed, named⟩ := List.mem_map.mp known
  refine ⟨⟨entry, listed, named⟩, fun entry => after_of_mem_setAfter, fun other others same => ?_⟩
  dsimp only
  rw [setAfter_setAfter]
  constructor
  · have otherLater : ∀ line ∈ others, ∀ name, ¬ Orders line task name := by
      rw [← same] at once
      exact (List.forall_mem_append.mp once).2
    rw [ofLines_insert orders otherLater, same, read]
    rfl
  · constructor
    · intro kept
      have first := after_of_mem_setAfter listed named
      rw [← kept] at listed
      rw [after_of_mem_setAfter listed named] at first
      have recorded := congrArg Option.isSome first
      rw [Bool.eq_iff_iff] at recorded
      simpa using recorded
    · intro both
      simp only [both]

/-- Behind the duration of the task the line counts wherever it stands. -/
theorem predecessor_told_behind_duration_of_two :
    let first : Text := "[B] lasts 2 days"
    let last : Text := "[A] lasts 1 day"
    let order : Text := "[B] Starts at [A]'s end"
    let schedule : Schedule := { tasks := [⟨"B", 2, some "A"⟩, ⟨"A", 1, none⟩], start := none }
    Orders order "B" "A" ∧ ofLines ([first] ++ order :: [last]) = .ok schedule ∧
      (∀ entry ∈ schedule.tasks, entry.name = "B" → entry.after = some "A") ∧
      ofLines [first, last, order] = .ok schedule := by
  intro first last order schedule
  have lasts : Lasts first "B" ⟨"2", false⟩ := read?_eq_duration_iff.mp (by decide +kernel)
  have otherLasts : Lasts last "A" ⟨"1", false⟩ := read?_eq_duration_iff.mp (by decide +kernel)
  have orders : Orders order "B" "A" := read?_eq_order_iff.mp (by decide +kernel)
  have success : ofLines ([first] ++ order :: [last]) = .ok schedule := by decide +kernel
  have once : ∀ other ∈ [first] ++ [last], ∀ name, ¬ Orders other "B" name :=
    List.forall_mem_cons.mpr ⟨lasts.not_orders, List.forall_mem_singleton.mpr otherLasts.not_orders⟩
  have declared (others : List Text) : IsDeclaredIn "B" (first :: others) :=
    ⟨first, List.mem_cons_self, _, lasts⟩
  obtain ⟨-, recorded, moves⟩ :=
    predecessor_told_behind_duration orders once (declared [last]) success
  rw [if_pos (declared [])] at recorded
  have moved := (moves [first, last] [] rfl).1
  rw [if_pos (declared [last])] at moved
  exact ⟨orders, success, recorded, moved⟩

/-- In front of it the line is lost. -/
theorem predecessor_lost_before_duration :
    let order : Text := "[B] starts at [A]'s end"
    let durations : List Text := ["[A] lasts 1 day", "[B] lasts 2 days"]
    Orders order "B" "A" ∧ IsDeclaredIn "B" durations ∧
      ofLines (order :: durations) =
        .ok { tasks := [⟨"A", 1, none⟩, ⟨"B", 2, none⟩], start := none } ∧
      ofLines (durations ++ [order]) =
        .ok { tasks := [⟨"A", 1, none⟩, ⟨"B", 2, some "A"⟩], start := none } := by
  intro order durations
  exact ⟨read?_eq_order_iff.mp (by decide +kernel), by decide +kernel, by decide +kernel,
    by decide +kernel⟩

end DiagramSketch.Schedule
