import DiagramSketch.Proofs.Results
import DiagramSketch.Proofs.Text.Spellings
import DiagramSketch.Schedule.Basic

/-!
# What a line of a schedule says

The start of the project, how long a task lasts and what it comes after are told by what a line
looks like, without the readers.  Where blanks can be taken in several ways, the date is what is
left when they are taken so that as little as possible is left.
-/

namespace DiagramSketch.Schedule

open Text (Spaced Begins BeginsSpaced IsLineOf EndsGap)

/-- The text begins with a name in brackets. -/
def Bracketed (text name rest : Text) : Prop :=
  name ≠ [] ∧ ']' ∉ name ∧ text = '[' :: (name ++ ']' :: rest)

/-- What may be the date in a line that begins like the start of the project: what stands behind
blanks, with or without an article before it. -/
def MayBeDate (line tail : Text) : Prop :=
  ∃ afterWords afterBlanks, Begins "project starts" line afterWords ∧
    Spaced afterWords afterBlanks ∧
    (tail = afterBlanks ∨ ∃ afterArticle, Begins "the" afterBlanks afterArticle ∧
      Spaced afterArticle tail)

/-- The line says when the project starts. -/
def StartsOn (line date : Text) : Prop :=
  ∃ tail body, MayBeDate line tail ∧ IsLineOf body tail ∧ date = Text.trim body ∧
    ∀ other otherBody, MayBeDate line other → IsLineOf otherBody other →
      tail.length ≤ other.length

/-- The word for the unit of the amount, of which there may be one or more. -/
def Amount.unit (amount : Amount) : Text :=
  if amount.isWeeks then "week" else "day"

/-- The text tells the amount: digits of any script and the unit, blanks before both. -/
def Tells (text : Text) (amount : Amount) : Prop :=
  ∃ unit rest, amount.digits ≠ [] ∧ (∀ digit ∈ amount.digits, Text.isDigit digit = true) ∧
    Spaced text (amount.digits ++ unit) ∧
    BeginsSpaced amount.unit unit rest

/-- The line says how long the task lasts. -/
def Lasts (line task : Text) (amount : Amount) : Prop :=
  ∃ afterTask afterVerb, Bracketed line task afterTask ∧
    (BeginsSpaced "lasts" afterTask afterVerb ∨ BeginsSpaced "requires" afterTask afterVerb) ∧
    Tells afterVerb amount

/-- The line says after which other one the task starts. -/
def Orders (line task predecessor : Text) : Prop :=
  ∃ afterTask afterStarts afterAt bracket afterName afterPossessive rest,
    Bracketed line task afterTask ∧ BeginsSpaced "starts" afterTask afterStarts ∧
    BeginsSpaced "at" afterStarts afterAt ∧ Spaced afterAt bracket ∧
    Bracketed bracket predecessor afterName ∧ Begins "'s" afterName afterPossessive ∧
    BeginsSpaced "end" afterPossessive rest

variable {line text rest task predecessor date : Text} {amount : Amount}

/-! ## The start of the project -/

theorem afterBlanksFrom_eq (found : List Text) (text : Text) :
    afterBlanksFrom found text = afterBlanks text ++ found := by
  unfold afterBlanks
  induction text generalizing found with
  | nil => simp [afterBlanksFrom]
  | cons first text induction =>
      simp only [afterBlanksFrom]
      split
      · rw [induction (text :: found), induction [text], List.append_assoc]
        simp
      · simp

theorem afterBlanks_cons (first : Char) (text : Text) : afterBlanks (first :: text) =
    if Text.isBlank first then afterBlanks text ++ [text] else [] := by
  rw [afterBlanks, afterBlanksFrom, afterBlanksFrom_eq]

theorem mem_afterBlanks : rest ∈ afterBlanks text ↔ Spaced text rest := by
  induction text with
  | nil => simp [afterBlanks, afterBlanksFrom, Spaced]
  | cons first text induction =>
      rw [afterBlanks_cons, Text.spaced_cons_iff]
      split
      · next blank => simp [blank, induction, or_comm]
      · next solid => simp [solid]

/-- Fewer blanks leave the remaining ones in front of what more of them leave. -/
theorem pairwise_afterBlanks (text : Text) :
    (afterBlanks text).Pairwise fun shorter longer => Spaced longer shorter := by
  induction text with
  | nil => exact List.Pairwise.nil
  | cons first text induction =>
      rw [afterBlanks_cons]
      split
      · apply List.pairwise_append.mpr
        refine ⟨induction, List.pairwise_singleton _ _, fun shorter member longer last => ?_⟩
        rw [List.mem_singleton.mp last]
        exact mem_afterBlanks.mp member
      · exact List.Pairwise.nil

/-- All that may follow an article and blanks. -/
def behindArticle (text : Text) : List Text :=
  ((Text.keyword? "the" text).map afterBlanks).getD []

theorem mem_behindArticle : rest ∈ behindArticle text ↔
    ∃ afterArticle, Begins "the" text afterArticle ∧ Spaced afterArticle rest := by
  simp only [behindArticle, ← Text.keyword?_eq_some_iff]
  cases Text.keyword? "the" text with
  | none => simp
  | some afterArticle => simp [mem_afterBlanks]

theorem length_lt_of_mem_behindArticle (member : rest ∈ behindArticle text) :
    rest.length < text.length := by
  obtain ⟨afterArticle, ⟨spelled, -, rfl⟩, spaced⟩ := mem_behindArticle.mp member
  have shorter := spaced.length_lt
  rw [List.length_append]
  omega

theorem ascending_behindArticle (text : Text) :
    (behindArticle text).Pairwise fun shorter longer => shorter.length < longer.length := by
  unfold behindArticle
  cases Text.keyword? "the" text with
  | none => exact List.Pairwise.nil
  | some afterArticle => exact (pairwise_afterBlanks afterArticle).imp Spaced.length_lt

/-- No article stands where there are blanks. -/
theorem behindArticle_of_spaced (spaced : Spaced text rest) : behindArticle text = [] := by
  apply List.eq_nil_iff_forall_not_mem.mpr
  intro other member
  obtain ⟨afterArticle, article, -⟩ := mem_behindArticle.mp member
  exact spaced.not_endsGap (article.endsGap (by decide))

/-- All that may be the date where the blanks before it are taken. -/
def datesAt (text : Text) : List Text :=
  behindArticle text ++ [text]

theorem mem_datesAt : rest ∈ datesAt text ↔ rest = text ∨ rest ∈ behindArticle text := by
  rw [datesAt, List.mem_append, List.mem_singleton, or_comm]

theorem ascending_datesAt (text : Text) :
    (datesAt text).Pairwise fun shorter longer => shorter.length < longer.length := by
  apply List.pairwise_append.mpr
  refine ⟨ascending_behindArticle text, List.pairwise_singleton _ _, ?_⟩
  intro shorter member longer last
  rw [List.mem_singleton.mp last]
  exact length_lt_of_mem_behindArticle member

/-- All that may be the date behind the words that begin the line. -/
def datesBehind (text : Text) : List Text :=
  (afterBlanks text).flatMap datesAt

theorem ascending_datesBehind (text : Text) :
    (datesBehind text).Pairwise fun shorter longer => shorter.length < longer.length := by
  apply List.pairwise_flatMap.mpr
  refine ⟨fun rest _ => ascending_datesAt rest, (pairwise_afterBlanks text).imp ?_⟩
  intro first second spaced shorter member longer last
  rw [datesAt, behindArticle_of_spaced spaced, List.nil_append] at last
  rw [List.mem_singleton.mp last]
  rcases mem_datesAt.mp member with rfl | behind
  · exact spaced.length_lt
  · exact (length_lt_of_mem_behindArticle behind).trans spaced.length_lt

theorem mem_datesBehind : rest ∈ datesBehind text ↔
    ∃ afterBlanks, Spaced text afterBlanks ∧ (rest = afterBlanks ∨
      ∃ afterArticle, Begins "the" afterBlanks afterArticle ∧ Spaced afterArticle rest) := by
  simp only [datesBehind, List.mem_flatMap, mem_afterBlanks, mem_datesAt, mem_behindArticle]

theorem findSome?_dateWithArticle? (text : Text) :
    (afterBlanks text).findSome? dateWithArticle? = (datesBehind text).findSome? date? := by
  have each (rest : Text) : dateWithArticle? rest = (datesAt rest).findSome? date? := by
    rw [dateWithArticle?, datesAt, List.findSome?_append, List.findSome?_singleton, behindArticle]
  unfold datesBehind
  induction afterBlanks text with
  | nil => rfl
  | cons rest rests induction =>
      rw [List.findSome?_cons, List.flatMap_cons, List.findSome?_append, ← induction, each]
      cases (datesAt rest).findSome? date? with
      | none => rfl
      | some date => rfl

theorem date?_eq_some_iff :
    date? text = some date ↔ ∃ body, IsLineOf body text ∧ date = Text.trim body := by
  simp only [Text.isLineOf_iff, date?]
  cases Text.toEnd? text with
  | none => simp
  | some body =>
      cases body with
      | nil => simp
      | cons first body => simp [eq_comm]

theorem isSome_date?_iff : (date? text).isSome = true ↔ ∃ body, IsLineOf body text := by
  simp only [Option.isSome_iff_exists, date?_eq_some_iff]
  constructor
  · rintro ⟨date, body, line, -⟩
    exact ⟨body, line⟩
  · rintro ⟨body, line⟩
    exact ⟨Text.trim body, body, line, rfl⟩

theorem mayBeDate_iff {afterWords : Text} (begins : Begins "project starts" line afterWords) :
    MayBeDate line rest ↔ rest ∈ datesBehind afterWords := by
  rw [mem_datesBehind]
  constructor
  · rintro ⟨otherWords, afterBlanks, other, tail⟩
    rw [other.unique begins] at tail
    exact ⟨afterBlanks, tail⟩
  · rintro ⟨afterBlanks, tail⟩
    exact ⟨afterWords, afterBlanks, begins, tail⟩

theorem start?_eq_some_iff : start? line = some date ↔ StartsOn line date := by
  simp only [start?, Option.bind_eq_bind, Option.bind_eq_some_iff, Text.keyword?_eq_some_iff]
  constructor
  · rintro ⟨afterWords, begins, read⟩
    rw [findSome?_dateWithArticle?, findSome?_eq_some_iff_of_pairwise
      (ascending_datesBehind afterWords)] at read
    obtain ⟨tail, member, found, least⟩ := read
    obtain ⟨body, isLine, rfl⟩ := date?_eq_some_iff.mp found
    refine ⟨tail, body, (mayBeDate_iff begins).mpr member, isLine, rfl, ?_⟩
    intro other otherBody may otherLine
    exact least other ((mayBeDate_iff begins).mp may) (isSome_date?_iff.mpr ⟨otherBody, otherLine⟩)
  · rintro ⟨tail, body, may, isLine, rfl, least⟩
    have ⟨afterWords, _, begins, _⟩ := may
    refine ⟨afterWords, begins, ?_⟩
    rw [findSome?_dateWithArticle?, findSome?_eq_some_iff_of_pairwise
      (ascending_datesBehind afterWords)]
    refine ⟨tail, (mayBeDate_iff begins).mp may, date?_eq_some_iff.mpr ⟨body, isLine, rfl⟩, ?_⟩
    intro other member readable
    obtain ⟨otherBody, otherLine⟩ := isSome_date?_iff.mp readable
    exact least other otherBody ((mayBeDate_iff begins).mpr member) otherLine

/-- An article with nothing behind it is a date. -/
example : start? "Project starts the" = some "the" := by decide +kernel

/-! ## Durations -/

theorem bracketed_iff :
    Text.enclosed? '[' ']' text = some (task, rest) ↔ Bracketed text task rest :=
  Text.enclosed?_eq_some_iff

theorem anyKeyword?_eq_some_iff {first second : Text} (filled : first ≠ []) (other : second ≠ [])
    (apart : first.head? ≠ second.head?) : anyKeyword? first second text = some rest ↔
      Begins first text rest ∨ Begins second text rest := by
  simp only [anyKeyword?, Option.or_eq_some_iff, Option.eq_none_iff_forall_ne_some, ne_eq,
    Text.keyword?_eq_some_iff]
  apply or_congr_right
  apply and_iff_right_of_imp
  intro begins otherRest otherwise
  exact apart ((otherwise.head filled).symm.trans (begins.head other))

/-- The amount that the digits and the unit behind them come to. -/
def inUnit? (digits unit : Text) : Option Amount :=
  if (Text.keyword? "day" unit).isSome then some { digits, isWeeks := false }
  else if (Text.keyword? "week" unit).isSome then some { digits, isWeeks := true }
  else none

theorem inUnit?_eq_some_iff {digits unit : Text} : inUnit? digits unit = some amount ↔
    amount.digits = digits ∧ ∃ rest, Begins amount.unit unit rest := by
  have apart (week : (Text.keyword? "week" unit).isSome = true) :
      ¬ (Text.keyword? "day" unit).isSome = true := by
    intro day
    obtain ⟨days, day⟩ := Text.isSome_keyword?_iff.mp day
    obtain ⟨weeks, week⟩ := Text.isSome_keyword?_iff.mp week
    have same := (day.head (by decide)).symm.trans (week.head (by decide))
    cases same
  obtain ⟨own, isWeeks⟩ := amount
  rw [← Text.isSome_keyword?_iff, inUnit?, Amount.unit]
  cases isWeeks with
  | false =>
      by_cases day : (Text.keyword? "day" unit).isSome = true
      · simp only [day, Bool.false_eq_true, if_true, if_false, Option.some.injEq, Amount.mk.injEq,
          and_true, eq_comm]
      · simp only [day, Bool.false_eq_true, if_false, and_false, iff_false]
        split
        · simp
        · simp
  | true =>
      by_cases week : (Text.keyword? "week" unit).isSome = true
      · simp only [week, apart week, if_true, Option.some.injEq, Amount.mk.injEq, and_true,
          Bool.false_eq_true, if_false, eq_comm]
      · simp only [week, if_true, if_false, Bool.false_eq_true, and_false, iff_false]
        split
        · simp
        · simp

theorem inUnit?_endsGap {digits unit : Text} (read : inUnit? digits unit = some amount) :
    EndsGap unit := by
  obtain ⟨-, rest, begins⟩ := inUnit?_eq_some_iff.mp read
  apply begins.endsGap
  unfold Amount.unit
  split
  · decide
  · decide

/-- Reads the digits and the unit. -/
def counted? (text : Text) : Option Amount :=
  if (text.takeWhile Text.isDigit).isEmpty then none
  else (Text.blanks? (text.dropWhile Text.isDigit)).bind (inUnit? (text.takeWhile Text.isDigit))

theorem counted?_eq_some_iff : counted? text = some amount ↔
    amount.digits ≠ [] ∧ (∀ digit ∈ amount.digits, Text.isDigit digit = true) ∧
      ∃ unit rest, text = amount.digits ++ unit ∧
        BeginsSpaced amount.unit unit rest := by
  constructor
  · intro read
    unfold counted? at read
    split at read
    · cases read
    · next filled =>
        rw [Text.blanks?_bind_eq_some_iff fun unit => inUnit?_endsGap] at read
        obtain ⟨unit, spaced, read⟩ := read
        obtain ⟨same, rest, begins⟩ := inUnit?_eq_some_iff.mp read
        rw [same]
        refine ⟨List.isEmpty_iff.not.mp filled, fun digit => List.mem_takeWhile_imp, ?_⟩
        exact ⟨_, rest, List.takeWhile_append_dropWhile.symm, unit, spaced, begins⟩
  · rintro ⟨filled, digits, unit, rest, rfl, afterBlanks, spaced, begins⟩
    obtain ⟨taken, dropped⟩ := splitWhile_append digits spaced.endsDigits
    rw [counted?, taken, dropped, if_neg (List.isEmpty_iff.not.mpr filled),
      Text.blanks?_bind_eq_some_iff fun unit => inUnit?_endsGap]
    exact ⟨afterBlanks, spaced, inUnit?_eq_some_iff.mpr ⟨rfl, rest, begins⟩⟩

theorem counted?_endsGap (read : counted? text = some amount) : EndsGap text := by
  obtain ⟨filled, digits, unit, rest, rfl, -⟩ := counted?_eq_some_iff.mp read
  obtain ⟨first, more, same⟩ := List.exists_cons_of_ne_nil filled
  rw [same, List.cons_append, Text.endsGap_cons]
  apply Text.not_isBlank_of_isDigit
  apply digits
  rw [same]
  exact List.mem_cons_self

/-- Reads what is behind the verb. -/
def told? (text : Text) : Option Amount :=
  (Text.blanks? text).bind counted?

theorem told?_eq_some_iff : told? text = some amount ↔ Tells text amount := by
  rw [told?, Text.blanks?_bind_eq_some_iff fun rest => counted?_endsGap]
  simp only [counted?_eq_some_iff]
  constructor
  · rintro ⟨_, spaced, filled, digits, unit, rest, rfl, begins⟩
    exact ⟨unit, rest, filled, digits, spaced, begins⟩
  · rintro ⟨unit, rest, filled, digits, spaced, begins⟩
    exact ⟨_, spaced, filled, digits, unit, rest, rfl, begins⟩

/-- A duration is read in three steps. -/
theorem amount?_eq (text : Text) : amount? text = (Text.blanks? text).bind fun afterBlanks =>
    (anyKeyword? "lasts" "requires" afterBlanks).bind told? :=
  rfl

theorem anyVerb?_eq_some_iff : anyKeyword? "lasts" "requires" text = some rest ↔
    Begins "lasts" text rest ∨ Begins "requires" text rest :=
  anyKeyword?_eq_some_iff (by decide) (by decide) (by decide)

theorem amount?_eq_some_iff : amount? text = some amount ↔ ∃ afterVerb,
    (BeginsSpaced "lasts" text afterVerb ∨ BeginsSpaced "requires" text afterVerb) ∧
      Tells afterVerb amount := by
  have solid (afterBlanks : Text)
      (read : (anyKeyword? "lasts" "requires" afterBlanks).bind told? = some amount) :
      EndsGap afterBlanks := by
    obtain ⟨afterVerb, verb, -⟩ := Option.bind_eq_some_iff.mp read
    rcases anyVerb?_eq_some_iff.mp verb with lasts | requires
    · exact lasts.endsGap (by decide)
    · exact requires.endsGap (by decide)
  rw [amount?_eq, Text.blanks?_bind_eq_some_iff solid]
  simp only [Option.bind_eq_some_iff, anyVerb?_eq_some_iff, told?_eq_some_iff]
  constructor
  · rintro ⟨afterBlanks, spaced, afterVerb, lasts | requires, tells⟩
    · exact ⟨afterVerb, .inl ⟨afterBlanks, spaced, lasts⟩, tells⟩
    · exact ⟨afterVerb, .inr ⟨afterBlanks, spaced, requires⟩, tells⟩
  · rintro ⟨afterVerb, ⟨afterBlanks, spaced, lasts⟩ | ⟨afterBlanks, spaced, requires⟩, tells⟩
    · exact ⟨afterBlanks, spaced, afterVerb, .inl lasts, tells⟩
    · exact ⟨afterBlanks, spaced, afterVerb, .inr requires, tells⟩

/-! ## What comes before -/

theorem bracketed_endsGap (bracketed : Bracketed text task rest) : EndsGap text := by
  obtain ⟨-, -, rfl⟩ := bracketed
  exact Text.endsGap_sign (by decide) _

/-- What a task comes after is read in five steps. -/
theorem predecessor?_eq (text : Text) : predecessor? text =
    ((Text.blanks? text).bind (Text.keyword? "starts")).bind fun afterStarts =>
      ((Text.blanks? afterStarts).bind (Text.keyword? "at")).bind fun afterAt =>
        ((Text.blanks? afterAt).bind (Text.enclosed? '[' ']')).bind fun (name, afterName) =>
          (Text.keyword? "'s" afterName).bind fun afterPossessive =>
            ((Text.blanks? afterPossessive).bind (Text.keyword? "end")).map fun _ => name := by
  simp only [predecessor?, Option.bind_eq_bind, Option.bind_assoc, Option.pure_def,
    Option.map_eq_bind]
  rfl

theorem spacedBracket_iff : (Text.blanks? text).bind (Text.enclosed? '[' ']') = some (task, rest) ↔
    ∃ bracket, Spaced text bracket ∧ Bracketed bracket task rest := by
  rw [Text.blanks?_bind_eq_some_iff fun bracket read => bracketed_endsGap (bracketed_iff.mp read)]
  simp only [bracketed_iff]

theorem predecessor?_eq_some_iff : predecessor? text = some predecessor ↔
    ∃ afterStarts afterAt bracket afterName afterPossessive rest,
      BeginsSpaced "starts" text afterStarts ∧ BeginsSpaced "at" afterStarts afterAt ∧
      Spaced afterAt bracket ∧ Bracketed bracket predecessor afterName ∧
      Begins "'s" afterName afterPossessive ∧ BeginsSpaced "end" afterPossessive rest := by
  rw [predecessor?_eq]
  constructor
  · intro read
    obtain ⟨afterStarts, starts, read⟩ := Option.bind_eq_some_iff.mp read
    obtain ⟨afterAt, place, read⟩ := Option.bind_eq_some_iff.mp read
    obtain ⟨⟨name, afterName⟩, enclosed, read⟩ := Option.bind_eq_some_iff.mp read
    obtain ⟨afterPossessive, possessive, read⟩ := Option.bind_eq_some_iff.mp read
    obtain ⟨rest, last, rfl⟩ := Option.map_eq_some_iff.mp read
    obtain ⟨bracket, spaced, bracketed⟩ := spacedBracket_iff.mp enclosed
    refine ⟨afterStarts, afterAt, bracket, afterName, afterPossessive, rest, ?_, ?_, spaced,
      bracketed, Text.keyword?_eq_some_iff.mp possessive, ?_⟩
    · exact (Text.blanks?_bind_keyword? (by decide)).mp starts
    · exact (Text.blanks?_bind_keyword? (by decide)).mp place
    · exact (Text.blanks?_bind_keyword? (by decide)).mp last
  · rintro ⟨afterStarts, afterAt, bracket, afterName, afterPossessive, rest, starts, place, spaced,
      bracketed, possessive, last⟩
    have enclosed := spacedBracket_iff.mpr ⟨bracket, spaced, bracketed⟩
    rw [(Text.blanks?_bind_keyword? (by decide)).mpr starts, Option.bind_some,
      (Text.blanks?_bind_keyword? (by decide)).mpr place, Option.bind_some, enclosed,
      Option.bind_some]
    dsimp only
    rw [Text.keyword?_eq_some_iff.mpr possessive, Option.bind_some,
      (Text.blanks?_bind_keyword? (by decide)).mpr last, Option.map_some]

/-! ## Lines -/

theorem StartsOn.not_bracketed (starts : StartsOn line date) : ¬ Bracketed line task rest := by
  obtain ⟨tail, body, ⟨afterWords, -, begins, -⟩, -⟩ := starts
  rintro ⟨-, -, rfl⟩
  have same := begins.head (by decide)
  cases same

theorem taskLine?_eq_some_iff {read : Line} : taskLine? line = some read ↔
    ∃ task afterTask, Bracketed line task afterTask ∧
      ((∃ amount, amount? afterTask = some amount ∧ read = .duration task amount) ∨
        amount? afterTask = none ∧ ∃ predecessor,
          predecessor? afterTask = some predecessor ∧ read = .order task predecessor) := by
  simp only [taskLine?, Option.bind_eq_bind, Option.bind_eq_some_iff, Prod.exists, bracketed_iff]
  apply exists_congr
  intro task
  apply exists_congr
  intro afterTask
  apply and_congr_right'
  cases amount? afterTask with
  | some amount => simp [eq_comm]
  | none => simp [Option.bind_eq_some_iff, eq_comm (b := read)]

theorem read?_eq_start_iff : Line.read? line = some (.start date) ↔ StartsOn line date := by
  rw [← start?_eq_some_iff, Line.read?]
  cases start? line with
  | some other => simp
  | none => simp [taskLine?_eq_some_iff]

/-- A line about a task does not say when the project starts. -/
theorem read?_eq_some_iff_taskLine? {read : Line} (other : ∀ date, read ≠ .start date) :
    Line.read? line = some read ↔ taskLine? line = some read := by
  cases starts : start? line with
  | none => rw [Line.read?, starts]
  | some date =>
      have notStart : Line.read? line ≠ some read := by
        intro found
        rw [read?_eq_start_iff.mpr (start?_eq_some_iff.mp starts)] at found
        exact other date (Option.some.inj found).symm
      refine iff_of_false notStart fun found => ?_
      obtain ⟨task, afterTask, bracketed, -⟩ := taskLine?_eq_some_iff.mp found
      exact (start?_eq_some_iff.mp starts).not_bracketed bracketed

theorem read?_eq_duration_iff :
    Line.read? line = some (.duration task amount) ↔ Lasts line task amount := by
  rw [read?_eq_some_iff_taskLine? fun date => by simp, taskLine?_eq_some_iff]
  constructor
  · rintro ⟨_, afterTask, bracketed, ⟨_, found, same⟩ | ⟨-, _, -, same⟩⟩
    · cases same
      obtain ⟨afterVerb, verb, tells⟩ := amount?_eq_some_iff.mp found
      exact ⟨afterTask, afterVerb, bracketed, verb, tells⟩
    · cases same
  · rintro ⟨afterTask, afterVerb, bracketed, verb, tells⟩
    have found := amount?_eq_some_iff.mpr ⟨afterVerb, verb, tells⟩
    exact ⟨task, afterTask, bracketed, .inl ⟨amount, found, rfl⟩⟩

/-- Where a text goes on with the beginning of an order, it does not tell a duration. -/
theorem amount?_eq_none {afterStarts : Text} (starts : BeginsSpaced "starts" text afterStarts) :
    amount? text = none := by
  apply Option.eq_none_iff_forall_ne_some.mpr
  intro amount found
  obtain ⟨afterVerb, lasts | requires, -⟩ := amount?_eq_some_iff.mp found
  · have same := starts.head_eq lasts (by decide) (by decide)
    cases same
  · have same := starts.head_eq requires (by decide) (by decide)
    cases same

theorem read?_eq_order_iff :
    Line.read? line = some (.order task predecessor) ↔ Orders line task predecessor := by
  rw [read?_eq_some_iff_taskLine? fun date => by simp, taskLine?_eq_some_iff]
  constructor
  · rintro ⟨_, afterTask, bracketed, ⟨_, -, same⟩ | ⟨-, _, found, same⟩⟩
    · cases same
    · cases same
      obtain ⟨afterStarts, afterAt, bracket, afterName, afterPossessive, rest, parts⟩ :=
        predecessor?_eq_some_iff.mp found
      exact ⟨afterTask, afterStarts, afterAt, bracket, afterName, afterPossessive, rest, bracketed,
        parts⟩
  · rintro ⟨afterTask, afterStarts, afterAt, bracket, afterName, afterPossessive, rest, bracketed,
      parts⟩
    have found := predecessor?_eq_some_iff.mpr
      ⟨afterStarts, afterAt, bracket, afterName, afterPossessive, rest, parts⟩
    exact ⟨task, afterTask, bracketed, .inr ⟨amount?_eq_none parts.1, predecessor, found, rfl⟩⟩

end DiagramSketch.Schedule
