import DiagramSketch.Font.Bundled
import DiagramSketch.Proofs.Kind.Precedence
import DiagramSketch.Proofs.Results
import DiagramSketch.Render

/-!
# Which activities are recognised

The rule for activities searches for tokens and knows nothing of lines, while the reader goes by
whole lines.  The tokens are spelled with `stop` and with one space after `if`.  The reader also
takes `end` for a stop and any blanks or none after `if`, and with these alone an activity is read
that the rule does not recognise.
-/

namespace DiagramSketch

namespace Activity

/-! ## What the reader finds -/

theorem hasStart_follow (activity : Activity) (line : Line) :
    (follow activity line).hasStart = true ↔ activity.hasStart = true ∨ line = .start := by
  cases line <;> simp [follow]

/-- The start is set by one line and taken back by none. -/
theorem hasStart_foldl (activity : Activity) (lines : List Line) :
    (lines.foldl follow activity).hasStart = true ↔
      activity.hasStart = true ∨ Line.start ∈ lines := by
  induction lines generalizing activity with
  | nil => simp
  | cons line lines induction =>
      rw [List.foldl_cons, induction, hasStart_follow, List.mem_cons, or_assoc, eq_comm (a := line)]

theorem read?_eq_start_iff {line : Text} : Line.read? line = some .start ↔ line = "start" := by
  unfold Line.read?
  split_ifs with start stop
  · exact iff_of_true rfl start
  · exact iff_of_false nofun start
  · refine iff_of_false ?_ start
    cases decision? line <;> simp

/-- A start is found where a line consists of its word. -/
theorem hasStart_ofLines {lines : List Text} :
    (ofLines lines).hasStart = true ↔ ("start" : Text) ∈ Text.contentLines lines := by
  rw [ofLines, hasStart_foldl, List.mem_filterMap]
  simp only [read?_eq_start_iff, empty, Bool.false_eq_true, false_or, exists_eq_right]

/-! ## What the rule finds -/

/-- A line among the content of a source is one of its lines. -/
theorem mem_of_mem_contentLines {line : Text} {lines : List Text}
    (member : line ∈ Text.contentLines lines) : line ∈ lines :=
  List.mem_of_mem_filter member

theorem shownBy_of_start_of_stop {lines : List Text} (start : ("start" : Text) ∈ lines)
    (stop : ("stop" : Text) ∈ lines) : Kind.activity.shownBy (Kind.codeOf lines) = true := by
  have first : Text.occursIn "start" (Kind.codeOf lines) = true :=
    Kind.occursIn_codeOf_of_mem start (List.infix_refl _)
  have second : Text.occursIn "stop" (Kind.codeOf lines) = true :=
    Kind.occursIn_codeOf_of_mem stop (List.infix_refl _)
  simp only [Kind.shownBy, Kind.tokens, List.any_cons, List.all_cons, first, second, List.all_nil,
    Bool.and_true, Bool.true_or]

theorem shownBy_of_decision {lines : List Text} {line : Text} (member : line ∈ lines)
    (spelled : "if (" <+: line) : Kind.activity.shownBy (Kind.codeOf lines) = true := by
  have inside : ("if (" : Text) <:+: Text.lowered line :=
    (spelled.isInfix.flatMap Text.loweredChar)
  have found := Kind.occursIn_codeOf_of_mem member inside
  simp only [Kind.shownBy, Kind.tokens, List.any_cons, List.all_cons, found, List.all_nil,
    Bool.and_true, Bool.true_or, Bool.or_true]

/-- Where the reader finds a start and a stop that is spelled `stop`, or a decision with one space
after its keyword, the rule for activities holds.  So the source is no panel and no sequence
diagram, and unless it shows a kind that comes first, it is drawn as the activity that is read. -/
theorem recognizes_stop_and_decision (lines : List Text)
    (found : (ofLines lines).hasStart = true ∧ ("stop" : Text) ∈ Text.contentLines lines ∨
      ∃ line ∈ Text.contentLines lines, (decision? line).isSome = true ∧ "if (" <+: line) :
    Kind.activity.shownBy (Kind.codeOf lines) = true ∧
      Kind.classify lines ≠ .sequence ∧ Kind.classify lines ≠ .panel ∧
      ((∀ earlier : Kind, earlier.rank < Kind.activity.rank →
          earlier.shownBy (Kind.codeOf lines) = false) →
        ∀ font source, Text.sourceLines source = lines → render font source =
          ((Diagram.activity (ofLines lines)).print font).mapError .ofFault) := by
  have shown : Kind.activity.shownBy (Kind.codeOf lines) = true := by
    rcases found with ⟨start, stop⟩ | ⟨line, member, -, spelled⟩
    · exact shownBy_of_start_of_stop (mem_of_mem_contentLines (hasStart_ofLines.mp start))
        (mem_of_mem_contentLines stop)
    · exact shownBy_of_decision (mem_of_mem_contentLines member) spelled
  have listed : Kind.activity ∈ Kind.ruled := by decide
  have less := Kind.rank_classify_le_of_shownBy listed shown
  refine ⟨shown, ?_, ?_, ?_⟩
  · intro other
    rw [other] at less
    exact absurd less (by decide)
  · intro other
    rw [other] at less
    exact absurd less (by decide)
  · intro first font source same
    rw [render_eq, same, Diagram.ofLines, Kind.classify_eq_of_shownBy listed shown first]
    rfl

/-- A start and a stop among other lines, in a source that is drawn as an activity. -/
theorem recognizes_stop_of_renewed_start :
    let source : Text := ":A;
stop
' again
start"
    let lines := Text.sourceLines source
    ((ofLines lines).hasStart = true ∧ ("stop" : Text) ∈ Text.contentLines lines) ∧
      (∀ earlier : Kind, earlier.rank < Kind.activity.rank →
        earlier.shownBy (Kind.codeOf lines) = false) ∧
      render .bundled source =
        ((Diagram.activity (ofLines lines)).print .bundled).mapError .ofFault := by
  intro source lines
  have found : (ofLines lines).hasStart = true ∧ ("stop" : Text) ∈ Text.contentLines lines := by
    decide +kernel
  have first : ∀ earlier : Kind, earlier.rank < Kind.activity.rank →
      earlier.shownBy (Kind.codeOf lines) = false := by
    intro earlier before
    cases earlier <;> first | decide +kernel | exact absurd before (by decide)
  have drawn := (recognizes_stop_and_decision lines (.inl found)).2.2.2 first .bundled source rfl
  exact ⟨found, first, drawn⟩

/-- The reader finds a start and a stop that is spelled `end`, and a decision without a space after
its keyword, and the rule finds neither. -/
theorem not_recognizes_end_or_tight_decision :
    (let source : Text := "start
:A;
end"
     let lines := Text.sourceLines source
     (ofLines lines).hasStart = true ∧ (ofLines lines).hasStop = true ∧
       Kind.activity.shownBy (Kind.codeOf lines) = false ∧ Kind.classify lines = .panel) ∧
    (let source : Text := "if(x)
:A;"
     let lines := Text.sourceLines source
     (ofLines lines).decisions = ["x"] ∧
       Kind.activity.shownBy (Kind.codeOf lines) = false ∧ Kind.classify lines = .panel) := by
  decide +kernel

end Activity

end DiagramSketch
