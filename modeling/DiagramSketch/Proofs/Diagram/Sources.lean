import DiagramSketch.Activity.Basic
import DiagramSketch.Proofs.MindMap.Levels

/-!
# Sources of activities and mind maps

An activity is written with a line for its start, one for each step and one for its stop, and a mind
map with a line of asterisks and a text for each node.  What is written is read again, whatever the
labels and texts have in them, as long as they can stand in their lines at all.
-/

namespace DiagramSketch

open Text (EndsSolid IsLine IsName IsUnbroken)

/-! ## Activities -/

/-- A label that can be written in the line of its step. -/
structure ActivityStep.IsWritable (step : ActivityStep) : Prop where
  trimmed : Text.trim step.label = step.label
  unbroken : IsUnbroken step.label
  /-- The parentheses around a condition end at the first one that closes. -/
  enclosed : step.isDecision = true → step.label ≠ [] ∧ ')' ∉ step.label

namespace Activity

/-- The line that tells a step. -/
def stepLine (step : ActivityStep) : Text :=
  if step.isDecision then "if (" ++ (step.label ++ ") then (yes)")
  else ':' :: (step.label ++ [';'])

/-- The lines of an activity, from its start to its stop. -/
def lines (activity : Activity) : List Text :=
  (if activity.hasStart then ["start".toList] else []) ++ activity.steps.map stepLine
    ++ if activity.hasStop then ["stop".toList] else []

/-- The source of an activity. -/
def source (activity : Activity) : Text :=
  List.intercalate ['\n'] activity.lines

/-- An activity that can be written as a source. -/
def IsWritable (activity : Activity) : Prop :=
  ∀ step ∈ activity.steps, step.IsWritable

/-- What a line of a source says that is written for an activity. -/
def statements (activity : Activity) : List Line :=
  (if activity.hasStart then [.start] else []) ++ activity.steps.map .step
    ++ if activity.hasStop then [.stop] else []

variable {step : ActivityStep} {activity : Activity}

theorem decision?_written (filled : step.label ≠ []) (plain : ')' ∉ step.label)
    (trimmed : Text.trim step.label = step.label) :
    decision? ("if (" ++ (step.label ++ ") then (yes)")) = some step.label := by
  have keyword : Text.literal? "if" ("if (" ++ (step.label ++ ") then (yes)")) =
      some (' ' :: '(' :: (step.label ++ ") then (yes)")) := rfl
  have space : Text.dropBlanks (' ' :: '(' :: (step.label ++ ") then (yes)")) =
      '(' :: (step.label ++ ") then (yes)") :=
    Text.dropBlanks_space (Text.endsGap_sign (by decide) _)
  have condition : Text.enclosed? '(' ')' ('(' :: (step.label ++ ") then (yes)")) =
      some (step.label, " then (yes)".toList) :=
    Text.enclosed?_eq_some_iff.mpr ⟨filled, plain, rfl⟩
  rw [decision?, keyword, Option.bind_eq_bind, Option.bind_some, space, condition,
    Option.bind_eq_bind, Option.bind_some]
  exact congrArg some trimmed

theorem action?_written {label : Text} (trimmed : Text.trim label = label)
    (unbroken : IsUnbroken label) : action? (':' :: (label ++ [';'])) = some label := by
  have colon : Text.literal? ":" (':' :: (label ++ [';'])) = some (label ++ [';']) := rfl
  have plain : IsUnbroken (label ++ [';']) :=
    Text.isUnbroken_append.mpr ⟨unbroken, Text.isUnbroken_of_all (by decide)⟩
  rw [action?, colon, Option.bind_eq_bind, Option.bind_some, Text.toEnd?_eq_self plain,
    Option.bind_some, List.reverse_append]
  change some (Text.trim label.reverse.reverse) = some label
  rw [List.reverse_reverse, trimmed]

theorem read?_stepLine (writable : step.IsWritable) :
    Line.read? (stepLine step) = some (.step step) := by
  obtain ⟨label, isDecision⟩ := step
  cases isDecision with
  | true =>
      obtain ⟨filled, plain⟩ := writable.enclosed rfl
      have decision := decision?_written filled plain writable.trimmed
      change Line.read? ("if (" ++ (label ++ ") then (yes)")) = _
      rw [Line.read?, decision, if_neg (by simp), if_neg (by simp)]
  | false =>
      have action := action?_written writable.trimmed writable.unbroken
      have condition : decision? (':' :: (label ++ [';'])) = none := rfl
      change Line.read? (':' :: (label ++ [';'])) = _
      rw [Line.read?, condition, action, if_neg (by simp), if_neg (by simp)]
      rfl

theorem isLine_stepLine (writable : step.IsWritable) : IsLine (stepLine step) := by
  unfold stepLine
  split
  · have opening : IsUnbroken "if (" := Text.isUnbroken_of_all (by decide)
    have closing : IsUnbroken ") then (yes)" := Text.isUnbroken_of_all (by decide)
    refine ⟨⟨'i', rfl, by decide⟩, ?_, ?_⟩
    · have ends : EndsSolid ") then (yes)" := ⟨')', rfl, by decide⟩
      exact (ends.append step.label).append _
    · exact Text.isUnbroken_append.mpr
        ⟨opening, Text.isUnbroken_append.mpr ⟨writable.unbroken, closing⟩⟩
  · have closing : IsUnbroken [';'] := Text.isUnbroken_of_all (by decide)
    refine ⟨⟨':', rfl, by decide⟩, ?_, ?_⟩
    · exact Text.endsSolid_append_singleton (':' :: step.label) (by decide)
    · exact Text.isUnbroken_cons.mpr
        ⟨by decide, Text.isUnbroken_append.mpr ⟨writable.unbroken, closing⟩⟩

/-- The lines of an activity are left as they are when its source is cut, and all of them count. -/
theorem contentLines_source (writable : activity.IsWritable) :
    Text.contentLines (Text.sourceLines activity.source) = activity.lines := by
  have word : IsName "start" := Text.isName_of_isLower (by decide) (by decide)
  have otherWord : IsName "stop" := Text.isName_of_isLower (by decide) (by decide)
  have each : ∀ line ∈ activity.lines, IsLine line ∧ line.head? ≠ some '@' := by
    unfold lines
    refine List.forall_mem_append.mpr ⟨List.forall_mem_append.mpr ⟨?_, ?_⟩, ?_⟩
    · split
      · exact List.forall_mem_singleton.mpr ⟨word.isLine, by decide⟩
      · exact List.forall_mem_nil _
    · refine List.forall_mem_map.mpr fun step member => ?_
      apply And.intro (isLine_stepLine (writable step member))
      unfold stepLine
      split
      · simp
      · simp
    · split
      · exact List.forall_mem_singleton.mpr ⟨otherWord.isLine, by decide⟩
      · exact List.forall_mem_nil _
  rw [source, Text.sourceLines_intercalate fun line member => (each line member).1]
  apply Text.contentLines_eq_self
  exact fun line member => ⟨(each line member).1.starts.ne_nil, (each line member).2⟩

theorem filterMap_read?_lines (writable : activity.IsWritable) :
    activity.lines.filterMap Line.read? = activity.statements := by
  have steps : (activity.steps.map stepLine).filterMap Line.read? = activity.steps.map .step :=
    filterMap_map_eq_map fun step member => read?_stepLine (writable step member)
  rw [lines, statements, List.filterMap_append, List.filterMap_append, steps]
  congr 2
  · split <;> rfl
  · split <;> rfl

theorem foldl_steps (activity : Activity) (steps : List ActivityStep) :
    (steps.map Line.step).foldl follow activity =
      { activity with steps := activity.steps ++ steps } := by
  induction steps generalizing activity with
  | nil => simp
  | cons step steps induction => simp [follow, induction]

/-- An activity follows from what its source says. -/
theorem foldl_statements (activity : Activity) :
    activity.statements.foldl follow empty = activity := by
  obtain ⟨hasStart, hasStop, steps⟩ := activity
  cases hasStart <;> cases hasStop <;> simp [statements, foldl_steps, follow, empty]

theorem ofLines_source (writable : activity.IsWritable) :
    ofLines (Text.sourceLines activity.source) = activity := by
  rw [ofLines, contentLines_source writable, filterMap_read?_lines writable, foldl_statements]

end Activity

/-! ## Mind maps -/

/-- A node that can be written in a line. -/
structure MindMapNode.IsWritable (node : MindMapNode) : Prop where
  level : 1 ≤ node.level
  filled : node.text ≠ []
  trimmed : Text.trim node.text = node.text
  unbroken : IsUnbroken node.text

namespace MindMap

/-- The line that tells a node: as many asterisks as its level, a space and its text. -/
def nodeLine (node : MindMapNode) : Text :=
  List.replicate node.level.toNat '*' ++ ' ' :: node.text

/-- The source of a mind map. -/
def source (map : MindMap) : Text :=
  List.intercalate ['\n'] (map.nodes.map nodeLine)

/-- A mind map that can be written as a source. -/
def IsWritable (map : MindMap) : Prop :=
  ∀ node ∈ map.nodes, node.IsWritable

variable {node : MindMapNode} {map : MindMap}

/-- The space ends the asterisks, even where the text begins with more of them. -/
theorem bullet_nodeLine (node : MindMapNode) :
    bullet (nodeLine node) = List.replicate node.level.toNat '*' ∧
      remainder (nodeLine node) = ' ' :: node.text := by
  apply splitWhile_append
  · intro sign member
    rw [List.eq_of_mem_replicate member]
    rfl
  · simp

theorem isLine_nodeLine (writable : node.IsWritable) : IsLine (nodeLine node) := by
  have asterisk : Text.isLineBreak '*' = false := by decide
  have several : node.level.toNat ≠ 0 := by
    have level := writable.level
    omega
  obtain ⟨more, count⟩ := Nat.exists_eq_succ_of_ne_zero several
  have solid := Text.endsSolid_of_trim_eq_self writable.trimmed writable.filled
  refine ⟨⟨'*', ?_, by decide⟩, (solid.append [' ']).append _, ?_⟩
  · rw [nodeLine, count]
    rfl
  · apply Text.isUnbroken_append.mpr
    refine ⟨fun sign member => ?_, Text.isUnbroken_cons.mpr ⟨by decide, writable.unbroken⟩⟩
    rwa [List.eq_of_mem_replicate member]

theorem node?_nodeLine (writable : node.IsWritable) : node? (nodeLine node) = some node := by
  obtain ⟨asterisks, rest⟩ := bullet_nodeLine node
  have level := writable.level
  have starts : bullet (nodeLine node) ≠ [] := by
    rw [asterisks]
    simp
    omega
  have filled : remainder (nodeLine node) ≠ [] := by
    rw [rest]
    exact List.cons_ne_nil _ _
  have text : Text.trim (' ' :: node.text) = node.text := by
    have space := Text.dropBlanks_space (Text.trim_eq_self_iff.mp writable.trimmed).1
    have ends := (Text.trim_eq_self_iff.mp writable.trimmed).2
    rw [Text.trim, space, Text.dropBlanksRight_eq_self_iff.mpr ends]
  rw [node?_of_remainder (isLine_nodeLine writable) starts filled, asterisks, rest, text,
    List.length_replicate, Int.toNat_of_nonneg (by omega)]

theorem ofLines_source (writable : map.IsWritable) :
    ofLines (Text.sourceLines map.source) = map := by
  have lines : Text.sourceLines map.source = map.nodes.map nodeLine :=
    Text.sourceLines_intercalate
      (List.forall_mem_map.mpr fun node member => isLine_nodeLine (writable node member))
  have nodes : (map.nodes.map nodeLine).filterMap node? = map.nodes.map id :=
    filterMap_map_eq_map fun node member => node?_nodeLine (writable node member)
  have same : (ofLines (Text.sourceLines map.source)).nodes = map.nodes := by
    rw [nodes_ofLines, lines, nodes, List.map_id]
  cases map
  simp_all [ofLines]

end MindMap

/-! ## Both -/

namespace Diagram

/-- Activities and mind maps are read back from their sources. -/
theorem reads_activities_and_mind_maps :
    (∀ activity : Activity, activity.IsWritable →
      Activity.ofLines (Text.sourceLines activity.source) = activity) ∧
    ∀ map : MindMap, map.IsWritable → MindMap.ofLines (Text.sourceLines map.source) = map :=
  ⟨fun _ => Activity.ofLines_source, fun _ => MindMap.ofLines_source⟩

/-- Labels with the signs and words that lines are told by. -/
def deceptiveActivity : Activity :=
  { hasStart := true
    hasStop := true
    steps := [⟨":a;;b:;", false⟩, ⟨"x (y: if", true⟩, ⟨[], false⟩, ⟨"stop", false⟩] }

/-- Texts that begin with asterisks. -/
def deceptiveMap : MindMap :=
  { nodes := [⟨1, "** a"⟩, ⟨3, "*"⟩] }

theorem isWritable_deceptiveActivity : deceptiveActivity.IsWritable := by
  have trimmed : ∀ step ∈ deceptiveActivity.steps, Text.trim step.label = step.label := by decide
  have plain : ∀ step ∈ deceptiveActivity.steps,
      step.label.all (fun character => !Text.isLineBreak character) = true := by decide
  have enclosed : ∀ step ∈ deceptiveActivity.steps, step.isDecision = true →
      step.label ≠ [] ∧ ')' ∉ step.label := by decide
  exact fun step member =>
    ⟨trimmed step member, Text.isUnbroken_of_all (plain step member), enclosed step member⟩

theorem isWritable_deceptiveMap : deceptiveMap.IsWritable := by
  have shown : ∀ node ∈ deceptiveMap.nodes,
      1 ≤ node.level ∧ node.text ≠ [] ∧ Text.trim node.text = node.text := by decide
  have plain : ∀ node ∈ deceptiveMap.nodes,
      node.text.all (fun character => !Text.isLineBreak character) = true := by decide
  intro node member
  obtain ⟨level, filled, trimmed⟩ := shown node member
  exact ⟨level, filled, trimmed, Text.isUnbroken_of_all (plain node member)⟩

theorem reads_deceptive_sources :
    (deceptiveActivity.IsWritable ∧
      deceptiveActivity.source =
        "start\n::a;;b:;;\nif (x (y: if) then (yes)\n:;\n:stop;\nstop".toList ∧
      Activity.ofLines (Text.sourceLines deceptiveActivity.source) = deceptiveActivity) ∧
    (deceptiveMap.IsWritable ∧
      deceptiveMap.source = "* ** a\n*** *".toList ∧
      MindMap.ofLines (Text.sourceLines deceptiveMap.source) = deceptiveMap) :=
  ⟨⟨isWritable_deceptiveActivity, by decide,
      reads_activities_and_mind_maps.1 deceptiveActivity isWritable_deceptiveActivity⟩,
    isWritable_deceptiveMap, by decide,
      reads_activities_and_mind_maps.2 deceptiveMap isWritable_deceptiveMap⟩

end Diagram

end DiagramSketch
