import DiagramSketch.MindMap.Basic
import DiagramSketch.Proofs.Text.Sources

/-!
# Levels of nodes

A node is on the level that the asterisks at the start of its line tell, and its text is what stands
behind them.  Where nothing does, the last asterisk is taken for the text, so that the level is one
less.
-/

namespace DiagramSketch.MindMap

open Text (IsLine IsUnbroken)

/-- The asterisks at the start of a line. -/
def bullet (line : Text) : Text :=
  line.takeWhile (· == '*')

/-- What stands behind the asterisks. -/
def remainder (line : Text) : Text :=
  line.dropWhile (· == '*')

/-- The node has the level and the text that the line tells. -/
structure Tells (line : Text) (node : MindMapNode) : Prop where
  level : node.level = (bullet line).length
  text : node.text = Text.trim (remainder line)

/-- What becomes of a line: a node as the line tells if something stands behind the asterisks, and
otherwise one that is a level higher and has an asterisk as text. -/
structure Becomes (line : Text) (node : MindMapNode) : Prop where
  tells : Tells line node ↔ remainder line ≠ []
  bare : remainder line = [] → node.level + 1 = (bullet line).length ∧ node.text = "*"

/-- Whether the line begins with an asterisk and has anything behind it. -/
def isBulleted (line : Text) : Bool :=
  line.head? == some '*' && line != ['*']

variable {line : Text}

theorem bullet_append_remainder (line : Text) : bullet line ++ remainder line = line :=
  List.takeWhile_append_dropWhile

theorem bullet_eq_nil_iff : bullet line = [] ↔ line.head? ≠ some '*' := by
  cases line with
  | nil => exact iff_of_true rfl nofun
  | cons first rest =>
      by_cases starts : first = '*' <;> simp [bullet, starts]

/-- A line in which nothing stands behind the asterisks. -/
theorem bullet_eq_self (bare : remainder line = []) : bullet line = line := by
  have whole := bullet_append_remainder line
  rwa [bare, List.append_nil] at whole

theorem node?_eq_none (free : bullet line = []) : node? line = none := by
  have count : (line.takeWhile (· == '*')).length = 0 := List.length_eq_zero_iff.mpr free
  rw [node?]
  exact if_pos count

theorem node?_of_remainder (isLine : IsLine line) (starts : bullet line ≠ [])
    (filled : remainder line ≠ []) :
    node? line = some ⟨(bullet line).length, Text.trim (remainder line)⟩ := by
  have within : remainder line <:+ line := List.dropWhile_suffix _
  have solid := isLine.ends.of_suffix within filled
  have unbroken : IsUnbroken (Text.dropBlanks (remainder line)) := fun character member =>
    isLine.unbroken character (((Text.isSuffix_dropBlanks _).trans within).subset member)
  have left : Text.dropBlanks (remainder line) ≠ [] := fun none =>
    solid.trim_ne_nil (by rw [Text.trim, none]; rfl)
  have again : Text.dropBlanks (Text.dropBlanks (remainder line)) =
      Text.dropBlanks (remainder line) :=
    Text.dropBlanks_eq_self_iff.mpr (head?_dropWhile Text.isBlank _)
  have trimmed : Text.trim (Text.upToLineFeed (Text.dropBlanks (remainder line))) =
      Text.trim (remainder line) := by
    rw [Text.upToLineFeed_eq_self unbroken, Text.trim, again, Text.trim]
  have count : (line.takeWhile (· == '*')).length ≠ 0 := mt List.length_eq_zero_iff.mp starts
  obtain ⟨first, more, shape⟩ := List.exists_cons_of_ne_nil left
  have rest : Text.dropBlanks (line.dropWhile (· == '*')) = first :: more := shape
  rw [← trimmed, shape]
  simp only [node?, if_neg count, rest]
  rfl

theorem node?_of_bare (bare : remainder line = []) : node? line =
    if 2 ≤ (bullet line).length then some ⟨(bullet line).length - 1, "*"⟩ else none := by
  have rest : line.dropWhile (· == '*') = [] := bare
  have nothing : Text.dropBlanks [] = [] := rfl
  simp only [node?, rest, nothing, List.any_nil, Bool.false_eq_true, if_false]
  split
  · next none =>
      have few : ¬ 2 ≤ (bullet line).length := by
        change ¬ 2 ≤ (line.takeWhile (· == '*')).length
        omega
      rw [if_neg few]
  · rfl

theorem isSome_node?_iff (isLine : IsLine line) :
    isBulleted line = true ↔ (node? line).isSome = true := by
  rw [isBulleted, Bool.and_eq_true, beq_iff_eq, bne_iff_ne]
  by_cases starts : bullet line = []
  · have other := bullet_eq_nil_iff.mp starts
    exact iff_of_false (fun bulleted => other bulleted.1) (by simp [node?_eq_none starts])
  · have first : line.head? = some '*' := not_not.mp (mt bullet_eq_nil_iff.mpr starts)
    rw [and_iff_right first]
    by_cases bare : remainder line = []
    · obtain ⟨more, rfl⟩ := List.head?_eq_some_iff.mp first
      rw [node?_of_bare bare, bullet_eq_self bare]
      cases more <;> simp
    · rw [node?_of_remainder isLine starts bare]
      exact iff_of_true (fun same => bare (by rw [same]; rfl)) rfl

theorem becomes_of_node? {node : MindMapNode} (isLine : IsLine line)
    (read : node? line = some node) : Becomes line node := by
  by_cases bare : remainder line = []
  · rw [node?_of_bare bare] at read
    split at read
    · next several =>
        cases read
        have higher : ((bullet line).length - 1 : Int) + 1 = (bullet line).length := by omega
        refine ⟨iff_of_false (fun tells => ?_) (not_not.mpr bare), fun _ => ⟨higher, rfl⟩⟩
        have level := tells.level
        dsimp only at level
        omega
    · cases read
  · have starts : bullet line ≠ [] := by
      intro none
      rw [node?_eq_none none] at read
      cases read
    rw [node?_of_remainder isLine starts bare] at read
    cases read
    exact ⟨iff_of_true ⟨rfl, rfl⟩ bare, fun none => absurd none bare⟩

theorem nodes_ofLines (lines : List Text) : (ofLines lines).nodes = lines.filterMap node? := by
  rw [ofLines, Text.contentLines, List.filterMap_filter]
  refine List.filterMap_congr fun line _ => ?_
  split
  · rfl
  · next other =>
      -- A line that is left out begins with no asterisk.
      refine (node?_eq_none (bullet_eq_nil_iff.mpr fun starts => other ?_)).symm
      obtain ⟨rest, rfl⟩ := List.head?_eq_some_iff.mp starts
      rfl

/-- The nodes of a source stand beside its lines that begin with asterisks, except for lines that
are a single one.  A node has the level and the text that its line tells exactly if there is anything
behind the asterisks; otherwise it is a level higher, and its text is an asterisk. -/
theorem nodes_beside_asterisk_lines (source : Text) :
    List.Forall₂ Becomes ((Text.sourceLines source).filter isBulleted)
      (ofLines (Text.sourceLines source)).nodes := by
  rw [nodes_ofLines]
  exact forall₂_filter_filterMap_of_mem
    (fun line member => isSome_node?_iff (Text.isLine_of_mem_sourceLines member))
    fun line member node => becomes_of_node? (Text.isLine_of_mem_sourceLines member)

/-- The node of a line of two asterisks is on the first level and has one of them as text. -/
theorem not_tells_two_asterisks :
    Text.sourceLines "**" = ["**".toList] ∧ (ofLines (Text.sourceLines "**")).nodes = [⟨1, "*"⟩] ∧
      ¬ Tells "**" ⟨1, "*"⟩ :=
  ⟨by decide +kernel, by decide +kernel, fun tells => absurd tells.level (by decide +kernel)⟩

end DiagramSketch.MindMap
