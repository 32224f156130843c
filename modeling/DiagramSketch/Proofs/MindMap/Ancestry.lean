import DiagramSketch.MindMap.Basic
import Mathlib

/-!
# Parents of nodes

A parent is looked for backwards from its node.  One pass over the nodes finds the same parents, if
it keeps the last node of each level.  Following parents leads up one level at a time, and ends at a
node on the first level or above it, or at one with no earlier node on the level above.
-/

namespace DiagramSketch.MindMap

/-- The level of the node with the number. -/
def levelAt? (map : MindMap) (index : Nat) : Option Int :=
  (map.nodes[index]?).map MindMapNode.level

/-- The node with a number is the last one on the level before another. -/
structure IsLastOn (map : MindMap) (level : Int) (before found : Nat) : Prop where
  earlier : found < before
  on : map.levelAt? found = some level
  free : ∀ between, found < between → between < before → map.levelAt? between ≠ some level

/-- The number of the node that is reached by following parents. -/
def ancestor? (map : MindMap) (index : Nat) : Nat → Option Nat
  | 0 => some index
  | steps + 1 => (map.parent? index).bind fun parent => map.ancestor? parent steps

/-- What one pass over the nodes keeps: the last node on each level, and the parents so far. -/
structure Pass where
  last : Int → Option Nat
  parents : List (Option Nat)

namespace Pass

/-- Before the first node. -/
def start : Pass :=
  { last := fun _ => none, parents := [] }

/-- Takes the next node: it is below the last node one level up, and the last one on its own. -/
def follow (pass : Pass) (node : MindMapNode) : Pass :=
  { last := Function.update pass.last node.level (some pass.parents.length)
    parents := pass.parents ++ [if node.level ≤ 1 then none else pass.last (node.level - 1)] }

/-- What the pass keeps is that of all nodes of the map. -/
structure IsAfter (pass : Pass) (map : MindMap) : Prop where
  last : ∀ level, pass.last level = map.lastAt? level map.nodes.length
  parents : pass.parents = map.parents

end Pass

variable {map : MindMap} {nodes : List MindMapNode} {node : MindMapNode} {level : Int}
  {index before found parent : Nat}

/-! ## The last node on a level -/

theorem levelAt?_eq (place : map.nodes[index]? = some node) :
    map.levelAt? index = some node.level := by
  rw [levelAt?, place]
  rfl

theorem lastAt?_succ (level : Int) (before : Nat) : map.lastAt? level (before + 1) =
    if map.levelAt? before = some level then some before else map.lastAt? level before := by
  rw [lastAt?, lastAt?, levelAt?, List.take_add_one]
  cases place : map.nodes[before]? with
  | none => simp
  | some node =>
      have inside : before < map.nodes.length := (List.getElem?_eq_some_iff.mp place).1
      simp only [Option.toList_some, List.zipIdx_append, List.zipIdx_singleton,
        List.reverse_append, List.reverse_singleton, List.singleton_append, List.find?_cons,
        List.length_take_of_le inside.le, Nat.zero_add, Option.map_some, Option.some.injEq]
      by_cases here : node.level = level
      · simp [here]
      · simp only [beq_eq_false_iff_ne.mpr here, if_neg here]

theorem isLastOn_succ_of_on (here : map.levelAt? before = some level) :
    map.IsLastOn level (before + 1) found ↔ before = found := by
  constructor
  · rintro ⟨earlier, -, free⟩
    by_contra other
    exact free before (by omega) (Nat.lt_succ_self _) here
  · rintro rfl
    exact ⟨Nat.lt_succ_self _, here, fun between after inside => by omega⟩

theorem isLastOn_succ_of_not_on (other : map.levelAt? before ≠ some level) :
    map.IsLastOn level (before + 1) found ↔ map.IsLastOn level before found := by
  constructor
  · rintro ⟨earlier, on, free⟩
    have sooner : found ≠ before := fun same => other (same ▸ on)
    exact ⟨by omega, on, fun between after inside => free between after (by omega)⟩
  · rintro ⟨earlier, on, free⟩
    refine ⟨by omega, on, fun between after inside => ?_⟩
    rcases Nat.lt_succ_iff_lt_or_eq.mp inside with sooner | rfl
    · exact free between after sooner
    · exact other

theorem lastAt?_eq_some_iff :
    map.lastAt? level before = some found ↔ map.IsLastOn level before found := by
  induction before with
  | zero => exact iff_of_false nofun fun isLast => absurd isLast.earlier (Nat.not_lt_zero _)
  | succ before induction =>
      rw [lastAt?_succ]
      split
      · next here => rw [isLastOn_succ_of_on here, Option.some.injEq]
      · next other => rw [isLastOn_succ_of_not_on other, induction]

theorem lastAt?_eq_none_iff : map.lastAt? level before = none ↔
    ∀ earlier < before, map.levelAt? earlier ≠ some level := by
  induction before with
  | zero => exact iff_of_true rfl fun earlier less => absurd less (Nat.not_lt_zero _)
  | succ before induction =>
      rw [lastAt?_succ]
      split
      · next here => exact iff_of_false nofun fun free => free before (Nat.lt_succ_self _) here
      · next other =>
          rw [induction, Nat.forall_lt_succ_right]
          exact (and_iff_left other).symm

/-! ## Later nodes -/

theorem lastAt?_append (more : List MindMapNode) (inside : before ≤ nodes.length) :
    (MindMap.mk (nodes ++ more)).lastAt? level before =
      (MindMap.mk nodes).lastAt? level before := by
  rw [lastAt?, lastAt?, List.take_append_of_le_length inside]

theorem parent?_append (more : List MindMapNode) (inside : index < nodes.length) :
    (MindMap.mk (nodes ++ more)).parent? index = (MindMap.mk nodes).parent? index := by
  simp only [parent?, List.getElem?_append_left inside, lastAt?_append more inside.le]

theorem parents_append_singleton (nodes : List MindMapNode) (node : MindMapNode) :
    (MindMap.mk (nodes ++ [node])).parents = (MindMap.mk nodes).parents ++
      [if node.level ≤ 1 then none
        else (MindMap.mk nodes).lastAt? (node.level - 1) nodes.length] := by
  have own : (MindMap.mk (nodes ++ [node])).parent? nodes.length =
      if node.level ≤ 1 then none
      else (MindMap.mk nodes).lastAt? (node.level - 1) nodes.length := by
    simp only [parent?, List.getElem?_concat_length, lastAt?_append [node] le_rfl,
      Option.bind_eq_bind, Option.bind_some]
  rw [parents, parents, List.length_append, List.length_singleton, List.range_succ,
    List.map_append, List.map_singleton, own]
  refine congrArg (· ++ _) (List.map_congr_left fun index member => ?_)
  exact parent?_append [node] (List.mem_range.mp member)

/-! ## One pass -/

namespace Pass

theorem isAfter_start : start.IsAfter ⟨[]⟩ :=
  ⟨fun _ => rfl, rfl⟩

theorem IsAfter.follow {pass : Pass} (after : pass.IsAfter ⟨nodes⟩) (node : MindMapNode) :
    (pass.follow node).IsAfter ⟨nodes ++ [node]⟩ := by
  have count : pass.parents.length = nodes.length := by
    rw [after.parents, MindMap.parents, List.length_map, List.length_range]
  constructor
  · intro level
    change Function.update pass.last node.level (some pass.parents.length) level =
      (MindMap.mk (nodes ++ [node])).lastAt? level (nodes ++ [node]).length
    rw [List.length_append, List.length_singleton, lastAt?_succ, lastAt?_append [node] le_rfl,
      levelAt?_eq List.getElem?_concat_length, Function.update_apply, count, after.last]
    simp only [Option.some.injEq, eq_comm]
  · rw [parents_append_singleton, ← after.parents, ← after.last]
    rfl

theorem isAfter_foldl (nodes : List MindMapNode) : (nodes.foldl follow start).IsAfter ⟨nodes⟩ := by
  induction nodes using List.reverseRecOn with
  | nil => exact isAfter_start
  | append_singleton nodes node induction =>
      rw [List.foldl_append]
      exact induction.follow node

end Pass

/-! ## Parents -/

theorem parent?_eq_some_iff (place : map.nodes[index]? = some node) :
    map.parent? index = some parent ↔
      1 < node.level ∧ map.IsLastOn (node.level - 1) index parent := by
  simp only [parent?, place, Option.bind_eq_bind, Option.bind_some]
  split
  · next high => exact iff_of_false nofun fun isParent => absurd isParent.1 (not_lt.mpr high)
  · next low => rw [lastAt?_eq_some_iff, and_iff_right (not_le.mp low)]

theorem parent?_eq_none_iff (place : map.nodes[index]? = some node) :
    map.parent? index = none ↔
      node.level ≤ 1 ∨ ∀ earlier < index, map.levelAt? earlier ≠ some (node.level - 1) := by
  simp only [parent?, place, Option.bind_eq_bind, Option.bind_some]
  split
  · next high => exact iff_of_true rfl (.inl high)
  · next low => rw [lastAt?_eq_none_iff, or_iff_right low]

/-- A parent is an earlier node one level up. -/
theorem parent?_spec (place : map.nodes[index]? = some node)
    (isParent : map.parent? index = some parent) :
    parent < index ∧ ∃ above, map.nodes[parent]? = some above ∧ above.level + 1 = node.level := by
  obtain ⟨-, isLast⟩ := (parent?_eq_some_iff place).mp isParent
  obtain ⟨above, found, level⟩ := Option.map_eq_some_iff.mp isLast.on
  exact ⟨isLast.earlier, above, found, by omega⟩

/-- Following parents from a node ends, and leads up one level with each step. -/
theorem exists_ancestor (place : map.nodes[index]? = some node) :
    ∃ steps last top, map.ancestor? index steps = some last ∧ map.nodes[last]? = some top ∧
      top.level + steps = node.level ∧ (steps : Int) ≤ max 0 (node.level - 1) ∧
      map.parent? last = none := by
  induction index using Nat.strongRecOn generalizing node with
  | ind index induction =>
      cases isParent : map.parent? index with
      | none => exact ⟨0, index, node, rfl, place, by simp, by simp, isParent⟩
      | some parent =>
          have low := ((parent?_eq_some_iff place).mp isParent).1
          obtain ⟨earlier, above, found, level⟩ := parent?_spec place isParent
          obtain ⟨steps, last, top, reached, topPlace, levels, few, ends⟩ :=
            induction parent earlier found
          refine ⟨steps + 1, last, top, ?_, topPlace, by omega, by omega, ends⟩
          rw [ancestor?, isParent]
          exact reached

end DiagramSketch.MindMap
