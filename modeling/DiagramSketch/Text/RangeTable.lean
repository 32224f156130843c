/-!
# Tables of code point ranges

A character class that is data of a standard is a list of closed code point ranges,
ascending and apart. The ranges are kept in a balanced search tree, so that a look-up
takes as many steps as the tree is deep.
-/

namespace DiagramSketch

/-- A search tree of closed ranges of code points. -/
inductive RangeTable where
  | empty
  | node (below : RangeTable) (first last : Nat) (above : RangeTable)

namespace RangeTable

/-- The range that holds the code point, if there is one. -/
def find? : RangeTable → Nat → Option (Nat × Nat)
  | empty, _ => none
  | node below first last above, code =>
      if code < first then below.find? code
      else if code ≤ last then some (first, last)
      else above.find? code

/-- Whether the code point lies in one of the ranges. -/
def contains (table : RangeTable) (code : Nat) : Bool :=
  (table.find? code).isSome

/-- The ranges in ascending order. -/
def toList : RangeTable → List (Nat × Nat)
  | empty => []
  | node below first last above => below.toList ++ (first, last) :: above.toList

/-- Builds a tree of at most the given depth from the front of an ascending list, and
returns the ranges that are left. -/
def build : Nat → List (Nat × Nat) → RangeTable × List (Nat × Nat)
  | 0, ranges => (empty, ranges)
  | depth + 1, ranges =>
      match build depth ranges with
      | (below, []) => (below, [])
      | (below, (first, last) :: rest) =>
          let (above, left) := build depth rest
          (node below first last above, left)

/-- The tree of an ascending list of ranges. -/
def ofList (ranges : List (Nat × Nat)) : RangeTable :=
  (build (ranges.length.log2 + 1) ranges).1

/-- Nothing is lost: the tree and the ranges left over hold the list, in order. -/
theorem toList_build (depth : Nat) (ranges : List (Nat × Nat)) :
    (build depth ranges).1.toList ++ (build depth ranges).2 = ranges := by
  induction depth generalizing ranges with
  | zero => rfl
  | succ depth induction =>
      have before := induction ranges
      simp only [build]
      split
      · next below equality => simpa [equality] using before
      · next below first last rest equality =>
          have after := induction rest
          simp only [equality] at before
          simp only [toList, List.append_assoc, List.cons_append, after, before]

end RangeTable

end DiagramSketch
