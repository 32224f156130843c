import DiagramSketch.Keyed

/-!
# Geometry

Points and boxes on a canvas, in exact arithmetic: `x` grows to the right and `y` downward.
-/

namespace DiagramSketch

/-- A place on the canvas. -/
structure Point where
  x : Rat
  y : Rat
deriving DecidableEq, Repr

/-- A rectangle with its upper left corner at `x` and `y`. -/
structure Box where
  x : Rat
  y : Rat
  width : Rat
  height : Rat
deriving DecidableEq, Repr

namespace Box

/-- The point in the middle. -/
def center (box : Box) : Point :=
  ⟨box.x + box.width / 2, box.y + box.height / 2⟩

/-- The right edge. -/
def right (box : Box) : Rat :=
  box.x + box.width

/-- The lower edge. -/
def bottom (box : Box) : Rat :=
  box.y + box.height

end Box

/-- What a drawing is on. Its upper left corner is the origin. -/
structure Canvas where
  width : Rat
  height : Rat
deriving DecidableEq, Repr

/-- The larger of two values. -/
def larger (left right : Rat) : Rat :=
  if left ≤ right then right else left

theorem le_larger_left (left right : Rat) : left ≤ larger left right := by
  unfold larger
  split
  · assumption
  · exact Rat.le_refl

theorem le_larger_right (left right : Rat) : right ≤ larger left right := by
  unfold larger
  split
  · exact Rat.le_refl
  · exact Rat.le_of_lt (Rat.not_le.mp (by assumption))

/-- The largest of the values and a first one. -/
def largest (first : Rat) (values : List Rat) : Rat :=
  values.foldl larger first

theorem le_largest_self (first : Rat) (values : List Rat) : first ≤ largest first values := by
  induction values generalizing first with
  | nil => exact Rat.le_refl
  | cons value values induction =>
      exact Rat.le_trans (le_larger_left first value) (induction (larger first value))

theorem le_largest {first value : Rat} {values : List Rat} (member : value ∈ values) :
    value ≤ largest first values := by
  induction values generalizing first with
  | nil => cases member
  | cons head values induction =>
      rcases List.mem_cons.mp member with same | later
      · subst same
        exact Rat.le_trans (le_larger_right first value) (le_largest_self _ values)
      · exact induction later

end DiagramSketch
