import DiagramSketch.Proofs.Scene.Canvas

/-!
# Outlines

A shape takes up its bounding box.  Shapes that stay inside two boxes without a common place have no
common place themselves, so that it is enough to know a box around everything that belongs together.
-/

namespace DiagramSketch

/-- A place inside a box or on its border. -/
structure Point.IsIn (box : Box) (point : Point) : Prop where
  left : box.x ≤ point.x
  right : point.x ≤ box.right
  top : box.y ≤ point.y
  bottom : point.y ≤ box.bottom

theorem Point.isIn_mk {left top width height x y : Rat} (afterLeft : left ≤ x)
    (beforeRight : x ≤ left + width) (belowTop : top ≤ y) (aboveBottom : y ≤ top + height) :
    Point.IsIn ⟨left, top, width, height⟩ ⟨x, y⟩ :=
  ⟨afterLeft, beforeRight, belowTop, aboveBottom⟩

theorem Point.isIn_canvas_iff {canvas : Canvas} {point : Point} :
    point.IsIn ⟨0, 0, canvas.width, canvas.height⟩ ↔ point.IsOn canvas := by
  constructor
  · rintro ⟨left, right, top, bottom⟩
    simp only [Box.right, Box.bottom, zero_add] at right bottom
    exact ⟨left, right, top, bottom⟩
  · rintro ⟨left, right, top, bottom⟩
    constructor
    · exact left
    · simpa only [Box.right, zero_add] using right
    · exact top
    · simpa only [Box.bottom, zero_add] using bottom

theorem Box.isIn_center {box : Box} (sized : 0 ≤ box.width ∧ 0 ≤ box.height) :
    box.center.IsIn box := by
  obtain ⟨wide, high⟩ := sized
  constructor
  all_goals
    dsimp only [Box.center, Box.right, Box.bottom]
    linarith

/-- One of the boxes ends before the other one begins, from left to right or from top to bottom. -/
def Box.IsApartFrom (box other : Box) : Prop :=
  box.right < other.x ∨ other.right < box.x ∨ box.bottom < other.y ∨ other.bottom < box.y

/-- A box inside another, which it does not touch from inside. -/
structure Box.IsInside (box other : Box) : Prop where
  left : other.x < box.x
  right : box.right < other.right
  top : other.y < box.y
  bottom : box.bottom < other.bottom

theorem Box.isApartFrom_of_right_lt {box other : Box} (before : box.right < other.x) :
    box.IsApartFrom other :=
  .inl before

theorem Box.isApartFrom_of_bottom_lt {box other : Box} (above : box.bottom < other.y) :
    box.IsApartFrom other :=
  .inr (.inr (.inl above))

theorem Box.IsApartFrom.symm {box other : Box} (apart : box.IsApartFrom other) :
    other.IsApartFrom box := by
  rcases apart with before | after | above | below
  · exact .inr (.inl before)
  · exact .inl after
  · exact .inr (.inr (.inr above))
  · exact .inr (.inr (.inl below))

theorem Box.IsApartFrom.not_isIn {box other : Box} (apart : box.IsApartFrom other) {point : Point}
    (inside : point.IsIn box) : ¬ point.IsIn other := by
  intro outside
  obtain ⟨left, right, top, bottom⟩ := inside
  obtain ⟨otherLeft, otherRight, otherTop, otherBottom⟩ := outside
  rcases apart with before | after | above | below
  all_goals linarith

theorem Box.IsApartFrom.of_isInside {box inner other : Box} (apart : box.IsApartFrom other)
    (inside : inner.IsInside box) : inner.IsApartFrom other := by
  obtain ⟨left, right, top, bottom⟩ := inside
  rcases apart with before | after | above | below
  · exact .inl (right.trans before)
  · exact .inr (.inl (after.trans left))
  · exact .inr (.inr (.inl (bottom.trans above)))
  · exact .inr (.inr (.inr (below.trans top)))

namespace Shape

/-- A place in the bounding box of a shape. -/
structure Covers (shape : Shape) (point : Point) : Prop where
  left : ∃ extreme ∈ shape.extremes, extreme.x ≤ point.x
  right : ∃ extreme ∈ shape.extremes, point.x ≤ extreme.x
  top : ∃ extreme ∈ shape.extremes, extreme.y ≤ point.y
  bottom : ∃ extreme ∈ shape.extremes, point.y ≤ extreme.y

/-- A shape that does not reach out of a box. -/
def IsIn (box : Box) (shape : Shape) : Prop :=
  ∀ extreme ∈ shape.extremes, extreme.IsIn box

theorem IsIn.of_covers {box : Box} {shape : Shape} {point : Point} (inside : shape.IsIn box)
    (covers : shape.Covers point) : point.IsIn box := by
  obtain ⟨⟨first, firstFound, left⟩, ⟨last, lastFound, right⟩, ⟨upper, upperFound, top⟩,
    ⟨lower, lowerFound, bottom⟩⟩ := covers
  constructor
  · exact (inside first firstFound).left.trans left
  · exact right.trans (inside last lastFound).right
  · exact (inside upper upperFound).top.trans top
  · exact bottom.trans (inside lower lowerFound).bottom

theorem IsOn.of_covers {canvas : Canvas} {shape : Shape} {point : Point}
    (on : shape.IsOn canvas) (covers : shape.Covers point) : point.IsOn canvas := by
  have inside : shape.IsIn ⟨0, 0, canvas.width, canvas.height⟩ := fun extreme member =>
    Point.isIn_canvas_iff.mpr (on extreme member)
  exact Point.isIn_canvas_iff.mp (inside.of_covers covers)

/-- Two shapes whose bounding boxes have no common place. -/
def IsApartFrom (first second : Shape) : Prop :=
  ∀ point, first.Covers point → ¬ second.Covers point

/-- No shape of the first list meets one of the second. -/
def AreApart (firsts seconds : List Shape) : Prop :=
  ∀ first ∈ firsts, ∀ second ∈ seconds, first.IsApartFrom second

/-- No shape of the list reaches out of a box. -/
def AreIn (box : Box) (shapes : List Shape) : Prop :=
  ∀ shape ∈ shapes, shape.IsIn box

theorem areIn_nil (box : Box) : AreIn box [] :=
  List.forall_mem_nil _

theorem areIn_cons_iff {box : Box} {shape : Shape} {shapes : List Shape} :
    AreIn box (shape :: shapes) ↔ shape.IsIn box ∧ AreIn box shapes :=
  List.forall_mem_cons

theorem areIn_singleton_iff {box : Box} {shape : Shape} : AreIn box [shape] ↔ shape.IsIn box :=
  List.forall_mem_singleton

theorem areIn_map_iff {α : Type} {box : Box} {shape : α → Shape} {entries : List α} :
    AreIn box (entries.map shape) ↔ ∀ entry ∈ entries, (shape entry).IsIn box :=
  List.forall_mem_map

theorem areApart_of_areIn {firsts seconds : List Shape} {box other : Box}
    (inside : AreIn box firsts) (otherInside : AreIn other seconds)
    (apart : box.IsApartFrom other) : AreApart firsts seconds := by
  intro first firstMember second secondMember point covers otherCovers
  have found := (inside first firstMember).of_covers covers
  exact apart.not_isIn found ((otherInside second secondMember).of_covers otherCovers)

/-- Things that each have a box to themselves are apart from one another. -/
theorem pairwise_areApart {α : Type} {entries : List α} {shapes : α → List Shape}
    (footprint : α → Box) (inside : ∀ entry ∈ entries, AreIn (footprint entry) (shapes entry))
    (apart : entries.Pairwise fun first second =>
      (footprint first).IsApartFrom (footprint second)) :
    entries.Pairwise fun first second => AreApart (shapes first) (shapes second) := by
  apply apart.imp_of_mem
  intro first second firstMember secondMember separated
  exact areApart_of_areIn (inside first firstMember) (inside second secondMember) separated

section Boxes

variable {left top width height : Rat}

theorem isIn_rectangle {x y across down : Rat} (afterLeft : left ≤ x)
    (beforeRight : x + across ≤ left + width) (belowTop : top ≤ y)
    (aboveBottom : y + down ≤ top + height) (sized : 0 ≤ across ∧ 0 ≤ down) :
    (rectangle ⟨x, y, across, down⟩).IsIn ⟨left, top, width, height⟩ := by
  obtain ⟨wide, high⟩ := sized
  refine List.forall_mem_cons.mpr ⟨?_, List.forall_mem_singleton.mpr ?_⟩
  · apply Point.isIn_mk
    all_goals linarith
  · apply Point.isIn_mk
    · dsimp only [Box.right]
      linarith
    · exact beforeRight
    · dsimp only [Box.bottom]
      linarith
    · exact aboveBottom

theorem isIn_rectangle_self {box : Box} (sized : 0 ≤ box.width ∧ 0 ≤ box.height) :
    (rectangle box).IsIn box :=
  isIn_rectangle le_rfl le_rfl le_rfl le_rfl sized

theorem isIn_ellipse {x y radiusX radiusY : Rat} (afterLeft : left ≤ x - radiusX)
    (beforeRight : x + radiusX ≤ left + width) (belowTop : top ≤ y - radiusY)
    (aboveBottom : y + radiusY ≤ top + height) (sized : 0 ≤ radiusX ∧ 0 ≤ radiusY) :
    (ellipse ⟨x, y⟩ radiusX radiusY).IsIn ⟨left, top, width, height⟩ := by
  obtain ⟨wide, high⟩ := sized
  refine List.forall_mem_cons.mpr ⟨?_, List.forall_mem_singleton.mpr ?_⟩
  · apply Point.isIn_mk
    all_goals linarith
  · apply Point.isIn_mk
    all_goals linarith

theorem isIn_circle {x y radius : Rat} (afterLeft : left ≤ x - radius)
    (beforeRight : x + radius ≤ left + width) (belowTop : top ≤ y - radius)
    (aboveBottom : y + radius ≤ top + height) (sized : 0 ≤ radius) :
    (circle ⟨x, y⟩ radius).IsIn ⟨left, top, width, height⟩ :=
  isIn_ellipse afterLeft beforeRight belowTop aboveBottom ⟨sized, sized⟩

theorem isIn_line {box : Box} {first last : Point} (firstIn : first.IsIn box)
    (lastIn : last.IsIn box) : (line first last).IsIn box :=
  List.forall_mem_cons.mpr ⟨firstIn, List.forall_mem_singleton.mpr lastIn⟩

end Boxes

end Shape

/-- The outlines in a group: all shapes but the labels. -/
def Group.outlines (group : Group) : List Shape :=
  (group.figures.map Figure.shape).filter fun shape => shape.content?.isNone

/-- The outlines in an entity and in the things inside it. -/
def Entity.outlines (entity : Entity) : List Shape :=
  entity.groups.flatMap Group.outlines

theorem Entity.areIn_outlines {entity : Entity} {box : Box} (plain : entity.members = [])
    (inside : ∀ figure ∈ entity.figures, figure.shape.content? = none → figure.shape.IsIn box) :
    Shape.AreIn box entity.outlines := by
  intro shape member
  obtain ⟨group, listed, drawn⟩ := List.mem_flatMap.mp member
  rw [Entity.groups, plain] at listed
  obtain rfl := List.mem_singleton.mp listed
  obtain ⟨found, outline⟩ := List.mem_filter.mp drawn
  obtain ⟨figure, shown, rfl⟩ := List.mem_map.mp found
  exact inside figure shown (Option.isNone_iff_eq_none.mp outline)

/-- No two entities of the scene overlap, and no two things inside one entity do. -/
structure Scene.IsSeparated (scene : Scene) : Prop where
  entities : scene.entities.Pairwise fun first second =>
    Shape.AreApart first.outlines second.outlines
  members : ∀ entity ∈ scene.entities, entity.members.Pairwise fun first second =>
    Shape.AreApart first.outlines second.outlines

theorem Scene.IsSeparated.of_plain {scene : Scene}
    (entities : scene.entities.Pairwise fun first second =>
      Shape.AreApart first.outlines second.outlines)
    (plain : ∀ entity ∈ scene.entities, entity.members = []) : scene.IsSeparated := by
  refine ⟨entities, ?_⟩
  intro entity member
  rw [plain entity member]
  exact List.Pairwise.nil

/-- A scene that shows one entity for each of its entries, with a box to itself. -/
theorem Scene.IsSeparated.of_map {α : Type} {scene : Scene} {entries : List α}
    {entity : α → Entity} (shown : scene.entities = entries.map entity)
    (plain : ∀ entry, (entity entry).members = []) (footprint : α → Box)
    (inside : ∀ entry ∈ entries, Shape.AreIn (footprint entry) (entity entry).outlines)
    (apart : entries.Pairwise fun first second =>
      (footprint first).IsApartFrom (footprint second)) : scene.IsSeparated := by
  apply Scene.IsSeparated.of_plain
  · rw [shown, List.pairwise_map]
    exact Shape.pairwise_areApart footprint inside apart
  · rw [shown]
    intro other member
    obtain ⟨entry, -, rfl⟩ := List.mem_map.mp member
    exact plain entry

end DiagramSketch
