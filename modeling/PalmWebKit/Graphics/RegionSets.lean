import PalmWebKit.Graphics.RegionCompare

/-!
# Regions as sets of points

A region with points keeps the only canonical shape of them and their bounding box.
An empty region can keep the rectangle it was built from.  Every operation gives a
region that stands for the combined sets, where no spans without points get into a
region with points.
-/

namespace PalmWebKit
namespace Graphics

open List Shape

/-! ## Bounding rectangles -/

namespace IsBoundingBox

theorem contains_of_subset {rect other : IntRect} {points more : Set IntPoint}
    (box : IsBoundingBox rect points) (otherBox : IsBoundingBox other more)
    (subset : more ⊆ points) : rect.contains other = true := by
  obtain ⟨left, isLeft, atLeft⟩ := otherBox.left
  obtain ⟨right, isRight, atRight⟩ := otherBox.right
  obtain ⟨top, isTop, atTop⟩ := otherBox.top
  obtain ⟨bottom, isBottom, atBottom⟩ := otherBox.bottom
  have aroundLeft := box.around left (subset isLeft)
  have aroundRight := box.around right (subset isRight)
  have aroundTop := box.around top (subset isTop)
  have aroundBottom := box.around bottom (subset isBottom)
  simp only [IntRect.contains, Bool.and_eq_true, decide_eq_true_eq]
  omega

theorem intersects_of_mem {rect other : IntRect} {points more : Set IntPoint}
    (box : IsBoundingBox rect points) (otherBox : IsBoundingBox other more) {point : IntPoint}
    (isPoint : point ∈ points) (isOther : point ∈ more) : rect.intersects other = true := by
  have around := box.around point isPoint
  have otherAround := otherBox.around point isOther
  simp only [IntRect.intersects, box.isEmpty_eq, otherBox.isEmpty_eq, Bool.not_false,
    Bool.and_eq_true, decide_eq_true_eq, true_and]
  omega

end IsBoundingBox

/-- A rectangle that is not empty is the bounding box of its points. -/
theorem isBoundingBox_points {rect : IntRect}
    (positive : 0 < rect.width ∧ 0 < rect.height) : IsBoundingBox rect rect.points := by
  have first : (⟨rect.x, rect.y⟩ : IntPoint) ∈ rect.points := by
    simp only [IntRect.points, IntRect.maxX, IntRect.maxY, Set.mem_ofPred_eq]
    omega
  have last : (⟨rect.maxX - 1, rect.maxY - 1⟩ : IntPoint) ∈ rect.points := by
    simp only [IntRect.points, IntRect.maxX, IntRect.maxY, Set.mem_ofPred_eq]
    omega
  exact ⟨fun _ isPoint => isPoint, ⟨_, first, rfl⟩, ⟨_, last, Int.sub_add_cancel rect.maxX 1⟩,
    ⟨_, first, rfl⟩, ⟨_, last, Int.sub_add_cancel rect.maxY 1⟩⟩

/-- A rectangle inside another one has its points. -/
theorem points_subset_of_contains {rect other : IntRect} {more : Set IntPoint}
    (otherBox : IsBoundingBox other more)
    (contains : rect.contains other = true) : more ⊆ rect.points := by
  intro point isPoint
  have around := otherBox.around point isPoint
  simp only [IntRect.contains, Bool.and_eq_true, decide_eq_true_eq] at contains
  simp only [IntRect.points, Set.mem_ofPred_eq]
  omega

namespace Region

/-! ## What a region stands for -/

/-- The region keeps a non-empty set of points. -/
structure Outlines (region : Region) (points : Set IntPoint) : Prop where
  canonical : Canonical region.shape
  points_eq : region.shape.points = points
  box : IsBoundingBox region.bounds points

/-- The region has no points. -/
structure Blank (region : Region) : Prop where
  isEmpty : region.bounds.isEmpty = true
  nonNegative : 0 ≤ region.bounds.width ∧ 0 ≤ region.bounds.height
  shape_eq : region.shape = [] ∨ region.shape = Shape.ofRect region.bounds

def Denotes (region : Region) (points : Set IntPoint) : Prop :=
  Outlines region points ∨ (Blank region ∧ points = ∅)

namespace Outlines

variable {region : Region} {points : Set IntPoint} (outlines : Outlines region points)

include outlines

theorem isEmpty_eq : region.isEmpty = false := outlines.box.isEmpty_eq

theorem shape_ne_nil : region.shape ≠ [] := by
  intro nothing
  obtain ⟨point, isPoint⟩ := outlines.box.nonempty
  rw [← outlines.points_eq, nothing] at isPoint
  cases isPoint

/-- A region of one rectangle has the points of its bounds. -/
theorem points_of_isRect (isRect : region.isRect = true) : points = region.bounds.points := by
  rcases isRect_cases outlines.canonical isRect with nothing | ⟨rect, positive, isShape⟩
  · exact absurd nothing outlines.shape_ne_nil
  · have isPoints : points = rect.points := by
      rw [← outlines.points_eq, isShape, points_ofRect positive]
    have isBounds : region.bounds = rect :=
      outlines.box.unique (isPoints ▸ isBoundingBox_points positive)
    rw [isBounds, isPoints]

end Outlines

/-! ## Queries -/

section Queries

variable
  {region other : Region}
  {points more : Set IntPoint}

variable (outlines : Outlines region points)
include outlines

/-- The first spans of two outlined regions, where the bounds of one are inside those of
the other. -/
theorem Outlines.heads (otherOutlines : Outlines other more)
    (contains : region.bounds.contains other.bounds = true) :
    ∃ a aLater b bLater, region.shape = a :: aLater ∧ other.shape = b :: bLater ∧
      a.y ≤ b.y := by
  obtain ⟨a, aLater, aShape⟩ := exists_cons_of_ne_nil outlines.shape_ne_nil
  obtain ⟨b, bLater, bShape⟩ := exists_cons_of_ne_nil otherOutlines.shape_ne_nil
  refine ⟨a, aLater, b, bLater, aShape, bShape, ?_⟩
  obtain ⟨top, isTop, atTop⟩ := outlines.box.top
  rw [← outlines.points_eq, aShape] at isTop
  have aLe : a.y ≤ top.y := y_le_of_inside isTop
  have bRow := otherOutlines.canonical.rows b (bShape ▸ (.head _))
  have isHead : other.shape.head? = some b := by
    rw [bShape]
    rfl
  have notEmpty := otherOutlines.canonical.first_ne_nil isHead
  obtain ⟨x, isInside⟩ := Row.exists_inside bRow notEmpty
  have isPoint : (⟨x, b.y⟩ : IntPoint) ∈ more := by
    rw [← otherOutlines.points_eq, Shape.points, Set.mem_ofPred_eq,
      rowFrom_y otherOutlines.canonical.sorted (bShape ▸ (.head _))]
    exact isInside
  have around := otherOutlines.box.around _ isPoint
  simp only [IntRect.contains, Bool.and_eq_true, decide_eq_true_eq] at contains
  simp only at around
  omega

theorem Outlines.contains_iff
    (otherOutlines : Outlines other more) : region.contains other = true ↔ more ⊆ points := by
  rw [contains]
  by_cases boundsContain : region.bounds.contains other.bounds = true
  · rw [boundsContain, Bool.not_true, if_neg Bool.false_ne_true]
    obtain ⟨a, aLater, b, bLater, aShape, bShape, isFirst⟩ :=
      outlines.heads otherOutlines boundsContain
    have aCanonical := outlines.canonical
    have bCanonical := otherOutlines.canonical
    rw [← outlines.points_eq, ← otherOutlines.points_eq, aShape, bShape]
    rw [aShape] at aCanonical
    rw [bShape] at bCanonical
    have swept : Swept false a b bLater :=
      ⟨fun next isNext => lt_of_le_of_lt isFirst
          ((pairwise_cons.1 bCanonical.sorted).1 next isNext),
        fun isBefore => absurd isFirst (not_le.2 isBefore)⟩
    rw [compareShapes, compareSpans_contains_iff aCanonical bCanonical swept]
    constructor
    · intro included point isPoint
      exact included point.y (isFirst.trans (y_le_of_inside isPoint)) point.x isPoint
    · intro subset y _ x isInside
      exact @subset ⟨x, y⟩ isInside
  · rw [Bool.eq_false_iff.2 boundsContain, Bool.not_false]
    exact iff_of_false Bool.false_ne_true fun subset =>
      boundsContain (outlines.box.contains_of_subset otherOutlines.box subset)

theorem Outlines.intersects_iff (otherOutlines : Outlines other more) :
    region.intersects other = true ↔ (points ∩ more).Nonempty := by
  rw [intersects]
  by_cases boundsIntersect : region.bounds.intersects other.bounds = true
  · rw [boundsIntersect, Bool.not_true, if_neg Bool.false_ne_true, compareShapes,
      compareSpans_intersects_iff outlines.canonical otherOutlines.canonical,
      ← outlines.points_eq, ← otherOutlines.points_eq]
    constructor
    · rintro ⟨y, x, inRegion, inOther⟩
      exact ⟨⟨x, y⟩, inRegion, inOther⟩
    · rintro ⟨point, inRegion, inOther⟩
      exact ⟨point.y, point.x, inRegion, inOther⟩
  · rw [Bool.eq_false_iff.2 boundsIntersect, Bool.not_false]
    refine iff_of_false Bool.false_ne_true ?_
    rintro ⟨point, isPoint, isOther⟩
    exact boundsIntersect
      (outlines.box.intersects_of_mem otherOutlines.box isPoint isOther)

end Queries

/-- A region without points is inside another one where it has no spans and its bounds are
inside. -/
theorem contains_of_shape_eq_nil {region other : Region} (nothing : other.shape = [])
    (boundsContain : region.bounds.contains other.bounds = true) :
    region.contains other = true := by
  rw [contains, boundsContain, Bool.not_true, nothing, compareShapes]
  match region.shape with
  | [] | [_] | _ :: _ :: _ => simp [compareSpans, returnIf, compareContainsOperation]

/-- Nothing with points is inside a rectangle without points. -/
theorem not_contains_of_isEmpty {rect other : IntRect} (isEmpty : rect.isEmpty = true)
    (positive : 0 < other.width ∧ 0 < other.height) : rect.contains other = false := by
  rw [Bool.eq_false_iff]
  simp only [IntRect.isEmpty, IntRect.contains, Bool.or_eq_true, Bool.and_eq_true,
    decide_eq_true_eq, ne_eq] at *
  simp only [IntRect.maxX, IntRect.maxY]
  omega

theorem intersects_of_isEmpty {rect other : IntRect}
    (isEmpty : rect.isEmpty = true ∨ other.isEmpty = true) : rect.intersects other = false := by
  rcases isEmpty with isEmpty | isEmpty <;> simp [IntRect.intersects, isEmpty]

section Queries

variable
  {region other : Region}
  {points more : Set IntPoint}
  (denotes : Denotes region points)

include denotes

theorem Denotes.containsPoint_iff (point : IntPoint) :
    region.containsPoint point = true ↔ point ∈ points := by
  rcases denotes with outlines | ⟨blank, rfl⟩
  · rw [containsPoint]
    by_cases inBounds : region.bounds.containsPoint point = true
    · rw [inBounds, Bool.not_true, spansContain_eq point region.shape outlines.canonical, ← outlines.points_eq]
      rfl
    · rw [Bool.eq_false_iff.2 inBounds, Bool.not_false]
      refine iff_of_false Bool.false_ne_true fun isPoint => inBounds ?_
      exact IntRect.containsPoint_iff.2 (outlines.box.around point isPoint)
  · have notIn : region.bounds.containsPoint point = false := by
      have isEmpty := blank.isEmpty
      rw [Bool.eq_false_iff]
      simp only [IntRect.isEmpty, IntRect.containsPoint, Bool.or_eq_true, Bool.and_eq_true,
        decide_eq_true_eq, ne_eq] at *
      simp only [IntRect.maxX, IntRect.maxY]
      omega
    rw [containsPoint, notIn, Bool.not_false]
    exact iff_of_false Bool.false_ne_true (Set.notMem_empty point)

theorem Denotes.rects_spec : Disjoint region.rects ∧
      ∀ point, (∃ rect ∈ region.rects, point ∈ rect.points) ↔ point ∈ points := by
  rcases denotes with outlines | ⟨blank, rfl⟩
  · obtain ⟨disjoint, union⟩ := spanRects_spec region.shape outlines.canonical
    refine ⟨disjoint, fun point => (union point).trans ?_⟩
    rw [← outlines.points_eq]
    rfl
  · rcases blank.shape_eq with nothing | isRect
    · rw [rects, nothing]
      refine ⟨.nil, fun point => iff_of_false ?_ (Set.notMem_empty point)⟩
      rintro ⟨rect, isMem, _⟩
      cases isMem
    · rw [rects, isRect]
      refine ⟨pairwise_singleton _ _, fun point => iff_of_false ?_ (Set.notMem_empty point)⟩
      have isEmpty := blank.isEmpty
      rintro ⟨rect, isMem, isPoint⟩
      obtain rfl := mem_singleton.1 isMem
      simp only [IntRect.isEmpty, IntRect.points, IntRect.maxX, IntRect.maxY, Bool.or_eq_true,
        decide_eq_true_eq, Set.mem_ofPred_eq] at *
      omega

theorem Denotes.intersects_iff (otherDenotes : Denotes other more) :
    region.intersects other = true ↔ (points ∩ more).Nonempty := by
  have isBlank : region.bounds.isEmpty = true ∨ other.bounds.isEmpty = true →
      points ∩ more = ∅ → (region.intersects other = true ↔ (points ∩ more).Nonempty) := by
    intro isEmpty nothing
    rw [intersects, intersects_of_isEmpty isEmpty, nothing]
    exact iff_of_false Bool.false_ne_true Set.not_nonempty_empty
  rcases denotes with outlines | ⟨blank, rfl⟩
  · rcases otherDenotes with otherOutlines | ⟨otherBlank, rfl⟩
    · exact outlines.intersects_iff otherOutlines
    · exact isBlank (.inr otherBlank.isEmpty) (Set.inter_empty points)
  · exact isBlank (.inl blank.isEmpty) (Set.empty_inter more)

theorem Denotes.isEmpty_iff : region.isEmpty = true ↔ points = ∅ := by
  rcases denotes with outlines | ⟨blank, rfl⟩
  · exact iff_of_false (by rw [outlines.isEmpty_eq]; exact Bool.false_ne_true)
      outlines.box.nonempty.ne_empty
  · exact iff_of_true blank.isEmpty rfl

/-- Inclusion is decided for an argument with points; one without points or spans is inside
where its bounds are. -/
theorem Denotes.contains_iff (otherDenotes : Denotes other more)
    (noSpans : other.isEmpty = true → other.shape = []) :
    (region.contains other = true ↔ more ⊆ points) ↔
      (other.isEmpty = true → region.bounds.contains other.bounds = true) := by
  rcases otherDenotes with otherOutlines | ⟨otherBlank, rfl⟩
  · have notEmpty : ¬other.isEmpty = true := by
      rw [otherOutlines.isEmpty_eq]
      exact Bool.false_ne_true
    refine iff_of_true ?_ fun isEmpty => absurd isEmpty notEmpty
    rcases denotes with outlines | ⟨blank, rfl⟩
    · exact outlines.contains_iff otherOutlines
    · rw [contains, not_contains_of_isEmpty blank.isEmpty otherOutlines.box.positive]
      refine iff_of_false Bool.false_ne_true fun subset => ?_
      exact otherOutlines.box.nonempty.ne_empty (Set.subset_empty_iff.1 subset)
  · have nothing := noSpans otherBlank.isEmpty
    constructor
    · intro agrees _
      by_contra notInside
      have isInside := agrees.2 (Set.empty_subset points)
      rw [contains, Bool.eq_false_iff.2 notInside] at isInside
      cases isInside
    · intro isInside
      exact iff_of_true (contains_of_shape_eq_nil nothing (isInside otherBlank.isEmpty))
        (Set.empty_subset points)

end Queries

/-! ## Operations -/

theorem denotes_ofRect {rect : IntRect} (nonNegative : 0 ≤ rect.width ∧ 0 ≤ rect.height) :
    Denotes (Region.ofRect rect) rect.points := by
  by_cases positive : 0 < rect.width ∧ 0 < rect.height
  · exact .inl ⟨canonical_ofRect positive, points_ofRect positive, isBoundingBox_points positive⟩
  · refine .inr ⟨⟨?_, nonNegative, .inr rfl⟩, ?_⟩
    · change rect.isEmpty = true
      rw [IntRect.isEmpty, Bool.or_eq_true, decide_eq_true_eq, decide_eq_true_eq]
      omega
    · refine Set.eq_empty_of_forall_notMem fun point isPoint => ?_
      simp only [IntRect.points, IntRect.maxX, IntRect.maxY, Set.mem_ofPred_eq] at isPoint
      omega

theorem blank_empty : Blank {} := ⟨rfl, ⟨le_rfl, le_rfl⟩, .inl rfl⟩

/-- The coordinates of the shape fit an `int`. -/
def ShapeFits (shape : Shape) : Prop := ∀ span ∈ shape, ∀ x ∈ span.segments, intMin ≤ x ∧ x ≤ intMax

/-- A region with the bounds of its shape. -/
theorem denotes_bounds {shape : Shape} (canonical : Canonical shape)
    (fits : ShapeFits shape) : Denotes ⟨shape.bounds, shape⟩ shape.points := by
  by_cases nothing : shape = []
  · subst nothing
    exact .inr ⟨blank_empty, points_nil⟩
  · exact .inl ⟨canonical, rfl, isBoundingBox_bounds canonical fits nothing⟩

section Operations

variable
  {this region : Region}
  {points more : Set IntPoint}
  (denotes : Denotes this points)
  (otherDenotes : Denotes region more)

include denotes otherDenotes

theorem Denotes.intersect (fits : ShapeFits (this.intersect region).shape) :
    Denotes (this.intersect region) (points ∩ more) := by
  rcases denotes with outlines | ⟨blank, rfl⟩
  · have notEmpty : this.bounds.isEmpty = false := outlines.isEmpty_eq
    by_cases boundsIntersect : this.bounds.intersects region.bounds = true
    · rcases otherDenotes with otherOutlines | ⟨otherBlank, rfl⟩
      · have isResult : this.intersect region = ⟨(intersectShapes this.shape region.shape).bounds,
              intersectShapes this.shape region.shape⟩ := by
          rw [Region.intersect, notEmpty, boundsIntersect]
          rfl
        obtain ⟨canonical, isPoints⟩ :=
          intersectShapes_spec outlines.canonical otherOutlines.canonical
        rw [isResult] at fits ⊢
        rw [← outlines.points_eq, ← otherOutlines.points_eq, ← isPoints]
        exact denotes_bounds canonical fits
      · rw [intersects_of_isEmpty (Or.inr otherBlank.isEmpty)] at boundsIntersect
        cases boundsIntersect
    · have isResult : this.intersect region = {} := by
        rw [Region.intersect, notEmpty, Bool.eq_false_iff.2 boundsIntersect]
        rfl
      rw [isResult]
      refine .inr ⟨blank_empty, ?_⟩
      rcases otherDenotes with otherOutlines | ⟨otherBlank, rfl⟩
      · refine Set.eq_empty_of_forall_notMem fun point isPoint => boundsIntersect ?_
        exact outlines.box.intersects_of_mem otherOutlines.box isPoint.1 isPoint.2
      · exact Set.inter_empty points
  · rw [Region.intersect, if_pos blank.isEmpty, Set.empty_inter]
    exact .inr ⟨blank, rfl⟩

theorem Denotes.subtract (fits : ShapeFits (this.subtract region).shape) :
    Denotes (this.subtract region) (points \ more) := by
  rcases denotes with outlines | ⟨blank, rfl⟩
  · have notEmpty : this.bounds.isEmpty = false := outlines.isEmpty_eq
    rcases otherDenotes with otherOutlines | ⟨otherBlank, rfl⟩
    · by_cases boundsIntersect : this.bounds.intersects region.bounds = true
      · have isResult : this.subtract region = ⟨(subtractShapes this.shape region.shape).bounds,
              subtractShapes this.shape region.shape⟩ := by
          rw [Region.subtract, notEmpty, otherOutlines.isEmpty_eq, boundsIntersect]
          rfl
        obtain ⟨canonical, isPoints⟩ :=
          subtractShapes_spec outlines.canonical otherOutlines.canonical
        rw [isResult] at fits ⊢
        rw [← outlines.points_eq, ← otherOutlines.points_eq, ← isPoints]
        exact denotes_bounds canonical fits
      · have isResult : this.subtract region = this := by
          rw [Region.subtract, notEmpty, otherOutlines.isEmpty_eq,
            Bool.eq_false_iff.2 boundsIntersect]
          rfl
        have apart : points \ more = points := by
          refine sdiff_eq_left.2 (Set.disjoint_left.2 fun point isPoint isOther => ?_)
          exact boundsIntersect (outlines.box.intersects_of_mem otherOutlines.box isPoint isOther)
        rw [isResult, apart]
        exact .inl outlines
    · have isResult : this.subtract region = this := by
        rw [Region.subtract, notEmpty, if_neg Bool.false_ne_true,
          if_pos (show region.isEmpty = true from otherBlank.isEmpty)]
      rw [isResult, Set.sdiff_empty]
      exact .inl outlines
  · rw [Region.subtract, if_pos blank.isEmpty, Set.empty_sdiff]
    exact .inr ⟨blank, rfl⟩

/-- Whether uniting keeps spans without points out of a region with points. -/
def unitesWell (this region : Region) : Bool :=
  !this.isEmpty || this.shape.isEmpty || region.isEmpty ||
    region.isRect && region.bounds.contains this.bounds

theorem Denotes.unite (unitesWell : unitesWell this region = true) :
    Denotes (this.unite region) (points ∪ more) := by
  rw [Region.unite]
  rcases otherDenotes with otherOutlines | ⟨otherBlank, rfl⟩
  · rw [otherOutlines.isEmpty_eq]
    rcases denotes with outlines | ⟨blank, rfl⟩
    · by_cases covers : (this.isRect && this.bounds.contains region.bounds) = true
      · rw [if_pos covers]
        rw [Bool.and_eq_true] at covers
        rw [Set.union_eq_self_of_subset_right]
        · exact .inl outlines
        · rw [outlines.points_of_isRect covers.1]
          exact points_subset_of_contains otherOutlines.box covers.2
      · rw [if_neg covers]
        by_cases covered : (region.isRect && region.bounds.contains this.bounds) = true
        · rw [if_pos covered]
          rw [Bool.and_eq_true] at covered
          rw [Set.union_eq_self_of_subset_left]
          · exact .inl otherOutlines
          · rw [otherOutlines.points_of_isRect covered.1]
            exact points_subset_of_contains outlines.box covered.2
        · rw [if_neg covered]
          by_cases inside : (!this.isRect && this.contains region) = true
          · rw [if_pos inside, Set.union_eq_self_of_subset_right]
            · exact .inl outlines
            · rw [Bool.and_eq_true] at inside
              exact (outlines.contains_iff otherOutlines).1 inside.2
          · rw [if_neg inside]
            obtain ⟨canonical, isPoints⟩ :=
              unionShapes_spec outlines.canonical otherOutlines.canonical
            rw [outlines.points_eq, otherOutlines.points_eq] at isPoints
            exact .inl ⟨canonical, isPoints, outlines.box.union otherOutlines.box⟩
    · have notCovers : this.bounds.contains region.bounds = false :=
        not_contains_of_isEmpty blank.isEmpty otherOutlines.box.positive
      have notContains : this.contains region = false := by
        rw [contains, notCovers]
        rfl
      rw [notCovers, notContains, Bool.and_false, Bool.and_false, Set.empty_union]
      by_cases covered : (region.isRect && region.bounds.contains this.bounds) = true
      · rw [if_pos covered]
        exact .inl otherOutlines
      · have nothing : this.shape = [] := by
          have isEmpty : this.isEmpty = true := blank.isEmpty
          rw [Region.unitesWell, Bool.eq_false_iff.2 covered, otherOutlines.isEmpty_eq,
            isEmpty] at unitesWell
          simpa using unitesWell
        have isBounds : this.bounds.unite region.bounds = region.bounds := by
          rw [IntRect.unite, otherOutlines.box.isEmpty_eq, if_neg Bool.false_ne_true,
            if_pos blank.isEmpty]
        rw [if_neg covered, isBounds, nothing]
        exact .inl otherOutlines
  · rw [if_pos (show region.isEmpty = true from otherBlank.isEmpty), Set.union_empty]
    exact denotes

end Operations

/-! ## Translation -/

section Translation

variable (offset : IntSize)

/-- The translated points. -/
def translatePoints (points : Set IntPoint) : Set IntPoint :=
  {point | ⟨point.x - offset.width, point.y - offset.height⟩ ∈ points}

/-- The translated span. -/
def translateSpan (span : Span) : Span :=
  ⟨span.y + offset.height, span.segments.map (· + offset.width)⟩

theorem rowFrom_translate (shape : Shape) (y : Int) :
    rowFrom [] (shape.translate offset) (y + offset.height) =
      (rowFrom [] shape y).map (· + offset.width) :=
  @Steps.valueFrom_map Span Int (List Int) _ Span.y Span.segments [] shape y
    (· + offset.height) (List.map (· + offset.width)) (translateSpan offset)
    (fun _ => ⟨rfl, rfl⟩) (fun _ _ => Int.add_le_add_iff_right _)

theorem points_translate (shape : Shape) :
    (shape.translate offset).points = translatePoints offset shape.points := by
  ext point
  have back : point.y = point.y - offset.height + offset.height := by omega
  have backX : point.x = point.x - offset.width + offset.width := by omega
  rw [Shape.points, Set.mem_ofPred_eq, back, rowFrom_translate, backX,
    Toggles.inside_map (fun _ _ => Int.add_le_add_iff_right _)]
  simp only [translatePoints, Shape.points, Set.mem_ofPred_eq]

theorem canonical_translate {shape : Shape}
    (canonical : Canonical shape) : Canonical (shape.translate offset) := by
  have injective : ∀ first second : List Int,
      first.map (· + offset.width) = second.map (· + offset.width) → first = second :=
    fun first second same => map_injective_iff.2 (fun _ _ => (Int.add_left_inj _).1) same
  refine ⟨?_, ?_, ?_, ?_⟩
  · refine pairwise_map.2 (canonical.sorted.imp fun isLess => ?_)
    exact Int.add_lt_add_right isLess _
  · intro span isMem
    obtain ⟨earlier, isEarlier, rfl⟩ := mem_map.1 isMem
    have row := canonical.rows earlier isEarlier
    refine ⟨pairwise_map.2 (row.sorted.imp fun isLess => ?_), ?_⟩
    · exact Int.add_lt_add_right isLess _
    · rw [length_map]
      exact row.even
  · exact @Steps.alternating_map Span Int (List Int) Span.y Span.segments [] shape
      (· + offset.height) (List.map (· + offset.width)) (translateSpan offset)
      (fun _ => ⟨rfl, rfl⟩) injective canonical.changes
  · have last := @Steps.lastValue_map Span Int (List Int) Span.y Span.segments [] shape
      (· + offset.height) (List.map (· + offset.width)) (translateSpan offset)
      (fun _ => ⟨rfl, rfl⟩)
    refine last.trans ?_
    rw [show Steps.lastValue Span.segments [] shape = [] from canonical.ends]
    rfl

theorem isBoundingBox_move {rect : IntRect} {points : Set IntPoint}
    (box : IsBoundingBox rect points) :
    IsBoundingBox (rect.move offset) (translatePoints offset points) := by
  have moved : ∀ point ∈ points, (⟨point.x + offset.width, point.y + offset.height⟩ : IntPoint) ∈
        translatePoints offset points := by
    intro point isPoint
    simpa only [translatePoints, Set.mem_ofPred_eq, Int.add_sub_cancel] using isPoint
  obtain ⟨left, isLeft, atLeft⟩ := box.left
  obtain ⟨right, isRight, atRight⟩ := box.right
  obtain ⟨top, isTop, atTop⟩ := box.top
  obtain ⟨bottom, isBottom, atBottom⟩ := box.bottom
  simp only [IntRect.maxX, IntRect.maxY] at atRight atBottom
  refine ⟨fun point isPoint => ?_, ⟨_, moved left isLeft, ?_⟩, ⟨_, moved right isRight, ?_⟩,
    ⟨_, moved top isTop, ?_⟩, ⟨_, moved bottom isBottom, ?_⟩⟩
  · have around := box.around _ isPoint
    simp only [IntRect.move, IntRect.maxX, IntRect.maxY] at around ⊢
    omega
  all_goals
    simp only [IntRect.move, IntRect.maxX, IntRect.maxY]
    omega

theorem Denotes.translate {this : Region} {points : Set IntPoint} (denotes : Denotes this points) :
    Denotes (this.translate offset) (translatePoints offset points) := by
  rcases denotes with outlines | ⟨blank, rfl⟩
  · refine .inl ⟨canonical_translate offset outlines.canonical, ?_,
      isBoundingBox_move offset outlines.box⟩
    rw [← outlines.points_eq]
    exact points_translate offset this.shape
  · refine .inr ⟨⟨blank.isEmpty, blank.nonNegative, ?_⟩, rfl⟩
    rcases blank.shape_eq with nothing | isRect
    · left
      rw [Region.translate, nothing]
      rfl
    · right
      have moveX : this.bounds.maxX + offset.width =
          this.bounds.x + offset.width + this.bounds.width := by
        unfold IntRect.maxX
        omega
      have moveY : this.bounds.maxY + offset.height =
          this.bounds.y + offset.height + this.bounds.height := by
        unfold IntRect.maxY
        omega
      simp only [Region.translate, isRect, Shape.translate, Shape.ofRect, map_cons,
        map_nil, IntRect.move, moveX, moveY]
      rfl

end Translation

end Region

end Graphics
end PalmWebKit
