import PalmWebKit.Graphics.RegionBounds

/-!
# Points and rectangles of a region

`contains(const IntPoint&)` and `rects` read the points of a canonical shape.
-/

namespace PalmWebKit
namespace Graphics

open List

/-- The points of a rectangle. -/
def IntRect.points (rect : IntRect) : Set IntPoint :=
  {point | rect.x ≤ point.x ∧ point.x < rect.maxX ∧ rect.y ≤ point.y ∧ point.y < rect.maxY}

theorem IntRect.containsPoint_iff {rect : IntRect} {point : IntPoint} :
    rect.containsPoint point = true ↔ point ∈ rect.points := by
  simp only [containsPoint, ge_iff_le, Bool.and_eq_true, decide_eq_true_eq, points,
    Set.mem_ofPred_eq, and_assoc]

namespace Region

open Shape

/-! ## Points -/

theorem segmentsContain_eq (x : Int) (segments : List Int)
    (row : Row segments) : segmentsContain x segments = Toggles.inside segments x := by
  fun_induction segmentsContain x segments with
  | case1 first maxX later isBefore => exact (inside_before row.sorted isBefore).symm
  | case2 first maxX later notBefore isBehind =>
    have sorted := pairwise_cons.1 row.sorted
    rw [Toggles.inside_cons, inside_before sorted.2 isBehind, decide_eq_true (not_lt.1 notBefore)]
    rfl
  | case3 first maxX later notBefore notBehind ih =>
    have sorted := pairwise_cons.1 row.sorted
    have even := row.even
    rw [length_cons, length_cons] at even
    rw [ih ⟨(pairwise_cons.1 sorted.2).2, by omega⟩,
      Toggles.inside_cons, Toggles.inside_cons, decide_eq_true (not_lt.1 notBefore),
      decide_eq_true (not_lt.1 notBehind)]
    simp
  | case4 segments notTwo =>
    have even := row.even
    match segments with
    | [] => rfl
    | [_] => cases even
    | first :: maxX :: later => exact absurd rfl (notTwo first maxX later)

theorem rowFrom_cons_cons {current other : List Int} {span : Span} {later : Shape} {y : Int}
    (atY : span.y ≤ y) : rowFrom current (span :: later) y = rowFrom other (span :: later) y := by
  rw [rowFrom_cons_of_le atY, rowFrom_cons_of_le atY]

theorem spansContain_eq (point : IntPoint) (spans : Shape) {current : List Int}
    (canonical : CanonicalFrom current spans) :
    spansContain point spans = Toggles.inside (rowFrom [] spans point.y) point.x := by
  fun_induction spansContain point spans generalizing current with
  | case1 span next later isBefore =>
    rw [rowFrom_cons_of_lt isBefore]
    rfl
  | case2 span next later notBefore isBehind ih =>
    rw [ih canonical.tail, rowFrom_cons_of_le (not_lt.1 notBefore), rowFrom_cons_cons isBehind]
  | case3 span next later notBefore notBehind isInside =>
    have row := canonical.rows span (.head _)
    rw [segmentsContain_eq _ _ row] at isInside
    rw [rowFrom_cons_of_le (not_lt.1 notBefore), rowFrom_cons_of_lt (not_le.1 notBehind), isInside]
  | case4 span next later notBefore notBehind notInside ih =>
    have row := canonical.rows span (.head _)
    rw [segmentsContain_eq _ _ row] at notInside
    rw [ih canonical.tail, rowFrom_cons_of_le (not_lt.1 notBefore), rowFrom_cons_of_lt (not_le.1
      notBehind), rowFrom_cons_of_lt (not_le.1 notBehind), Bool.eq_false_iff.2 notInside]
    rfl
  | case5 spans notTwo =>
    match spans with
    | [] => rfl
    | [span] =>
      have ends : span.segments = [] := canonical.ends
      rcases lt_or_ge point.y span.y with isLess | isMore
      · rw [rowFrom_cons_of_lt isLess]
        rfl
      · rw [rowFrom_cons_of_le isMore, ends]
        rfl
    | span :: next :: later => exact absurd rfl (notTwo span next later)

/-! ## Rectangles -/

/-- Rectangles without a common point. -/
def Disjoint (rects : List IntRect) : Prop :=
  rects.Pairwise fun rect other => ∀ point, ¬(point ∈ rect.points ∧ point ∈ other.points)

variable {later : List Int}

theorem inside_cons_cons {x maxX point : Int} (sorted : (x :: maxX :: later).Pairwise (· < ·)) :
    Toggles.inside (x :: maxX :: later) point = true ↔
      (x ≤ point ∧ point < maxX) ∨ Toggles.inside later point = true := by
  have above := pairwise_cons.1 sorted
  have isLess := above.1 maxX (.head _)
  rw [Toggles.inside_cons, Toggles.inside_cons]
  rcases lt_or_ge point maxX with isBefore | isBehind
  · have notLater : Toggles.inside later point = false :=
      Toggles.inside_of_lt fun other isLater =>
        isBefore.trans ((pairwise_cons.1 above.2).1 other isLater)
    rw [notLater, decide_eq_false (not_le.2 isBefore)]
    simp [isBefore]
  · rw [decide_eq_true isBehind, decide_eq_true (isLess.le.trans isBehind)]
    simp [not_lt.2 isBehind]

theorem le_of_inside_later {x maxX point : Int} (sorted : (x :: maxX :: later).Pairwise (· < ·))
    (isInside : Toggles.inside later point = true) : maxX ≤ point := by
  by_contra isBefore
  have above := pairwise_cons.1 (pairwise_cons.1 sorted).2
  rw [Toggles.inside_of_lt fun other isLater =>
    (not_le.1 isBefore).trans (above.1 other isLater)] at isInside
  cases isInside

theorem Row.drop_two {x maxX : Int} (row : Row (x :: maxX :: later)) : Row later := by
  have even := row.even
  rw [length_cons, length_cons] at even
  exact ⟨(pairwise_cons.1 (pairwise_cons.1 row.sorted).2).2, by omega⟩

theorem segmentRects_spec (y height : Int) (segments : List Int) (row : Row segments) :
    Disjoint (segmentRects y height segments) ∧
      ∀ point, (∃ rect ∈ segmentRects y height segments, point ∈ rect.points) ↔
        (y ≤ point.y ∧ point.y < y + height) ∧
          Toggles.inside segments point.x = true := by
  fun_induction segmentRects y height segments with
  | case1 x maxX later ih =>
    obtain ⟨disjoint, union⟩ := ih (Row.drop_two row)
    have inRect : ∀ point : IntPoint, point ∈ (⟨x, y, maxX - x, height⟩ : IntRect).points ↔
          (y ≤ point.y ∧ point.y < y + height) ∧ x ≤ point.x ∧ point.x < maxX := by
      intro point
      simp only [IntRect.points, IntRect.maxX, IntRect.maxY, Set.mem_ofPred_eq]
      omega
    constructor
    · refine pairwise_cons.2 ⟨?_, disjoint⟩
      rintro other isOther point ⟨isRect, isOtherPoint⟩
      have isLater := ((union point).1 ⟨other, isOther, isOtherPoint⟩).2
      have behind := le_of_inside_later row.sorted isLater
      have before := ((inRect point).1 isRect).2.2
      omega
    · intro point
      rw [inside_cons_cons row.sorted, and_or_left, ← inRect, ← union]
      simp only [mem_cons, exists_eq_or_imp]
  | case2 segments notTwo =>
    have even := row.even
    rcases segments with _ | ⟨x, _ | ⟨maxX, later⟩⟩
    · refine ⟨.nil, fun point => iff_of_false ?_ ?_⟩
      · rintro ⟨rect, isMem, _⟩
        cases isMem
      · rintro ⟨_, isInside⟩
        cases isInside
    · cases even
    · exact absurd rfl (notTwo x maxX later)

theorem spanRects_spec (spans : Shape) {current : List Int}
    (canonical : CanonicalFrom current spans) :
    Disjoint (spanRects spans) ∧ ∀ point, (∃ rect ∈ spanRects spans, point ∈ rect.points) ↔
        Toggles.inside (rowFrom [] spans point.y) point.x = true := by
  fun_induction spanRects spans generalizing current with
  | case1 span next later ih =>
    obtain ⟨disjoint, union⟩ := ih canonical.tail
    obtain ⟨rowDisjoint, rowUnion⟩ := segmentRects_spec span.y (next.y - span.y) span.segments
      (canonical.rows span (.head _))
    have isLess := (pairwise_cons.1 canonical.sorted).1 next (.head _)
    have laterRow : ∀ point : IntPoint,
        Toggles.inside (rowFrom [] (next :: later) point.y) point.x = true →
          next.y ≤ point.y := by
      intro point isInside
      by_contra isBefore
      rw [rowFrom_cons_of_lt (not_le.1 isBefore)] at isInside
      cases isInside
    constructor
    · refine pairwise_append.2 ⟨rowDisjoint, disjoint, ?_⟩
      rintro rect isRect other isOther point ⟨isPoint, isOtherPoint⟩
      have inRow := ((rowUnion point).1 ⟨rect, isRect, isPoint⟩).1
      have behind := laterRow point ((union point).1 ⟨other, isOther, isOtherPoint⟩)
      omega
    · intro point
      have back : span.y + (next.y - span.y) = next.y := by omega
      simp only [mem_append, or_and_right, exists_or]
      rw [rowUnion, union, back]
      rcases lt_or_ge point.y span.y with isBefore | isBehind
      · rw [rowFrom_cons_of_lt isBefore, rowFrom_cons_of_lt (isBefore.trans isLess)]
        simp [not_le.2 isBefore]
      · rw [rowFrom_cons_of_le isBehind]
        rcases lt_or_ge point.y next.y with isBeforeNext | isBehindNext
        · rw [rowFrom_cons_of_lt isBeforeNext, rowFrom_cons_of_lt isBeforeNext]
          simp [isBehind, isBeforeNext]
        · have same : rowFrom span.segments (next :: later) point.y =
              rowFrom [] (next :: later) point.y := rowFrom_cons_cons isBehindNext
          rw [same]
          simp [not_lt.2 isBehindNext]
  | case2 spans notTwo =>
    have nothing : ∀ y, rowFrom [] spans y = [] := by
      intro y
      match spans with
      | [] => rfl
      | [span] =>
        have ends : span.segments = [] := canonical.ends
        rcases lt_or_ge y span.y with isLess | isMore
        · exact rowFrom_cons_of_lt isLess
        · rw [rowFrom_cons_of_le isMore, ends]
          rfl
      | span :: next :: later => exact absurd rfl (notTwo span next later)
    refine ⟨.nil, fun point => iff_of_false ?_ ?_⟩
    · rintro ⟨rect, isMem, _⟩
      cases isMem
    · rw [nothing]
      exact Bool.false_ne_true

/-! ## Shapes of rectangles -/

theorem canonical_ofRect {rect : IntRect}
    (positive : 0 < rect.width ∧ 0 < rect.height) : Canonical (Shape.ofRect rect) := by
  have isLess : rect.x < rect.maxX := by
    unfold IntRect.maxX
    omega
  refine ⟨?_, ?_, ⟨cons_ne_nil _ _, (cons_ne_nil _ _).symm, trivial⟩, rfl⟩
  · refine pairwise_pair.2 ?_
    change rect.y < rect.y + rect.height
    omega
  · intro span isMem
    simp only [Shape.ofRect, mem_cons, not_mem_nil, or_false] at isMem
    rcases isMem with rfl | rfl
    · exact ⟨pairwise_pair.2 isLess, by simp⟩
    · exact Row.nil

theorem points_ofRect {rect : IntRect} (positive : 0 < rect.width ∧ 0 < rect.height) :
    Shape.points (Shape.ofRect rect) = rect.points := by
  have isLess : rect.x < rect.maxX := by
    unfold IntRect.maxX
    omega
  ext point
  change Toggles.inside (rowFrom [] [⟨rect.y, [rect.x, rect.maxX]⟩, ⟨rect.maxY, []⟩] point.y)
    point.x = true ↔ rect.x ≤ point.x ∧ point.x < rect.maxX ∧ rect.y ≤ point.y ∧ point.y < rect.maxY
  rcases lt_or_ge point.y rect.y with isBefore | isBehind
  · rw [rowFrom_cons_of_lt isBefore]
    simp [not_le.2 isBefore]
  · rw [rowFrom_cons_of_le isBehind]
    rcases lt_or_ge point.y rect.maxY with isBeforeEnd | isBehindEnd
    · rw [rowFrom_cons_of_lt isBeforeEnd, inside_cons_cons (pairwise_pair.2 isLess)]
      simp [isBehind, isBeforeEnd]
    · rw [rowFrom_cons_of_le isBehindEnd]
      simp [rowFrom, Steps.valueFrom, not_lt.2 isBehindEnd]

/-- The shapes for which `isRect` holds. -/
theorem isRect_cases {shape : Shape} (canonical : Canonical shape) (isRect : shape.isRect = true) :
    shape = [] ∨ ∃ rect : IntRect, (0 < rect.width ∧ 0 < rect.height) ∧
      shape = Shape.ofRect rect := by
  rw [Shape.isRect, Bool.and_eq_true, decide_eq_true_eq, decide_eq_true_eq] at isRect
  match shape with
  | [] => exact .inl rfl
  | [span] =>
    have ends : span.segments = [] := canonical.ends
    exact absurd ends canonical.changes.1
  | span :: next :: third :: later =>
    have few := isRect.1
    rw [length_cons, length_cons, length_cons] at few
    omega
  | [span, next] =>
    right
    have ends : next.segments = [] := canonical.ends
    have row := canonical.rows span (.head _)
    have isLower := pairwise_pair.1 canonical.sorted
    have few := isRect.2
    rw [Shape.segments, flatMap_cons, flatMap_cons, ends, flatMap_nil,
      append_nil, append_nil] at few
    obtain ⟨y, segments⟩ := span
    obtain ⟨maxY, nextSegments⟩ := next
    dsimp only at ends row isLower few
    subst ends
    match segments with
    | [] => exact absurd rfl canonical.changes.1
    | [_] => exact absurd row.even (by simp)
    | _ :: _ :: _ :: _ =>
      rw [length_cons, length_cons, length_cons] at few
      omega
    | [x, maxX] =>
      have isLess := pairwise_pair.1 row.sorted
      refine ⟨⟨x, y, maxX - x, maxY - y⟩, ⟨by dsimp only; omega, by dsimp only; omega⟩, ?_⟩
      have backX : x + (maxX - x) = maxX := by omega
      have backY : y + (maxY - y) = maxY := by omega
      rw [Shape.ofRect, IntRect.maxX, IntRect.maxY, backX, backY]

end Region

end Graphics
end PalmWebKit
