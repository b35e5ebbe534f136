import PalmWebKit.Graphics.RegionSpans

/-!
# Bounding rectangles

`bounds` of a canonical shape touches its points at every side.
-/

namespace PalmWebKit
namespace Graphics

open List

/-- The smallest rectangle around the points of a non-empty set. -/
structure IsBoundingBox (rect : IntRect) (points : Set IntPoint) : Prop where
  around : ∀ point ∈ points,
    rect.x ≤ point.x ∧ point.x < rect.maxX ∧ rect.y ≤ point.y ∧ point.y < rect.maxY
  left : ∃ point ∈ points, point.x = rect.x
  right : ∃ point ∈ points, point.x + 1 = rect.maxX
  top : ∃ point ∈ points, point.y = rect.y
  bottom : ∃ point ∈ points, point.y + 1 = rect.maxY

namespace IsBoundingBox

variable {rect other : IntRect} {points more : Set IntPoint}

variable (box : IsBoundingBox rect points)
include box

theorem nonempty : points.Nonempty := by
  obtain ⟨point, isPoint, _⟩ := box.left
  exact ⟨point, isPoint⟩

theorem positive : 0 < rect.width ∧ 0 < rect.height := by
  obtain ⟨point, isPoint, _⟩ := box.left
  have around := box.around point isPoint
  unfold IntRect.maxX IntRect.maxY at around
  omega

theorem isEmpty_eq : rect.isEmpty = false := by
  have positive := box.positive
  rw [IntRect.isEmpty, Bool.or_eq_false_iff, decide_eq_false_iff_not, decide_eq_false_iff_not]
  omega

theorem unique (otherBox : IsBoundingBox other points) : rect = other := by
  obtain ⟨left, isLeft, atLeft⟩ := box.left
  obtain ⟨right, isRight, atRight⟩ := box.right
  obtain ⟨top, isTop, atTop⟩ := box.top
  obtain ⟨bottom, isBottom, atBottom⟩ := box.bottom
  obtain ⟨otherLeft, isOtherLeft, atOtherLeft⟩ := otherBox.left
  obtain ⟨otherRight, isOtherRight, atOtherRight⟩ := otherBox.right
  obtain ⟨otherTop, isOtherTop, atOtherTop⟩ := otherBox.top
  obtain ⟨otherBottom, isOtherBottom, atOtherBottom⟩ := otherBox.bottom
  have leftIn := otherBox.around left isLeft
  have rightIn := otherBox.around right isRight
  have topIn := otherBox.around top isTop
  have bottomIn := otherBox.around bottom isBottom
  have otherLeftIn := box.around otherLeft isOtherLeft
  have otherRightIn := box.around otherRight isOtherRight
  have otherTopIn := box.around otherTop isOtherTop
  have otherBottomIn := box.around otherBottom isOtherBottom
  obtain ⟨x, y, width, height⟩ := rect
  obtain ⟨otherX, otherY, otherWidth, otherHeight⟩ := other
  simp only [IntRect.maxX, IntRect.maxY] at *
  simp only [IntRect.mk.injEq]
  omega

theorem union (otherBox : IsBoundingBox other more) :
    IsBoundingBox (rect.unite other) (points ∪ more) := by
  rw [IntRect.unite, box.isEmpty_eq, otherBox.isEmpty_eq, if_neg Bool.false_ne_true,
    if_neg Bool.false_ne_true]
  refine ⟨?_, ?_, ?_, ?_, ?_⟩
  · rintro point (isPoint | isPoint)
    · have around := box.around point isPoint
      simp only [IntRect.maxX, IntRect.maxY] at *
      omega
    · have around := otherBox.around point isPoint
      simp only [IntRect.maxX, IntRect.maxY] at *
      omega
  · rcases le_total rect.x other.x with isLess | isMore
    · obtain ⟨point, isPoint, same⟩ := box.left
      exact ⟨point, .inl isPoint, same.trans (min_eq_left isLess).symm⟩
    · obtain ⟨point, isPoint, same⟩ := otherBox.left
      exact ⟨point, .inr isPoint, same.trans (min_eq_right isMore).symm⟩
  · rcases le_total rect.maxX other.maxX with isLess | isMore
    · obtain ⟨point, isPoint, same⟩ := otherBox.right
      refine ⟨point, .inr isPoint, ?_⟩
      simp only [IntRect.maxX] at *
      omega
    · obtain ⟨point, isPoint, same⟩ := box.right
      refine ⟨point, .inl isPoint, ?_⟩
      simp only [IntRect.maxX] at *
      omega
  · rcases le_total rect.y other.y with isLess | isMore
    · obtain ⟨point, isPoint, same⟩ := box.top
      exact ⟨point, .inl isPoint, same.trans (min_eq_left isLess).symm⟩
    · obtain ⟨point, isPoint, same⟩ := otherBox.top
      exact ⟨point, .inr isPoint, same.trans (min_eq_right isMore).symm⟩
  · rcases le_total rect.maxY other.maxY with isLess | isMore
    · obtain ⟨point, isPoint, same⟩ := otherBox.bottom
      refine ⟨point, .inr isPoint, ?_⟩
      simp only [IntRect.maxY] at *
      omega
    · obtain ⟨point, isPoint, same⟩ := box.bottom
      refine ⟨point, .inl isPoint, ?_⟩
      simp only [IntRect.maxY] at *
      omega

end IsBoundingBox

namespace Shape

/-! ## Rows -/

section Rows

variable {segments : List Int} (row : Row segments)

include row

theorem Row.around {x : Int} (isInside : Toggles.inside segments x = true) :
    (∃ first ∈ segments, first ≤ x) ∧ ∃ last ∈ segments, x < last := by
  constructor
  · by_contra none
    push Not at none
    rw [Toggles.inside_of_lt none] at isInside
    cases isInside
  · by_contra none
    push Not at none
    rw [Toggles.inside_of_le none, row.even] at isInside
    cases isInside

/-- The smallest coordinate is inside. -/
theorem Row.inside_first {first : Int} (isMem : first ∈ segments)
    (smallest : ∀ x ∈ segments, first ≤ x) : Toggles.inside segments first = true := by
  cases segments with
  | nil => cases isMem
  | cons head later =>
    have isHead : head = first :=
      le_antisymm (le_of_mem_sorted row.sorted isMem) (smallest head (.head _))
    subst isHead
    exact Toggles.inside_head row.sorted

/-- The point before the largest coordinate is inside. -/
theorem Row.inside_last {last : Int} (isMem : last ∈ segments)
    (largest : ∀ x ∈ segments, x ≤ last) : Toggles.inside segments (last - 1) = true := by
  rcases eq_nil_or_concat segments with rfl | ⟨earlier, final, rfl⟩
  · cases isMem
  · have even := row.even
    have sorted := row.sorted
    rw [concat_eq_append] at *
    rw [pairwise_append] at sorted
    have isFinal : final = last := by
      refine le_antisymm (largest final (mem_append_right _ (.head _))) ?_
      rcases mem_append.1 isMem with isEarlier | isFinal
      · exact (sorted.2.2 last isEarlier final (.head _)).le
      · exact (mem_singleton.1 isFinal).le
    subst isFinal
    have before : ∀ x ∈ earlier, x ≤ final - 1 :=
      fun x isEarlier => Int.le_sub_one_of_lt (sorted.2.2 x isEarlier final (.head _))
    rw [length_append, length_singleton] at even
    rw [Toggles.inside_append, Toggles.inside_of_le before, Toggles.inside_of_lt, Bool.xor_false]
    · exact decide_eq_true (by omega)
    · intro x isFinal
      rw [mem_singleton.1 isFinal]
      exact Int.sub_one_lt_of_le le_rfl

theorem Row.head_le {later : List Int} {first x : Int}
    (isFirst : (segments ++ later).head? = some first) (isX : x ∈ segments) : first ≤ x := by
  cases segments with
  | nil => cases isX
  | cons head more =>
    cases isFirst
    exact le_of_mem_sorted row.sorted isX

theorem Row.le_last {earlier : List Int} {last x : Int}
    (isLast : (earlier ++ segments).getLast? = some last) (isX : x ∈ segments) : x ≤ last := by
  rcases eq_nil_or_concat segments with rfl | ⟨more, final, rfl⟩
  · cases isX
  · have sorted := row.sorted
    rw [concat_eq_append] at *
    rw [pairwise_append] at sorted
    rw [← append_assoc, getLast?_concat] at isLast
    cases isLast
    rcases mem_append.1 isX with isMore | isFinal
    · exact (sorted.2.2 x isMore last (.head _)).le
    · exact (mem_singleton.1 isFinal).le

end Rows

theorem rowFrom_mem {current : List Int} {spans : Shape} {y : Int}
    (changed : rowFrom current spans y ≠ current) :
    ∃ span ∈ spans, span.y ≤ y ∧ span.segments = rowFrom current spans y := by
  induction spans generalizing current with
  | nil => exact absurd rfl changed
  | cons span later ih =>
    rcases lt_or_ge y span.y with isLess | isMore
    · exact absurd (rowFrom_cons_of_lt isLess) changed
    · rw [rowFrom_cons_of_le isMore] at changed ⊢
      by_cases same : rowFrom span.segments later y = span.segments
      · exact ⟨span, .head _, isMore, same.symm⟩
      · obtain ⟨other, isOther, isBefore, segments⟩ := ih same
        exact ⟨other, .tail span isOther, isBefore, segments⟩

theorem rowFrom_y {current : List Int} {spans : Shape}
    (sorted : spans.Pairwise fun span later => span.y < later.y) {span : Span}
    (isMem : span ∈ spans) : rowFrom current spans span.y = span.segments := by
  induction spans generalizing current with
  | nil => cases isMem
  | cons first later ih =>
    have above := pairwise_cons.1 sorted
    rw [rowFrom_cons_of_le (y_le_of_mem sorted isMem)]
    rcases mem_cons.1 isMem with rfl | isLater
    · exact rowFrom_of_lt above.1
    · exact ih above.2 isLater

/-! ## The loop of `bounds` -/

/-- The results of the loop: they are around all coordinates, and each is a coordinate
or the one from before. -/
structure Around (earlier : List Int) (minX maxX : Int) (spans : Shape)
    (result : Int × Int) : Prop where
  first_le : result.1 ≤ minX
  le_last : maxX ≤ result.2
  around : ∀ span ∈ spans, ∀ x ∈ span.segments, result.1 ≤ x ∧ x ≤ result.2
  first_mem : result.1 = minX ∨ result.1 ∈ segments spans
  last_mem : result.2 = maxX ∨ result.2 ∈ earlier ++ segments spans

theorem around_boundsLoop (spans : Shape) (earlier : List Int) (minX maxX : Int)
    (rows : ∀ span ∈ spans, Row span.segments)
    (ends : ∀ last, spans.getLast? = some last → last.segments = []) :
    Around earlier minX maxX spans (boundsLoop earlier minX maxX spans) := by
  induction spans generalizing earlier minX maxX with
  | nil =>
    exact ⟨le_rfl, le_rfl, fun span isMem => absurd isMem not_mem_nil, .inl rfl, .inl rfl⟩
  | cons span later ih =>
    cases later with
    | nil =>
      refine ⟨le_rfl, le_rfl, fun other isMem x isX => ?_, .inl rfl, .inl rfl⟩
      rw [mem_singleton.1 isMem, ends span rfl] at isX
      cases isX
    | cons next later =>
      have row := rows span (.head _)
      have rest := fun newMin newMax => ih (earlier ++ span.segments)
        newMin newMax (fun other isMem => rows other (.tail span isMem))
        (fun last isLast => ends last (by exact isLast))
      have all : segments (span :: next :: later) =
          span.segments ++ segments (next :: later) := flatMap_cons
      rw [boundsLoop]
      split
      next first last isFirst isLast =>
        obtain ⟨newMin, isMin, minLe, minFirst, minIs⟩ : ∃ newMin,
            (if first < minX then first else minX) = newMin ∧ newMin ≤ minX ∧
              newMin ≤ first ∧ (newMin = first ∨ newMin = minX) := by
          refine ⟨_, rfl, ?_⟩
          split <;> omega
        obtain ⟨newMax, isMax, leMax, lastMax, maxIs⟩ : ∃ newMax,
            (if last > maxX then last else maxX) = newMax ∧ maxX ≤ newMax ∧
              last ≤ newMax ∧ (newMax = last ∨ newMax = maxX) := by
          refine ⟨_, rfl, ?_⟩
          split <;> omega
        have around := rest newMin newMax
        rw [isMin, isMax]
        refine ⟨around.first_le.trans minLe, leMax.trans around.le_last, ?_, ?_, ?_⟩
        · intro other isMem x isX
          rcases mem_cons.1 isMem with rfl | isLater
          · exact ⟨(around.first_le.trans minFirst).trans (row.head_le isFirst isX),
              ((row.le_last isLast isX).trans lastMax).trans around.le_last⟩
          · exact around.around other isLater x isX
        · rcases around.first_mem with same | isLater
          · rcases minIs with isNew | isOld
            · exact .inr (by rw [same, isNew]; exact mem_of_mem_head? isFirst)
            · exact .inl (same.trans isOld)
          · exact .inr (mem_append_right _ isLater)
        · rw [all, ← append_assoc]
          rcases around.last_mem with same | isLater
          · rcases maxIs with isNew | isOld
            · exact .inr (by
                rw [same, isNew]
                exact mem_append_left _ (mem_of_getLast? isLast))
            · exact .inl (same.trans isOld)
          · exact .inr isLater
      next notBoth =>
        have around := rest minX maxX
        have nothing : span.segments = [] := by
          by_contra isSome
          obtain ⟨head, more, isCons⟩ := exists_cons_of_ne_nil isSome
          obtain ⟨last, isLast⟩ : ∃ last, (earlier ++ span.segments).getLast? = some last :=
            ⟨_, getLast?_eq_some_getLast (append_ne_nil_of_right_ne_nil _ isSome)⟩
          exact notBoth head last (by rw [isCons]; rfl) isLast
        refine ⟨around.first_le, around.le_last, ?_, ?_, ?_⟩
        · intro other isMem x isX
          rcases mem_cons.1 isMem with rfl | isLater
          · rw [nothing] at isX
            cases isX
          · exact around.around other isLater x isX
        · exact around.first_mem.imp_right (mem_append_right _)
        · rw [all, ← append_assoc]
          exact around.last_mem

/-! ## The bounding box -/

section Canonical

variable {shape : Shape} (canonical : Canonical shape)

include canonical

theorem Canonical.row (y : Int) : Row (rowFrom [] shape y) := row_rowFrom Row.nil canonical.rows y

/-- The first span has segments. -/
theorem Canonical.first_ne_nil {first : Span}
    (isFirst : shape.head? = some first) : first.segments ≠ [] := by
  cases shape with
  | nil => cases isFirst
  | cons head later =>
    cases isFirst
    exact canonical.changes.1

/-- The last span is empty, and the row above it is not. -/
theorem Canonical.last {last : Span} (isLast : shape.getLast? = some last) :
    last.segments = [] ∧ rowFrom [] shape (last.y - 1) ≠ [] := by
  rcases eq_nil_or_concat shape with rfl | ⟨earlier, final, rfl⟩
  · cases isLast
  · have ends := canonical.ends
    have changes := canonical.changes
    have sorted := canonical.sorted
    rw [concat_eq_append] at *
    rw [getLast?_concat] at isLast
    cases isLast
    rw [lastRow, Steps.lastValue_append_singleton] at ends
    rw [Steps.alternating_append] at changes
    rw [pairwise_append] at sorted
    have before : ∀ span ∈ earlier, span.y ≤ last.y - 1 :=
      fun span isEarlier => Int.le_sub_one_of_lt
        (sorted.2.2 span isEarlier last (.head _))
    refine ⟨ends, ?_⟩
    rw [rowFrom, Steps.valueFrom_append_of_lt, Steps.valueFrom_of_le before]
    · intro nothing
      exact changes.2.1 (ends.trans nothing.symm)
    · intro span isFinal
      rw [mem_singleton.1 isFinal]
      exact Int.sub_one_lt_of_le le_rfl

theorem Canonical.y_le_last {span last : Span} (isMem : span ∈ shape)
    (isLast : shape.getLast? = some last) : span.y ≤ last.y := by
  rcases eq_nil_or_concat shape with rfl | ⟨earlier, final, rfl⟩
  · cases isMem
  · have sorted := canonical.sorted
    rw [concat_eq_append] at *
    rw [getLast?_concat] at isLast
    cases isLast
    rw [pairwise_append] at sorted
    rcases mem_append.1 isMem with isEarlier | isFinal
    · exact (sorted.2.2 span isEarlier last (.head _)).le
    · rw [mem_singleton.1 isFinal]

/-- Points are between the first and the last height. -/
theorem Canonical.y_of_inside {first last : Span} (isFirst : shape.head? = some first)
    (isLast : shape.getLast? = some last) {x y : Int}
    (isInside : Toggles.inside (rowFrom [] shape y) x = true) : first.y ≤ y ∧ y < last.y := by
  constructor
  · by_contra isLess
    have nothing : rowFrom [] shape y = [] := by
      cases shape with
      | nil => cases isFirst
      | cons head later =>
        cases isFirst
        exact rowFrom_cons_of_lt (not_le.1 isLess)
    rw [nothing] at isInside
    cases isInside
  · by_contra isMore
    have nothing : rowFrom [] shape y = [] := by
      rw [rowFrom, Steps.valueFrom_of_le]
      · exact canonical.ends
      · intro span isMem
        exact (canonical.y_le_last isMem isLast).trans (not_lt.1 isMore)
    rw [nothing] at isInside
    cases isInside

end Canonical

/-- A row that is not empty has a point. -/
theorem Row.exists_inside {segments : List Int} (row : Row segments)
    (notEmpty : segments ≠ []) : ∃ x, Toggles.inside segments x = true := by
  obtain ⟨first, later, rfl⟩ := exists_cons_of_ne_nil notEmpty
  exact ⟨first, Toggles.inside_head row.sorted⟩

theorem isBoundingBox_bounds {shape : Shape} (canonical : Canonical shape)
    (fits : ∀ span ∈ shape, ∀ x ∈ span.segments, intMin ≤ x ∧ x ≤ intMax)
    (notEmpty : shape ≠ []) : IsBoundingBox shape.bounds (points shape) := by
  obtain ⟨first, isFirst⟩ : ∃ first, shape.head? = some first :=
    ⟨_, head?_eq_some_head notEmpty⟩
  obtain ⟨last, isLast⟩ : ∃ last, shape.getLast? = some last :=
    ⟨_, getLast?_eq_some_getLast notEmpty⟩
  obtain ⟨minX, maxX, isResult⟩ : ∃ minX maxX, boundsLoop [] intMax intMin shape =
      (minX, maxX) := ⟨_, _, rfl⟩
  have around := around_boundsLoop shape [] intMax intMin canonical.rows
    fun other isOther => (canonical.last isOther).1
  rw [isResult] at around
  have isBounds : shape.bounds = ⟨minX, first.y, maxX - minX, last.y - first.y⟩ := by
    simp only [bounds, isFirst, isLast, isResult]
  have firstMem : first ∈ shape := mem_of_mem_head? isFirst
  have firstRow := canonical.rows first firstMem
  obtain ⟨firstX, isFirstX⟩ := firstRow.exists_inside (canonical.first_ne_nil isFirst)
  obtain ⟨⟨low, isLow, lowLe⟩, high, isHigh, ltHigh⟩ := firstRow.around isFirstX
  have lowFits := fits first firstMem low isLow
  have highFits := fits first firstMem high isHigh
  have lowAround := around.around first firstMem low isLow
  have highAround := around.around first firstMem high isHigh
  rw [isBounds]
  refine ⟨?_, ?_, ?_, ?_, ?_⟩
  · intro point isPoint
    have between := canonical.y_of_inside isFirst isLast isPoint
    have changed : rowFrom [] shape point.y ≠ [] := by
      intro nothing
      rw [points, Set.mem_ofPred_eq, nothing] at isPoint
      cases isPoint
    obtain ⟨span, isSpan, _, segments⟩ := rowFrom_mem changed
    obtain ⟨⟨left, isLeft, leftLe⟩, right, isRight, ltRight⟩ :=
      (canonical.row point.y).around isPoint
    rw [← segments] at isLeft isRight
    have leftAround := around.around span isSpan left isLeft
    have rightAround := around.around span isSpan right isRight
    simp only [IntRect.maxX, IntRect.maxY] at *
    omega
  · rcases around.first_mem with same | isMem
    · omega
    · obtain ⟨span, isSpan, isX⟩ := mem_flatMap.1 isMem
      refine ⟨⟨minX, span.y⟩, ?_, rfl⟩
      rw [points, Set.mem_ofPred_eq, rowFrom_y canonical.sorted isSpan]
      exact (canonical.rows span isSpan).inside_first isX
        fun x isOther => (around.around span isSpan x isOther).1
  · rcases around.last_mem with same | isMem
    · omega
    · obtain ⟨span, isSpan, isX⟩ := mem_flatMap.1 isMem
      refine ⟨⟨maxX - 1, span.y⟩, ?_, ?_⟩
      · rw [points, Set.mem_ofPred_eq, rowFrom_y canonical.sorted isSpan]
        exact (canonical.rows span isSpan).inside_last isX
          fun x isOther => (around.around span isSpan x isOther).2
      · simp only [IntRect.maxX]
        omega
  · refine ⟨⟨firstX, first.y⟩, ?_, rfl⟩
    rw [points, Set.mem_ofPred_eq, rowFrom_y canonical.sorted firstMem]
    exact isFirstX
  · obtain ⟨x, isInside⟩ := (canonical.row (last.y - 1)).exists_inside (canonical.last isLast).2
    refine ⟨⟨x, last.y - 1⟩, isInside, ?_⟩
    simp only [IntRect.maxY]
    omega

end Shape
end Graphics
end PalmWebKit
