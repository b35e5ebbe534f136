import PalmWebKit.Graphics.RegionQueries

/-!
# Comparing regions

The two comparisons of canonical shapes find out whether the points of one are points
of the other, and whether they have a common point.
-/

namespace PalmWebKit
namespace Graphics
namespace Shape

open List Region

/-! ## The segments of two spans -/

section Segments

variable {aX aMaxX bX bMaxX : Int} {aLater bLater : List Int}

/-- The segments that are left when the one that ends first is passed. -/
def passSegment (compare : CompareOperation) (aX aMaxX : Int) (aLater : List Int) (bX bMaxX : Int)
    (bLater : List Int) : Option Bool :=
  if aMaxX < bMaxX then compareSegments compare aLater (bX :: bMaxX :: bLater)
  else if bMaxX < aMaxX then compareSegments compare (aX :: aMaxX :: aLater) bLater
  else compareSegments compare aLater bLater

theorem compareSegments_contains :
    compareSegments compareContainsOperation (aX :: aMaxX :: aLater) (bX :: bMaxX :: bLater) =
      if bX < aX then some false
      else passSegment compareContainsOperation aX aMaxX aLater bX bMaxX bLater := by
  rw [compareSegments]
  by_cases isOutside : bX < aX
  · simp [returnIf, compareContainsOperation, isOutside]
  · simp only [returnIf, compareContainsOperation, ite_self, isOutside]
    rfl

theorem compareSegments_intersects :
    compareSegments compareIntersectsOperation (aX :: aMaxX :: aLater)
        (bX :: bMaxX :: bLater) =
      if aX < bMaxX ∧ bX < aMaxX then some true
      else passSegment compareIntersectsOperation aX aMaxX aLater bX bMaxX bLater := by
  rw [compareSegments]
  by_cases overlap : aX < bMaxX ∧ bX < aMaxX
  · simp [returnIf, compareIntersectsOperation, overlap]
  · have notBoth : (decide (bMaxX > aX) && decide (bX < aMaxX)) = false := by
      rw [Bool.and_eq_false_iff, decide_eq_false_iff_not, decide_eq_false_iff_not]
      exact not_and_or.1 overlap
    simp only [returnIf, compareIntersectsOperation, ite_self, notBoth, if_neg overlap]
    rfl

end Segments

/-- The result of the loop for `contains`. -/
def ContainsResult (result : Option Bool) (included : Prop) : Prop :=
  (result = none ∧ included) ∨ (result = some false ∧ ¬included)

theorem ContainsResult.congr {result : Option Bool} {included other : Prop}
    (found : ContainsResult result included)
    (same : other ↔ included) : ContainsResult result other := by
  rw [same]
  exact found

/-- The points of one row are points of another. -/
def Included (bSegments aSegments : List Int) : Prop :=
  ∀ x, Toggles.inside bSegments x = true → Toggles.inside aSegments x = true

section Pass

variable
  {aX aMaxX bX bMaxX : Int}
  {aLater bLater : List Int}
  (aRow : Row (aX :: aMaxX :: aLater))
  (bRow : Row (bX :: bMaxX :: bLater))

include aRow bRow

theorem included_pass_first (isLess : aMaxX < bMaxX) :
    Included (bX :: bMaxX :: bLater) (aX :: aMaxX :: aLater) ↔
      Included (bX :: bMaxX :: bLater) aLater := by
  have bLess := (pairwise_cons.1 bRow.sorted).1 bMaxX (.head _)
  constructor
  · intro included
    have isPoint : Toggles.inside (bX :: bMaxX :: bLater) (max bX aMaxX) = true :=
      (inside_cons_cons bRow.sorted).2 (.inl ⟨le_max_left _ _, max_lt bLess isLess⟩)
    have inLater : Toggles.inside aLater (max bX aMaxX) = true := by
      rcases (inside_cons_cons aRow.sorted).1 (included _ isPoint) with isFirst | isLater
      · exact absurd (le_max_right bX aMaxX) (not_le.2 isFirst.2)
      · exact isLater
    obtain ⟨⟨first, isFirst, firstLe⟩, _⟩ := (Row.drop_two aRow).around inLater
    have behind := (pairwise_cons.1 (pairwise_cons.1 aRow.sorted).2).1 first isFirst
    intro x isInside
    have atLeast : bX ≤ x := by
      by_contra isBefore
      rw [inside_before bRow.sorted (not_le.1 isBefore)] at isInside
      cases isInside
    rcases (inside_cons_cons aRow.sorted).1 (included x isInside) with isFirst | isLater
    · omega
    · exact isLater
  · intro included x isInside
    exact (inside_cons_cons aRow.sorted).2 (.inr (included x isInside))

theorem included_pass_second (notOutside : ¬bX < aX) (isLess : bMaxX < aMaxX) :
    Included (bX :: bMaxX :: bLater) (aX :: aMaxX :: aLater) ↔
      Included bLater (aX :: aMaxX :: aLater) := by
  constructor
  · intro included x isInside
    exact included x ((inside_cons_cons bRow.sorted).2 (.inr isInside))
  · intro included x isInside
    rcases (inside_cons_cons bRow.sorted).1 isInside with isFirst | isLater
    · exact (inside_cons_cons aRow.sorted).2 (.inl (by omega))
    · exact included x isLater

theorem included_pass_both (notOutside : ¬bX < aX) (same : aMaxX = bMaxX) :
    Included (bX :: bMaxX :: bLater) (aX :: aMaxX :: aLater) ↔ Included bLater aLater := by
  constructor
  · intro included x isInside
    have behind := le_of_inside_later bRow.sorted isInside
    have isPoint := included x ((inside_cons_cons bRow.sorted).2 (.inr isInside))
    rcases (inside_cons_cons aRow.sorted).1 isPoint with isFirst | isLater
    · omega
    · exact isLater
  · intro included x isInside
    rcases (inside_cons_cons bRow.sorted).1 isInside with isFirst | isLater
    · exact (inside_cons_cons aRow.sorted).2 (.inl (by omega))
    · exact (inside_cons_cons aRow.sorted).2 (.inr (included x isLater))

end Pass

theorem not_included {aSegments bLater : List Int} {bX : Int} (bRow : Row (bX :: bLater))
    (isOutside : ∀ x ∈ aSegments, bX < x) : ¬Included (bX :: bLater) aSegments := by
  intro included
  have isPoint := included bX (Toggles.inside_head bRow.sorted)
  rw [Toggles.inside_of_lt isOutside] at isPoint
  cases isPoint

variable {aSegments bSegments : List Int}

theorem containsResult_compareSegments (aRow : Row aSegments) (bRow : Row bSegments) :
    ContainsResult (compareSegments compareContainsOperation aSegments bSegments)
      (Included bSegments aSegments) := by
  induction size : aSegments.length + bSegments.length using Nat.strongRecOn
    generalizing aSegments bSegments with
  | ind size ih =>
    match aSegments, bSegments with
    | aSegments, [] =>
      refine .inl ⟨?_, fun x isInside => by cases isInside⟩
      match aSegments with
      | [] | [_] | _ :: _ :: _ => simp [compareSegments, returnIf, compareContainsOperation]
    | _, [_] => exact absurd bRow.even (by simp)
    | [_], _ => exact absurd aRow.even (by simp)
    | [], bX :: bMaxX :: bLater =>
      refine .inr ⟨?_, not_included bRow fun x isMem => by cases isMem⟩
      simp [compareSegments, returnIf, compareContainsOperation]
    | aX :: aMaxX :: aLater, bX :: bMaxX :: bLater =>
      rw [compareSegments_contains]
      by_cases isOutside : bX < aX
      · rw [if_pos isOutside]
        exact .inr ⟨rfl, not_included bRow fun x isMem =>
          lt_of_lt_of_le isOutside (le_of_mem_sorted aRow.sorted isMem)⟩
      · simp only [length_cons] at size
        rw [if_neg isOutside, passSegment]
        split
        next isLess =>
          exact (ih _ (by simp only [length_cons]; omega)
            (Row.drop_two aRow) bRow rfl).congr
            (included_pass_first aRow bRow isLess)
        next notLess =>
          split
          next isLess =>
            exact (ih _ (by simp only [length_cons]; omega)
              aRow (Row.drop_two bRow) rfl).congr
              (included_pass_second aRow bRow isOutside isLess)
          next notMore =>
            exact (ih _ (by omega) (Row.drop_two aRow)
              (Row.drop_two bRow) rfl).congr
              (included_pass_both aRow bRow isOutside
                (le_antisymm (not_lt.1 notMore) (not_lt.1 notLess)))

/-- The result of the loop for `intersects`. -/
def IntersectsResult (result : Option Bool) (meets : Prop) : Prop :=
  (result = some true ∧ meets) ∨ (result = none ∧ ¬meets)

theorem IntersectsResult.congr {result : Option Bool} {meets other : Prop}
    (found : IntersectsResult result meets)
    (same : other ↔ meets) : IntersectsResult result other := by
  rw [same]
  exact found

/-- Two rows have a common point. -/
def Meets (aSegments bSegments : List Int) : Prop :=
  ∃ x, Toggles.inside aSegments x = true ∧ Toggles.inside bSegments x = true

section Pass

variable
  {aX aMaxX bX bMaxX : Int}
  {aLater bLater : List Int}
  (aRow : Row (aX :: aMaxX :: aLater))
  (bRow : Row (bX :: bMaxX :: bLater))
  (apart : ¬(aX < bMaxX ∧ bX < aMaxX))

include aRow bRow apart

/-- A common point is behind the segment that ends first. -/
theorem meets_pass {x : Int} (inA : Toggles.inside (aX :: aMaxX :: aLater) x = true)
    (inB : Toggles.inside (bX :: bMaxX :: bLater) x = true) :
    (aMaxX ≤ bMaxX → Toggles.inside aLater x = true) ∧
      (bMaxX ≤ aMaxX → Toggles.inside bLater x = true) := by
  rcases (inside_cons_cons aRow.sorted).1 inA with aFirst | aRest <;>
    rcases (inside_cons_cons bRow.sorted).1 inB with bFirst | bRest
  · omega
  · have behind := le_of_inside_later bRow.sorted bRest
    exact ⟨fun _ => by omega, fun _ => bRest⟩
  · have behind := le_of_inside_later aRow.sorted aRest
    exact ⟨fun _ => aRest, fun _ => by omega⟩
  · exact ⟨fun _ => aRest, fun _ => bRest⟩

end Pass

theorem intersectsResult_compareSegments (aRow : Row aSegments) (bRow : Row bSegments) :
    IntersectsResult (compareSegments compareIntersectsOperation aSegments bSegments)
      (Meets aSegments bSegments) := by
  induction size : aSegments.length + bSegments.length using Nat.strongRecOn
    generalizing aSegments bSegments with
  | ind size ih =>
    rcases bSegments with _ | ⟨bX, _ | ⟨bMaxX, bLater⟩⟩
    · refine .inr ⟨?_, ?_⟩
      · rcases aSegments with _ | ⟨aX, _ | ⟨aMaxX, aLater⟩⟩ <;>
          simp [compareSegments, returnIf, compareIntersectsOperation]
      · rintro ⟨x, _, isInside⟩
        cases isInside
    · exact absurd bRow.even (by simp)
    rcases aSegments with _ | ⟨aX, _ | ⟨aMaxX, aLater⟩⟩
    · refine .inr ⟨?_, ?_⟩
      · simp [compareSegments, returnIf, compareIntersectsOperation]
      · rintro ⟨x, isInside, _⟩
        cases isInside
    · exact absurd aRow.even (by simp)
    · rw [compareSegments_intersects]
      by_cases overlap : aX < bMaxX ∧ bX < aMaxX
      · have aLess := (pairwise_cons.1 aRow.sorted).1 aMaxX (.head _)
        have bLess := (pairwise_cons.1 bRow.sorted).1 bMaxX (.head _)
        rw [if_pos overlap]
        exact .inl ⟨rfl, max aX bX, (inside_cons_cons aRow.sorted).2 (.inl (by omega)),
          (inside_cons_cons bRow.sorted).2 (.inl (by omega))⟩
      · simp only [length_cons] at size
        rw [if_neg overlap, passSegment]
        have inA : ∀ {x}, Toggles.inside aLater x = true →
            Toggles.inside (aX :: aMaxX :: aLater) x = true :=
          fun isInside => (inside_cons_cons aRow.sorted).2 (.inr isInside)
        have inB : ∀ {x}, Toggles.inside bLater x = true →
            Toggles.inside (bX :: bMaxX :: bLater) x = true :=
          fun isInside => (inside_cons_cons bRow.sorted).2 (.inr isInside)
        split
        next isLess =>
          refine (ih _ (by simp only [length_cons]; omega)
            (Row.drop_two aRow) bRow rfl).congr ⟨?_, ?_⟩
          · rintro ⟨x, isA, isB⟩
            exact ⟨x, (meets_pass aRow bRow overlap isA isB).1 isLess.le, isB⟩
          · rintro ⟨x, isA, isB⟩
            exact ⟨x, inA isA, isB⟩
        next notLess =>
          split
          next isLess =>
            refine (ih _ (by simp only [length_cons]; omega)
              aRow (Row.drop_two bRow) rfl).congr ⟨?_, ?_⟩
            · rintro ⟨x, isA, isB⟩
              exact ⟨x, isA, (meets_pass aRow bRow overlap isA isB).2 isLess.le⟩
            · rintro ⟨x, isA, isB⟩
              exact ⟨x, isA, inB isB⟩
          next notMore =>
            have same := le_antisymm (not_lt.1 notMore) (not_lt.1 notLess)
            refine (ih _ (by omega) (Row.drop_two aRow)
              (Row.drop_two bRow) rfl).congr ⟨?_, ?_⟩
            · rintro ⟨x, isA, isB⟩
              have behind := meets_pass aRow bRow overlap isA isB
              exact ⟨x, behind.1 same.le, behind.2 same.ge⟩
            · rintro ⟨x, isA, isB⟩
              exact ⟨x, inA isA, inB isB⟩

/-! ## The spans -/

section Spans

variable
  {compare : CompareOperation}
  {aHad bHad : Bool}
  {a aNext b bNext : Span}
  {aLater bLater : Shape}

/-- The spans that are left when the one that ends first is passed. -/
def passSpan (compare : CompareOperation) (a aNext : Span) (aLater : Shape) (b bNext : Span)
    (bLater : Shape) : Bool :=
  if aNext.y < bNext.y then
    compareSpans compare (!a.segments.isEmpty) (!b.segments.isEmpty) (aNext :: aLater)
      (b :: bNext :: bLater)
  else if bNext.y < aNext.y then
    compareSpans compare (!a.segments.isEmpty) (!b.segments.isEmpty) (a :: aNext :: aLater)
      (bNext :: bLater)
  else
    compareSpans compare (!a.segments.isEmpty) (!b.segments.isEmpty) (aNext :: aLater)
      (bNext :: bLater)

/-- Whether the spans have a common height. -/
def overlap (a aNext b bNext : Span) : Bool := bNext.y > a.y && b.y < aNext.y

theorem compareSpans_intersects {meets : Prop}
    (found : IntersectsResult
      (compareSegments compareIntersectsOperation a.segments b.segments) meets) :
    compareSpans compareIntersectsOperation aHad bHad (a :: aNext :: aLater)
        (b :: bNext :: bLater) = true ↔
      (overlap a aNext b bNext = true ∧ meets) ∨
        passSpan compareIntersectsOperation a aNext aLater b bNext bLater = true := by
  rw [compareSpans]
  simp only [returnIf, compareIntersectsOperation, ite_self] at found ⊢
  cases isOverlap : overlap a aNext b bNext with
  | false =>
    rw [overlap] at isOverlap
    simp only [isOverlap, Bool.false_eq_true, false_and, false_or, if_false]
    rfl
  | true =>
    rw [overlap] at isOverlap
    simp only [isOverlap, if_true]
    rcases found with ⟨isResult, isMet⟩ | ⟨isResult, notMet⟩
    · simp [isResult, isMet]
    · simp only [isResult, notMet, and_false, false_or]
      rfl

theorem compareSpans_contains {included : Prop}
    (found : ContainsResult
      (compareSegments compareContainsOperation a.segments b.segments) included) :
    compareSpans compareContainsOperation aHad bHad (a :: aNext :: aLater)
        (b :: bNext :: bLater) = true ↔
      ¬(b.y < a.y ∧ aHad = false ∧ b.segments ≠ []) ∧ (overlap a aNext b bNext = true → included) ∧
        passSpan compareContainsOperation a aNext aLater b bNext bLater = true := by
  rw [compareSpans]
  simp only [returnIf, compareContainsOperation, ite_self] at found ⊢
  by_cases isOutside : b.y < a.y ∧ aHad = false ∧ b.segments ≠ []
  · simp [isOutside]
  · have notOutside : (decide (b.y < a.y) && !aHad && !b.segments.isEmpty) = false := by
      simpa [and_assoc] using isOutside
    rw [notOutside]
    cases isOverlap : overlap a aNext b bNext with
    | false =>
      rw [overlap] at isOverlap
      simp only [isOverlap, isOutside, Bool.false_eq_true, if_false, not_false_eq_true, true_and,
        false_imp_iff]
      rfl
    | true =>
      rw [overlap] at isOverlap
      simp only [isOverlap, if_true]
      rcases found with ⟨isResult, isIncluded⟩ | ⟨isResult, notIncluded⟩
      · simp only [isResult, isIncluded, isOutside, not_false_eq_true, true_and, imp_self]
        rfl
      · simp [isResult, notIncluded]

end Spans

variable {later : Shape}

/-- The points between the first two spans, and those behind the second one. -/
theorem inside_rowFrom_cons {span next : Span} (isLess : span.y < next.y) {x y : Int} :
    Toggles.inside (rowFrom [] (span :: next :: later) y) x = true ↔
      (span.y ≤ y ∧ y < next.y ∧ Toggles.inside span.segments x = true) ∨
        Toggles.inside (rowFrom [] (next :: later) y) x = true := by
  rcases lt_or_ge y span.y with isBefore | isBehind
  · rw [rowFrom_cons_of_lt isBefore, rowFrom_cons_of_lt (isBefore.trans isLess)]
    simp [not_le.2 isBefore]
  · rw [rowFrom_cons_of_le isBehind]
    rcases lt_or_ge y next.y with isBeforeNext | isBehindNext
    · rw [rowFrom_cons_of_lt isBeforeNext, rowFrom_cons_of_lt isBeforeNext]
      simp [isBehind, isBeforeNext]
    · have same : rowFrom span.segments (next :: later) y = rowFrom [] (next :: later) y :=
        rowFrom_cons_cons isBehindNext
      rw [same]
      simp [not_lt.2 isBehindNext]

theorem y_le_of_inside {span : Span} {x y : Int}
    (isInside : Toggles.inside (rowFrom [] (span :: later) y) x = true) : span.y ≤ y := by
  by_contra isBefore
  rw [rowFrom_cons_of_lt (not_le.1 isBefore)] at isInside
  cases isInside

/-- One span has no points, as it is the last one. -/
theorem rowFrom_singleton {current : List Int} {span : Span}
    (canonical : CanonicalFrom current [span]) (y : Int) : rowFrom [] [span] y = [] := by
  have ends : span.segments = [] := canonical.ends
  rcases lt_or_ge y span.y with isLess | isMore
  · exact rowFrom_cons_of_lt isLess
  · rw [rowFrom_cons_of_le isMore, ends]
    rfl

theorem CanonicalFrom.next_lt {current : List Int} {span next : Span}
    (canonical : CanonicalFrom current (span :: next :: later)) : span.y < next.y :=
  (pairwise_cons.1 canonical.sorted).1 next (.head _)

theorem overlap_iff {a aNext b bNext : Span} :
    overlap a aNext b bNext = true ↔ a.y < bNext.y ∧ b.y < aNext.y := by
  rw [overlap, Bool.and_eq_true, decide_eq_true_eq, decide_eq_true_eq]

/-! ## Common points -/

/-- Two shapes have a common point. -/
def ShapesMeet (aSpans bSpans : Shape) : Prop :=
  ∃ y, Meets (rowFrom [] aSpans y) (rowFrom [] bSpans y)

section Meet

variable
  {aCurrent bCurrent : List Int}
  {a aNext b bNext : Span}
  {aLater bLater : Shape}
  (aCanonical : CanonicalFrom aCurrent (a :: aNext :: aLater))
  (bCanonical : CanonicalFrom bCurrent (b :: bNext :: bLater))

include aCanonical bCanonical

/-- A common point is one of the first spans, or behind the span that ends first. -/
theorem shapesMeet_cons_cons (meet : ShapesMeet (a :: aNext :: aLater) (b :: bNext :: bLater)) :
    (overlap a aNext b bNext = true ∧ Meets a.segments b.segments) ∨
      ∃ x y, Toggles.inside (rowFrom [] (a :: aNext :: aLater) y) x = true ∧
        Toggles.inside (rowFrom [] (b :: bNext :: bLater) y) x = true ∧
        (aNext.y ≤ bNext.y → Toggles.inside (rowFrom [] (aNext :: aLater) y) x = true) ∧
        (bNext.y ≤ aNext.y → Toggles.inside (rowFrom [] (bNext :: bLater) y) x = true) := by
  obtain ⟨y, x, inA, inB⟩ := meet
  rcases (inside_rowFrom_cons aCanonical.next_lt).1 inA with aFirst | aRest <;>
    rcases (inside_rowFrom_cons bCanonical.next_lt).1 inB with bFirst | bRest
  · exact .inl ⟨overlap_iff.2 (by omega), x, aFirst.2.2, bFirst.2.2⟩
  · have behind := y_le_of_inside bRest
    exact .inr ⟨x, y, inA, inB, fun _ => by omega, fun _ => bRest⟩
  · have behind := y_le_of_inside aRest
    exact .inr ⟨x, y, inA, inB, fun _ => aRest, fun _ => by omega⟩
  · exact .inr ⟨x, y, inA, inB, fun _ => aRest, fun _ => bRest⟩

theorem shapesMeet_of_overlap (isOverlap : overlap a aNext b bNext = true)
    (meets : Meets a.segments b.segments) :
    ShapesMeet (a :: aNext :: aLater) (b :: bNext :: bLater) := by
  obtain ⟨x, inA, inB⟩ := meets
  have common := overlap_iff.1 isOverlap
  have aLess := aCanonical.next_lt
  have bLess := bCanonical.next_lt
  exact ⟨max a.y b.y, x, (inside_rowFrom_cons aLess).2 (.inl ⟨le_max_left _ _, by omega, inA⟩),
    (inside_rowFrom_cons bLess).2 (.inl ⟨le_max_right _ _, by omega, inB⟩)⟩

end Meet

variable {aCurrent bCurrent : List Int}

theorem compareSpans_intersects_iff {aSpans bSpans : Shape} {aHad bHad : Bool}
    (aCanonical : CanonicalFrom aCurrent aSpans) (bCanonical : CanonicalFrom bCurrent bSpans) :
    compareSpans compareIntersectsOperation aHad bHad aSpans bSpans = true ↔
      ShapesMeet aSpans bSpans := by
  induction size : aSpans.length + bSpans.length using Nat.strongRecOn
    generalizing aSpans bSpans aCurrent bCurrent aHad bHad with
  | ind size ih =>
    rcases aSpans with _ | ⟨a, _ | ⟨aNext, aLater⟩⟩
    · refine iff_of_false ?_ ?_
      · cases bSpans <;> simp [compareSpans, returnIf, compareIntersectsOperation]
      · rintro ⟨y, x, inA, _⟩
        cases inA
    · refine iff_of_false ?_ ?_
      · cases bSpans <;> simp [compareSpans, returnIf, compareIntersectsOperation]
      · rintro ⟨y, x, inA, _⟩
        rw [rowFrom_singleton aCanonical] at inA
        cases inA
    rcases bSpans with _ | ⟨b, _ | ⟨bNext, bLater⟩⟩
    · refine iff_of_false ?_ ?_
      · simp [compareSpans, returnIf, compareIntersectsOperation]
      · rintro ⟨y, x, _, inB⟩
        cases inB
    · refine iff_of_false ?_ ?_
      · simp [compareSpans, returnIf, compareIntersectsOperation]
      · rintro ⟨y, x, _, inB⟩
        rw [rowFrom_singleton bCanonical] at inB
        cases inB
    · have inA : ∀ {x y}, Toggles.inside (rowFrom [] (aNext :: aLater) y) x = true →
          Toggles.inside (rowFrom [] (a :: aNext :: aLater) y) x = true :=
        fun isInside => (inside_rowFrom_cons aCanonical.next_lt).2 (.inr isInside)
      have inB : ∀ {x y}, Toggles.inside (rowFrom [] (bNext :: bLater) y) x = true →
          Toggles.inside (rowFrom [] (b :: bNext :: bLater) y) x = true :=
        fun isInside => (inside_rowFrom_cons bCanonical.next_lt).2 (.inr isInside)
      rw [compareSpans_intersects (intersectsResult_compareSegments
        (aCanonical.rows a (.head _)) (bCanonical.rows b (.head _)))]
      -- the three passes keep the common points that are not of the first spans
      have passed : passSpan compareIntersectsOperation a aNext aLater b bNext bLater = true ↔
          ∃ x y, Toggles.inside (rowFrom [] (a :: aNext :: aLater) y) x = true ∧
            Toggles.inside (rowFrom [] (b :: bNext :: bLater) y) x = true ∧
            (aNext.y ≤ bNext.y → Toggles.inside (rowFrom [] (aNext :: aLater) y) x = true) ∧
            (bNext.y ≤ aNext.y →
              Toggles.inside (rowFrom [] (bNext :: bLater) y) x = true) := by
        simp only [length_cons] at size
        rw [passSpan]
        split
        next isLess =>
          rw [ih _ (by simp only [length_cons]; omega)
            aCanonical.tail bCanonical rfl]
          constructor
          · rintro ⟨y, x, isA, isB⟩
            exact ⟨x, y, inA isA, isB, fun _ => isA, fun isMore => absurd isLess
              (not_lt.2 isMore)⟩
          · rintro ⟨x, y, _, isB, isA, _⟩
            exact ⟨y, x, isA isLess.le, isB⟩
        next notLess =>
          split
          next isLess =>
            rw [ih _ (by simp only [length_cons]; omega)
              aCanonical bCanonical.tail rfl]
            constructor
            · rintro ⟨y, x, isA, isB⟩
              exact ⟨x, y, isA, inB isB, fun isMore => absurd isLess (not_lt.2 isMore),
                fun _ => isB⟩
            · rintro ⟨x, y, isA, _, _, isB⟩
              exact ⟨y, x, isA, isB isLess.le⟩
          next notMore =>
            rw [ih _ (by simp only [length_cons]; omega)
              aCanonical.tail bCanonical.tail rfl]
            constructor
            · rintro ⟨y, x, isA, isB⟩
              exact ⟨x, y, inA isA, inB isB, fun _ => isA, fun _ => isB⟩
            · rintro ⟨x, y, _, _, isA, isB⟩
              exact ⟨y, x, isA (not_lt.1 notMore), isB (not_lt.1 notLess)⟩
      rw [passed]
      constructor
      · rintro (⟨isOverlap, meets⟩ | ⟨x, y, isA, isB, _⟩)
        · exact shapesMeet_of_overlap aCanonical bCanonical isOverlap meets
        · exact ⟨y, x, isA, isB⟩
      · exact shapesMeet_cons_cons aCanonical bCanonical

/-! ## Inclusion -/

/-- From the first span of one shape on, the other one is inside it. -/
def IncludedFrom (aSpans bSpans : Shape) (start : Int) : Prop :=
  ∀ y, start ≤ y → Included (rowFrom [] bSpans y) (rowFrom [] aSpans y)

/-- Where the loop for `contains` can be: the second shape is ahead of the first span of
the first one, or it has been compared with the span before. -/
structure Swept (aHad : Bool) (a b : Span) (bLater : Shape) : Prop where
  next : ∀ next ∈ bLater, a.y < next.y
  ahead : b.y < a.y → aHad = false → b.segments = []

section Inclusion

variable
  {aCurrent bCurrent : List Int}
  {a aNext b bNext : Span}
  {aLater bLater : Shape}
  (aCanonical : CanonicalFrom aCurrent (a :: aNext :: aLater))
  (bCanonical : CanonicalFrom bCurrent (b :: bNext :: bLater))

include aCanonical bCanonical

theorem included_of_overlap (isOverlap : overlap a aNext b bNext = true)
    (included : IncludedFrom (a :: aNext :: aLater) (b :: bNext :: bLater) a.y) :
    Included b.segments a.segments := by
  intro x inB
  have common := overlap_iff.1 isOverlap
  have aLess := aCanonical.next_lt
  have bLess := bCanonical.next_lt
  have inA := included (max a.y b.y) (le_max_left _ _) x
    ((inside_rowFrom_cons bLess).2 (.inl ⟨le_max_right _ _, by omega, inB⟩))
  rcases (inside_rowFrom_cons aLess).1 inA with isFirst | isLater
  · exact isFirst.2.2
  · have behind := y_le_of_inside isLater
    omega

/-- What is left when the span that ends first is passed. -/
theorem includedFrom_cons_cons (next : a.y < bNext.y) :
    IncludedFrom (a :: aNext :: aLater) (b :: bNext :: bLater) a.y ↔
      (overlap a aNext b bNext = true → Included b.segments a.segments) ∧ (aNext.y ≤ bNext.y →
          IncludedFrom (aNext :: aLater) (b :: bNext :: bLater) aNext.y) ∧
        (bNext.y ≤ aNext.y →
          IncludedFrom (a :: aNext :: aLater) (bNext :: bLater) a.y) := by
  have aLess := aCanonical.next_lt
  have bLess := bCanonical.next_lt
  constructor
  · intro included
    refine ⟨fun isOverlap => included_of_overlap aCanonical bCanonical isOverlap included, ?_, ?_⟩
    · intro _ y behind x inB
      rcases (inside_rowFrom_cons aLess).1 (included y (by omega) x inB) with isFirst | isLater
      · omega
      · exact isLater
    · intro _ y behind x inB
      exact included y behind x ((inside_rowFrom_cons bLess).2 (.inr inB))
  · rintro ⟨first, passA, passB⟩ y behind x inB
    rcases le_total aNext.y bNext.y with isLess | isMore
    · rcases lt_or_ge y aNext.y with isBefore | isBehind
      · rcases (inside_rowFrom_cons bLess).1 inB with isFirst | isLater
        · have isOverlap : overlap a aNext b bNext = true := overlap_iff.2 (by omega)
          exact (inside_rowFrom_cons aLess).2
            (.inl ⟨behind, isBefore, first isOverlap x isFirst.2.2⟩)
        · have later := y_le_of_inside isLater
          omega
      · exact (inside_rowFrom_cons aLess).2 (.inr (passA isLess y isBehind x inB))
    · rcases (inside_rowFrom_cons bLess).1 inB with isFirst | isLater
      · have isOverlap : overlap a aNext b bNext = true := overlap_iff.2 (by omega)
        exact (inside_rowFrom_cons aLess).2
          (.inl ⟨behind, by omega, first isOverlap x isFirst.2.2⟩)
      · exact passB isMore y behind x isLater

/-- Where both spans end together, nothing is left of the first one. -/
theorem includedFrom_both (same : aNext.y = bNext.y) :
    IncludedFrom (aNext :: aLater) (bNext :: bLater) aNext.y ↔
      IncludedFrom (aNext :: aLater) (b :: bNext :: bLater) aNext.y ∧
        IncludedFrom (a :: aNext :: aLater) (bNext :: bLater) a.y := by
  have aLess := aCanonical.next_lt
  have bLess := bCanonical.next_lt
  constructor
  · intro included
    constructor
    · intro y behind x inB
      rcases (inside_rowFrom_cons bLess).1 inB with isFirst | isLater
      · omega
      · exact included y behind x isLater
    · intro y _ x inB
      have behind := y_le_of_inside inB
      exact (inside_rowFrom_cons aLess).2 (.inr (included y (by omega) x inB))
  · rintro ⟨passA, _⟩ y behind x inB
    exact passA y behind x ((inside_rowFrom_cons bLess).2 (.inr inB))

end Inclusion

/-- Two spans or more have a point at the first one or at the second one. -/
theorem not_includedFrom {aSpans : Shape} {bCurrent : List Int} {b bNext : Span} {bLater : Shape}
    {start : Int} (bCanonical : CanonicalFrom bCurrent (b :: bNext :: bLater))
    (nothing : ∀ y, rowFrom [] aSpans y = [])
    (next : start < bNext.y) : ¬IncludedFrom aSpans (b :: bNext :: bLater) start := by
  intro included
  have noPoint : ∀ x y, start ≤ y →
      Toggles.inside (rowFrom [] (b :: bNext :: bLater) y) x ≠ true := by
    intro x y behind isInside
    have inA := included y behind x isInside
    rw [nothing] at inA
    cases inA
  have bLess := bCanonical.next_lt
  by_cases isEmpty : b.segments = []
  · have changed : bNext.segments ≠ [] := isEmpty ▸ bCanonical.changes.2.1
    obtain ⟨x, isInside⟩ := Row.exists_inside
      (bCanonical.rows bNext (.tail _ (.head _))) changed
    have atNext : rowFrom [] (b :: bNext :: bLater) bNext.y = bNext.segments :=
      rowFrom_y bCanonical.sorted (.tail _ (.head _))
    refine noPoint x bNext.y next.le ?_
    rw [atNext]
    exact isInside
  · obtain ⟨x, isInside⟩ := Row.exists_inside (bCanonical.rows b (.head _)) isEmpty
    exact noPoint x (max start b.y) (le_max_left _ _)
      ((inside_rowFrom_cons bLess).2 (.inl ⟨le_max_right _ _, by omega, isInside⟩))

theorem compareSpans_contains_iff {a b : Span} {aLater bLater : Shape} {aHad bHad : Bool}
    (aCanonical : CanonicalFrom aCurrent (a :: aLater))
    (bCanonical : CanonicalFrom bCurrent (b :: bLater)) (swept : Swept aHad a b bLater) :
    compareSpans compareContainsOperation aHad bHad (a :: aLater) (b :: bLater) = true ↔
      IncludedFrom (a :: aLater) (b :: bLater) a.y := by
  induction size : aLater.length + bLater.length using Nat.strongRecOn
    generalizing a b aLater bLater aCurrent bCurrent aHad bHad with
  | ind size ih =>
    rcases bLater with _ | ⟨bNext, bLater⟩
    · refine iff_of_true ?_ fun y _ x inB => ?_
      · cases aLater <;> simp [compareSpans, returnIf, compareContainsOperation]
      · rw [rowFrom_singleton bCanonical] at inB
        cases inB
    rcases aLater with _ | ⟨aNext, aLater⟩
    · refine iff_of_false ?_ (not_includedFrom bCanonical (rowFrom_singleton aCanonical)
        (swept.next bNext (.head _)))
      simp [compareSpans, returnIf, compareContainsOperation]
    · have next := swept.next bNext (.head _)
      have bBehind := (pairwise_cons.1 (pairwise_cons.1 bCanonical.sorted).2).1
      have notOutside : ¬(b.y < a.y ∧ aHad = false ∧ b.segments ≠ []) := by
        rintro ⟨isBefore, notHad, notEmpty⟩
        exact notEmpty (swept.ahead isBefore notHad)
      rw [compareSpans_contains (containsResult_compareSegments
        (aCanonical.rows a (.head _)) (bCanonical.rows b (.head _))),
        includedFrom_cons_cons aCanonical bCanonical next]
      refine (and_iff_right notOutside).trans (and_congr_right fun first => ?_)
      simp only [length_cons] at size
      rw [passSpan]
      split
      next isLess =>
        have sweptNext : Swept (!a.segments.isEmpty) aNext b (bNext :: bLater) := by
          constructor
          · intro span isMem
            rcases mem_cons.1 isMem with rfl | isLater
            · exact isLess
            · exact isLess.trans (bBehind span isLater)
          · intro isBefore notHad
            have aEmpty : a.segments = [] := by simpa using notHad
            have included := first (overlap_iff.2 ⟨next, isBefore⟩)
            by_contra notEmpty
            obtain ⟨x, inB⟩ := Row.exists_inside (bCanonical.rows b (.head _)) notEmpty
            have inA := included x inB
            rw [aEmpty] at inA
            cases inA
        rw [ih _ (by simp only [length_cons]; omega)
          aCanonical.tail bCanonical sweptNext rfl]
        exact ⟨fun included => ⟨fun _ => included, fun isMore =>
          absurd isLess (not_lt.2 isMore)⟩, fun included => included.1 isLess.le⟩
      next notLess =>
        split
        next isLess =>
          have sweptNext : Swept (!a.segments.isEmpty) a bNext bLater :=
            ⟨fun span isLater => next.trans (bBehind span isLater),
              fun isBefore => absurd next (not_lt.2 isBefore.le)⟩
          rw [ih _ (by simp only [length_cons]; omega)
            aCanonical bCanonical.tail sweptNext rfl]
          exact ⟨fun included => ⟨fun isMore => absurd isLess (not_lt.2 isMore),
            fun _ => included⟩, fun included => included.2 isLess.le⟩
        next notMore =>
          have same := le_antisymm (not_lt.1 notMore) (not_lt.1 notLess)
          have sweptNext : Swept (!a.segments.isEmpty) aNext bNext bLater :=
            ⟨fun span isLater => same ▸ bBehind span isLater,
              fun isBefore => absurd same isBefore.ne'⟩
          rw [ih _ (by omega) aCanonical.tail bCanonical.tail
            sweptNext rfl, includedFrom_both aCanonical bCanonical same]
          exact ⟨fun included => ⟨fun _ => included.1, fun _ => included.2⟩,
            fun included => ⟨included.1 same.le, included.2 same.ge⟩⟩

end Shape
end Graphics
end PalmWebKit
