import PalmWebKit.Logic.Steps
import PalmWebKit.Graphics.RegionSegments

/-!
# The spans of a shape

The loop over the spans of two shapes gives a canonical shape, and its row at every
height is the two rows combined.
-/

namespace PalmWebKit
namespace Graphics
namespace Shape

open List

/-- The segments at a height, behind a span with the current ones. -/
def rowFrom (current : List Int) (spans : Shape) (y : Int) : List Int :=
  Steps.valueFrom Span.y Span.segments current spans y

/-- The segments of the last span. -/
def lastRow (current : List Int) (spans : Shape) : List Int :=
  Steps.lastValue Span.segments current spans

/-- The spans behind one with the current segments. -/
structure CanonicalFrom (current : List Int) (spans : Shape) : Prop where
  sorted : spans.Pairwise fun span later => span.y < later.y
  rows : ∀ span ∈ spans, Row span.segments
  changes : Steps.Alternating Span.segments current spans
  ends : lastRow current spans = []

/-- The only shape of a set of points. -/
def Canonical (shape : Shape) : Prop := CanonicalFrom [] shape

/-- The points of a shape. -/
def points (shape : Shape) : Set IntPoint :=
  {point | Toggles.inside (rowFrom [] shape point.y) point.x = true}

variable
  {current : List Int}
  {span : Span}
  {later : Shape}

theorem CanonicalFrom.tail (canonical : CanonicalFrom current (span :: later)) :
    CanonicalFrom span.segments later := by
  refine ⟨(pairwise_cons.1 canonical.sorted).2, ?_, canonical.changes.2, ?_⟩
  · intro other isMem
    exact canonical.rows other (.tail span isMem)
  · rw [← canonical.ends]
    exact Steps.lastValue_cons.symm

variable {y : Int}

theorem rowFrom_cons_of_le (atY : span.y ≤ y) :
    rowFrom current (span :: later) y = rowFrom span.segments later y :=
  Steps.valueFrom_cons_of_le atY

theorem rowFrom_of_lt {spans : Shape}
    (isBefore : ∀ span ∈ spans, y < span.y) : rowFrom current spans y = current :=
  Steps.valueFrom_of_lt isBefore

theorem rowFrom_cons_of_lt (isBefore : y < span.y) : rowFrom current (span :: later) y = current :=
  Steps.valueFrom_cons_of_lt isBefore

theorem y_le_of_mem {span other : Span}
    (sorted : (span :: later).Pairwise fun span later => span.y < later.y)
    (isMem : other ∈ span :: later) : span.y ≤ other.y := by
  rcases mem_cons.1 isMem with rfl | isLater
  · exact le_rfl
  · exact ((pairwise_cons.1 sorted).1 other isLater).le

/-! ## Appending -/

theorem canCoalesce_iff {shape : Shape} {segments : List Int} (notEmpty : shape ≠ []) :
    shape.canCoalesce segments = true ↔ segments = lastRow [] shape := by
  obtain ⟨last, isLast⟩ : ∃ last, shape.getLast? = some last :=
    ⟨_, getLast?_eq_some_getLast notEmpty⟩
  rw [canCoalesce, lastRow, Steps.lastValue, isLast]
  simp only [beq_iff_eq, Option.map_some, Option.getD_some]
  exact eq_comm

theorem appendSpan_of_ne {shape : Shape} {segments : List Int}
    (changes : segments ≠ lastRow [] shape) :
    shape.appendSpan y segments = shape ++ [⟨y, segments⟩] := by
  cases shape with
  | nil => rfl
  | cons first later =>
    rw [appendSpan, if_neg]
    rw [canCoalesce_iff (cons_ne_nil _ _)]
    exact changes

/-- The turn of the loop that adds a span. -/
theorem addSpan_eq (result : Shape) (y : Int) (segments : List Int) :
    (if ¬segments.isEmpty ∨ ¬result.isEmpty then result.appendSpan y segments else result) =
      if segments = lastRow [] result then result else result ++ [⟨y, segments⟩] := by
  by_cases same : segments = lastRow [] result
  · rw [if_pos same]
    cases result with
    | nil =>
      subst same
      rfl
    | cons first later =>
      rw [if_pos (Or.inr (by simp)), appendSpan,
        if_pos ((canCoalesce_iff (cons_ne_nil _ _)).2 same)]
  · rw [if_neg same, appendSpan_of_ne same, if_pos]
    cases result with
    | nil =>
      left
      intro isEmpty
      exact same (isEmpty_iff.1 isEmpty)
    | cons first later => exact .inr (by simp)

theorem appendSpans_eq {result spans : Shape}
    (changes : Steps.Alternating Span.segments (lastRow [] result) spans) :
    result.appendSpans spans = result ++ spans := by
  induction spans generalizing result with
  | nil => rw [appendSpans, append_nil]
  | cons span later ih =>
    have changed : lastRow [] (result ++ [span]) = span.segments := Steps.lastValue_append_singleton
    rw [appendSpans, appendSpan_of_ne changes.1,
      ih (by rw [changed]; exact changes.2), append_assoc]
    rfl

/-! ## The loop over the spans -/

/-- What the loop appends from a turn on. -/
structure Sweeps (op : Operation) (current1 current2 : List Int)
    (spans1 spans2 tail : Shape) : Prop where
  mem : ∀ span ∈ tail, ∃ other, (other ∈ spans1 ∨ other ∈ spans2) ∧ span.y = other.y
  canonical : CanonicalFrom (operateSegments op 0 current1 current2) tail
  row : ∀ y, rowFrom (operateSegments op 0 current1 current2) tail y =
    operateSegments op 0 (rowFrom current1 spans1 y) (rowFrom current2 spans2 y)

section Turns

variable
  {op : Operation}
  {current1 current2 : List Int}
  {result later1 later2 : Shape}
  {span1 span2 : Span}

/-- The result behind a turn. -/
def swept (result : Shape) (y : Int) (segments : List Int) : Shape :=
  if segments = lastRow [] result then result else result ++ [⟨y, segments⟩]

theorem operateSpans_lt (isBefore : span1.y < span2.y) :
    operateSpans op current1 current2 result (span1 :: later1) (span2 :: later2) =
      operateSpans op span1.segments current2
        (swept result span1.y (operateSegments op 0 span1.segments current2))
        later1 (span2 :: later2) := by
  have notBehind : ¬span1.y - span2.y ≥ 0 := by omega
  have atMost : span1.y - span2.y ≤ 0 := by omega
  rw [operateSpans]
  simp only [if_pos atMost, if_neg notBehind, addSpan_eq]
  rfl

theorem operateSpans_gt (isBehind : span2.y < span1.y) :
    operateSpans op current1 current2 result (span1 :: later1) (span2 :: later2) =
      operateSpans op current1 span2.segments
        (swept result span2.y (operateSegments op 0 current1 span2.segments))
        (span1 :: later1) later2 := by
  have notBefore : ¬span1.y - span2.y ≤ 0 := by omega
  have atLeast : span1.y - span2.y ≥ 0 := by omega
  rw [operateSpans]
  simp only [if_pos atLeast, if_neg notBefore, addSpan_eq]
  rfl

theorem operateSpans_eq (same : span1.y = span2.y) :
    operateSpans op current1 current2 result (span1 :: later1) (span2 :: later2) =
      operateSpans op span1.segments span2.segments
        (swept result span1.y (operateSegments op 0 span1.segments span2.segments))
        later1 later2 := by
  have atMost : span1.y - span2.y ≤ 0 := by omega
  have atLeast : span1.y - span2.y ≥ 0 := by omega
  rw [operateSpans]
  simp only [if_pos atLeast, if_pos atMost, addSpan_eq]
  rw [← same]
  rfl

theorem operateSpans_nil_left (spans2 : Shape) :
    operateSpans op current1 current2 result [] spans2 =
      if op.shouldAddRemainingSpansFromShape2 then result.appendSpans spans2
      else result := by
  cases spans2 with
  | nil =>
    cases add : op.shouldAddRemainingSpansFromShape2 <;>
      simp [operateSpans, appendSpans]
  | cons span2 later2 =>
    cases add : op.shouldAddRemainingSpansFromShape2 <;> simp [operateSpans, add]

theorem operateSpans_nil_right (spans1 : Shape) :
    operateSpans op current1 current2 result spans1 [] =
      if op.shouldAddRemainingSpansFromShape1 then result.appendSpans spans1
      else result := by
  cases spans1 with
  | nil =>
    cases add : op.shouldAddRemainingSpansFromShape1 <;>
      simp [operateSpans, appendSpans]
  | cons span1 later1 =>
    cases add : op.shouldAddRemainingSpansFromShape1 <;> simp [operateSpans, add]

theorem lastRow_swept (y : Int) (segments : List Int) :
    lastRow [] (swept result y segments) = segments := by
  unfold swept
  split
  next same => exact same.symm
  next => exact Steps.lastValue_append_singleton

theorem swept_append (y : Int) (segments : List Int) (tail : Shape) :
    swept result y segments ++ tail =
      result ++ if segments = lastRow [] result then tail else ⟨y, segments⟩ :: tail := by
  unfold swept
  split
  · rfl
  · rw [append_assoc]
    rfl

/-- A turn at the lowest height. -/
theorem Sweeps.turn {new1 new2 : List Int} {spans1 spans2 tail : Shape} {y : Int}
    (mem : ∀ span, (span ∈ later1 ∨ span ∈ later2) → span ∈ spans1 ∨ span ∈ spans2)
    (atY : ∃ other, (other ∈ spans1 ∨ other ∈ spans2) ∧ y = other.y)
    (isBefore : ∀ span, (span ∈ later1 ∨ span ∈ later2) → y < span.y)
    (before : ∀ point, point < y →
      rowFrom current1 spans1 point = current1 ∧ rowFrom current2 spans2 point = current2)
    (behind : ∀ point, y ≤ point → rowFrom current1 spans1 point = rowFrom new1 later1 point ∧
        rowFrom current2 spans2 point = rowFrom new2 later2 point)
    (row : Row (operateSegments op 0 new1 new2))
    (sweeps : Sweeps op new1 new2 later1 later2 tail) : Sweeps op current1 current2 spans1 spans2
      (if operateSegments op 0 new1 new2 = operateSegments op 0 current1 current2
        then tail else ⟨y, operateSegments op 0 new1 new2⟩ :: tail) := by
  have later : ∀ span ∈ tail, y < span.y := by
    intro span isTail
    obtain ⟨other, isOther, same⟩ := sweeps.mem span isTail
    rw [same]
    exact isBefore other isOther
  have fromTail : ∀ span ∈ tail, ∃ other, (other ∈ spans1 ∨ other ∈ spans2) ∧
      span.y = other.y := by
    intro span isTail
    obtain ⟨other, isOther, same⟩ := sweeps.mem span isTail
    exact ⟨other, mem other isOther, same⟩
  by_cases same : operateSegments op 0 new1 new2 = operateSegments op 0 current1 current2
  · rw [if_pos same]
    refine ⟨fromTail, same ▸ sweeps.canonical, fun point => ?_⟩
    rcases lt_or_ge point y with isLess | isMore
    · rw [(before point isLess).1, (before point isLess).2,
        rowFrom_of_lt fun span isTail => isLess.trans (later span isTail)]
    · rw [(behind point isMore).1, (behind point isMore).2, ← same, sweeps.row]
  · rw [if_neg same]
    refine ⟨?_, ⟨?_, ?_, ⟨same, sweeps.canonical.changes⟩, ?_⟩, fun point => ?_⟩
    · intro span isMem
      rcases mem_cons.1 isMem with rfl | isTail
      · exact atY
      · exact fromTail span isTail
    · exact pairwise_cons.2 ⟨later, sweeps.canonical.sorted⟩
    · intro span isMem
      rcases mem_cons.1 isMem with rfl | isTail
      · exact row
      · exact sweeps.canonical.rows span isTail
    · rw [lastRow, Steps.lastValue_cons]
      exact sweeps.canonical.ends
    · rcases lt_or_ge point y with isLess | isMore
      · rw [(before point isLess).1, (before point isLess).2, rowFrom_of_lt]
        intro span isMem
        rcases mem_cons.1 isMem with rfl | isTail
        · exact isLess
        · exact isLess.trans (later span isTail)
      · rw [rowFrom_cons_of_le isMore, (behind point isMore).1, (behind point isMore).2, sweeps.row]

end Turns

theorem sweeps_operateSpans {op : Operation} {combine : Bool → Bool → Bool}
    (computes : op.Computes combine) {current1 current2 : List Int}
    {result spans1 spans2 : Shape} (row1 : Row current1) (row2 : Row current2)
    (canonical1 : CanonicalFrom current1 spans1) (canonical2 : CanonicalFrom current2 spans2)
    (last : lastRow [] result = operateSegments op 0 current1 current2) :
    ∃ tail, operateSpans op current1 current2 result spans1 spans2 = result ++ tail ∧
      Sweeps op current1 current2 spans1 spans2 tail := by
  induction size : spans1.length + spans2.length using Nat.strongRecOn
    generalizing current1 current2 result spans1 spans2 with
  | ind size ih =>
    match spans1, spans2 with
    | [], spans2 =>
      have nothing : current1 = [] := canonical1.ends
      subst nothing
      rw [operateSegments_nil_left] at last
      cases add : op.shouldAddRemainingSegmentsFromSpan2 with
      | true =>
        rw [if_pos add] at last
        refine ⟨spans2, ?_, ⟨fun span isMem => ⟨span, .inr isMem, rfl⟩, ?_, fun y => ?_⟩⟩
        · rw [operateSpans_nil_left, computes.spans2, if_pos add,
            appendSpans_eq (by rw [last]; exact canonical2.changes)]
        · rw [operateSegments_nil_left, if_pos add]
          exact canonical2
        · rw [operateSegments_nil_left, if_pos add]
          exact ((operateSegments_nil_left _).trans (if_pos add)).symm
      | false =>
        have notAdd := Bool.eq_false_iff.1 add
        refine ⟨[], ?_, ⟨fun span isMem => absurd isMem not_mem_nil, ?_, fun y => ?_⟩⟩
        · rw [operateSpans_nil_left, computes.spans2, if_neg notAdd, append_nil]
        · rw [operateSegments_nil_left, if_neg notAdd]
          exact canonical1
        · rw [operateSegments_nil_left, if_neg notAdd]
          exact ((operateSegments_nil_left _).trans (if_neg notAdd)).symm
    | span1 :: later1, [] =>
      have nothing : current2 = [] := canonical2.ends
      subst nothing
      rw [operateSegments_nil_right] at last
      cases add : op.shouldAddRemainingSegmentsFromSpan1 with
      | true =>
        rw [if_pos add] at last
        refine ⟨span1 :: later1, ?_, ⟨fun span isMem => ⟨span, .inl isMem, rfl⟩, ?_,
          fun y => ?_⟩⟩
        · rw [operateSpans_nil_right, computes.spans1, if_pos add,
            appendSpans_eq (by rw [last]; exact canonical1.changes)]
        · rw [operateSegments_nil_right, if_pos add]
          exact canonical1
        · rw [operateSegments_nil_right, if_pos add]
          exact ((operateSegments_nil_right _).trans (if_pos add)).symm
      | false =>
        have notAdd := Bool.eq_false_iff.1 add
        refine ⟨[], ?_, ⟨fun span isMem => absurd isMem not_mem_nil, ?_, fun y => ?_⟩⟩
        · rw [operateSpans_nil_right, computes.spans1, if_neg notAdd, append_nil]
        · rw [operateSegments_nil_right, if_neg notAdd]
          exact canonical2
        · rw [operateSegments_nil_right, if_neg notAdd]
          exact ((operateSegments_nil_right _).trans (if_neg notAdd)).symm
    | span1 :: later1, span2 :: later2 =>
      have above1 := pairwise_cons.1 canonical1.sorted
      have above2 := pairwise_cons.1 canonical2.sorted
      have newRow1 := canonical1.rows span1 (.head _)
      have newRow2 := canonical2.rows span2 (.head _)
      rcases lt_trichotomy span1.y span2.y with isBefore | same | isBehind
      · obtain ⟨tail, isTail, sweeps⟩ := ih
          (later1.length + (span2 :: later2).length)
          (by simp only [← size, length_cons]; omega) newRow1 row2 canonical1.tail
          canonical2 (lastRow_swept span1.y _) rfl
        rw [operateSpans_lt isBefore, isTail, swept_append, last]
        refine ⟨_, rfl, Sweeps.turn ?_ ⟨span1, .inl (.head _), rfl⟩ ?_ ?_ ?_
          (row_operateSegments computes newRow1 row2) sweeps⟩
        · rintro span (isLater | isLater)
          · exact .inl (.tail span1 isLater)
          · exact .inr isLater
        · rintro span (isLater | isLater)
          · exact above1.1 span isLater
          · exact lt_of_lt_of_le isBefore (y_le_of_mem canonical2.sorted isLater)
        · intro y isLess
          exact ⟨rowFrom_cons_of_lt isLess, rowFrom_cons_of_lt (isLess.trans isBefore)⟩
        · intro y isMore
          exact ⟨rowFrom_cons_of_le isMore, rfl⟩
      · obtain ⟨tail, isTail, sweeps⟩ := ih (later1.length + later2.length)
          (by simp only [← size, length_cons]; omega) newRow1 newRow2 canonical1.tail
          canonical2.tail (lastRow_swept span1.y _) rfl
        rw [operateSpans_eq same, isTail, swept_append, last]
        refine ⟨_, rfl, Sweeps.turn ?_ ⟨span1, .inl (.head _), rfl⟩ ?_ ?_ ?_
          (row_operateSegments computes newRow1 newRow2) sweeps⟩
        · rintro span (isLater | isLater)
          · exact .inl (.tail span1 isLater)
          · exact .inr (.tail span2 isLater)
        · rintro span (isLater | isLater)
          · exact above1.1 span isLater
          · rw [same]
            exact above2.1 span isLater
        · intro y isLess
          exact ⟨rowFrom_cons_of_lt isLess, rowFrom_cons_of_lt (by rwa [← same])⟩
        · intro y isMore
          exact ⟨rowFrom_cons_of_le isMore, rowFrom_cons_of_le (by rwa [← same])⟩
      · obtain ⟨tail, isTail, sweeps⟩ := ih
          ((span1 :: later1).length + later2.length)
          (by simp only [← size, length_cons]; omega) row1 newRow2 canonical1
          canonical2.tail (lastRow_swept span2.y _) rfl
        rw [operateSpans_gt isBehind, isTail, swept_append, last]
        refine ⟨_, rfl, Sweeps.turn ?_ ⟨span2, .inr (.head _), rfl⟩ ?_ ?_ ?_
          (row_operateSegments computes row1 newRow2) sweeps⟩
        · rintro span (isLater | isLater)
          · exact .inl isLater
          · exact .inr (.tail span2 isLater)
        · rintro span (isLater | isLater)
          · exact lt_of_lt_of_le isBehind (y_le_of_mem canonical1.sorted isLater)
          · exact above2.1 span isLater
        · intro y isLess
          exact ⟨rowFrom_cons_of_lt (isLess.trans isBehind), rowFrom_cons_of_lt isLess⟩
        · intro y isMore
          exact ⟨rfl, rowFrom_cons_of_le isMore⟩

/-! ## The operations -/

theorem row_rowFrom {spans : Shape} (row : Row current) (rows : ∀ span ∈ spans, Row span.segments)
    (y : Int) : Row (rowFrom current spans y) := by
  induction spans generalizing current with
  | nil => exact row
  | cons span later ih =>
    rcases lt_or_ge y span.y with isLess | isMore
    · rw [rowFrom_cons_of_lt isLess]
      exact row
    · rw [rowFrom_cons_of_le isMore]
      exact ih (rows span (.head _))
        fun other isLater => rows other (.tail span isLater)

theorem operateSegments_nil (op : Operation) : operateSegments op 0 [] [] = [] := by
  rw [operateSegments_nil_left, ite_self]

section Computes

variable
  {op : Operation}
  {combine : Bool → Bool → Bool}
  (computes : op.Computes combine)
  {shape1 shape2 : Shape}
  (canonical1 : Canonical shape1)
  (canonical2 : Canonical shape2)

include computes canonical1 canonical2

theorem sweeps_shape : Sweeps op [] [] shape1 shape2 (operateSpans op [] [] [] shape1 shape2) := by
  obtain ⟨tail, isTail, sweeps⟩ := @sweeps_operateSpans op combine computes [] [] []
    shape1 shape2 Row.nil Row.nil canonical1 canonical2 (operateSegments_nil op).symm
  rw [isTail]
  exact sweeps

theorem canonical_operateSpans : Canonical (operateSpans op [] [] [] shape1 shape2) := by
  have canonical := (sweeps_shape computes canonical1 canonical2).canonical
  rw [operateSegments_nil] at canonical
  exact canonical

theorem inside_operateSpans (x y : Int) :
    Toggles.inside (rowFrom [] (operateSpans op [] [] [] shape1 shape2) y) x =
      combine (Toggles.inside (rowFrom [] shape1 y) x)
        (Toggles.inside (rowFrom [] shape2 y) x) := by
  have row := (sweeps_shape computes canonical1 canonical2).row y
  rw [operateSegments_nil] at row
  rw [row]
  exact inside_operateSegments computes (row_rowFrom Row.nil canonical1.rows y)
    (row_rowFrom Row.nil canonical2.rows y) x

end Computes

theorem canonical_nil : Canonical [] :=
  ⟨.nil, fun _ isMem => absurd isMem not_mem_nil, trivial, rfl⟩

theorem points_nil : points [] = ∅ := by
  ext point
  exact iff_of_false Bool.false_ne_true (Set.notMem_empty point)

section Operations

variable {shape1 shape2 : Shape} (canonical1 : Canonical shape1) (canonical2 : Canonical shape2)

include canonical1 canonical2

theorem unionShapes_spec : Canonical (unionShapes shape1 shape2) ∧
      points (unionShapes shape1 shape2) = points shape1 ∪ points shape2 := by
  cases shape1 with
  | nil => exact ⟨canonical2, by rw [points_nil, Set.empty_union]; rfl⟩
  | cons span later =>
    refine ⟨canonical_operateSpans unionOperation_computes canonical1 canonical2, ?_⟩
    ext point
    have combined := inside_operateSpans unionOperation_computes canonical1 canonical2
      point.x point.y
    exact (Bool.eq_iff_iff.1 combined).trans (Bool.or_eq_true _ _).to_iff

theorem intersectShapes_spec : Canonical (intersectShapes shape1 shape2) ∧
      points (intersectShapes shape1 shape2) = points shape1 ∩ points shape2 := by
  refine ⟨canonical_operateSpans intersectOperation_computes canonical1 canonical2, ?_⟩
  ext point
  have combined := inside_operateSpans intersectOperation_computes canonical1 canonical2
    point.x point.y
  exact (Bool.eq_iff_iff.1 combined).trans (Bool.and_eq_true _ _).to_iff

theorem subtractShapes_spec : Canonical (subtractShapes shape1 shape2) ∧
      points (subtractShapes shape1 shape2) = points shape1 \ points shape2 := by
  refine ⟨canonical_operateSpans subtractOperation_computes canonical1 canonical2, ?_⟩
  ext point
  have combined := inside_operateSpans subtractOperation_computes canonical1 canonical2
    point.x point.y
  refine (Bool.eq_iff_iff.1 combined).trans ?_
  rw [Bool.and_eq_true, Bool.not_eq_true']
  exact and_congr_right fun _ => Bool.eq_false_iff

end Operations

/-- A canonical shape is determined by its points. -/
theorem eq_of_points {shape other : Shape} (canonical : Canonical shape)
    (otherCanonical : Canonical other) (same : points shape = points other) : shape = other := by
  apply Steps.eq_of_valueFrom _ canonical.sorted otherCanonical.sorted canonical.changes
    otherCanonical.changes
  · intro y
    apply Toggles.eq_of_inside (row_rowFrom Row.nil canonical.rows y).sorted
      (row_rowFrom Row.nil otherCanonical.rows y).sorted
    intro x
    exact Bool.eq_iff_iff.2 (Set.ext_iff.1 same ⟨x, y⟩)
  · rintro ⟨y, segments⟩ ⟨_, _⟩ rfl rfl
    rfl

end Shape
end Graphics
end PalmWebKit
