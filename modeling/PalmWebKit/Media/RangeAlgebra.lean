import PalmWebKit.Media.RangeUnion

/-!
# The set algebra of time ranges

Unions are exact.  `invert` closes the two ends of the complement at the truth
value of a comparison, which is `1`, and `intersectWith` inverts the union.
-/

namespace PalmWebKit
namespace Media

open List

namespace TimeRanges

section Gaps

variable {Time : Type*} {ranges : TimeRanges Time}

/-- A gap is between two of the ranges. -/
theorem exists_of_mem_gaps {gap : Range Time} (member : gap ∈ ranges.gaps) :
    ∃ earlier ∈ ranges, ∃ later ∈ ranges, gap = ⟨earlier.end_, later.start⟩ := by
  induction ranges with
  | nil => exact absurd member not_mem_nil
  | cons range ranges ih =>
    cases ranges with
    | nil => exact absurd member not_mem_nil
    | cons second ranges =>
      rcases mem_cons.1 member with rfl | isLater
      · exact ⟨range, .head _, second,
          .tail range (.head _), rfl⟩
      · obtain ⟨earlier, isEarlier, later, isLater, same⟩ := ih isLater
        exact ⟨earlier, .tail range isEarlier, later,
          .tail range isLater, same⟩

variable [LinearOrder Time]
variable {first last range : Range Time} {time : Time}

theorem start_le_of_head? (normalised : Normalised ranges) (isFirst : ranges.head? = some first)
    (member : range ∈ ranges) : first.start ≤ range.start := by
  obtain ⟨rest, rfl⟩ := head?_eq_some_iff.1 isFirst
  obtain ⟨ordered, -, isBefore⟩ := normalised_cons.1 normalised
  rcases mem_cons.1 member with rfl | isLater
  · exact le_rfl
  · exact ordered.trans (isBefore range isLater).le

theorem end_le_of_getLast? (normalised : Normalised ranges) (isLast : ranges.getLast? = some last)
    (member : range ∈ ranges) : range.end_ ≤ last.end_ := by
  obtain ⟨rest, rfl⟩ := getLast?_eq_some_iff.1 isLast
  obtain ⟨-, lastNormalised, isBefore⟩ := normalised_append.1 normalised
  rcases mem_append.1 member with isEarlier | isLast
  · have between := isBefore range isEarlier last (.head _)
    exact between.le.trans (lastNormalised.ordered last (.head _))
  · rw [mem_singleton.1 isLast]

theorem gaps_ordered (normalised : Normalised ranges) :
    ∀ gap ∈ ranges.gaps, gap.start ≤ gap.end_ := by
  induction ranges with
  | nil => exact fun _ member => absurd member not_mem_nil
  | cons range ranges ih =>
    obtain ⟨-, laterNormalised, isBefore⟩ := normalised_cons.1 normalised
    cases ranges with
    | nil => exact fun _ member => absurd member not_mem_nil
    | cons second ranges =>
      exact forall_mem_cons.2
        ⟨(isBefore second (.head _)).le, ih laterNormalised⟩

/-- A time that is not covered is before the first range, behind the last one or
in a gap. -/
theorem not_covers_iff (normalised : Normalised ranges) (isFirst : ranges.head? = some first)
    (isLast : ranges.getLast? = some last) : ¬Covers ranges time ↔
      time < first.start ∨ Covers ranges.gaps time ∨ last.end_ ≤ time := by
  induction ranges generalizing first with
  | nil => cases isFirst
  | cons range ranges ih =>
    obtain ⟨ordered, laterNormalised, isBefore⟩ := normalised_cons.1 normalised
    cases isFirst
    cases ranges with
    | nil =>
      cases isLast
      simp only [covers_cons, not_covers_nil, gaps, false_or, or_false, not_and_or, not_le, not_lt]
      rfl
    | cons second ranges =>
      have between := isBefore second (.head _)
      have later := ih laterNormalised rfl
        (getLast?_cons_cons.symm.trans isLast)
      have isBehind : range.end_ ≤ last.end_ :=
        end_le_of_getLast? normalised isLast (.head _)
      rw [covers_cons, not_or, later, gaps, covers_cons]
      constructor
      · rintro ⟨outside, beforeSecond | inGap | behind⟩
        · rcases lt_or_ge time range.start with isEarly | isInside
          · exact .inl isEarly
          · exact .inr (.inl (.inl ⟨not_lt.1 fun before =>
              outside ⟨isInside, before⟩, beforeSecond⟩))
        · exact .inr (.inl (.inr inGap))
        · exact .inr (.inr behind)
      · rintro (isEarly | (⟨isBehindFirst, beforeSecond⟩ | inGap) | behind)
        · exact ⟨fun inside => absurd inside.1 (not_le.2 isEarly),
            .inl (isEarly.trans_le (ordered.trans between.le))⟩
        · exact ⟨fun inside => absurd inside.2 (not_lt.2 isBehindFirst), .inl beforeSecond⟩
        · refine ⟨fun inside => ?_, .inr (.inl inGap)⟩
          obtain ⟨gap, isGap, isAfter, -⟩ := inGap
          obtain ⟨earlier, member, _, _, rfl⟩ := exists_of_mem_gaps isGap
          have isBehindFirst := (isBefore earlier member).trans_le
            (laterNormalised.ordered earlier member)
          exact absurd inside.2 (not_lt.2 (isBehindFirst.le.trans isAfter))
        · exact ⟨fun inside => absurd inside.2 (not_lt.2 (isBehind.trans behind)),
            .inr (.inr behind)⟩

def IsEndPoint (ranges : TimeRanges Time) (time : Time) : Prop :=
  ∃ range ∈ ranges, time = range.start ∨ time = range.end_

instance : Decidable (IsEndPoint ranges time) := inferInstanceAs (Decidable (∃ range ∈ ranges, _))

theorem not_isEndPoint (normalised : Normalised ranges) (member : range ∈ ranges)
    (isAfter : range.start < time) (isBefore : time < range.end_) : ¬IsEndPoint ranges time := by
  rintro ⟨other, otherMember, isEnd⟩
  obtain ⟨earlier, later, rfl⟩ := append_of_mem member
  obtain ⟨earlierNormalised, laterNormalised, between⟩ := normalised_append.1 normalised
  obtain ⟨-, restNormalised, behind⟩ := normalised_cons.1 laterNormalised
  rcases mem_append.1 otherMember with isEarlier | isHere
  · have atMost : time ≤ other.end_ := isEnd.elim
      (fun same => same.le.trans (earlierNormalised.ordered other isEarlier)) Eq.le
    exact absurd (between other isEarlier range (.head _))
      (not_lt.2 (isAfter.le.trans atMost))
  · rcases mem_cons.1 isHere with rfl | isLater
    · exact isEnd.elim isAfter.ne' isBefore.ne
    · have atLeast : other.start ≤ time := isEnd.elim Eq.ge
        fun same => (restNormalised.ordered other isLater).trans same.ge
      exact absurd (behind other isLater) (not_lt.2 (atLeast.trans isBefore.le))

theorem not_covers_top [OrderTop Time] : ¬Covers ranges ⊤ := by
  rintro ⟨range, -, -, isBefore⟩
  exact not_top_lt isBefore

end Gaps

section Algebra

variable {K : Type*} [Field K]

/-! ## What `invert` covers -/

/-- The time at which `invert` closes both ends. -/
def unit (K : Type*) [Field K] : ExtendedTime K := ofBool K true

theorem ofBool_true_ne_false : ¬ofBool K true = ofBool K false := by
  intro same
  have coerced : ((1 : K) : WithTop K) = ((0 : K) : WithTop K) := WithBot.coe_injective same
  exact one_ne_zero (WithTop.coe_injective coerced)

variable [LinearOrder K]
variable {ranges other : TimeRanges (ExtendedTime K)}
variable {first last range : Range (ExtendedTime K)} {time : ExtendedTime K}

theorem bot_lt_unit : ⊥ < unit K := WithBot.bot_lt_coe _

theorem unit_lt_top : unit K < ⊤ := WithBot.coe_lt_coe.2 (WithTop.coe_lt_top _)

/-- The bounds of `invert` are ends or truth values. -/
theorem invert_eq (isFirst : ranges.head? = some first) (isLast : ranges.getLast? = some last) :
    ranges.invert = let opened := if first.start ≠ ⊥ then add [] ⊥ (unit K) else []
      if last.end_ ≠ ⊤ then (opened.addRanges ranges.gaps).add (unit K) ⊤
      else opened.addRanges ranges.gaps := by
  rw [invert, isFirst, isLast]
  by_cases fromStart : first.start = ⊥ <;> by_cases toEnd : last.end_ = ⊤ <;>
    simp only [fromStart, toEnd, ne_eq, not_true_eq_false, not_false_eq_true, decide_true,
      decide_false, ofBool_true_ne_false, if_true, if_false, unit]

/-- The complement with both of its ends at the wrong place. -/
theorem invert_spec (normalised : Normalised ranges) (isFirst : ranges.head? = some first)
    (isLast : ranges.getLast? = some last) :
    Normalised ranges.invert ∧ ∀ time, Covers ranges.invert time ↔
      (first.start ≠ ⊥ ∧ time < unit K) ∨ Covers ranges.gaps time ∨
        (last.end_ ≠ ⊤ ∧ unit K ≤ time ∧ time < ⊤) := by
  have opened : ∀ opened : TimeRanges (ExtendedTime K),
      opened = (if first.start ≠ ⊥ then add [] ⊥ (unit K) else []) →
      Normalised opened ∧
        ∀ time, Covers opened time ↔ first.start ≠ ⊥ ∧ time < unit K := by
    rintro opened rfl
    by_cases fromStart : first.start ≠ ⊥
    · rw [if_pos fromStart]
      obtain ⟨addNormalised, addCovers⟩ :=
        @add_spec _ _ [] _ _ (bot_lt_unit (K := K)).le normalised_nil
      exact ⟨addNormalised, fun time => by simp [addCovers, fromStart]⟩
    · rw [if_neg fromStart]
      exact ⟨normalised_nil, fun time => by simp [fromStart]⟩
  obtain ⟨openedNormalised, openedCovers⟩ := opened _ rfl
  obtain ⟨gapsNormalised, gapsCovers⟩ := addRanges_spec (gaps_ordered normalised) openedNormalised
  rw [invert_eq isFirst isLast]
  by_cases toEnd : last.end_ ≠ ⊤
  · rw [if_pos toEnd]
    obtain ⟨addNormalised, addCovers⟩ := add_spec (unit_lt_top (K := K)).le gapsNormalised
    refine ⟨addNormalised, fun time => ?_⟩
    rw [addCovers, gapsCovers, openedCovers, or_assoc, and_iff_right toEnd]
  · rw [if_neg toEnd]
    refine ⟨gapsNormalised, fun time => ?_⟩
    rw [gapsCovers, openedCovers]
    tauto

theorem invert_nil : Normalised (invert ([] : TimeRanges (ExtendedTime K))) ∧
      ∀ time, Covers (invert ([] : TimeRanges (ExtendedTime K))) time ↔ time < ⊤ := by
  obtain ⟨addNormalised, addCovers⟩ := @add_spec (ExtendedTime K) _ [] _ _ bot_le normalised_nil
  exact ⟨addNormalised, fun time => (addCovers time).trans (by simp)⟩

theorem normalised_invert (normalised : Normalised ranges) : Normalised ranges.invert := by
  cases isFirst : ranges.head? with
  | none =>
    rw [head?_eq_none_iff.1 isFirst]
    exact invert_nil.1
  | some first =>
    cases isLast : ranges.getLast? with
    | none =>
      rw [getLast?_eq_none_iff.1 isLast]
      exact invert_nil.1
    | some last => exact (invert_spec normalised isFirst isLast).1

/-! ## The laws -/

def UnionExact (ranges other : TimeRanges (ExtendedTime K)) : Prop :=
  Normalised (ranges.unionWith other) ∧
    ∀ time, Covers (ranges.unionWith other) time ↔ Covers ranges time ∨ Covers other time

/-- The complement, up to end points. -/
def InvertExact (ranges : TimeRanges (ExtendedTime K)) : Prop :=
  Normalised ranges.invert ∧ ∀ time ≠ ⊤, ¬IsEndPoint ranges time →
      (Covers ranges.invert time ↔ ¬Covers ranges time)

def IntersectExact (ranges other : TimeRanges (ExtendedTime K)) : Prop :=
  Normalised (ranges.intersectWith other) ∧ ∀ time, Covers (ranges.intersectWith other) time ↔
      Covers ranges time ∧ Covers other time

structure SetAlgebra (ranges other : TimeRanges (ExtendedTime K)) : Prop where
  union : UnionExact ranges other
  invert : InvertExact ranges
  intersect : IntersectExact ranges other

/-- Where the two ends of a complement may be replaced with `1`. -/
structure InvertsWhen (ranges : TimeRanges (ExtendedTime K)) : Prop where
  /-- No time before `1` is covered, and the times before the first range are
  before `1` or behind it up to plus infinity. -/
  low : ∀ first, ranges.head? = some first → first.start ≠ ⊥ →
    (first.start ≤ unit K ∨ ∀ last, ranges.getLast? = some last → last.end_ ≠ ⊤) ∧
      ∀ range ∈ ranges, range.start < range.end_ → unit K ≤ range.start
  /-- No time behind `1` is covered, and the times behind the last range are
  behind `1` or before it down to minus infinity. -/
  high : ∀ last, ranges.getLast? = some last → last.end_ ≠ ⊤ →
    (unit K ≤ last.end_ ∨ ∀ first, ranges.head? = some first → first.start ≠ ⊥) ∧
      ∀ range ∈ ranges, range.start < range.end_ → range.end_ ≤ unit K

/-- Two vectors that share no time and leave none out. -/
def Complements (ranges other : TimeRanges (ExtendedTime K)) : Prop :=
  ∀ time ≠ ⊤, Covers other time ↔ ¬Covers ranges time

theorem invertExact_of_invertsWhen (normalised : Normalised ranges)
    (isFirst : ranges.head? = some first) (isLast : ranges.getLast? = some last)
    (inverts : InvertsWhen ranges) : InvertExact ranges := by
  obtain ⟨invertNormalised, invertCovers⟩ := invert_spec normalised isFirst isLast
  refine ⟨invertNormalised, fun time notTop _ => ?_⟩
  rw [invertCovers]
  constructor
  · rintro (⟨fromStart, isBefore⟩ | inGap | ⟨toEnd, isAfter, -⟩)
    · rintro ⟨range, member, isAfter, inside⟩
      have isLate := (inverts.low first isFirst fromStart).2 range member
        (isAfter.trans_lt inside)
      exact absurd (isLate.trans isAfter) (not_le.2 isBefore)
    · exact (not_covers_iff normalised isFirst isLast).2 (.inr (.inl inGap))
    · rintro ⟨range, member, inside, isBefore⟩
      have isEarly := (inverts.high last isLast toEnd).2 range member
        (inside.trans_lt isBefore)
      exact absurd (isBefore.trans_le isEarly) (not_lt.2 isAfter)
  · intro uncovered
    rcases (not_covers_iff normalised isFirst isLast).1 uncovered with
      isEarly | inGap | isLate
    · have fromStart : first.start ≠ ⊥ := (bot_le.trans_lt isEarly).ne'
      rcases lt_or_ge time (unit K) with isBefore | isAfter
      · exact .inl ⟨fromStart, isBefore⟩
      · rcases (inverts.low first isFirst fromStart).1 with atMost | ends
        · exact absurd (isEarly.trans_le atMost) (not_lt.2 isAfter)
        · exact .inr (.inr ⟨ends last isLast, isAfter, lt_top_iff_ne_top.2 notTop⟩)
    · exact .inr (.inl inGap)
    · have toEnd : last.end_ ≠ ⊤ := (isLate.trans_lt (lt_top_iff_ne_top.2 notTop)).ne
      rcases lt_or_ge time (unit K) with isBefore | isAfter
      · rcases (inverts.high last isLast toEnd).1 with atLeast | starts
        · exact absurd (atLeast.trans isLate) (not_le.2 isBefore)
        · exact .inl ⟨starts first isFirst, isBefore⟩
      · exact .inr (.inr ⟨toEnd, isAfter, lt_top_iff_ne_top.2 notTop⟩)

variable [IsStrictOrderedRing K]

theorem invertsWhen_of_invertExact (normalised : Normalised ranges)
    (exact_ : InvertExact ranges) : InvertsWhen ranges := by
  have covered : ∀ range ∈ ranges, ∀ time, range.start < time → time < range.end_ →
      ¬Covers ranges.invert time := by
    intro range member time isAfter isBefore inverted
    have notTop : time ≠ ⊤ := (isBefore.trans_le le_top).ne
    exact (exact_.2 time notTop (not_isEndPoint normalised member isAfter isBefore)).1
      inverted ⟨range, member, isAfter.le, isBefore⟩
  constructor
  · intro first isFirst fromStart
    have starts : ∀ range ∈ ranges, first.start ≤ range.start :=
      fun range member => start_le_of_head? normalised isFirst member
    constructor
    · by_contra misses
      push Not at misses
      obtain ⟨isBehind, last, isLast, toEnd⟩ := misses
      obtain ⟨time, isAfter, isBefore⟩ := exists_between isBehind
      have notEnd : ¬IsEndPoint ranges time := by
        rintro ⟨range, member, rfl | rfl⟩
        · exact absurd isBefore (not_lt.2 (starts range member))
        · exact absurd isBefore (not_lt.2 ((starts range member).trans
            (normalised.ordered range member)))
      have inverted := (exact_.2 time (isBefore.trans_le le_top).ne notEnd).2
        ((not_covers_iff normalised isFirst isLast).2 (.inl isBefore))
      rcases ((invert_spec normalised isFirst isLast).2 time).1 inverted with
        ⟨-, isEarly⟩ | ⟨gap, isGap, inGap, -⟩ | ⟨notLast, -⟩
      · exact absurd isEarly isAfter.le.not_gt
      · obtain ⟨earlier, member, _, _, rfl⟩ := exists_of_mem_gaps isGap
        exact absurd isBefore (not_lt.2 ((starts earlier member).trans
          ((normalised.ordered earlier member).trans inGap)))
      · exact notLast toEnd
    · intro range member nonempty
      by_contra isEarly
      obtain ⟨time, isAfter, isBefore⟩ := exists_between (lt_min nonempty (not_le.1 isEarly))
      obtain ⟨inside, isBeforeUnit⟩ := lt_min_iff.1 isBefore
      cases isLast : ranges.getLast? with
      | none =>
        rw [getLast?_eq_none_iff.1 isLast] at member
        exact not_mem_nil member
      | some last =>
        exact covered range member time isAfter inside
          (((invert_spec normalised isFirst isLast).2 time).2 (.inl ⟨fromStart, isBeforeUnit⟩))
  · intro last isLast toEnd
    have ends : ∀ range ∈ ranges, range.end_ ≤ last.end_ :=
      fun range member => end_le_of_getLast? normalised isLast member
    constructor
    · by_contra misses
      push Not at misses
      obtain ⟨isBehind, first, isFirst, fromStart⟩ := misses
      obtain ⟨time, isAfter, isBefore⟩ := exists_between isBehind
      have notEnd : ¬IsEndPoint ranges time := by
        rintro ⟨range, member, rfl | rfl⟩
        · exact absurd isAfter (not_lt.2 ((normalised.ordered range member).trans
            (ends range member)))
        · exact absurd isAfter (not_lt.2 (ends range member))
      have inverted := (exact_.2 time (isBefore.trans_le le_top).ne notEnd).2
        ((not_covers_iff normalised isFirst isLast).2 (.inr (.inr isAfter.le)))
      rcases ((invert_spec normalised isFirst isLast).2 time).1 inverted with
        ⟨notFirst, -⟩ | ⟨gap, isGap, -, inGap⟩ | ⟨-, isLate, -⟩
      · exact notFirst fromStart
      · obtain ⟨_, _, later, member, rfl⟩ := exists_of_mem_gaps isGap
        exact absurd isAfter (not_lt.2 (inGap.le.trans
          ((normalised.ordered later member).trans (ends later member))))
      · exact absurd isBefore (not_lt.2 isLate)
    · intro range member nonempty
      by_contra isLate
      obtain ⟨time, isAfter, isBefore⟩ := exists_between (max_lt nonempty (not_le.1 isLate))
      obtain ⟨inside, isAfterUnit⟩ := max_lt_iff.1 isAfter
      cases isFirst : ranges.head? with
      | none =>
        rw [head?_eq_none_iff.1 isFirst] at member
        exact not_mem_nil member
      | some first =>
        exact covered range member time inside isBefore
          (((invert_spec normalised isFirst isLast).2 time).2
            (.inr (.inr ⟨toEnd, isAfterUnit.le, isBefore.trans_le le_top⟩)))

theorem invertExact_iff (normalised : Normalised ranges) :
    InvertExact ranges ↔ InvertsWhen ranges := by
  refine ⟨invertsWhen_of_invertExact normalised, fun inverts => ?_⟩
  cases isFirst : ranges.head? with
  | none =>
    rw [head?_eq_none_iff.1 isFirst]
    refine ⟨invert_nil.1, fun time notTop _ => (invert_nil.2 time).trans ?_⟩
    exact iff_of_true (lt_top_iff_ne_top.2 notTop) not_covers_nil
  | some first =>
    cases isLast : ranges.getLast? with
    | none =>
      rw [getLast?_eq_none_iff.1 isLast] at isFirst
      cases isFirst
    | some last => exact invertExact_of_invertsWhen normalised isFirst isLast inverts

/-! ## Intersections -/

omit [IsStrictOrderedRing K] in
/-- A vector that covers all times has nothing outside. -/
theorem not_covers_invert_of_forall (normalised : Normalised ranges)
    (all : ∀ time ≠ ⊤, Covers ranges time) : ¬Covers ranges.invert time := by
  obtain ⟨range, member, isAfter, isBefore⟩ := all ⊥ bot_ne_top
  cases isFirst : ranges.head? with
  | none =>
    rw [head?_eq_none_iff.1 isFirst] at member
    exact absurd member not_mem_nil
  | some first =>
    cases isLast : ranges.getLast? with
    | none =>
      rw [getLast?_eq_none_iff.1 isLast] at member
      exact absurd member not_mem_nil
    | some last =>
      rw [(invert_spec normalised isFirst isLast).2]
      rintro (⟨fromStart, -⟩ | inGap | ⟨toEnd, -, -⟩)
      · exact fromStart (le_bot_iff.1 ((start_le_of_head? normalised isFirst member).trans isAfter))
      · have inside := (not_covers_iff normalised isFirst isLast).2 (.inr (.inl inGap))
        obtain ⟨gap, -, -, isBeforeEnd⟩ := inGap
        exact inside (all time (isBeforeEnd.trans_le le_top).ne)
      · exact (not_covers_iff normalised isFirst isLast).2 (.inr (.inr le_rfl))
          (all last.end_ toEnd)

omit [IsStrictOrderedRing K] in
/-- The inverted vector covers some time outside, if there is one. -/
theorem exists_covers_invert (normalised : Normalised ranges) (notTop : time ≠ ⊤)
    (outside : ¬Covers ranges time) :
    ∃ other, Covers ranges.invert other ∧ ¬Covers ranges other := by
  cases isFirst : ranges.head? with
  | none =>
    rw [head?_eq_none_iff.1 isFirst]
    exact ⟨⊥, (invert_nil.2 ⊥).2 bot_lt_top, not_covers_nil⟩
  | some first =>
    cases isLast : ranges.getLast? with
    | none =>
      rw [getLast?_eq_none_iff.1 isLast] at isFirst
      cases isFirst
    | some last =>
      have covers := (invert_spec normalised isFirst isLast).2
      have outside_iff := fun time =>
        @not_covers_iff _ ranges _ first last time normalised isFirst isLast
      rcases (outside_iff time).1 outside with isEarly | inGap | isLate
      · have fromStart : ⊥ < first.start := bot_le.trans_lt isEarly
        exact ⟨⊥, (covers ⊥).2 (.inl ⟨fromStart.ne', bot_lt_unit⟩),
          (outside_iff ⊥).2 (.inl fromStart)⟩
      · exact ⟨time, (covers time).2 (.inr (.inl inGap)), outside⟩
      · have toEnd : last.end_ < ⊤ := isLate.trans_lt (lt_top_iff_ne_top.2 notTop)
        refine ⟨max (unit K) last.end_, (covers _).2 (.inr (.inr ⟨toEnd.ne, le_max_left _ _, max_lt
          unit_lt_top toEnd⟩)), (outside_iff _).2 (.inr (.inr (le_max_right _ _)))⟩

omit [IsStrictOrderedRing K] in
/-- The union is inverted instead of the parts, so that the intersection is only
right when it is empty and leaves out no time. -/
theorem intersectExact_iff (normalised : Normalised ranges) (otherNormalised : Normalised other) :
    IntersectExact ranges other ↔ Complements ranges other := by
  obtain ⟨copyNormalised, copyCovers⟩ := copy_spec normalised
  obtain ⟨otherCopyNormalised, otherCopyCovers⟩ := copy_spec otherNormalised
  obtain ⟨unionNormalised, unionCovers⟩ := unionWith_spec copyNormalised otherCopyNormalised
  have either : ∀ time, Covers (ranges.copy.unionWith other.copy) time ↔
      Covers ranges time ∨ Covers other time := fun time =>
    (unionCovers time).trans (or_congr (copyCovers time) (otherCopyCovers time))
  constructor
  · rintro ⟨-, exact_⟩ time notTop
    have all : ∀ time ≠ ⊤, Covers (ranges.copy.unionWith other.copy) time := by
      intro time notTop
      by_contra outside
      obtain ⟨found, inverted, isOutside⟩ := exists_covers_invert unionNormalised notTop outside
      exact isOutside ((either found).2 (.inl ((exact_ found).1 inverted).1))
    have disjoint : ¬(Covers ranges time ∧ Covers other time) := fun both =>
      not_covers_invert_of_forall unionNormalised all ((exact_ time).2 both)
    have one := (either time).1 (all time notTop)
    tauto
  · intro complements
    have all : ∀ time ≠ ⊤, Covers (ranges.copy.unionWith other.copy) time := by
      intro time notTop
      have either_ := either time
      have complement := complements time notTop
      tauto
    refine ⟨normalised_invert unionNormalised, fun time => ?_⟩
    refine iff_of_false (not_covers_invert_of_forall unionNormalised all) ?_
    rintro ⟨inside, otherInside⟩
    have notTop : time ≠ ⊤ := by
      rintro rfl
      exact not_covers_top inside
    exact (complements time notTop).1 otherInside inside

/-- The set algebra holds of two vectors exactly when the first one may be
inverted around `1` and the second one is its complement. -/
theorem setAlgebra_iff (normalised : Normalised ranges) (otherNormalised : Normalised other) :
    SetAlgebra ranges other ↔ InvertsWhen ranges ∧ Complements ranges other := by
  constructor
  · rintro ⟨-, inverts, intersects⟩
    exact ⟨(invertExact_iff normalised).1 inverts,
      (intersectExact_iff normalised otherNormalised).1 intersects⟩
  · rintro ⟨inverts, complements⟩
    exact ⟨unionWith_spec normalised otherNormalised, (invertExact_iff normalised).2 inverts,
      (intersectExact_iff normalised otherNormalised).2 complements⟩

end Algebra

/-- The times before `1` and those behind it. -/
theorem setAlgebra_halves : SetAlgebra [⟨⊥, unit ℚ⟩] [⟨unit ℚ, ⊤⟩] := by
  refine (setAlgebra_iff ?_ ?_).2 ⟨⟨?_, ?_⟩, ?_⟩
  · exact normalised_cons.2 ⟨bot_le, normalised_nil, by simp⟩
  · exact normalised_cons.2 ⟨le_top, normalised_nil, by simp⟩
  · rintro first isFirst fromStart
    cases isFirst
    exact absurd rfl fromStart
  · rintro last isLast -
    cases isLast
    refine ⟨.inl le_rfl, fun range member _ => ?_⟩
    rw [mem_singleton.1 member]
  · intro time notTop
    simp [lt_top_iff_ne_top.2 notTop]

/-- The complement of two to four covers three, because both of its ends are at
`1`. -/
theorem inverted_range_covered : ¬∀ ranges other : TimeRanges (ExtendedTime ℚ),
      Normalised ranges → Normalised other → SetAlgebra ranges other := by
  intro always
  let twoToFour : TimeRanges (ExtendedTime ℚ) := [⟨((2 : ℚ) : WithTop ℚ), ((4 : ℚ) : WithTop ℚ)⟩]
  have normalised : Normalised twoToFour := normalised_cons.2 ⟨by decide, normalised_nil, by simp⟩
  have outside := (always twoToFour [] normalised normalised_nil).invert.2 ((3 : ℚ) : WithTop ℚ)
    (by decide) (by decide)
  exact absurd (outside.1 (by decide)) (by decide)

end TimeRanges

end Media
end PalmWebKit
