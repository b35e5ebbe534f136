import PalmWebKit.Media.TimeRanges

/-!
# Unions of time ranges

`add` keeps the vector normalised and adds exactly the times of the new range.
-/

namespace PalmWebKit
namespace Media

open List

variable {Time : Type*} [LinearOrder Time]

namespace TimeRanges

/-- Sorted ranges with time between any two of them. -/
structure Normalised (ranges : TimeRanges Time) : Prop where
  ordered : ∀ range ∈ ranges, range.start ≤ range.end_
  separated : ranges.Pairwise fun range later => range.end_ < later.start

/-- The times of the ranges. -/
def Covers (ranges : TimeRanges Time) (time : Time) : Prop :=
  ∃ range ∈ ranges, range.start ≤ time ∧ time < range.end_

variable {ranges other passed : TimeRanges Time} {time : Time}

instance : Decidable (Covers ranges time) := inferInstanceAs (Decidable (∃ range ∈ ranges, _))

@[simp] theorem not_covers_nil : ¬Covers ([] : TimeRanges Time) time := by
  rintro ⟨range, member, -⟩
  exact not_mem_nil member

@[simp] theorem covers_cons {range : Range Time} : Covers (range :: ranges) time ↔
      (range.start ≤ time ∧ time < range.end_) ∨ Covers ranges time := by
  constructor
  · rintro ⟨found, member, inside⟩
    rcases mem_cons.1 member with rfl | isLater
    · exact .inl inside
    · exact .inr ⟨found, isLater, inside⟩
  · rintro (inside | ⟨found, member, inside⟩)
    · exact ⟨range, .head _, inside⟩
    · exact ⟨found, .tail range member, inside⟩

@[simp] theorem covers_append :
    Covers (ranges ++ other) time ↔ Covers ranges time ∨ Covers other time := by
  induction ranges with
  | nil => simp
  | cons range ranges ih => rw [cons_append, covers_cons, covers_cons, ih, or_assoc]

theorem normalised_nil : Normalised ([] : TimeRanges Time) :=
  ⟨fun _ member => absurd member not_mem_nil, .nil⟩

theorem normalised_append : Normalised (ranges ++ other) ↔ Normalised ranges ∧ Normalised other ∧
      ∀ range ∈ ranges, ∀ later ∈ other, range.end_ < later.start := by
  constructor
  · rintro ⟨ordered, separated⟩
    obtain ⟨first, second, between⟩ := pairwise_append.1 separated
    exact ⟨⟨fun range member => ordered range (mem_append_left other member), first⟩,
      ⟨fun range member => ordered range (mem_append_right ranges member), second⟩,
      between⟩
  · rintro ⟨⟨firstOrdered, first⟩, ⟨secondOrdered, second⟩, between⟩
    refine ⟨fun range member => ?_, pairwise_append.2 ⟨first, second, between⟩⟩
    exact (mem_append.1 member).elim (firstOrdered range) (secondOrdered range)

theorem normalised_cons {range : Range Time} :
    Normalised (range :: ranges) ↔ range.start ≤ range.end_ ∧ Normalised ranges ∧
      ∀ later ∈ ranges, range.end_ < later.start := by
  constructor
  · rintro ⟨ordered, separated⟩
    obtain ⟨first, rest⟩ := pairwise_cons.1 separated
    exact ⟨ordered range (.head _),
      ⟨fun later member => ordered later (.tail range member), rest⟩, first⟩
  · rintro ⟨isOrdered, ⟨ordered, rest⟩, first⟩
    exact ⟨forall_mem_cons.2 ⟨isOrdered, ordered⟩, pairwise_cons.2 ⟨first, rest⟩⟩

/-! ## Two ranges -/

variable {added range : Range Time}

theorem meets_iff (addedOrdered : added.start ≤ added.end_) (ordered : range.start ≤ range.end_) :
    (added.isOverlappingRange range || added.isContiguousWithRange range) = true ↔
      added.start ≤ range.end_ ∧ range.start ≤ added.end_ := by
  simp only [Range.isOverlappingRange, Range.isContiguousWithRange, Range.isPointInRange,
    Bool.or_eq_true, decide_eq_true_eq]
  constructor
  · rintro (((⟨after, before⟩ | ⟨after, before⟩) | ⟨after, before⟩) | same | same)
    · exact ⟨after.trans ordered, before.le⟩
    · exact ⟨after, ordered.trans before.le⟩
    · exact ⟨before.le, after.trans addedOrdered⟩
    · exact ⟨addedOrdered.trans (same ▸ ordered), same.le⟩
    · exact ⟨same.ge, ordered.trans (same ▸ addedOrdered)⟩
  · rintro ⟨left, right⟩
    rcases right.eq_or_lt with same | before
    · exact .inr (.inl same)
    rcases left.eq_or_lt with same | after
    · exact .inr (.inr same.symm)
    rcases le_or_gt added.start range.start with isAfter | isBefore
    · exact .inl (.inl (.inl ⟨isAfter, before⟩))
    · exact .inl (.inr ⟨isBefore.le, after⟩)

/-- The times of two ranges that meet are those of their union. -/
theorem mem_union_iff (left : added.start ≤ range.end_) (right : range.start ≤ added.end_) :
    (min added.start range.start ≤ time ∧ time < max added.end_ range.end_) ↔
      (added.start ≤ time ∧ time < added.end_) ∨
        (range.start ≤ time ∧ time < range.end_) := by
  rw [min_le_iff, lt_max_iff]
  constructor
  · rintro ⟨isAfter | isAfter, isBefore | isBefore⟩
    · exact .inl ⟨isAfter, isBefore⟩
    · rcases lt_or_ge time added.end_ with inside | isLater
      · exact .inl ⟨isAfter, inside⟩
      · exact .inr ⟨right.trans isLater, isBefore⟩
    · rcases lt_or_ge time range.end_ with inside | isLater
      · exact .inr ⟨isAfter, inside⟩
      · exact .inl ⟨left.trans isLater, isBefore⟩
    · exact .inr ⟨isAfter, isBefore⟩
  · rintro (⟨isAfter, isBefore⟩ | ⟨isAfter, isBefore⟩)
    · exact ⟨.inl isAfter, .inl isBefore⟩
    · exact ⟨.inr isAfter, .inr isBefore⟩

/-! ## Adding a range -/

/-- The loop stops at the first range behind the added one. -/
theorem insertsBefore_iff (addedOrdered : added.start ≤ added.end_)
    (ordered : range.start ≤ range.end_) (before : ∀ earlier ∈ passed, earlier.end_ < added.start)
    (apart : ¬(added.start ≤ range.end_ ∧ range.start ≤ added.end_)) :
    insertsBefore passed added range = true ↔ added.end_ < range.start := by
  have isBefore : added.isBeforeRange range = true ↔ added.end_ < range.start := by
    rw [Range.isBeforeRange, decide_eq_true_eq]
    constructor
    · intro isBefore
      by_contra isLater
      exact apart ⟨addedOrdered.trans (isBefore.trans ordered), not_lt.1 isLater⟩
    · exact le_of_lt
  rw [insertsBefore]
  cases last : passed.getLast? with
  | none => exact isBefore
  | some previous =>
    have passedBefore : previous.isBeforeRange added = true :=
      decide_eq_true (before previous (mem_of_getLast? last)).le
    dsimp only
    rw [passedBefore]
    exact isBefore

theorem addFrom_spec {added : Range Time} (addedOrdered : added.start ≤ added.end_)
    (normalised : Normalised (passed ++ ranges))
    (before : ∀ earlier ∈ passed, earlier.end_ < added.start) :
    Normalised (addFrom passed added ranges) ∧ ∀ time, Covers (addFrom passed added ranges) time ↔
        Covers (passed ++ ranges) time ∨ (added.start ≤ time ∧ time < added.end_) := by
  induction ranges generalizing passed added with
  | nil =>
    rw [append_nil] at normalised ⊢
    refine ⟨normalised_append.2 ⟨normalised, normalised_cons.2 ⟨addedOrdered,
      normalised_nil, by simp⟩, by simpa using before⟩, fun time => ?_⟩
    simp [addFrom]
  | cons range ranges ih =>
    obtain ⟨passedNormalised, restNormalised, between⟩ := normalised_append.1 normalised
    obtain ⟨ordered, laterNormalised, isBefore⟩ := normalised_cons.1 restNormalised
    rw [addFrom]
    by_cases meets : added.start ≤ range.end_ ∧ range.start ≤ added.end_
    · rw [if_pos ((meets_iff addedOrdered ordered).2 meets)]
      have union := @ih passed
        (added.unionWithOverlappingOrContiguousRange range)
        (min_le_of_left_le (le_max_of_le_left addedOrdered))
        (normalised_append.2 ⟨passedNormalised, laterNormalised,
          fun earlier member later isLater =>
            between earlier member later (.tail range isLater)⟩)
        fun earlier member => lt_min (before earlier member)
          (between earlier member range (.head _))
      refine ⟨union.1, fun time => ?_⟩
      rw [union.2, covers_append, covers_append, covers_cons,
        Range.unionWithOverlappingOrContiguousRange, mem_union_iff meets.1 meets.2]
      tauto
    · rw [if_neg (mt (meets_iff addedOrdered ordered).1 meets)]
      by_cases isBehind : added.end_ < range.start
      · rw [if_pos ((insertsBefore_iff addedOrdered ordered before meets).2 isBehind)]
        refine ⟨normalised_append.2 ⟨passedNormalised, normalised_cons.2
          ⟨addedOrdered, restNormalised, ?_⟩, ?_⟩, fun time => ?_⟩
        · intro later member
          rcases mem_cons.1 member with rfl | isLater
          · exact isBehind
          · exact isBehind.trans (ordered.trans_lt (isBefore later isLater))
        · intro earlier member later isLater
          rcases mem_cons.1 isLater with rfl | isRest
          · exact before earlier member
          · exact between earlier member later isRest
        · rw [covers_append, covers_append, covers_cons]
          tauto
      · rw [if_neg (mt (insertsBefore_iff addedOrdered ordered before meets).1 isBehind)]
        have isPassed : range.end_ < added.start := by
          by_contra isAfter
          exact meets ⟨not_lt.1 isAfter, not_lt.1 isBehind⟩
        have rest := @ih (passed ++ [range]) added addedOrdered
          (by simpa using normalised) (by simpa [or_imp, forall_and] using
            ⟨before, isPassed⟩)
        simpa using rest

theorem add_spec {start end_ : Time} (addedOrdered : start ≤ end_)
    (normalised : Normalised ranges) :
    Normalised (ranges.add start end_) ∧ ∀ time, Covers (ranges.add start end_) time ↔
        Covers ranges time ∨ (start ≤ time ∧ time < end_) :=
  @addFrom_spec _ _ ranges [] ⟨start, end_⟩ addedOrdered normalised
    fun _ member => absurd member not_mem_nil

theorem addRanges_spec (addedOrdered : ∀ range ∈ other, range.start ≤ range.end_)
    (normalised : Normalised ranges) :
    Normalised (ranges.addRanges other) ∧ ∀ time, Covers (ranges.addRanges other) time ↔
        Covers ranges time ∨ Covers other time := by
  induction other generalizing ranges with
  | nil => exact ⟨normalised, fun time => by simp [addRanges]⟩
  | cons range other ih =>
    obtain ⟨isOrdered, restOrdered⟩ := forall_mem_cons.1 addedOrdered
    obtain ⟨addNormalised, addCovers⟩ := add_spec isOrdered normalised
    obtain ⟨restNormalised, restCovers⟩ := ih restOrdered addNormalised
    refine ⟨restNormalised, fun time => ?_⟩
    refine (restCovers time).trans ?_
    rw [addCovers, covers_cons, or_assoc]

theorem copy_spec (normalised : Normalised ranges) :
    Normalised ranges.copy ∧ ∀ time, Covers ranges.copy time ↔ Covers ranges time := by
  obtain ⟨copyNormalised, copyCovers⟩ := addRanges_spec normalised.ordered normalised_nil
  exact ⟨copyNormalised, fun time => (copyCovers time).trans (by simp)⟩

/-- The union of two normalised vectors is normalised and covers what one of
them covers. -/
theorem unionWith_spec (normalised : Normalised ranges) (otherNormalised : Normalised other) :
    Normalised (ranges.unionWith other) ∧ ∀ time, Covers (ranges.unionWith other) time ↔
        Covers ranges time ∨ Covers other time := by
  obtain ⟨copyNormalised, copyCovers⟩ := copy_spec normalised
  obtain ⟨unionNormalised, unionCovers⟩ := addRanges_spec otherNormalised.ordered copyNormalised
  exact ⟨unionNormalised, fun time => (unionCovers time).trans (by rw [copyCovers])⟩

end TimeRanges

end Media
end PalmWebKit
