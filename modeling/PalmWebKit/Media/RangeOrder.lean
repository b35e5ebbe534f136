import PalmWebKit.Media.RangeRuns

/-!
# The order of `add`

The times of a normalised vector determine it, so the order and the repetition
of calls leave no trace in it.  Their unions form a semilattice.
-/

namespace PalmWebKit
namespace Media
namespace TimeRanges

open List

variable {Time : Type*} [LinearOrder Time] {ranges others adds : TimeRanges Time}
  {range : Range Time} {time : Time}

theorem contain_iff :
    contain ranges time = true ↔ ∃ range ∈ ranges, range.start ≤ time ∧ time ≤ range.end_ := by
  simp [contain]

theorem contain_start (ordered : range.start ≤ range.end_) :
    contain (range :: ranges) range.start = true :=
  contain_iff.2 ⟨range, .head _, le_rfl, ordered⟩

namespace Normalised

theorem start_le (normalised : Normalised (range :: ranges))
    (contains : contain (range :: ranges) time = true) : range.start ≤ time := by
  obtain ⟨ordered, -, isBefore⟩ := normalised_cons.1 normalised
  obtain ⟨found, member, inside⟩ := contain_iff.1 contains
  rcases mem_cons.1 member with rfl | later
  · exact inside.1
  · exact ordered.trans ((isBefore found later).le.trans inside.1)

theorem not_covers_end (normalised : Normalised (range :: ranges)) :
    ¬Covers (range :: ranges) range.end_ := by
  obtain ⟨-, -, isBefore⟩ := normalised_cons.1 normalised
  rintro ⟨found, member, inside⟩
  rcases mem_cons.1 member with rfl | later
  · exact lt_irrefl _ inside.2
  · exact not_lt_of_ge inside.1 (isBefore found later)

theorem tail_iff (normalised : Normalised (range :: ranges)) :
    (contain ranges time = true ↔ contain (range :: ranges) time = true ∧ range.end_ < time) ∧
      (Covers ranges time ↔ Covers (range :: ranges) time ∧ range.end_ < time) := by
  obtain ⟨-, -, isBefore⟩ := normalised_cons.1 normalised
  rw [contain_iff, contain_iff, covers_cons]
  simp only [mem_cons, exists_eq_or_imp]
  constructor
  all_goals
    refine ⟨fun inside => ⟨.inr inside, ?_⟩, fun inside => inside.1.resolve_left ?_⟩
  · obtain ⟨found, later, start, -⟩ := inside
    exact (isBefore found later).trans_le start
  · exact fun here => not_lt_of_ge here.2 inside.2
  · obtain ⟨found, later, start, -⟩ := inside
    exact (isBefore found later).trans_le start
  · exact fun here => lt_asymm here.2 inside.2

/-- The times, with and without the ends of ranges, determine a normalised
vector over any order. -/
theorem eq_of_times (normalised : Normalised ranges) (also : Normalised others)
    (contains : ∀ time, contain ranges time = true ↔ contain others time = true)
    (covers : ∀ time, Covers ranges time ↔ Covers others time) : ranges = others := by
  induction ranges generalizing others with
  | nil =>
    rcases others with _ | ⟨other, others⟩
    · rfl
    · have none := (contains _).2 (contain_start (also.ordered other (.head _)))
      simp at none
  | cons range ranges ih =>
    have ordered := normalised.ordered range (.head _)
    rcases others with _ | ⟨other, others⟩
    · have none := (contains _).1 (contain_start ordered)
      simp at none
    · have alsoOrdered := also.ordered other (.head _)
      have start : range.start = other.start :=
        le_antisymm (normalised.start_le ((contains _).2 (contain_start alsoOrdered)))
          (also.start_le ((contains _).1 (contain_start ordered)))
      have end_ : range.end_ = other.end_ := by
        rcases lt_trichotomy range.end_ other.end_ with isBefore | same | isAfter
        · have inside : Covers (other :: others) range.end_ :=
            ⟨other, .head _, start ▸ ordered, isBefore⟩
          exact absurd ((covers _).2 inside) normalised.not_covers_end
        · exact same
        · have inside : Covers (range :: ranges) other.end_ :=
            ⟨range, .head _, start ▸ alsoOrdered, isAfter⟩
          exact absurd ((covers _).1 inside) also.not_covers_end
      have rest := ih (normalised_cons.1 normalised).2.1 (normalised_cons.1 also).2.1
        (fun time => by rw [normalised.tail_iff.1, also.tail_iff.1, contains, end_])
        (fun time => by rw [normalised.tail_iff.2, also.tail_iff.2, covers, end_])
      exact congrArg₂ cons (by cases range; cases other; congr) rest

end Normalised

theorem holdsAdded_of_done (memory : RangeMemory)
    (ordered : ∀ range ∈ adds, range.start ≤ range.end_)
    (done : runAdds memory.allocates [] adds = .done ranges) : HoldsAdded [] adds ranges := by
  rcases runAdds_from memory ordered normalised_nil (Nat.zero_le _) with
    ⟨result, run, holds⟩ | ⟨run, -⟩
  all_goals cases done.symm.trans run
  exact holds

/-- A run that adds the same ranges, in another order or more than once, leaves
the same vector, or ends where the vector cannot grow. -/
theorem runAdds_of_mem_iff (memory : RangeMemory)
    (ordered : ∀ range ∈ adds, range.start ≤ range.end_)
    (done : runAdds memory.allocates [] adds = .done ranges)
    (same : ∀ range, range ∈ others ↔ range ∈ adds) :
    runAdds memory.allocates [] others = .done ranges ∨
      (runAdds memory.allocates [] others = .crashed ∧
        ∃ size ≤ others.length, memory.allocates size = false) := by
  have othersOrdered : ∀ range ∈ others, range.start ≤ range.end_ :=
    fun range member => ordered range ((same range).1 member)
  have first := holdsAdded_of_done memory ordered done
  rcases runAdds_from memory othersOrdered normalised_nil (Nat.zero_le _) with
    ⟨repeated, run, second⟩ | ⟨run, size, isSmall, full⟩
  · have sameVector := second.normalised.eq_of_times first.normalised
      (by simp [second.contains, first.contains, contain_iff, same])
      (fun time => by rw [second.covers, first.covers]; simp only [Covers, same])
    exact .inl (sameVector ▸ run)
  · exact .inr ⟨run, size, by simpa using isSmall, full⟩

theorem runAdds_of_mem_iff_twice :
    runAdds (fun size => size ≤ 9) [] [⟨2, 3⟩, ⟨1, 2⟩, (⟨2, 3⟩ : Range Nat)] = .done [⟨1, 3⟩] ∨
      (runAdds (fun size => size ≤ 9) [] [⟨2, 3⟩, ⟨1, 2⟩, (⟨2, 3⟩ : Range Nat)] = .crashed ∧
        ∃ size ≤ 3, decide (size ≤ 9) = false) :=
  runAdds_of_mem_iff ⟨fun size => size ≤ 9, by simp; omega⟩
    (by decide : ∀ range ∈ [⟨1, 2⟩, (⟨2, 3⟩ : Range Nat)], range.start ≤ range.end_)
    (by decide) (by grind)

/-! ## Unions -/

theorem HoldsAdded.addRanges (normalised : Normalised ranges)
    (ordered : ∀ range ∈ adds, range.start ≤ range.end_) :
    HoldsAdded ranges adds (ranges.addRanges adds) := by
  induction adds generalizing ranges with
  | nil => exact .none normalised
  | cons range adds ih =>
    have first := HoldsAdded.add normalised (ordered range (.head _))
    exact first.trans (ih first.normalised fun range member => ordered range (.tail _ member))

theorem holdsAdded_unionWith (normalised : Normalised ranges) (also : Normalised others) :
    HoldsAdded ranges others (ranges.unionWith others) := by
  have copied := HoldsAdded.addRanges normalised_nil normalised.ordered
  have same : ranges.copy = ranges := copied.normalised.eq_of_times normalised
    (by simp [copied.contains]) (by simp [copied.covers])
  rw [unionWith, same]
  exact .addRanges normalised also.ordered

/-- The vectors form a semilattice, ordered by the times they hold. -/
theorem unionWith_semilattice (first : Normalised ranges) (second : Normalised others)
    (third : Normalised adds) :
    ranges.unionWith others = others.unionWith ranges ∧
      (ranges.unionWith others).unionWith adds = ranges.unionWith (others.unionWith adds) ∧
      (ranges.unionWith others = others ↔ ∀ time, (contain ranges time → contain others time) ∧
        (Covers ranges time → Covers others time)) := by
  have left := holdsAdded_unionWith first second
  have right := holdsAdded_unionWith second third
  have swapped := holdsAdded_unionWith second first
  have outer := holdsAdded_unionWith left.normalised third
  have inner := holdsAdded_unionWith first right.normalised
  refine ⟨left.normalised.eq_of_times swapped.normalised (fun time => ?_) (fun time => ?_),
    outer.normalised.eq_of_times inner.normalised (fun time => ?_) (fun time => ?_),
    fun same time => ?_,
    fun isWithin => left.normalised.eq_of_times second (fun time => ?_) (fun time => ?_)⟩
  · rw [left.contains, swapped.contains, Bool.or_comm]
  · rw [left.covers, swapped.covers, or_comm]
  · rw [outer.contains, left.contains, inner.contains, right.contains, Bool.or_assoc]
  · rw [outer.covers, left.covers, inner.covers, right.covers, or_assoc]
  · rw [same] at left
    exact ⟨fun inside => by rw [left.contains, inside, Bool.true_or],
      fun inside => (left.covers time).2 (.inl inside)⟩
  · rw [left.contains, Bool.or_eq_true, or_iff_right_of_imp (isWithin time).1]
  · rw [left.covers, or_iff_right_of_imp (isWithin time).2]

theorem unionWith_semilattice_touching :
    unionWith [⟨1, 3⟩, ⟨5, 6⟩] [(⟨3, 5⟩ : Range Nat)] = unionWith [⟨3, 5⟩] [⟨1, 3⟩, ⟨5, 6⟩] :=
  (unionWith_semilattice ⟨by decide, by decide⟩ ⟨by decide, by decide⟩ normalised_nil).1

/-! ## The nearest time -/

variable {K : Type*} [AddCommGroup K] [LinearOrder K]

/-- The loop of `nearest`. -/
def nearestFrom (time : K) : K → TimeRanges K → K
  | closest, [] => closest
  | closest, range :: ranges =>
    if time ≥ range.start && time ≤ range.end_ then time
    else if |range.start - time| < closest then nearestFrom time |range.start - time| ranges
    else if |range.end_ - time| < closest then nearestFrom time |range.end_ - time| ranges
    else nearestFrom time closest ranges

def nearest (ranges : TimeRanges K) (time : K) : K := nearestFrom time 0 ranges

/-- The loop starts at a distance of zero, so no end is closer. -/
theorem nearest_eq [IsOrderedAddMonoid K] (ranges : TimeRanges K) (time : K) :
    ranges.nearest time = if contain ranges time then time else 0 := by
  rw [nearest]
  induction ranges with
  | nil => rfl
  | cons range ranges ih =>
    have notCloser (distance : K) : ¬|distance| < 0 := not_lt_of_ge (abs_nonneg distance)
    rw [nearestFrom, if_neg (notCloser _), if_neg (notCloser _), ih, contain, contain, any_cons]
    cases decide (time ≥ range.start) && decide (time ≤ range.end_) <;> simp

/-- After any calls of `add`, `nearest` gives a time of the ranges back and zero
for every other time. -/
theorem nearest_runAdds [IsOrderedAddMonoid K] (memory : RangeMemory) {adds : TimeRanges K}
    {ranges : TimeRanges K} (ordered : ∀ range ∈ adds, range.start ≤ range.end_)
    (done : runAdds memory.allocates [] adds = .done ranges) (time : K) :
    ranges.nearest time = if contain adds time then time else 0 := by
  rw [nearest_eq, (holdsAdded_of_done memory ordered done).contains, contain_nil, Bool.false_or]

theorem nearest_runAdds_outside : nearest [⟨5, 7⟩, ⟨8, (9 : Int)⟩] 4 = 0 :=
  nearest_runAdds ⟨fun size => size ≤ 9, by simp; omega⟩
    (by decide : ∀ range ∈ [⟨8, 9⟩, ⟨5, 6⟩, (⟨6, 7⟩ : Range Int)], range.start ≤ range.end_)
    (by decide) 4

end TimeRanges
end Media
end PalmWebKit
