import PalmWebKit.Media.RangeUnion

/-!
# Runs of `add`

The loop of `add` on the vector itself, with the index that is decremented below
zero where the first range is removed.  Every access is checked: the loop never
leaves the vector, and it is the recursion on the list of ranges.
-/

namespace PalmWebKit
namespace Media

open List

variable {Time : Type*} [LinearOrder Time]

/-- The sizes to which a vector of ranges can grow: beyond the sizes of 32 bits
over the eight bytes of a range the vector crashes. -/
structure RangeMemory where
  allocates : Nat → Bool
  limit : ∀ size, allocates size = true → size ≤ (2 ^ 32 - 1) / 8

/-- How a call of `add` ends. -/
inductive AddOutcome (Time : Type*)
  | done (ranges : List (Range Time))
  /-- The vector cannot grow. -/
  | crashed
  /-- An index is not in the vector. -/
  | outOfBounds
  /-- The loop has not ended within its turns. -/
  | unfinished
  deriving DecidableEq, Repr

namespace TimeRanges

/-- `Vector::insert`, where `allocates` says to which sizes the vector can
grow. -/
def insertAt (allocates : Nat → Bool) (ranges : TimeRanges Time) (index : UInt32)
    (range : Range Time) : AddOutcome Time :=
  if index.toNat > ranges.length then .outOfBounds
  else if !allocates (ranges.length + 1) then .crashed
  else .done (ranges.insertIdx index.toNat range)

/-- The loop of `add` with `overlappingArcIndex`. -/
def addLoop (allocates : Nat → Bool) : Nat → TimeRanges Time → Range Time → UInt32 → AddOutcome Time
  | 0, _, _, _ => .unfinished
  | turns + 1, ranges, addedRange, index =>
    if index.toNat < ranges.length then
      match ranges[index.toNat]? with
      | none => .outOfBounds
      | some range =>
        if addedRange.isOverlappingRange range ||
            addedRange.isContiguousWithRange range then
          addLoop allocates turns (ranges.eraseIdx index.toNat)
            (addedRange.unionWithOverlappingOrContiguousRange range)
            (index - 1 + 1)
        else if index = 0 then
          match ranges[0]? with
          | none => .outOfBounds
          | some first =>
            if addedRange.isBeforeRange first then
              insertAt allocates ranges index addedRange
            else addLoop allocates turns ranges addedRange (index + 1)
        else
          match ranges[(index - 1).toNat]? with
          | none => .outOfBounds
          | some previous =>
            if previous.isBeforeRange addedRange &&
                addedRange.isBeforeRange range then
              insertAt allocates ranges index addedRange
            else addLoop allocates turns ranges addedRange (index + 1)
    else insertAt allocates ranges index addedRange

/-- A call of `add`, where every turn of the loop passes or removes a range. -/
def addChecked (allocates : Nat → Bool) (ranges : TimeRanges Time)
    (start end_ : Time) : AddOutcome Time :=
  addLoop allocates (ranges.length + 1) ranges ⟨start, end_⟩ 0

/-- A sequence of calls. -/
def runAdds (allocates : Nat → Bool) : TimeRanges Time → List (Range Time) → AddOutcome Time
  | ranges, [] => .done ranges
  | ranges, range :: adds =>
    match addChecked allocates ranges range.start range.end_ with
    | .done added => runAdds allocates added adds
    | outcome => outcome

/-- `contain`, which counts the end of a range. -/
def contain (ranges : TimeRanges Time) (time : Time) : Bool :=
  ranges.any fun range => time ≥ range.start && time ≤ range.end_

/-! ## The loop and the recursion -/

section Vector

variable {Time : Type*}

theorem toNat_index {length : Nat} (fits : length < 2 ^ 32) :
    (UInt32.ofNat length).toNat = length := by
  exact Nat.mod_eq_of_lt fits

/-- An insertion between two parts of a vector. -/
theorem insertIdx_length (first ranges : TimeRanges Time) (added : Range Time) :
    (first ++ ranges).insertIdx first.length added = first ++ added :: ranges := by
  induction first with
  | nil => rfl
  | cons range first ih =>
    rw [cons_append, length_cons, insertIdx_succ_cons, ih, cons_append]

/-- The range in front of the index. -/
theorem getElem?_previous (ranges front : TimeRanges Time) (previous : Range Time)
    (fits : front.length + 1 < 2 ^ 32) : (front ++ [previous] ++ ranges)[
      (UInt32.ofNat (front ++ [previous]).length - 1).toNat]? =
        some previous := by
  have length : (front ++ [previous]).length = front.length + 1 := by simp
  have index : UInt32.ofNat (front.length + 1) - 1 = UInt32.ofNat front.length := by
    rw [UInt32.ofNat_add]
    exact UInt32.add_sub_cancel _ _
  rw [length, index, toNat_index (by omega)]
  simp

variable
  {allocates : Nat → Bool}
  {passed ranges : TimeRanges Time}
  {added : Range Time}

/-- The insertion behind the passed ranges. -/
theorem insertAt_passed (fits : passed.length + ranges.length < 2 ^ 32) :
    insertAt allocates (passed ++ ranges) (UInt32.ofNat passed.length) added =
      if allocates (passed ++ added :: ranges).length then
        .done (passed ++ added :: ranges)
      else .crashed := by
  have index : (UInt32.ofNat passed.length).toNat = passed.length := toNat_index (by omega)
  have inside : ¬passed.length > (passed ++ ranges).length := by simp
  have inserted : (passed ++ ranges).insertIdx passed.length added =
        passed ++ added :: ranges := by
    exact insertIdx_length passed ranges added
  have length : (passed ++ ranges).length + 1 =
      (passed ++ added :: ranges).length := by
    simp only [length_append, length_cons]
    omega
  rw [insertAt, index, if_neg inside, inserted, length]
  cases allocates (passed ++ added :: ranges).length <;> rfl

end Vector

section Loop

variable
  {allocates : Nat → Bool}
  {passed ranges : TimeRanges Time}
  {added : Range Time}

/-- The length of the vector behind `add`. -/
theorem length_addFrom_le :
    (addFrom passed added ranges).length ≤ passed.length + ranges.length + 1 := by
  induction ranges generalizing passed added with
  | nil => simp [addFrom]
  | cons range ranges ih =>
    rw [addFrom]
    split_ifs
    · have shorter := @ih passed
        (added.unionWithOverlappingOrContiguousRange range)
      rw [length_cons]
      omega
    · simp
      omega
    · have later := @ih (passed ++ [range]) added
      rw [length_append, length_singleton] at later
      rw [length_cons]
      omega

/-- The loop on the vector does what the recursion does, and finds every index
in the vector. -/
theorem addLoop_eq {turns : Nat} (fits : passed.length + ranges.length < 2 ^ 32)
    (enough : ranges.length < turns) : addLoop allocates turns (passed ++ ranges) added
        (UInt32.ofNat passed.length) =
      if allocates (addFrom passed added ranges).length then
        .done (addFrom passed added ranges)
      else .crashed := by
  induction ranges generalizing passed added turns with
  | nil =>
    obtain ⟨turns, rfl⟩ : ∃ others, turns = others + 1 := ⟨turns - 1, by omega⟩
    have index : (UInt32.ofNat passed.length).toNat = passed.length := toNat_index fits
    have atEnd : ¬(UInt32.ofNat passed.length).toNat <
        (passed ++ ([] : TimeRanges Time)).length := by
      rw [index]
      simp
    rw [addLoop, if_neg atEnd, insertAt_passed fits]
    rfl
  | cons range ranges ih =>
    rw [length_cons] at fits enough
    obtain ⟨turns, rfl⟩ : ∃ others, turns = others + 1 := ⟨turns - 1, by omega⟩
    have index : (UInt32.ofNat passed.length).toNat = passed.length := toNat_index (by omega)
    have inside : (UInt32.ofNat passed.length).toNat <
        (passed ++ range :: ranges).length := by
      rw [index]
      simp
    have here : (passed ++ range :: ranges)[passed.length]? = some range := by simp
    have next := @ih (passed ++ [range]) added turns
      (by rw [length_append, length_singleton]; omega) (by omega)
    rw [append_assoc, length_append, UInt32.ofNat_add] at next
    rw [addLoop, if_pos inside, index, here, addFrom]
    dsimp only
    by_cases meets : (added.isOverlappingRange range || added.isContiguousWithRange range) = true
    · have removed : (passed ++ range :: ranges).eraseIdx passed.length =
          passed ++ ranges := by
        rw [eraseIdx_append_of_length_le (Nat.le_refl _), Nat.sub_self]
        rfl
      have back : UInt32.ofNat passed.length - 1 + 1 = UInt32.ofNat passed.length :=
        UInt32.sub_add_cancel _ _
      rw [if_pos meets, if_pos meets, removed, back]
      exact ih (by omega) (by omega)
    · rw [if_neg meets, if_neg meets]
      have inserted := @insertAt_passed _ allocates passed (range :: ranges)
        added fits
      rcases eq_nil_or_concat passed with rfl | ⟨front, previous, rfl⟩
      · have stops : insertsBefore [] added range = added.isBeforeRange range := rfl
        have zero : UInt32.ofNat ([] : TimeRanges Time).length = 0 := rfl
        rw [stops, nil_append, getElem?_cons_zero]
        dsimp only
        by_cases isBefore : added.isBeforeRange range = true
        · rw [if_pos isBefore, if_pos isBefore]
          exact inserted
        · rw [if_neg isBefore, if_neg isBefore]
          exact next
      · rw [concat_eq_append] at fits next inserted ⊢
        have stops : insertsBefore (front ++ [previous]) added range =
            (previous.isBeforeRange added && added.isBeforeRange range) := by
          rw [insertsBefore, getLast?_concat]
        have nonzero : UInt32.ofNat (front ++ [previous]).length ≠ 0 := by
          intro zero
          have length := congrArg UInt32.toNat zero
          rw [toNat_index (by omega)] at length
          simp at length
        have previousHere := getElem?_previous (range :: ranges) front previous
          (by rw [length_append] at fits; omega)
        rw [if_neg nonzero, stops, previousHere]
        dsimp only
        by_cases isBetween : (previous.isBeforeRange added && added.isBeforeRange range) = true
        · rw [if_pos isBetween, if_pos isBetween]
          exact inserted
        · rw [if_neg isBetween, if_neg isBetween]
          exact next

end Loop

/-! ## Sequences of calls -/

variable
  {ranges adds : TimeRanges Time}
  {time : Time}

@[simp] theorem contain_nil : contain ([] : TimeRanges Time) time = false := rfl

/-- The vector with its new range keeps the times and their ends. -/
theorem addChecked_eq (memory : RangeMemory) (range : Range Time) (fits : ranges.length < 2 ^ 32) :
    addChecked memory.allocates ranges range.start range.end_ =
      if memory.allocates (ranges.add range.start range.end_).length then
        .done (ranges.add range.start range.end_)
      else .crashed :=
  @addLoop_eq _ _ memory.allocates [] ranges ⟨range.start, range.end_⟩ _
    (by rw [length_nil]; omega) (by omega)

/-- The times of two closed ranges that meet are those of their union. -/
theorem mem_closedUnion_iff {added range : Range Time} (left : added.start ≤ range.end_)
    (right : range.start ≤ added.end_) :
    (min added.start range.start ≤ time ∧ time ≤ max added.end_ range.end_) ↔
      (added.start ≤ time ∧ time ≤ added.end_) ∨
        (range.start ≤ time ∧ time ≤ range.end_) := by
  rw [min_le_iff, le_max_iff]
  constructor
  · rintro ⟨isAfter | isAfter, isBefore | isBefore⟩
    · exact .inl ⟨isAfter, isBefore⟩
    · rcases le_total time added.end_ with inside | isLater
      · exact .inl ⟨isAfter, inside⟩
      · exact .inr ⟨right.trans isLater, isBefore⟩
    · rcases le_total time range.end_ with inside | isLater
      · exact .inr ⟨isAfter, inside⟩
      · exact .inl ⟨left.trans isLater, isBefore⟩
    · exact .inr ⟨isAfter, isBefore⟩
  · rintro (⟨isAfter, isBefore⟩ | ⟨isAfter, isBefore⟩)
    · exact ⟨.inl isAfter, .inl isBefore⟩
    · exact ⟨.inr isAfter, .inr isBefore⟩

/-- The loop adds the closed range. -/
theorem contain_addFrom {passed : TimeRanges Time} {added : Range Time}
    (addedOrdered : added.start ≤ added.end_)
    (ordered : ∀ range ∈ ranges, range.start ≤ range.end_) :
    contain (addFrom passed added ranges) time = true ↔ contain (passed ++ ranges) time = true ∨
        (added.start ≤ time ∧ time ≤ added.end_) := by
  induction ranges generalizing passed added with
  | nil => simp [addFrom, contain]
  | cons range ranges ih =>
    obtain ⟨rangeOrdered, restOrdered⟩ := forall_mem_cons.1 ordered
    have inserted : contain (passed ++ added :: range :: ranges) time = true ↔
          contain (passed ++ range :: ranges) time = true ∨
            (added.start ≤ time ∧ time ≤ added.end_) := by
      simp only [contain, any_append, any_cons, Bool.or_eq_true,
        Bool.and_eq_true, decide_eq_true_eq, ge_iff_le]
      tauto
    rw [addFrom]
    by_cases meets : added.start ≤ range.end_ ∧ range.start ≤ added.end_
    · have union := @ih passed
        (added.unionWithOverlappingOrContiguousRange range)
        (min_le_of_left_le (le_max_of_le_left addedOrdered)) restOrdered
      rw [if_pos ((meets_iff addedOrdered rangeOrdered).2 meets), union,
        Range.unionWithOverlappingOrContiguousRange, mem_closedUnion_iff meets.1 meets.2]
      simp only [contain, any_append, any_cons, Bool.or_eq_true,
        Bool.and_eq_true, decide_eq_true_eq, ge_iff_le]
      tauto
    · rw [if_neg (mt (meets_iff addedOrdered rangeOrdered).1 meets)]
      split_ifs
      · exact inserted
      · have rest := @ih (passed ++ [range]) added addedOrdered
          restOrdered
        rw [append_assoc] at rest
        exact rest

/-- What a vector has become after the calls. -/
structure HoldsAdded (before adds ranges : TimeRanges Time) : Prop where
  normalised : Normalised ranges
  sorted : ranges.Pairwise fun range later => range.start ≤ later.start
  covers : ∀ time, Covers ranges time ↔ Covers before time ∨ Covers adds time
  contains : ∀ time, contain ranges time = (contain before time || contain adds time)
  length : ranges.length ≤ before.length + adds.length

/-- Separated ranges are sorted by their starts. -/
theorem Normalised.sorted (normalised : Normalised ranges) :
    ranges.Pairwise fun range later => range.start ≤ later.start := by
  refine List.Pairwise.imp_of_mem ?_ normalised.separated
  intro range later member _ isBefore
  exact (normalised.ordered range member).trans isBefore.le

theorem HoldsAdded.none (normalised : Normalised ranges) : HoldsAdded ranges [] ranges :=
  ⟨normalised, normalised.sorted, fun time => by simp, fun time => by simp, by simp⟩

/-- One call. -/
theorem HoldsAdded.add {range : Range Time} (normalised : Normalised ranges)
    (ordered : range.start ≤ range.end_) :
    HoldsAdded ranges [range] (ranges.add range.start range.end_) := by
  obtain ⟨addNormalised, addCovers⟩ := add_spec ordered normalised
  refine ⟨addNormalised, addNormalised.sorted, fun time => ?_, fun time => ?_, ?_⟩
  · rw [addCovers, covers_cons, or_iff_left not_covers_nil]
  · have closed := @contain_addFrom _ _ ranges time [] range ordered
      normalised.ordered
    rw [Bool.eq_iff_iff, TimeRanges.add, closed]
    simp [contain]
  · have length := @length_addFrom_le _ _ [] ranges ⟨range.start, range.end_⟩
    rw [length_nil, Nat.zero_add] at length
    exact length

theorem HoldsAdded.trans {before added : TimeRanges Time} {range : Range Time}
    (first : HoldsAdded before [range] added) (rest : HoldsAdded added adds ranges) :
    HoldsAdded before (range :: adds) ranges := by
  refine ⟨rest.normalised, rest.sorted, fun time => ?_, fun time => ?_, ?_⟩
  · rw [rest.covers, first.covers, covers_cons, covers_cons, or_iff_left not_covers_nil, or_assoc]
  · rw [rest.contains, first.contains, Bool.or_assoc]
    simp [contain]
  · have shorter := rest.length.trans (Nat.add_le_add_right first.length _)
    rw [length_singleton] at shorter
    rw [length_cons]
    omega

/-- A run of `add` on a normalised vector. -/
theorem runAdds_from (memory : RangeMemory) (ordered : ∀ range ∈ adds, range.start ≤ range.end_)
    (normalised : Normalised ranges) (fits : ranges.length ≤ (2 ^ 32 - 1) / 8) :
    (∃ result, runAdds memory.allocates ranges adds = .done result ∧
        HoldsAdded ranges adds result) ∨
      (runAdds memory.allocates ranges adds = .crashed ∧
        ∃ size ≤ ranges.length + adds.length, memory.allocates size = false) := by
  induction adds generalizing ranges with
  | nil => exact .inl ⟨ranges, rfl, .none normalised⟩
  | cons range adds ih =>
    obtain ⟨rangeOrdered, restOrdered⟩ := forall_mem_cons.1 ordered
    have first := HoldsAdded.add normalised rangeOrdered
    have length := first.length
    rw [length_singleton] at length
    rw [runAdds, addChecked_eq memory range (by omega), length_cons]
    by_cases grows : memory.allocates (ranges.add range.start range.end_).length = true
    · rw [if_pos grows]
      rcases ih restOrdered first.normalised
          (memory.limit _ grows) with
        ⟨result, run, rest⟩ | ⟨run, size, isSmall, full⟩
      · exact .inl ⟨result, run, first.trans rest⟩
      · exact .inr ⟨run, size, by omega, full⟩
    · rw [if_neg grows]
      exact .inr ⟨rfl, (ranges.add range.start range.end_).length, by omega,
        by simpa using grows⟩

/-- Every sequence of calls leaves sorted ranges with time between any two of
them, which cover exactly what was added, with or without the ends; no index
leaves the vector, and only a vector that cannot grow stops the run. -/
theorem runAdds_spec (memory : RangeMemory) (adds : List (Range Time))
    (ordered : ∀ range ∈ adds, range.start ≤ range.end_) :
    (∃ ranges, runAdds memory.allocates [] adds = .done ranges ∧ HoldsAdded [] adds ranges) ∨
      (runAdds memory.allocates [] adds = .crashed ∧
        ∃ size ≤ adds.length, memory.allocates size = false) := by
  have run := @runAdds_from _ _ [] adds memory ordered normalised_nil
    (by rw [length_nil]; omega)
  rw [length_nil, Nat.zero_add] at run
  exact run

theorem runAdds_spec_overlapping : (∃ ranges, runAdds (fun size => size ≤ (2 ^ 32 - 1) / 8) []
          [⟨5, 6⟩, ⟨1, 2⟩, ⟨3, 4⟩, (⟨2, 3⟩ : Range Nat)] = .done ranges ∧
        HoldsAdded [] [⟨5, 6⟩, ⟨1, 2⟩, ⟨3, 4⟩, ⟨2, 3⟩] ranges) ∨
      (runAdds (fun size => size ≤ (2 ^ 32 - 1) / 8) []
          [⟨5, 6⟩, ⟨1, 2⟩, ⟨3, 4⟩, (⟨2, 3⟩ : Range Nat)] = .crashed ∧
        ∃ size ≤ 4, decide (size ≤ (2 ^ 32 - 1) / 8) = false) :=
  runAdds_spec ⟨fun size => size ≤ (2 ^ 32 - 1) / 8, fun _ => of_decide_eq_true⟩
    [⟨5, 6⟩, ⟨1, 2⟩, ⟨3, 4⟩, ⟨2, 3⟩] (by decide)

end TimeRanges

end Media
end PalmWebKit
