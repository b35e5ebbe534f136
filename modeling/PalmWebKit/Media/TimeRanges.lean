import Mathlib

/-!
# Time ranges

A `TimeRanges` object is a vector of ranges.  `add` keeps it sorted and merges
what overlaps or touches; the set operations are built on `add`.
-/

namespace PalmWebKit
namespace Media

variable {Time : Type*} [LinearOrder Time]

/-- A range, semi-bounded as `[start, end[`. -/
structure Range (Time : Type*) where
  start : Time
  end_ : Time
  deriving DecidableEq, Repr

namespace Range

def isPointInRange (range : Range Time) (point : Time) : Bool :=
  range.start ≤ point ∧ point < range.end_

def isOverlappingRange (self range : Range Time) : Bool :=
  self.isPointInRange range.start || self.isPointInRange range.end_ ||
    range.isPointInRange self.start

def isContiguousWithRange (self range : Range Time) : Bool :=
  range.start = self.end_ ∨ range.end_ = self.start

def unionWithOverlappingOrContiguousRange (self range : Range Time) : Range Time :=
  ⟨min self.start range.start, max self.end_ range.end_⟩

def isBeforeRange (self range : Range Time) : Bool := range.start ≥ self.end_

end Range

/-- `m_ranges` -/
abbrev TimeRanges (Time : Type*) := List (Range Time)

namespace TimeRanges

/-- Whether the loop of `add` ends at a range that the added one does not meet.
The ranges before it have been passed. -/
def insertsBefore (passed : TimeRanges Time) (addedRange range : Range Time) : Bool :=
  match passed.getLast? with
  | none => addedRange.isBeforeRange range
  | some previous => previous.isBeforeRange addedRange && addedRange.isBeforeRange range

/-- The loop of `add`: the vector is `passed` and then the rest. -/
def addFrom (passed : TimeRanges Time) (addedRange : Range Time) : TimeRanges Time → TimeRanges Time
  | [] => passed ++ [addedRange]
  | range :: ranges =>
    if addedRange.isOverlappingRange range || addedRange.isContiguousWithRange range then
      addFrom passed (addedRange.unionWithOverlappingOrContiguousRange range) ranges
    else if insertsBefore passed addedRange range then
      passed ++ addedRange :: range :: ranges
    else
      addFrom (passed ++ [range]) addedRange ranges

def add (ranges : TimeRanges Time) (start end_ : Time) : TimeRanges Time :=
  addFrom [] ⟨start, end_⟩ ranges

def addRanges (ranges added : TimeRanges Time) : TimeRanges Time :=
  added.foldl (fun ranges range => ranges.add range.start range.end_) ranges

def copy (ranges : TimeRanges Time) : TimeRanges Time := addRanges [] ranges

def unionWith (ranges other : TimeRanges Time) : TimeRanges Time := addRanges ranges.copy other

/-- The loop of `invert` over neighbouring ranges. -/
def gaps : TimeRanges Time → TimeRanges Time
  | first :: second :: ranges => ⟨first.end_, second.start⟩ :: gaps (second :: ranges)
  | _ => []

end TimeRanges

/-- The times of a field with plus and minus infinity. -/
abbrev ExtendedTime (K : Type*) := WithBot (WithTop K)

namespace TimeRanges

variable {K : Type*} [Field K] [LinearOrder K]

/-- A truth value as a `float`. -/
def ofBool (K : Type*) [Field K] (value : Bool) : ExtendedTime K :=
  if value then ((1 : K) : WithTop K) else ((0 : K) : WithTop K)

def invert (ranges : TimeRanges (ExtendedTime K)) : TimeRanges (ExtendedTime K) :=
  match ranges.head?, ranges.getLast? with
  | some first, some last =>
    -- `start` and `end` are initialised with the comparison.
    let start := ofBool K (first.start ≠ ⊥)
    let inverted := if start ≠ ofBool K false then add [] ⊥ start else []
    let inverted := addRanges inverted ranges.gaps
    let end_ := ofBool K (last.end_ ≠ ⊤)
    if end_ ≠ ofBool K false then inverted.add end_ ⊤ else inverted
  | _, _ => add [] ⊥ ⊤

def intersectWith (ranges other : TimeRanges (ExtendedTime K)) :
    TimeRanges (ExtendedTime K) := (ranges.copy.unionWith other.copy).invert

end TimeRanges

end Media
end PalmWebKit
