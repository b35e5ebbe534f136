import Mathlib

/-!
# Singly linked lists in a heap

Cells are allocated at addresses and hold the address of the next one.  A
segment is the sequence of cells met from one address to another; a list is a
segment that ends with a null link.  A cell is unlinked by freeing it and
writing the link of the cell before it.
-/

namespace PalmWebKit
namespace Logic
namespace LinkedList

open List

variable {Data : Type*}

structure Cell (Data : Type*) where
  data : Data
  next : Option Nat

/-- The allocated cells. -/
abbrev Heap (Data : Type*) := Nat → Option (Cell Data)

/-- The cells from an address up to another, in their order. -/
def SegmentAt (heap : Heap Data) (stop : Option Nat) : Option Nat → List (Nat × Data) → Prop
  | start, [] => start = stop
  | start, (address, data) :: rest =>
    start = some address ∧ ∃ next, heap address = some ⟨data, next⟩ ∧ SegmentAt heap stop next rest

/-- The cells of a list. -/
abbrev ListAt (heap : Heap Data) (start : Option Nat) (cells : List (Nat × Data)) : Prop :=
  SegmentAt heap none start cells

def free (heap : Heap Data) (address : Nat) : Heap Data := Function.update heap address none

def setNext (heap : Heap Data) (address : Nat) (next : Option Nat) : Heap Data :=
  Function.update heap address ((heap address).map fun cell => { cell with next })

section Segments

variable {heap : Heap Data} {start stop : Option Nat}

variable {front rest : List (Nat × Data)}

theorem segmentAt_append : SegmentAt heap stop start (front ++ rest) ↔
      ∃ middle, SegmentAt heap middle start front ∧ SegmentAt heap stop middle rest := by
  induction front generalizing start with
  | nil => exact ⟨fun segment => ⟨start, rfl, segment⟩, fun ⟨_, same, segment⟩ => same ▸ segment⟩
  | cons cell front ih =>
    constructor
    · rintro ⟨isStart, next, allocated, segment⟩
      obtain ⟨middle, segment, later⟩ := ih.1 segment
      exact ⟨middle, ⟨isStart, next, allocated, segment⟩, later⟩
    · rintro ⟨middle, ⟨isStart, next, allocated, segment⟩, later⟩
      exact ⟨isStart, next, allocated, ih.2 ⟨middle, segment, later⟩⟩

/-- Two lists from one address are the same. -/
theorem SegmentAt.unique {first second : List (Nat × Data)} (isFirst : ListAt heap start first)
    (isSecond : ListAt heap start second) : first = second := by
  induction first generalizing start second with
  | nil =>
    cases isFirst
    cases second with
    | nil => rfl
    | cons cell second => cases isSecond.1
  | cons cell first ih =>
    obtain ⟨rfl, next, allocated, isRest⟩ := isFirst
    cases second with
    | nil => cases isSecond
    | cons other second =>
      obtain ⟨sameAddress, otherNext, otherAllocated, otherRest⟩ := isSecond
      obtain ⟨address, data⟩ := cell
      obtain ⟨otherAddress, otherData⟩ := other
      cases sameAddress
      rw [allocated] at otherAllocated
      cases otherAllocated
      rw [ih isRest otherRest]

variable {cells : List (Nat × Data)}

/-- No cell comes twice. -/
theorem SegmentAt.nodup (isList : ListAt heap start cells) : (cells.map Prod.fst).Nodup := by
  induction cells generalizing start with
  | nil => exact .nil
  | cons cell cells ih =>
    obtain ⟨rfl, next, allocated, isRest⟩ := isList
    rw [map_cons, nodup_cons]
    refine ⟨?_, ih isRest⟩
    intro again
    obtain ⟨other, member, sameAddress⟩ := mem_map.1 again
    obtain ⟨front, later, rfl⟩ := append_of_mem member
    obtain ⟨middle, -, isLater⟩ := segmentAt_append.1 isRest
    have fromHere : ListAt heap (some cell.1) (cell :: (front ++ other :: later)) :=
      ⟨rfl, next, allocated, isRest⟩
    have fromThere : ListAt heap (some cell.1) (other :: later) := by
      rw [← sameAddress, ← isLater.1]
      exact isLater
    have lengths := congrArg List.length (fromHere.unique fromThere)
    simp only [length_cons, length_append] at lengths
    omega

/-- A cell elsewhere does not matter. -/
theorem SegmentAt.update (segment : SegmentAt heap stop start cells) {address : Nat}
    (elsewhere : address ∉ cells.map Prod.fst) (value : Option (Cell Data)) :
    SegmentAt (Function.update heap address value) stop start cells := by
  induction cells generalizing start with
  | nil => exact segment
  | cons cell cells ih =>
    obtain ⟨isStart, next, allocated, segment⟩ := segment
    rw [map_cons, mem_cons, not_or] at elsewhere
    refine ⟨isStart, next, ?_, ih segment elsewhere.2⟩
    rw [Function.update_of_ne (Ne.symm elsewhere.1)]
    exact allocated

/-- Every cell of a segment is allocated. -/
theorem SegmentAt.allocated (segment : SegmentAt heap stop start cells) {cell : Nat × Data}
    (member : cell ∈ cells) : ∃ next, heap cell.1 = some ⟨cell.2, next⟩ := by
  obtain ⟨front, later, rfl⟩ := append_of_mem member
  obtain ⟨middle, -, -, next, allocated, -⟩ := segmentAt_append.1 segment
  exact ⟨next, allocated⟩

/-- Unlinking a later cell. -/
theorem SegmentAt.unlink {before cell : Nat × Data}
    (isList : ListAt heap start (front ++ before :: cell :: rest)) :
    ∃ next, heap cell.1 = some ⟨cell.2, next⟩ ∧
      ListAt (setNext (free heap cell.1) before.1 next) start (front ++ before :: rest) := by
  have distinct := isList.nodup
  rw [map_append, map_cons, map_cons, nodup_append, nodup_cons,
    nodup_cons, mem_cons, not_or] at distinct
  obtain ⟨-, ⟨⟨beforeNeCell, beforeNotLater⟩, cellNotLater, -⟩, frontNotLater⟩ := distinct
  have notInFront (address : Nat) (later : address = before.1 ∨ address = cell.1) :
      address ∉ front.map Prod.fst := by
    intro member
    refine frontNotLater address member address ?_ rfl
    rw [mem_cons, mem_cons]
    exact later.imp_right .inl
  obtain ⟨middle, isFront, isBefore, beforeNext, beforeAllocated, -, next, allocated, isRest⟩ :=
    segmentAt_append.1 isList
  refine ⟨next, allocated, ?_⟩
  have beforeKept : free heap cell.1 before.1 = some ⟨before.2, beforeNext⟩ := by
    rw [free, Function.update_of_ne beforeNeCell, beforeAllocated]
  rw [setNext, beforeKept]
  refine segmentAt_append.2 ⟨middle, ?_, isBefore, next, Function.update_self .., ?_⟩
  · exact (isFront.update (notInFront _ (.inr rfl)) _).update (notInFront _ (.inl rfl)) _
  · exact (isRest.update cellNotLater _).update beforeNotLater _

/-- The last cell of a list, if it is not too long. -/
def lastOf (heap : Heap Data) : Nat → Nat → Option Nat
  | 0, _ => none
  | fuel + 1, address =>
    match heap address with
    | none => none
    | some cell =>
      match cell.next with
      | none => some address
      | some next => lastOf heap fuel next

theorem mem_of_lastOf {first last fuel : Nat} (isList : ListAt heap (some first) cells)
    (isLast : lastOf heap fuel first = some last) : last ∈ cells.map Prod.fst := by
  induction fuel generalizing first cells with
  | zero => cases isLast
  | succ fuel ih =>
    cases cells with
    | nil => cases isList
    | cons cell cells =>
      obtain ⟨isFirst, next, allocated, isRest⟩ := isList
      cases isFirst
      rw [lastOf, allocated] at isLast
      cases next with
      | none =>
        cases isLast
        exact .head _
      | some second => exact .tail _ (ih isRest isLast)

/-- Linking a new cell behind the last one. -/
theorem SegmentAt.append_cell {first last address fuel : Nat} {data : Data}
    (isList : ListAt heap (some first) cells) (isLast : lastOf heap fuel first = some last)
    (fresh : heap address = none) :
    ListAt (setNext (Function.update heap address (some ⟨data, none⟩)) last (some address))
      (some first) (cells ++ [(address, data)]) := by
  induction fuel generalizing first cells with
  | zero => cases isLast
  | succ fuel ih =>
    have distinct := isList.nodup
    cases cells with
    | nil => cases isList
    | cons cell cells =>
      obtain ⟨isFirst, next, allocated, isRest⟩ := isList
      cases isFirst
      have ne : cell.1 ≠ address := fun same => by
        rw [same, fresh] at allocated
        cases allocated
      rw [lastOf, allocated] at isLast
      rw [map_cons, nodup_cons] at distinct
      cases next with
      | none =>
        cases isLast
        cases isRest.unique (show ListAt heap none [] from rfl)
        refine ⟨rfl, some address, ?_, rfl, none, ?_, rfl⟩
        · rw [setNext, Function.update_self, Function.update_of_ne ne, allocated]
          rfl
        · rw [setNext, Function.update_of_ne ne.symm, Function.update_self]
      | some second =>
        refine ⟨rfl, some second, ?_, ih isRest isLast⟩
        have notLast : cell.1 ≠ last := by
          rintro rfl
          exact distinct.1 (mem_of_lastOf isRest isLast)
        rw [setNext, Function.update_of_ne notLast, Function.update_of_ne ne]
        exact allocated

end Segments

end LinkedList
end Logic
end PalmWebKit
