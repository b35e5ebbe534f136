import PalmWebKit.Logic.Runs

/-!
# The back/forward list

The entries of the history of one page with the index of the current one.  The
index is an unsigned word whose largest value means that there is no current
entry; a vector operation out of range has no result.
-/

namespace PalmWebKit
namespace History

open List

/-- A `BackForwardListImpl`. -/
structure BackForwardList (Item : Type*) where
  entries : List Item
  entryHash : Finset Item
  current : UInt32
  capacity : UInt32
  enabled : Bool

namespace BackForwardList

variable {Item : Type*}

/-- `DefaultCapacity` -/
def defaultCapacity : UInt32 := 100

/-- `NoCurrentItemIndex` -/
def noCurrentItemIndex : UInt32 := 4294967295

/-- The constructor. -/
def create : BackForwardList Item where
  entries := []
  entryHash := ∅
  current := noCurrentItemIndex
  capacity := defaultCapacity
  enabled := true

/-- `m_entries.size()` -/
def size (list : BackForwardList Item) : UInt32 := UInt32.ofNat list.entries.length

section Operations

variable [DecidableEq Item]

/-- The loops that take off the last entry while there are more than
`targetSize`; `fuel` bounds the entries. -/
def tossLast (targetSize : Nat) : Nat → BackForwardList Item → BackForwardList Item
  | 0, list => list
  | fuel + 1, list =>
    match list.entries.getLast? with
    | none => list
    | some item =>
      if targetSize < list.entries.length then
        tossLast targetSize fuel
          { list with
            entries := list.entries.dropLast
            entryHash := list.entryHash.erase item }
      else list

/-- Take off the first entry and move the index with it. -/
def tossFirst (list : BackForwardList Item) : Option (BackForwardList Item) :=
  match list.entries with
  | [] => none
  | item :: rest =>
    some
      { list with
        entries := rest
        entryHash := list.entryHash.erase item
        current := list.current - 1 }

def addItem (list : BackForwardList Item) (item : Item) : Option (BackForwardList Item) :=
  if list.capacity = 0 ∨ list.enabled = false then some list
  else
    let forwardTossed :=
      if list.current ≠ noCurrentItemIndex then
        tossLast (list.current + 1).toNat list.entries.length list
      else list
    let firstTossed :=
      if forwardTossed.size = forwardTossed.capacity ∧
          (forwardTossed.current ≠ 0 ∨ forwardTossed.capacity = 1) then
        forwardTossed.tossFirst
      else some forwardTossed
    firstTossed.bind fun list =>
      if (list.current + 1).toNat ≤ list.entries.length then
        some
          { list with
            entries := list.entries.insertIdx (list.current + 1).toNat item
            entryHash := insert item list.entryHash
            current := list.current + 1 }
      else none

def goBack (list : BackForwardList Item) : BackForwardList Item :=
  if 0 < list.current then { list with current := list.current - 1 } else list

def goForward (list : BackForwardList Item) : BackForwardList Item :=
  if list.current < list.size - 1 then { list with current := list.current + 1 } else list

def goToItem (list : BackForwardList Item) (item : Option Item) : BackForwardList Item :=
  match item with
  | none => list
  | some item =>
    if item ∈ list.entries then
      { list with current := UInt32.ofNat (list.entries.idxOf item) }
    else list

/-- `setCapacity`: a negative size keeps taking off entries when none is left. -/
def setCapacity (list : BackForwardList Item) (size : Int32) : Option (BackForwardList Item) :=
  if size.toInt < 0 then none
  else
    let tossed := tossLast size.toInt.toNat list.entries.length list
    let current :=
      if size = 0 then noCurrentItemIndex
      else if tossed.size - 1 < tossed.current then tossed.size - 1
      else tossed.current
    some { tossed with current := current, capacity := size.toUInt32 }

def setEnabled (list : BackForwardList Item) (enabled : Bool) : Option (BackForwardList Item) :=
  let flagged := { list with enabled := enabled }
  if enabled then some flagged
  else
    let capacity := flagged.capacity.toInt32
    (flagged.setCapacity 0).bind fun emptied => emptied.setCapacity capacity

/-- `removeItem`: the first entry that is the item leaves. -/
def removeItem (list : BackForwardList Item) (item : Option Item) : BackForwardList Item :=
  match item with
  | none => list
  | some item =>
    if item ∈ list.entries then
      let index := UInt32.ofNat (list.entries.idxOf item)
      let removed :=
        { list with
          entries := list.entries.erase item
          entryHash := list.entryHash.erase item }
      if list.current = noCurrentItemIndex ∨ list.current < index then removed
      else if index < list.current then { removed with current := list.current - 1 }
      else if removed.entries.length ≤ list.current.toNat then
        { removed with
          current := if removed.entries.length ≠ 0 then removed.size - 1 else noCurrentItemIndex }
      else removed
    else list

end Operations

def itemAtIndex (list : BackForwardList Item) (index : Int) : Option Item :=
  let forwardListCount : Int :=
    if list.current = noCurrentItemIndex then 0
    else list.entries.length - (list.current.toNat + 1)
  if index < -((list.current.toNat : Int).bmod (2 ^ 32)) then none
  else if forwardListCount < index then none
  else list.entries[((index + list.current.toNat) % 2 ^ 32).toNat]?

/-! ## The invariant -/

/-- What every operation keeps. -/
structure Invariant (list : BackForwardList Item) : Prop where
  current_eq_iff : list.current = noCurrentItemIndex ↔ list.entries = []
  current_lt : list.entries ≠ [] → list.current.toNat < list.entries.length
  length_le : list.entries.length ≤ list.capacity.toNat
  capacity_lt : list.capacity.toNat < 2 ^ 31
  mem_entryHash : ∀ item, item ∈ list.entryHash ↔ item ∈ list.entries
  nodup : list.entries.Nodup

theorem create_invariant : Invariant (create : BackForwardList Item) where
  current_eq_iff := ⟨fun _ => rfl, fun _ => rfl⟩
  current_lt := fun nonempty => absurd rfl nonempty
  length_le := Nat.zero_le _
  capacity_lt := show defaultCapacity.toNat < 2 ^ 31 by decide
  mem_entryHash := fun item => by simp [create]
  nodup := .nil

namespace Invariant

variable {list : BackForwardList Item}

variable (inv : Invariant list)
include inv

theorem length_lt :
    list.entries.length < 2 ^ 31 := lt_of_le_of_lt inv.length_le inv.capacity_lt

theorem size_toNat : list.size.toNat = list.entries.length := by
  have := inv.length_lt
  rw [size, UInt32.toNat_ofNat_of_lt']
  change list.entries.length < 2 ^ 32
  omega

theorem current_ne (nonempty : list.entries ≠ []) :
    list.current ≠ noCurrentItemIndex :=
  fun equal => nonempty (inv.current_eq_iff.1 equal)

theorem current_eq (empty : list.entries = []) :
    list.current = noCurrentItemIndex := inv.current_eq_iff.2 empty

omit inv

/-- An index below the length of a list is not the sentinel. -/
theorem ne_of_lt_length {index : UInt32} {length : Nat} (short : length < 2 ^ 31)
    (inside : index.toNat < length) : index ≠ noCurrentItemIndex := by
  rintro rfl
  have : noCurrentItemIndex.toNat = 4294967295 := rfl
  omega

end Invariant

/-! ## Taking entries off -/

section Tossing

variable [DecidableEq Item]

/-- The hash still holds the entries when the last one is taken off both. -/
theorem mem_erase_getLast {entries : List Item} {entryHash : Finset Item} {item : Item}
    (mem_entryHash : ∀ item, item ∈ entryHash ↔ item ∈ entries) (nodup : entries.Nodup)
    (isLast : entries.getLast? = some item) :
    ∀ other, other ∈ entryHash.erase item ↔ other ∈ entries.dropLast := by
  intro other
  obtain ⟨front, rfl⟩ := getLast?_eq_some_iff.1 isLast
  rw [Finset.mem_erase, mem_entryHash, dropLast_concat]
  have lastOutside : item ∉ front := by
    intro member
    exact (nodup_append.1 nodup).2.2 item member item (by simp) rfl
  constructor
  · rintro ⟨ne, member⟩
    simpa [ne] using member
  · intro member
    refine ⟨?_, mem_append_left _ member⟩
    rintro rfl
    exact lastOutside member

/-- What the tossing loops leave. -/
structure Tossed (targetSize : Nat) (list tossed : BackForwardList Item) : Prop where
  entries_eq : tossed.entries = list.entries.take targetSize
  mem_entryHash : ∀ item, item ∈ tossed.entryHash ↔ item ∈ tossed.entries
  current_eq : tossed.current = list.current
  capacity_eq : tossed.capacity = list.capacity
  enabled_eq : tossed.enabled = list.enabled

/-- The loop keeps the first `targetSize` entries. -/
theorem tossLast_tossed (targetSize : Nat) {fuel : Nat} {list : BackForwardList Item}
    (enough : list.entries.length ≤ fuel)
    (mem_entryHash : ∀ item, item ∈ list.entryHash ↔ item ∈ list.entries)
    (nodup : list.entries.Nodup) : Tossed targetSize list (tossLast targetSize fuel list) := by
  induction fuel generalizing list with
  | zero =>
    have empty : list.entries = [] := eq_nil_of_length_eq_zero (Nat.le_zero.1 enough)
    exact ⟨by simp [tossLast, empty], mem_entryHash, rfl, rfl, rfl⟩
  | succ fuel ih =>
    rw [tossLast]
    cases isLast : list.entries.getLast? with
    | none =>
      have empty : list.entries = [] := getLast?_eq_none_iff.1 isLast
      exact ⟨by simp [empty], mem_entryHash, rfl, rfl, rfl⟩
    | some item =>
      dsimp only
      split
      · rename_i tooMany
        have rest := @ih
          { list with
            entries := list.entries.dropLast
            entryHash := list.entryHash.erase item }
          (by rw [length_dropLast]; omega)
          (mem_erase_getLast mem_entryHash nodup isLast)
          (nodup.sublist (dropLast_sublist _))
        refine ⟨?_, rest.mem_entryHash, rest.current_eq, rest.capacity_eq, rest.enabled_eq⟩
        rw [rest.entries_eq, dropLast_eq_take, take_take]
        congr 1
        omega
      · rename_i few
        exact ⟨(take_of_length_le (not_lt.1 few)).symm, mem_entryHash, rfl, rfl, rfl⟩

end Tossing

/-! ## The operations -/

namespace Invariant

variable {list : BackForwardList Item}

/-- A move of the index inside the entries. -/
theorem moved (inv : Invariant list) {current : UInt32}
    (inside : current.toNat < list.entries.length) :
    Invariant { list with current := current } where
  current_eq_iff :=
    ⟨fun equal => absurd equal (ne_of_lt_length inv.length_lt inside),
      fun empty => by
        rw [empty] at inside
        exact absurd inside (Nat.not_lt_zero _)⟩
  current_lt := fun _ => inside
  length_le := inv.length_le
  capacity_lt := inv.capacity_lt
  mem_entryHash := inv.mem_entryHash
  nodup := inv.nodup

theorem goBack (inv : Invariant list) (nonempty : list.entries ≠ []) : Invariant list.goBack := by
  have inside := inv.current_lt nonempty
  unfold BackForwardList.goBack
  split
  · rename_i positive
    refine inv.moved ?_
    have positiveNat : 0 < list.current.toNat := UInt32.lt_iff_toNat_lt.1 positive
    have oneLe : (1 : UInt32) ≤ list.current := by exact positiveNat
    rw [UInt32.toNat_sub_of_le _ _ oneLe]
    omega
  · exact inv

theorem goForward (inv : Invariant list) : Invariant list.goForward := by
  unfold BackForwardList.goForward
  split
  · rename_i below
    rcases eq_nil_or_concat list.entries with empty | ⟨_, _, nonempty⟩
    · -- the size less one is the sentinel, and so is the index
      rw [inv.current_eq empty, size, empty, length_nil] at below
      exact absurd below (by decide)
    · refine inv.moved ?_
      have positive : 0 < list.entries.length := by
        rw [nonempty]
        simp
      have belowNat := UInt32.lt_iff_toNat_lt.1 below
      have oneLe : (1 : UInt32) ≤ list.size := by
        rw [UInt32.le_iff_toNat_le, inv.size_toNat]
        exact positive
      rw [UInt32.toNat_sub_of_le _ _ oneLe, inv.size_toNat] at belowNat
      change list.current.toNat < list.entries.length - 1 at belowNat
      change (list.current.toNat + 1) % 2 ^ 32 < _
      omega
  · exact inv

variable [DecidableEq Item]

theorem goToItem (inv : Invariant list) (item : Option Item) : Invariant (list.goToItem item) := by
  cases item with
  | none => exact inv
  | some item =>
    unfold BackForwardList.goToItem
    dsimp only
    split
    · rename_i member
      have inside := idxOf_lt_length_of_mem member
      have short := inv.length_lt
      refine inv.moved ?_
      rw [UInt32.toNat_ofNat_of_lt']
      · exact inside
      · change _ < 2 ^ 32
        omega
    · exact inv

/-- A new capacity keeps as many of the first entries as fit. -/
theorem setCapacity (inv : Invariant list) {size : Int32} (natural : 0 ≤ size.toInt) :
    ∃ resized, list.setCapacity size = some resized ∧ Invariant resized ∧
      resized.entries = list.entries.take size.toInt.toNat := by
  unfold BackForwardList.setCapacity
  rw [if_neg (not_lt.2 natural)]
  have tossed := tossLast_tossed size.toInt.toNat (le_refl _) inv.mem_entryHash
    inv.nodup
  generalize tossLast size.toInt.toNat list.entries.length list = kept at tossed
  have keptLength : kept.entries.length = min size.toInt.toNat list.entries.length := by
    rw [tossed.entries_eq, length_take]
  have sizeToNat : size.toUInt32.toNat = size.toInt.toNat := by
    have sizeLe : (0 : Int32) ≤ size := by
      rw [Int32.le_iff_toInt_le]
      exact natural
    rw [Int32.toNat_toUInt32_of_le sizeLe, Int32.toNat_toInt]
  have sizeLt : size.toInt.toNat < 2 ^ 31 := by exact Int32.toNatClampNeg_lt size
  have keptSize : kept.size.toNat = kept.entries.length := by
    rw [BackForwardList.size, UInt32.toNat_ofNat_of_lt']
    change _ < 2 ^ 32
    omega
  have nodup : kept.entries.Nodup := by
    rw [tossed.entries_eq]
    exact inv.nodup.sublist (take_sublist _ _)
  refine ⟨_, rfl, ?_, tossed.entries_eq⟩
  by_cases zero : size = 0
  · rw [if_pos zero]
    have empty : kept.entries = [] := by
      rw [tossed.entries_eq, zero]
      rfl
    exact
      { current_eq_iff := ⟨fun _ => empty, fun _ => rfl⟩
        current_lt := fun nonempty => absurd empty nonempty
        length_le := by
          rw [empty]
          exact Nat.zero_le _
        capacity_lt := by
          change size.toUInt32.toNat < 2 ^ 31
          omega
        mem_entryHash := tossed.mem_entryHash
        nodup := nodup }
  rw [if_neg zero]
  have sizePositive : 0 < size.toInt.toNat := by
    by_contra none
    have toIntZero : size.toInt = 0 := by omega
    exact zero (Int32.toInt_inj.1 toIntZero)
  have length_le : kept.entries.length ≤ size.toUInt32.toNat := by
    rw [sizeToNat, keptLength]
    exact Nat.min_le_left _ _
  have capacity_lt : size.toUInt32.toNat < 2 ^ 31 := by omega
  rcases Nat.eq_zero_or_pos list.entries.length with none | some
  · have empty : kept.entries = [] := by
      apply eq_nil_of_length_eq_zero
      omega
    have currentEq : kept.current = noCurrentItemIndex := by
      rw [tossed.current_eq]
      exact inv.current_eq (eq_nil_of_length_eq_zero none)
    have currentKept : (if kept.size - 1 < kept.current then kept.size - 1
        else kept.current) = noCurrentItemIndex := by
      rw [currentEq, BackForwardList.size, empty, length_nil]
      decide
    exact
      { current_eq_iff := ⟨fun _ => empty, fun _ => currentKept⟩
        current_lt := fun nonempty => absurd empty nonempty
        length_le := length_le
        capacity_lt := capacity_lt
        mem_entryHash := tossed.mem_entryHash
        nodup := nodup }
  · have positive : 0 < kept.entries.length := by
      rw [keptLength]
      exact lt_min sizePositive some
    have inside : (if kept.size - 1 < kept.current then kept.size - 1
        else kept.current).toNat < kept.entries.length := by
      have oneLe : (1 : UInt32) ≤ kept.size := by
        rw [UInt32.le_iff_toNat_le, keptSize]
        exact positive
      have lastToNat : (kept.size - 1).toNat = kept.entries.length - 1 := by
        rw [UInt32.toNat_sub_of_le _ _ oneLe, keptSize]
        rfl
      split
      · omega
      · rename_i below
        rw [UInt32.lt_iff_toNat_lt] at below
        omega
    have nonempty : kept.entries ≠ [] := ne_nil_of_length_pos positive
    exact
      { current_eq_iff := ⟨fun equal => absurd equal
          (ne_of_lt_length (by omega) inside),
          fun empty => absurd empty nonempty⟩
        current_lt := fun _ => inside
        length_le := length_le
        capacity_lt := capacity_lt
        mem_entryHash := tossed.mem_entryHash
        nodup := nodup }

theorem setEnabled (inv : Invariant list) (enabled : Bool) :
    ∃ set, list.setEnabled enabled = some set ∧ Invariant set := by
  unfold BackForwardList.setEnabled
  have flagged : Invariant { list with enabled := enabled } :=
    ⟨inv.current_eq_iff, inv.current_lt, inv.length_le,
      inv.capacity_lt, inv.mem_entryHash, inv.nodup⟩
  cases enabled with
  | true => exact ⟨_, rfl, flagged⟩
  | false =>
    rw [if_neg Bool.false_ne_true]
    have zeroNatural : 0 ≤ (0 : Int32).toInt := by decide
    obtain ⟨emptied, emptiedEq, emptiedInvariant, _⟩ := flagged.setCapacity zeroNatural
    rw [emptiedEq]
    have natural : 0 ≤ list.capacity.toInt32.toInt := by
      have small := inv.capacity_lt
      change 0 ≤ list.capacity.toBitVec.toInt
      rw [BitVec.toInt_eq_toNat_of_lt]
      · exact Int.natCast_nonneg _
      · change 2 * list.capacity.toNat < 2 ^ 32
        omega
    obtain ⟨resized, resizedEq, resizedInvariant, _⟩ := emptiedInvariant.setCapacity natural
    exact ⟨resized, resizedEq, resizedInvariant⟩

/-- An item leaves; the index stays with its entry, or takes the one that comes next,
or the last. -/
theorem removeItem (inv : Invariant list) (item : Option Item) :
    Invariant (list.removeItem item) := by
  cases item with
  | none => exact inv
  | some item =>
    unfold BackForwardList.removeItem
    dsimp only
    by_cases member : item ∈ list.entries
    · rw [if_pos member]
      have short := inv.length_lt
      have nonempty : list.entries ≠ [] := ne_nil_of_mem member
      have inside := inv.current_lt nonempty
      have indexLt := idxOf_lt_length_of_mem member
      have indexToNat : (UInt32.ofNat (list.entries.idxOf item)).toNat =
          list.entries.idxOf item := by
        apply UInt32.toNat_ofNat_of_lt'
        change _ < 2 ^ 32
        omega
      have erasedLength := length_erase_of_mem member
      have length_le : (list.entries.erase item).length ≤ list.capacity.toNat := by
        have := inv.length_le
        omega
      have mem_entryHash : ∀ other, other ∈ list.entryHash.erase item ↔
          other ∈ list.entries.erase item := by
        intro other
        rw [Finset.mem_erase, inv.mem_entryHash, inv.nodup.mem_erase_iff]
      have nodup : (list.entries.erase item).Nodup := inv.nodup.erase item
      -- an index inside the entries that are left is all that is needed
      have placed (current : UInt32)
          (insideLeft : current.toNat < (list.entries.erase item).length) : Invariant { list with
            entries := list.entries.erase item
            entryHash := list.entryHash.erase item
            current := current } :=
        { current_eq_iff := ⟨fun equal => absurd equal
            (ne_of_lt_length (by omega) insideLeft), fun empty => by
              change list.entries.erase item = [] at empty
              rw [empty] at insideLeft
              exact absurd insideLeft (Nat.not_lt_zero _)⟩
          current_lt := fun _ => insideLeft
          length_le := length_le
          capacity_lt := inv.capacity_lt
          mem_entryHash := mem_entryHash
          nodup := nodup }
      by_cases before : list.current = noCurrentItemIndex ∨
          list.current < UInt32.ofNat (list.entries.idxOf item)
      · rw [if_pos before]
        rcases before with none | before
        · exact absurd none (inv.current_ne nonempty)
        · refine placed list.current ?_
          rw [UInt32.lt_iff_toNat_lt] at before
          omega
      rw [if_neg before]
      by_cases behind : UInt32.ofNat (list.entries.idxOf item) < list.current
      · rw [if_pos behind]
        rw [UInt32.lt_iff_toNat_lt] at behind
        refine placed (list.current - 1) ?_
        rw [UInt32.toNat_sub_of_le]
        · change list.current.toNat - 1 < _
          omega
        · change 1 ≤ list.current.toNat
          omega
      rw [if_neg behind]
      by_cases last : (list.entries.erase item).length ≤ list.current.toNat
      · rw [if_pos last]
        by_cases left : (list.entries.erase item).length ≠ 0
        · rw [if_pos left]
          refine placed _ ?_
          have leftToNat : (UInt32.ofNat (list.entries.erase item).length).toNat =
              (list.entries.erase item).length := by
            apply UInt32.toNat_ofNat_of_lt'
            change _ < 2 ^ 32
            omega
          change (UInt32.ofNat (list.entries.erase item).length - 1).toNat < _
          rw [UInt32.toNat_sub_of_le]
          · rw [leftToNat]
            change (list.entries.erase item).length - 1 < _
            omega
          · rw [UInt32.le_iff_toNat_le]
            change 1 ≤ _
            omega
        · rw [if_neg left]
          have empty : list.entries.erase item = [] :=
            eq_nil_of_length_eq_zero (not_not.1 left)
          exact
            { current_eq_iff := ⟨fun _ => empty, fun _ => rfl⟩
              current_lt := fun some => absurd empty some
              length_le := length_le
              capacity_lt := inv.capacity_lt
              mem_entryHash := mem_entryHash
              nodup := nodup }
      · rw [if_neg last]
        exact placed list.current (not_le.1 last)
    · rw [if_neg member]
      exact inv

end Invariant

/-! ## Adding an item -/

/-- The entries up to the current one, without the first when they fill the list. -/
def backEntries (list : BackForwardList Item) : List Item :=
  let upToCurrent := list.entries.take (list.current + 1).toNat
  if upToCurrent.length = list.capacity.toNat then upToCurrent.drop 1 else upToCurrent

/-- What `addItem` leaves: the back list in its order, the new item behind it and
current, and nothing forward. -/
structure Added (list : BackForwardList Item) (item : Item) (added : BackForwardList Item) :
    Prop where
  entries_eq : added.entries = list.backEntries ++ [item]
  current_last : added.current.toNat + 1 = added.entries.length

/-- The index behind the entries up to the current one. -/
theorem Invariant.next_eq {list : BackForwardList Item} (inv : Invariant list) :
    (list.current + 1).toNat =
      (list.entries.take (list.current + 1).toNat).length := by
  rw [length_take]
  by_cases empty : list.entries = []
  · rw [inv.current_eq empty]
    rfl
  · have inside := inv.current_lt empty
    have short := inv.length_lt
    have next : (list.current + 1).toNat = list.current.toNat + 1 := by
      change (list.current.toNat + 1) % 2 ^ 32 = _
      omega
    omega

section Adding

variable [DecidableEq Item]
variable {list : BackForwardList Item}

/-- Nothing is forward of the index, which is the sentinel when nothing is left. -/
structure Ready (list ready : BackForwardList Item) : Prop where
  next : (ready.current + 1).toNat = ready.entries.length
  mem_entryHash : ∀ item, item ∈ ready.entryHash ↔ item ∈ ready.entries
  nodup : ready.entries.Nodup
  capacity_eq : ready.capacity = list.capacity

/-- The forward list is tossed. -/
theorem Invariant.forwardTossed (inv : Invariant list) :
    ∃ ready, (if list.current ≠ noCurrentItemIndex then
        tossLast (list.current + 1).toNat list.entries.length list else list) = ready ∧
      Ready list ready ∧ ready.entries = list.entries.take (list.current + 1).toNat ∧
        ready.current = list.current := by
  by_cases some : list.current ≠ noCurrentItemIndex
  · have tossed := tossLast_tossed (list.current + 1).toNat (le_refl _)
      inv.mem_entryHash inv.nodup
    refine ⟨_, rfl, ?_, ?_⟩
    · rw [if_pos some]
      refine ⟨?_, tossed.mem_entryHash, ?_, tossed.capacity_eq⟩
      · rw [tossed.current_eq, tossed.entries_eq]
        exact inv.next_eq
      · rw [tossed.entries_eq]
        exact inv.nodup.sublist (take_sublist _ _)
    · rw [if_pos some]
      exact ⟨tossed.entries_eq, tossed.current_eq⟩
  · have empty := inv.current_eq_iff.1 (not_not.1 some)
    refine ⟨list, if_neg some, ⟨?_, inv.mem_entryHash, inv.nodup, rfl⟩, ?_, rfl⟩
    · rw [not_not.1 some, empty]
      rfl
    · rw [empty, take_nil]

/-- The first entry is tossed when the list is full. -/
theorem Ready.firstTossed (inv : Invariant list) (room : list.capacity ≠ 0)
    {ready : BackForwardList Item} (isReady : Ready list ready)
    (entriesEq : ready.entries = list.entries.take (list.current + 1).toNat) :
    ∃ tossed, (if ready.size = ready.capacity ∧
          (ready.current ≠ 0 ∨ ready.capacity = 1) then ready.tossFirst else some ready) =
        some tossed ∧
      Ready list tossed ∧ tossed.entries = list.backEntries ∧
        tossed.entries.length < list.capacity.toNat := by
  have short := inv.length_lt
  have fits := inv.length_le
  have readyShort : ready.entries.length ≤ list.entries.length := by
    rw [entriesEq, length_take]
    exact Nat.min_le_right _ _
  have sizeToNat : ready.size.toNat = ready.entries.length := by
    apply UInt32.toNat_ofNat_of_lt'
    change _ < 2 ^ 32
    omega
  have roomNat : 0 < list.capacity.toNat := by
    by_contra none
    exact room (UInt32.toNat_inj.1 (Nat.eq_zero_of_not_pos none))
  have fullIff : ready.size = ready.capacity ↔
      ready.entries.length = list.capacity.toNat := by
    rw [← UInt32.toNat_inj, sizeToNat, isReady.capacity_eq]
  by_cases full : ready.entries.length = list.capacity.toNat
  · -- a full list with the first entry current has room for one entry only
    have second : ready.current ≠ 0 ∨ ready.capacity = 1 := by
      by_cases zero : ready.current = 0
      · right
        have next := isReady.next
        rw [zero] at next
        apply UInt32.toNat_inj.1
        rw [isReady.capacity_eq, ← full, ← next]
        rfl
      · exact .inl zero
    rw [if_pos ⟨fullIff.mpr full, second⟩]
    cases shape : ready.entries with
    | nil =>
      rw [shape, length_nil] at full
      omega
    | cons item rest =>
      have hash := isReady.mem_entryHash
      have nodup := isReady.nodup
      rw [shape] at hash nodup
      have tossedEq : ready.tossFirst = some { ready with
          entries := rest
          entryHash := ready.entryHash.erase item
          current := ready.current - 1 } := by
        simp only [tossFirst, shape]
      refine ⟨_, tossedEq, ⟨?_, ?_, ?_, isReady.capacity_eq⟩, ?_, ?_⟩
      · have next := isReady.next
        rw [shape] at next
        change (ready.current - 1 + 1).toNat = rest.length
        rw [UInt32.sub_add_cancel]
        change (ready.current.toNat + 1) % 2 ^ 32 = rest.length + 1 at next
        have := ready.current.toNat_lt
        omega
      · intro other
        change other ∈ ready.entryHash.erase item ↔ other ∈ rest
        rw [Finset.mem_erase, hash, mem_cons]
        have outside := (nodup_cons.1 nodup).1
        constructor
        · rintro ⟨ne, equal | member⟩
          · exact absurd equal ne
          · exact member
        · intro member
          refine ⟨?_, .inr member⟩
          rintro rfl
          exact outside member
      · exact (nodup_cons.1 nodup).2
      · unfold backEntries
        rw [← entriesEq, if_pos full, shape, drop_one, tail_cons]
      · change rest.length < _
        rw [shape, length_cons] at full
        omega
  · rw [if_neg (fun both => full (fullIff.mp both.1))]
    refine ⟨ready, rfl, isReady, ?_, ?_⟩
    · unfold backEntries
      rw [← entriesEq, if_neg full]
    · omega

/-- An item is added behind the current entry, if the list takes any. -/
theorem Invariant.addItem (inv : Invariant list) (item : Item)
    (active : ¬ (list.capacity = 0 ∨ list.enabled = false)) :
    ∃ added, list.addItem item = some added ∧ Added list item added ∧
      (item ∉ list.backEntries → Invariant added) := by
  rw [not_or] at active
  obtain ⟨ready, readyEq, isReady, entriesEq, _⟩ := inv.forwardTossed
  obtain ⟨tossed, tossedEq, isTossed, backEq, room⟩ := isReady.firstTossed inv active.1 entriesEq
  have small := inv.capacity_lt
  have addedEq : list.addItem item = some { tossed with
      entries := tossed.entries ++ [item]
      entryHash := insert item tossed.entryHash
      current := tossed.current + 1 } := by
    unfold BackForwardList.addItem
    rw [if_neg (not_or.2 active)]
    dsimp only
    rw [readyEq, tossedEq, Option.bind_some, if_pos isTossed.next.le, isTossed.next,
      insertIdx_length_self]
  have inside : (tossed.current + 1).toNat < (tossed.entries ++ [item]).length := by
    rw [isTossed.next, length_append]
    exact Nat.lt_succ_self _
  have addedLength : (tossed.entries ++ [item]).length < 2 ^ 31 := by
    rw [length_append, length_singleton]
    omega
  refine ⟨_, addedEq, ⟨?_, ?_⟩, fun fresh => ?_⟩
  · rw [backEq]
  · rw [isTossed.next, length_append, length_singleton]
  · rw [← backEq] at fresh
    exact
      { current_eq_iff := ⟨fun equal => absurd equal (ne_of_lt_length addedLength inside),
          fun empty => absurd empty (by simp)⟩
        current_lt := fun _ => inside
        length_le := by
          rw [isTossed.capacity_eq, length_append]
          exact room
        capacity_lt := by
          rw [isTossed.capacity_eq]
          exact small
        mem_entryHash := fun other => by
          rw [Finset.mem_insert, isTossed.mem_entryHash, mem_append,
            mem_singleton, or_comm]
        nodup := by
          rw [nodup_append]
          refine ⟨isTossed.nodup, nodup_singleton item, ?_⟩
          rintro first member second isItem rfl
          exact fresh (mem_singleton.1 isItem ▸ member) }

end Adding

/-! ## Runs -/

/-- The calls of the list. -/
inductive Operation (Item : Type*) where
  | addItem (item : Item)
  | goBack
  | goForward
  | goToItem (item : Option Item)
  | setCapacity (size : Int32)
  | setEnabled (enabled : Bool)
  | removeItem (item : Option Item)

section Runs

variable [DecidableEq Item]

def apply (list : BackForwardList Item) : Operation Item → Option (BackForwardList Item)
  | .addItem item => list.addItem item
  | .goBack => some list.goBack
  | .goForward => some list.goForward
  | .goToItem item => some (list.goToItem item)
  | .setCapacity size => list.setCapacity size
  | .setEnabled enabled => list.setEnabled enabled
  | .removeItem item => some (list.removeItem item)

/-- One call in a run; `none` is the state after a vector operation out of range. -/
def step (state : Option (BackForwardList Item))
    (op : Operation Item) : Option (BackForwardList Item) := state.bind fun list => list.apply op

/-- The condition on one call: no `goBack` of an empty list, no negative capacity, and
no item added that the list keeps already. -/
def Condition (state : Option (BackForwardList Item)) (op : Operation Item) : Prop :=
  ∀ list, state = some list →
    match op with
    | .addItem item => list.capacity = 0 ∨ list.enabled = false ∨ item ∉ list.backEntries
    | .goBack => list.entries ≠ []
    | .setCapacity size => 0 ≤ size.toInt
    | _ => True

/-- The property of one reachable state. -/
structure Sound (list : BackForwardList Item) : Prop where
  current_eq_iff : list.current = noCurrentItemIndex ↔ list.entries = []
  current_lt : list.entries ≠ [] → list.current.toNat < list.entries.length
  length_le : list.entries.length ≤ list.capacity.toNat
  mem_entryHash : ∀ item, item ∈ list.entryHash ↔ item ∈ list.entries
  addItem : ∀ item, ¬ (list.capacity = 0 ∨ list.enabled = false) →
    ∃ added, list.addItem item = some added ∧ Added list item added

theorem Invariant.sound {list : BackForwardList Item} (inv : Invariant list) : Sound list where
  current_eq_iff := inv.current_eq_iff
  current_lt := inv.current_lt
  length_le := inv.length_le
  mem_entryHash := inv.mem_entryHash
  addItem := fun item active => by
    obtain ⟨added, addedEq, isAdded, _⟩ := inv.addItem item active
    exact ⟨added, addedEq, isAdded⟩

/-- One call that meets the condition keeps the invariant. -/
theorem Invariant.step {state : Option (BackForwardList Item)}
    (inv : ∃ list, state = some list ∧ Invariant list) {op : Operation Item}
    (condition : Condition state op) : ∃ list, step state op = some list ∧ Invariant list := by
  obtain ⟨list, rfl, inv⟩ := inv
  have met := condition list rfl
  unfold BackForwardList.step
  cases op with
  | addItem item =>
    by_cases inactive : list.capacity = 0 ∨ list.enabled = false
    · exact ⟨list, if_pos inactive, inv⟩
    · obtain ⟨added, addedEq, _, kept⟩ := inv.addItem item inactive
      exact ⟨added, addedEq, kept ((or_assoc.2 met).resolve_left inactive)⟩
  | goBack => exact ⟨_, rfl, inv.goBack met⟩
  | goForward => exact ⟨_, rfl, inv.goForward⟩
  | goToItem item => exact ⟨_, rfl, inv.goToItem item⟩
  | setCapacity size =>
    obtain ⟨resized, resizedEq, kept, _⟩ := inv.setCapacity met
    exact ⟨resized, resizedEq, kept⟩
  | setEnabled enabled => exact inv.setEnabled enabled
  | removeItem item => exact ⟨_, rfl, inv.removeItem item⟩

/-- In a run whose calls meet the condition every state is sound. -/
theorem sound_run (ops : List (Operation Item))
    (met : Runs.StepsMeet step Condition (some (create : BackForwardList Item)) ops) :
    ∀ reached ∈ Runs.visited step (some create) ops,
      ∃ list, reached = some list ∧ Sound list := by
  intro reached visited
  obtain ⟨list, reachedEq, inv⟩ := @Runs.visited_of_stepsMeet _ _ step
    (fun state : Option (BackForwardList Item) => ∃ list, state = some list ∧ Invariant list)
    Condition (fun _ _ initial met => Invariant.step initial met) ops _
    ⟨create, rfl, create_invariant⟩ met reached visited
  exact ⟨list, reachedEq, inv.sound⟩

/-- The theorem on a run that adds two items and goes back. -/
theorem sound_run_of_two_items : ∃ list, Runs.final step (some (create : BackForwardList Nat))
          [.addItem 1, .addItem 2, .goBack, .removeItem (some 2), .setCapacity 1] =
        some list ∧ Sound list := by
  refine sound_run _ ?_ _ (Runs.final_mem_visited _ _)
  refine ⟨?_, ?_, ?_, ?_, ?_, trivial⟩
  all_goals
    rintro list stateEq
    cases stateEq
    decide

/-- Going back in the empty list leaves an index that is not the sentinel. -/
theorem not_sound_of_goBack :
    ¬ ∃ list, step (some (create : BackForwardList Nat)) .goBack = some list ∧ Sound list := by
  rintro ⟨list, stepEq, sound⟩
  cases stepEq
  exact absurd (sound.current_eq_iff.2 rfl) (by decide)

end Runs

end BackForwardList
end History
end PalmWebKit
