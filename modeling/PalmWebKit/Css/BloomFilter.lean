import Mathlib

/-!
# The counting filter

`BloomFilter<keyBits>`: every key has two slots, which may be the same one, and every
slot counts its keys until it reaches the greatest count, where it stays.
-/

namespace PalmWebKit
namespace Css

/-- The table of the filter by slot. -/
structure BloomFilter where
  table : UInt32 → UInt8

namespace BloomFilter

def maximumCount : UInt8 := 255

def keyMask (keyBits : Nat) : UInt32 := UInt32.ofNat (2 ^ keyBits - 1)

/-- The index of `firstSlot`. -/
def firstIndex (keyBits : Nat) (hash : UInt32) : UInt32 := hash &&& keyMask keyBits

/-- The index of `secondSlot`. -/
def secondIndex (keyBits : Nat) (hash : UInt32) : UInt32 := (hash >>> 16) &&& keyMask keyBits

def clear : BloomFilter :=
  { table := fun _ => 0 }

def increment (filter : BloomFilter) (index : UInt32) : BloomFilter :=
  if filter.table index < maximumCount then
    { table := Function.update filter.table index (filter.table index + 1) }
  else filter

def decrement (filter : BloomFilter) (index : UInt32) : BloomFilter :=
  if filter.table index < maximumCount then
    { table := Function.update filter.table index (filter.table index - 1) }
  else filter

def add (keyBits : Nat) (filter : BloomFilter) (hash : UInt32) : BloomFilter :=
  (filter.increment (firstIndex keyBits hash)).increment (secondIndex keyBits hash)

def remove (keyBits : Nat) (filter : BloomFilter) (hash : UInt32) : BloomFilter :=
  (filter.decrement (firstIndex keyBits hash)).decrement (secondIndex keyBits hash)

def mayContain (keyBits : Nat) (filter : BloomFilter) (hash : UInt32) : Bool :=
  filter.table (firstIndex keyBits hash) ≠ 0 && filter.table (secondIndex keyBits hash) ≠ 0

/-- A slot has reached the greatest count, or holds the count. -/
def Holds (slot : UInt8) (count : Nat) : Prop := slot = maximumCount ∨ slot.toNat = count

/-- Every slot holds its count. -/
def Tallies (filter : BloomFilter) (counts : UInt32 → Nat) : Prop :=
  ∀ index, Holds (filter.table index) (counts index)

/-- How often keys fall on a slot. -/
def occurrences (keyBits : Nat) (hashes : List UInt32) (index : UInt32) : Nat :=
  hashes.countP (fun hash => firstIndex keyBits hash = index) +
    hashes.countP (fun hash => secondIndex keyBits hash = index)

section Counting

variable {keyBits : Nat} {filter : BloomFilter} {counts other : UInt32 → Nat}
  {hash index : UInt32} {hashes : List UInt32}

theorem tallies_clear : clear.Tallies fun _ => 0 :=
  fun _ => .inr rfl

theorem Tallies.congr (tallies : filter.Tallies counts)
    (same : ∀ index, counts index = other index) : filter.Tallies other :=
  fun index => (tallies index).imp id fun counted => counted.trans (same index)

variable {slot : UInt8}

theorem holds_of_not_lt (full : ¬ slot < maximumCount) (count : Nat) : Holds slot count := by
  have fits := slot.toNat_lt
  left
  apply UInt8.toNat.inj
  change slot.toNat = 255
  change ¬ slot.toNat < 255 at full
  omega

theorem Holds.increment {count : Nat} (holds : Holds slot count) :
    Holds (if slot < maximumCount then slot + 1 else slot) (count + 1) := by
  split
  · next below =>
      rcases holds with full | counted
      · rw [full] at below
        exact absurd below (Nat.lt_irrefl _)
      · change slot.toNat < 255 at below
        right
        rw [UInt8.toNat_add, counted]
        change (count + 1) % 2 ^ 8 = count + 1
        omega
  · next full => exact holds_of_not_lt full _

theorem Holds.decrement {count : Nat} (holds : Holds slot (count + 1)) :
    Holds (if slot < maximumCount then slot - 1 else slot) count := by
  split
  · next below =>
      rcases holds with full | counted
      · rw [full] at below
        exact absurd below (Nat.lt_irrefl _)
      · change slot.toNat < 255 at below
        right
        rw [UInt8.toNat_sub, counted]
        change (2 ^ 8 - 1 + (count + 1)) % 2 ^ 8 = count
        omega
  · next full => exact holds_of_not_lt full _

theorem increment_table (slot : UInt32) : (filter.increment index).table slot =
      if slot = index then
        if filter.table slot < maximumCount then filter.table slot + 1 else filter.table slot
      else filter.table slot := by
  rw [BloomFilter.increment]
  by_cases same : slot = index
  · rw [if_pos same, same]
    split
    · exact Function.update_self _ _ _
    · rfl
  · split
    · exact Function.update_of_ne same _ _
    · rfl

theorem decrement_table (slot : UInt32) : (filter.decrement index).table slot =
      if slot = index then
        if filter.table slot < maximumCount then filter.table slot - 1 else filter.table slot
      else filter.table slot := by
  rw [BloomFilter.decrement]
  by_cases same : slot = index
  · rw [if_pos same, same]
    split
    · exact Function.update_self _ _ _
    · rfl
  · split
    · exact Function.update_of_ne same _ _
    · rfl

theorem Tallies.increment (tallies : filter.Tallies counts) (index : UInt32) :
    (filter.increment index).Tallies fun slot =>
      counts slot + if slot = index then 1 else 0 := by
  intro slot
  rw [increment_table]
  by_cases same : slot = index
  · simp only [if_pos same]
    exact (tallies slot).increment
  · simp only [if_neg same]
    exact tallies slot

theorem Tallies.decrement
    (tallies : filter.Tallies fun slot => counts slot + if slot = index then 1 else 0) :
    (filter.decrement index).Tallies counts := by
  intro slot
  have atSlot := tallies slot
  rw [decrement_table]
  by_cases same : slot = index
  · simp only [if_pos same] at atSlot ⊢
    exact atSlot.decrement
  · simp only [if_neg same] at atSlot ⊢
    exact atSlot

theorem occurrences_cons : occurrences keyBits (hash :: hashes) index =
      occurrences keyBits hashes index + (if index = secondIndex keyBits hash then 1 else 0) +
        if index = firstIndex keyBits hash then 1 else 0 := by
  simp only [occurrences, List.countP_cons, decide_eq_true_eq,
    @eq_comm _ (firstIndex keyBits hash), @eq_comm _ (secondIndex keyBits hash)]
  omega

theorem occurrences_append (first second : List UInt32) :
    occurrences keyBits (first ++ second) index =
      occurrences keyBits first index + occurrences keyBits second index := by
  simp only [occurrences, List.countP_append]
  omega

/-- Adding keys adds to the counts of their slots. -/
theorem Tallies.foldl_add (tallies : filter.Tallies counts) (hashes : List UInt32) :
    (hashes.foldl (add keyBits) filter).Tallies fun index =>
      counts index + occurrences keyBits hashes index := by
  induction hashes generalizing filter counts with
  | nil => exact tallies
  | cons hash hashes ih =>
    refine (ih ((tallies.increment _).increment _)).congr fun index => ?_
    rw [occurrences_cons]
    omega

/-- Removing keys that are counted takes them off the counts. -/
theorem Tallies.foldl_remove
    (tallies : filter.Tallies fun index => counts index + occurrences keyBits hashes index) :
    (hashes.foldl (remove keyBits) filter).Tallies counts := by
  induction hashes generalizing filter with
  | nil => exact tallies
  | cons hash hashes ih =>
    refine ih ?_
    refine Tallies.decrement (Tallies.decrement (tallies.congr fun index => ?_))
    rw [occurrences_cons]
    omega

/-- A key that is counted may be contained. -/
theorem Tallies.mayContain (tallies : filter.Tallies (occurrences keyBits hashes))
    (member : hash ∈ hashes) : filter.mayContain keyBits hash = true := by
  have slotCounted : ∀ index, index = firstIndex keyBits hash ∨ index = secondIndex keyBits hash →
        filter.table index ≠ 0 := by
    intro index isSlot empty
    rcases tallies index with saturated | counted
    · rw [empty] at saturated
      exact absurd saturated (by decide)
    · rw [empty] at counted
      have none : occurrences keyBits hashes index = 0 := counted.symm
      rw [occurrences, Nat.add_eq_zero_iff, List.countP_eq_zero, List.countP_eq_zero] at none
      rcases isSlot with rfl | rfl
      · exact none.1 hash member (decide_eq_true rfl)
      · exact none.2 hash member (decide_eq_true rfl)
  rw [BloomFilter.mayContain, Bool.and_eq_true, decide_eq_true_iff, decide_eq_true_iff]
  exact ⟨slotCounted _ (.inl rfl), slotCounted _ (.inr rfl)⟩

end Counting

end BloomFilter

end Css
end PalmWebKit
