import Mathlib

/-!
# Sorted steps as functions

A list of entries, each with a key and a value, stands for the function whose value
at a point is that of the last entry at or before it.  A strictly sorted list in
which every entry changes the value is determined by its function.
-/

namespace PalmWebKit
namespace Steps

open List

variable {Entry Key Value : Type*} [LinearOrder Key] (key : Entry → Key) (value : Entry → Value)

/-- The value at a point, with the one before the first entry. -/
def valueFrom (current : Value) : List Entry → Key → Value
  | [], _ => current
  | entry :: later, point =>
    if key entry ≤ point then valueFrom (value entry) later point else current

/-- Every entry changes the value. -/
def Alternating (current : Value) : List Entry → Prop
  | [] => True
  | entry :: later => value entry ≠ current ∧ Alternating (value entry) later

/-- The value behind the last entry. -/
def lastValue (current : Value) (entries : List Entry) : Value :=
  (entries.getLast?.map value).getD current

variable {key value} {current : Value} {entry : Entry} {entries later other : List Entry}
  {point : Key}

theorem valueFrom_cons_of_le (atPoint : key entry ≤ point) :
    valueFrom key value current (entry :: later) point =
      valueFrom key value (value entry) later point := by
  rw [valueFrom, if_pos atPoint]

theorem valueFrom_cons_of_lt (isBefore : point < key entry) :
    valueFrom key value current (entry :: later) point = current := by
  rw [valueFrom, if_neg (not_le.2 isBefore)]

theorem valueFrom_of_lt (isBefore : ∀ entry ∈ entries, point < key entry) :
    valueFrom key value current entries point = current := by
  cases entries with
  | nil => rfl
  | cons entry later => exact valueFrom_cons_of_lt (isBefore entry (.head _))

theorem lastValue_cons :
    lastValue value current (entry :: later) = lastValue value (value entry) later := by
  cases later with
  | nil => rfl
  | cons next later =>
    unfold lastValue
    rw [getLast?_cons_cons]
    cases behind : (next :: later).getLast? with
    | none => simp at behind
    | some last => rfl

theorem lastValue_append_singleton :
    lastValue value current (entries ++ [entry]) = value entry := by
  rw [lastValue, getLast?_append]
  rfl

theorem valueFrom_append (isBehind : ∀ entry ∈ entries, key entry ≤ point) :
    valueFrom key value current (entries ++ other) point =
      valueFrom key value (lastValue value current entries) other point := by
  induction entries generalizing current with
  | nil => rfl
  | cons entry later ih =>
    rw [cons_append, valueFrom_cons_of_le (isBehind entry mem_cons_self),
      ih fun any mem => isBehind any (.tail entry mem),
      lastValue_cons]

theorem valueFrom_of_le (isBehind : ∀ entry ∈ entries, key entry ≤ point) :
    valueFrom key value current entries point = lastValue value current entries := by
  have appended := @valueFrom_append _ _ _ _ key value current entries [] point isBehind
  rwa [append_nil] at appended

/-- Entries behind the point make no difference. -/
theorem valueFrom_append_of_lt (isBefore : ∀ entry ∈ other, point < key entry) :
    valueFrom key value current (entries ++ other) point =
      valueFrom key value current entries point := by
  induction entries generalizing current with
  | nil => exact valueFrom_of_lt isBefore
  | cons entry later ih =>
    rw [cons_append]
    unfold valueFrom
    rw [ih]

theorem alternating_append :
    Alternating value current (entries ++ other) ↔ Alternating value current entries ∧
        Alternating value (lastValue value current entries) other := by
  induction entries generalizing current with
  | nil => exact (iff_of_eq (true_and _)).symm
  | cons entry later ih =>
    rw [cons_append, Alternating, Alternating, ih, lastValue_cons, and_assoc]

theorem eq_of_valueFrom
    (entryExt : ∀ first second : Entry,
      key first = key second → value first = value second → first = second)
    (sorted : entries.Pairwise fun first second => key first < key second)
    (otherSorted : other.Pairwise fun first second => key first < key second)
    (changes : Alternating value current entries)
    (otherChanges : Alternating value current other)
    (same : ∀ point,
      valueFrom key value current entries point = valueFrom key value current other point) :
    entries = other := by
  induction entries generalizing other current with
  | nil =>
    cases other with
    | nil => rfl
    | cons entry later =>
      have atEntry := same (key entry)
      rw [valueFrom_cons_of_le le_rfl,
        valueFrom_of_lt (pairwise_cons.1 otherSorted).1] at atEntry
      exact absurd atEntry.symm otherChanges.1
  | cons entry later ih =>
    rw [pairwise_cons] at sorted
    cases other with
    | nil =>
      have atEntry := same (key entry)
      rw [valueFrom_cons_of_le le_rfl, valueFrom_of_lt sorted.1] at atEntry
      exact absurd atEntry changes.1
    | cons otherEntry otherLater =>
      rw [pairwise_cons] at otherSorted
      have keys : key entry = key otherEntry := by
        rcases lt_trichotomy (key entry) (key otherEntry) with isBefore | equal | isBehind
        · have atEntry := same (key entry)
          rw [valueFrom_cons_of_le le_rfl, valueFrom_of_lt sorted.1,
            valueFrom_cons_of_lt isBefore] at atEntry
          exact absurd atEntry changes.1
        · exact equal
        · have atOther := same (key otherEntry)
          rw [valueFrom_cons_of_lt isBehind, valueFrom_cons_of_le le_rfl,
            valueFrom_of_lt otherSorted.1] at atOther
          exact absurd atOther.symm otherChanges.1
      have values : value entry = value otherEntry := by
        have atEntry := same (key entry)
        rwa [valueFrom_cons_of_le le_rfl, valueFrom_of_lt sorted.1, valueFrom_cons_of_le keys.ge,
          valueFrom_of_lt (keys ▸ otherSorted.1)] at atEntry
      have entries_eq := entryExt entry otherEntry keys values
      subst entries_eq
      congr 1
      refine ih sorted.2 otherSorted.2 changes.2 otherChanges.2 ?_
      intro point
      rcases lt_or_ge point (key entry) with isBefore | isBehind
      · rw [valueFrom_of_lt fun any mem => isBefore.trans (sorted.1 any mem),
          valueFrom_of_lt fun any mem => isBefore.trans (otherSorted.1 any mem)]
      · have atPoint := same point
        rwa [valueFrom_cons_of_le isBehind, valueFrom_cons_of_le isBehind] at atPoint

section Map

variable
  {shift : Key → Key}
  {turn : Value → Value}
  {move : Entry → Entry}
  (moves : ∀ entry, key (move entry) = shift (key entry) ∧ value (move entry) = turn (value entry))

include moves

/-- Moving the keys along the order moves the function. -/
theorem valueFrom_map (monotone : ∀ first second, shift first ≤ shift second ↔ first ≤ second) :
    valueFrom key value (turn current) (entries.map move) (shift point) =
      turn (valueFrom key value current entries point) := by
  induction entries generalizing current with
  | nil => rfl
  | cons entry later ih =>
    rw [map_cons, valueFrom, valueFrom, (moves entry).1, (moves entry).2, ih]
    simp only [monotone]
    split <;> rfl

omit [LinearOrder Key] in
theorem alternating_map (injective : ∀ first second, turn first = turn second → first = second)
    (changes : Alternating value current entries) :
    Alternating value (turn current) (entries.map move) := by
  induction entries generalizing current with
  | nil => trivial
  | cons entry later ih =>
    rw [map_cons, Alternating, (moves entry).2]
    exact ⟨fun same => changes.1 (injective _ _ same), ih changes.2⟩

omit [LinearOrder Key] in
theorem lastValue_map : lastValue value (turn current) (entries.map move) =
      turn (lastValue value current entries) := by
  rw [lastValue, lastValue, getLast?_map]
  cases entries.getLast? with
  | none => rfl
  | some last => exact (moves last).2

end Map

end Steps
end PalmWebKit
