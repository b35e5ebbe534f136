import Mathlib

/-!
# Weighted maps

The total weight of a finite map whose values have a weight, and how it moves
when a value is stored or erased.
-/

namespace PalmWebKit
namespace WeightedMap

variable {Key Value : Type*}

/-- The sum of the weights of the entries. -/
def entryTotal (weight : Key → Value → Nat) (map : AList fun _ : Key => Value) : Nat :=
  (map.entries.map fun entry => weight entry.1 entry.2).sum

/-- The weight of the entry of a key, zero when there is none. -/
def entryWeightAt [DecidableEq Key] (weight : Key → Value → Nat) (map : AList fun _ : Key => Value)
    (key : Key) : Nat := ((map.lookup key).map (weight key)).getD 0

/-- The sum of the weights of the values. -/
def total (weight : Value → Nat) (map : AList fun _ : Key => Value) : Nat :=
  (map.entries.map fun entry => weight entry.2).sum

/-- The weight of the value at a key, zero when there is none. -/
def weightAt [DecidableEq Key] (weight : Value → Nat) (map : AList fun _ : Key => Value)
    (key : Key) : Nat := ((map.lookup key).map weight).getD 0

section Entries

variable {weight : Key → Value → Nat}

@[simp] theorem entryTotal_empty : entryTotal weight (∅ : AList fun _ : Key => Value) = 0 := rfl

variable [DecidableEq Key]

theorem entryWeightAt_of_lookup {map : AList fun _ : Key => Value} {key : Key} {value : Value}
    (found : map.lookup key = some value) : entryWeightAt weight map key = weight key value := by
  rw [entryWeightAt, found, Option.map_some, Option.getD_some]

theorem entryWeightAt_of_lookup_none {map : AList fun _ : Key => Value} {key : Key}
    (absent : map.lookup key = none) : entryWeightAt weight map key = 0 := by
  rw [entryWeightAt, absent, Option.map_none, Option.getD_none]

/-- Erasing a key takes the weight of its entry off the total. -/
theorem entryTotal_erase (weight : Key → Value → Nat) (map : AList fun _ : Key => Value)
    (key : Key) : entryTotal weight (map.erase key) + entryWeightAt weight map key =
      entryTotal weight map := by
  have erasedTotal : entryTotal weight (map.erase key) =
      ((map.entries.kerase key).map fun entry => weight entry.1 entry.2).sum := rfl
  cases found : map.lookup key with
  | none =>
    have absent : key ∉ map.entries.keys := AList.lookup_eq_none.1 found
    rw [entryWeightAt_of_lookup_none found, Nat.add_zero, erasedTotal,
      List.kerase_of_notMem_keys absent, entryTotal]
  | some value =>
    have member : key ∈ map.entries.keys := AList.lookup_isSome.1 (by rw [found]; rfl)
    obtain ⟨stored, before, after, -, split, erased⟩ := List.exists_of_kerase member
    have same : stored = value := by
      have inMap : (⟨key, stored⟩ : Sigma fun _ : Key => Value) ∈ map.entries := by
        rw [split]
        exact List.mem_append_right _ (.head _)
      have lookup := AList.mem_lookup_iff.2 inMap
      rw [found, Option.mem_some_iff] at lookup
      exact lookup.symm
    rw [entryWeightAt_of_lookup found, erasedTotal, erased, entryTotal, split, same]
    simp only [List.map_append, List.map_cons, List.sum_append, List.sum_cons]
    omega

/-- Storing a value replaces the weight of the entry of its key. -/
theorem entryTotal_insert (weight : Key → Value → Nat) (map : AList fun _ : Key => Value)
    (key : Key) (value : Value) :
    entryTotal weight (map.insert key value) + entryWeightAt weight map key =
      entryTotal weight map + weight key value := by
  have erased := entryTotal_erase weight map key
  have inserted : entryTotal weight (map.insert key value) =
      weight key value + entryTotal weight (map.erase key) := by
    rfl
  omega

theorem entryWeightAt_le_entryTotal (weight : Key → Value → Nat) (map : AList fun _ : Key => Value)
    (key : Key) : entryWeightAt weight map key ≤ entryTotal weight map := by
  have erased := entryTotal_erase weight map key
  omega

end Entries

section Rules

variable {weight : Value → Nat}

@[simp] theorem total_empty : total weight (∅ : AList fun _ : Key => Value) = 0 := rfl

variable [DecidableEq Key]

theorem weightAt_of_lookup {map : AList fun _ : Key => Value} {key : Key} {value : Value}
    (found : map.lookup key = some value) : weightAt weight map key = weight value := by
  rw [weightAt, found, Option.map_some, Option.getD_some]

/-- Erasing a key takes its weight off the total. -/
theorem total_erase (weight : Value → Nat) (map : AList fun _ : Key => Value) (key : Key) :
    total weight (map.erase key) + weightAt weight map key = total weight map :=
  entryTotal_erase (fun _ => weight) map key

/-- Storing a value replaces the weight at its key. -/
theorem total_insert (weight : Value → Nat) (map : AList fun _ : Key => Value) (key : Key)
    (value : Value) : total weight (map.insert key value) + weightAt weight map key =
      total weight map + weight value := entryTotal_insert (fun _ => weight) map key value

theorem weightAt_le_total (weight : Value → Nat) (map : AList fun _ : Key => Value) (key : Key) :
    weightAt weight map key ≤ total weight map := by
  have erased := total_erase weight map key
  omega

end Rules

end WeightedMap
end PalmWebKit
