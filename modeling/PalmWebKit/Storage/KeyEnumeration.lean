import PalmWebKit.Storage.StorageMap

/-!
# The enumeration of a storage map

`StorageMap::key` keeps an iterator into the hash table with its index.  The
order of the table and its rehashing are a parameter.
-/

namespace PalmWebKit
namespace Storage

open List

/-- The order of a table whose contents have changed, and whether it was
rehashed. -/
structure TableOrder where
  arrange : List StringImpl → StorageMap → List StringImpl × Bool
  perm : ∀ keys storageMap, (arrange keys storageMap).1.Perm storageMap.map.keys

/-- `m_iteratorIndex` and the entry of `m_iterator`, `none` where there is none. -/
structure KeyIterator where
  index : Nat
  entry : Option StringImpl

/-- A storage map with the order of its table.  Without a cached iterator
`m_iteratorIndex` is `UINT_MAX`. -/
structure EnumeratedMap where
  storageMap : StorageMap
  keys : List StringImpl
  iterator : Option KeyIterator

/-- What `key` returns.  An iterator without an entry is not read. -/
inductive KeyResult
  | null
  | key (name : StringImpl)
  | fault

inductive MapCall
  | setItem (refCount : Nat) (key value : StringImpl)
  | removeItem (refCount : Nat) (key : StringImpl)
  | importItem (key : StringImpl) (value : Option StringImpl)
  | key (index : Nat)

namespace EnumeratedMap

def create (quota : UInt32) : EnumeratedMap := ⟨StorageMap.create quota, [], none⟩

def length (map : EnumeratedMap) : Nat := map.storageMap.map.keys.length

/-- A number of increments of an iterator. -/
def advance (map : EnumeratedMap) (entry : Option StringImpl) (count : Nat) : Option StringImpl :=
  entry.bind fun key => map.keys[map.keys.idxOf key + count]?

def setIteratorToIndex (map : EnumeratedMap) (index : Nat) : KeyIterator :=
  let start : KeyIterator := ⟨index, map.advance map.keys.head? index⟩
  match map.iterator with
  | none => start
  | some iterator =>
    if iterator.index = index then iterator
    else if index < iterator.index then start
    else ⟨index, map.advance iterator.entry (index - iterator.index)⟩

def key (map : EnumeratedMap) (index : Nat) : KeyResult × EnumeratedMap :=
  if map.length ≤ index then (.null, map)
  else
    let iterator := map.setIteratorToIndex index
    (iterator.entry.elim .fault .key, { map with iterator := some iterator })

variable (order : TableOrder)

/-- New contents.  An iterator that stays loses its entry when the table is
rehashed or the entry is removed. -/
def store (map : EnumeratedMap) (storageMap : StorageMap) (invalidateIterator : Bool) :
    EnumeratedMap :=
  let (keys, rehashed) := order.arrange map.keys storageMap
  { storageMap, keys
    iterator := if invalidateIterator then none else map.iterator.map fun iterator =>
      { iterator with
        entry := if rehashed then none else iterator.entry.filter (· ∈ keys) } }

/-- The map that a caller goes on with. -/
def apply (map : EnumeratedMap) : MapCall → EnumeratedMap
  | .setItem refCount key value =>
    let mutation := map.storageMap.setItem refCount key value
    match mutation.newStorageMap with
    | some copied => store order ⟨copied, [], none⟩ copied true
    | none => if mutation.quotaException then map else store order map mutation.self true
  | .removeItem refCount key =>
    let mutation := map.storageMap.removeItem refCount key
    match mutation.newStorageMap with
    | some copied => store order ⟨copied, [], none⟩ copied true
    | none =>
      if map.storageMap.contains key then
        store order map mutation.self (mutation.oldValue ≠ none)
      else { map with storageMap := mutation.self }
  | .importItem key value =>
    let imported := map.storageMap.importItem key value
    if map.storageMap.contains key then { map with storageMap := imported }
    else store order map imported false
  | .key index => (map.key index).2

/-- The results of reads with nothing in between. -/
def readAll : EnumeratedMap → List Nat → List KeyResult
  | _, [] => []
  | map, index :: reads => (map.key index).1 :: readAll (map.key index).2 reads

def resultAt (names : List StringImpl) (index : Nat) : KeyResult := names[index]?.elim .null .key

/-- Reads in any order give the stored keys, each at one index, and the null
string behind them. -/
def Enumerates (map : EnumeratedMap) : Prop :=
  ∃ names : List StringImpl, names.Perm map.storageMap.map.keys ∧
    ∀ reads, map.readAll reads = reads.map (resultAt names)

/-- The cached iterator is at its index. -/
def InPlace (map : EnumeratedMap) : Prop :=
  ∀ iterator ∈ map.iterator, iterator.index < map.keys.length →
    iterator.entry = map.keys[iterator.index]?

/-- The call puts the iterator away, or leaves it at its index. -/
def KeepsPlace (map : EnumeratedMap) : MapCall → Prop
  | .removeItem refCount key =>
    refCount ≤ 1 → map.storageMap.map.lookup key = some none →
      InPlace (store order map (map.storageMap.removeItem refCount key).self false)
  | .importItem key value =>
    map.storageMap.contains key = false →
      InPlace (store order map (map.storageMap.importItem key value) false)
  | _ => True

structure Ready (map : EnumeratedMap) : Prop where
  perm : map.keys.Perm map.storageMap.map.keys
  inPlace : map.InPlace

variable {map : EnumeratedMap}

theorem Ready.nodup (ready : map.Ready) : map.keys.Nodup :=
  ready.perm.nodup_iff.2 map.storageMap.map.nodupKeys

theorem advance_getElem (nodup : map.keys.Nodup) {index : Nat} (inside : index < map.keys.length)
    (count : Nat) : map.advance map.keys[index]? count = map.keys[index + count]? := by
  rw [advance, getElem?_eq_getElem inside, Option.bind_some, nodup.idxOf_getElem]

theorem setIteratorToIndex_some {iterator : KeyIterator} (isIterator : map.iterator = some iterator)
    (index : Nat) : map.setIteratorToIndex index = if iterator.index = index then iterator
      else if index < iterator.index then ⟨index, map.advance map.keys.head? index⟩
      else ⟨index, map.advance iterator.entry (index - iterator.index)⟩ := by
  rw [setIteratorToIndex, isIterator]

theorem setIteratorToIndex_entry (ready : map.Ready) {index : Nat}
    (inside : index < map.keys.length) :
    map.setIteratorToIndex index = ⟨index, map.keys[index]?⟩ := by
  have start : map.advance map.keys.head? index = map.keys[index]? := by
    rw [head?_eq_getElem?, advance_getElem ready.nodup (by omega), Nat.zero_add]
  unfold setIteratorToIndex
  cases isIterator : map.iterator with
  | none => simp [start]
  | some iterator =>
    simp only
    split_ifs with same before
    · rw [← same, ← ready.inPlace iterator isIterator (same ▸ inside)]
    · rw [start]
    · rw [ready.inPlace iterator isIterator (by omega), advance_getElem ready.nodup (by omega)]
      congr 3
      omega

/-- A read of a map whose iterator is in place. -/
theorem Ready.key (ready : map.Ready) (index : Nat) :
    (map.key index).1 = resultAt map.keys index ∧ (map.key index).2.Ready ∧
      (map.key index).2.keys = map.keys := by
  unfold EnumeratedMap.key resultAt
  rw [length, ← ready.perm.length_eq]
  split_ifs with outside
  · exact ⟨by rw [getElem?_eq_none outside]; rfl, ready, rfl⟩
  · have inside := not_le.1 outside
    rw [setIteratorToIndex_entry ready inside]
    refine ⟨by rw [getElem?_eq_getElem inside]; rfl, ⟨ready.perm, ?_⟩, rfl⟩
    rintro iterator isIterator -
    cases isIterator
    rfl

theorem Ready.enumerates (ready : map.Ready) : map.Enumerates := by
  refine ⟨map.keys, ready.perm, fun reads => ?_⟩
  induction reads generalizing map with
  | nil => rfl
  | cons index reads ih =>
    obtain ⟨result, next, keys⟩ := ready.key index
    rw [readAll, result, ih next, keys, map_cons]

theorem key_iterator {index : Nat} (inside : index < map.length) :
    map.key index = ((map.setIteratorToIndex index).entry.elim .fault .key,
      { map with iterator := some (map.setIteratorToIndex index) }) :=
  if_neg (not_le.2 inside)

/-- Where every order of reads gives the same keys, the iterator is in place. -/
theorem Enumerates.inPlace (perm : map.keys.Perm map.storageMap.map.keys)
    (enumerates : map.Enumerates) : map.InPlace := by
  rintro iterator isIterator inside
  obtain ⟨names, namesPerm, reads⟩ := enumerates
  have samePerm := namesPerm.trans perm.symm
  have sameLength := samePerm.length_eq
  have nodup : map.keys.Nodup := perm.nodup_iff.2 map.storageMap.map.nodupKeys
  have isLength : map.length = map.keys.length := perm.length_eq.symm
  have entry_of : ∀ {other : EnumeratedMap} {index : Nat}, index < other.length →
      index < map.keys.length → (other.key index).1 = resultAt names index →
      (other.setIteratorToIndex index).entry = names[index]? := by
    intro other index isInside hasName result
    rw [key_iterator isInside, resultAt, getElem?_eq_getElem (by omega)] at result
    rw [getElem?_eq_getElem (by omega)]
    cases isEntry : (other.setIteratorToIndex index).entry with
    | none => simp [isEntry] at result
    | some name => simpa [isEntry] using result
  have read := fun index (isInside : index < map.keys.length) =>
    entry_of (isLength ▸ isInside) isInside (head_eq_of_cons_eq (reads [index]))
  have cached := read iterator.index inside
  rw [setIteratorToIndex_some isIterator, if_pos rfl] at cached
  rw [cached]
  rcases Nat.eq_zero_or_pos iterator.index with isZero | positive
  · -- The last key is read by increments from the cached entry.
    have first := getElem?_eq_getElem (show 0 < names.length by omega)
    have isKey := samePerm.subset (mem_of_getElem? first)
    have located := idxOf_lt_length_iff.2 isKey
    have isFirst : map.keys.idxOf names[0] = 0 := by
      by_contra behind
      have last := read (map.keys.length - 1) (by omega)
      rw [setIteratorToIndex_some isIterator, isZero, if_neg (by omega), if_neg (by omega), cached,
        isZero, first, advance, Option.bind_some, getElem?_eq_none (by omega),
        getElem?_eq_getElem (by omega)] at last
      contradiction
    rw [isZero, first, ← getElem?_idxOf isKey, isFirst]
  · -- A read of the first key starts the iterator again.
    have result := head_eq_of_cons_eq (tail_eq_of_cons_eq (reads [0, iterator.index]))
    have restarted : (map.key 0).2 = { map with iterator := some ⟨0, map.keys[0]?⟩ } := by
      rw [key_iterator (by omega), setIteratorToIndex_some isIterator, if_neg (by omega),
        if_pos positive, head?_eq_getElem?, advance_getElem nodup (by omega)]
    rw [restarted] at result
    have again := entry_of (isLength ▸ inside) inside result
    rw [setIteratorToIndex_some rfl, if_neg positive.ne, if_neg (by simp)] at again
    have increments := advance_getElem nodup (show 0 < map.keys.length by omega) iterator.index
    rw [Nat.zero_add] at increments
    rw [← again]
    exact increments

theorem ready_create (quota : UInt32) : (create quota).Ready where
  perm := .nil
  inPlace _ isIterator := nomatch isIterator

theorem store_ready {storageMap : StorageMap} {invalidateIterator : Bool}
    (inPlace : InPlace (store order map storageMap invalidateIterator)) :
    (store order map storageMap invalidateIterator).Ready :=
  ⟨order.perm map.keys storageMap, inPlace⟩

theorem store_inPlace (storageMap : StorageMap) : InPlace (store order map storageMap true) :=
  fun _ isIterator => nomatch isIterator

/-- A mutation that leaves the table as it is. -/
theorem Ready.same (ready : map.Ready) {storageMap : StorageMap}
    (same : storageMap.map.keys = map.storageMap.map.keys) :
    Ready { map with storageMap := storageMap } :=
  ⟨same ▸ ready.perm, ready.inPlace⟩

theorem lookup_null_iff (key : StringImpl) : map.storageMap.map.lookup key = some none ↔
    map.storageMap.contains key ∧ map.storageMap.getItem key = none := by
  rw [StorageMap.contains, StorageMap.getItem, decide_eq_true_iff, ← AList.lookup_isSome]
  rcases map.storageMap.map.lookup key with _ | _ | _ <;> simp

theorem apply_removeItem {refCount : Nat} (unshared : refCount ≤ 1) (key : StringImpl) :
    map.apply order (.removeItem refCount key) =
      if map.storageMap.contains key then
        store order map (map.storageMap.removeItem refCount key).self
          (map.storageMap.getItem key ≠ none)
      else { map with storageMap := (map.storageMap.removeItem refCount key).self } := by
  simp only [apply, StorageMap.removeItem, StorageMap.copyOnWrite, gt_iff_lt,
    if_neg (not_lt.2 unshared), StorageMap.removeItemUnshared]

/-- A call that puts the iterator away or keeps it in place. -/
theorem Ready.apply (ready : map.Ready) {call : MapCall} (keeps : map.KeepsPlace order call) :
    (map.apply order call).Ready := by
  cases call with
  | key index => exact (ready.key index).2.1
  | setItem refCount key value =>
    simp only [EnumeratedMap.apply]
    split
    · exact store_ready order (store_inPlace order _)
    · split_ifs
      · exact ready
      · exact store_ready order (store_inPlace order _)
  | removeItem refCount key =>
    by_cases shared : 1 < refCount
    · simp only [EnumeratedMap.apply, StorageMap.removeItem, StorageMap.copyOnWrite, shared, if_true]
      exact store_ready order (store_inPlace order _)
    · have unshared := not_lt.1 shared
      rw [apply_removeItem order unshared]
      split_ifs with isKey
      · apply store_ready
        by_cases isNull : map.storageMap.getItem key = none
        · rw [decide_eq_false (not_not.2 isNull)]
          exact keeps unshared ((lookup_null_iff key).2 ⟨isKey, isNull⟩)
        · rw [decide_eq_true isNull]
          exact store_inPlace order _
      · refine ready.same ?_
        simp only [StorageMap.removeItem, StorageMap.copyOnWrite, gt_iff_lt,
          if_neg (not_lt.2 unshared), StorageMap.removeItemUnshared, AList.keys_erase]
        exact erase_of_not_mem (by simpa [StorageMap.contains, AList.mem_keys] using isKey)
  | importItem key value =>
    simp only [EnumeratedMap.apply]
    split_ifs with isKey
    · exact ready.same (by rw [StorageMap.importItem, if_pos isKey])
    · exact store_ready order (keeps (by simpa using isKey))

/-- A state that enumerates its keys was reached by such a call. -/
theorem Enumerates.keepsPlace {call : MapCall}
    (enumerates : (map.apply order call).Enumerates) : map.KeepsPlace order call := by
  cases call with
  | key index | setItem refCount key value => trivial
  | removeItem refCount key =>
    intro unshared isNull
    obtain ⟨isKey, hasNone⟩ := (lookup_null_iff key).1 isNull
    rw [apply_removeItem order unshared, if_pos isKey,
      decide_eq_false (not_not.2 hasNone)] at enumerates
    exact enumerates.inPlace (order.perm _ _)
  | importItem key value =>
    intro isNew
    simp only [EnumeratedMap.apply, isNew] at enumerates
    exact enumerates.inPlace (order.perm _ _)

/-- Every state of a run enumerates its keys exactly when every mutation that
keeps the iterator leaves it at its index. -/
theorem enumerates_run_iff (quota : UInt32) (calls : List MapCall) :
    (∀ reached ∈ Runs.visited (apply order) (create quota) calls, reached.Enumerates) ↔
      Runs.StepsMeet (apply order) (KeepsPlace order) (create quota) calls :=
  Runs.visited_iff_stepsMeet_of_invariant (fun _ ready => ready.enumerates)
    (fun _ _ ready => ready.apply order) (fun _ _ _ => Enumerates.keepsPlace order) calls
    (ready_create quota)

/-- An item imported in front of the entry of the iterator. -/
theorem not_enumerates_run : ¬ ∀ (order : TableOrder) (quota : UInt32) (calls : List MapCall),
    ∀ reached ∈ Runs.visited (apply order) (create quota) calls, reached.Enumerates := by
  intro always
  let first : StringImpl := ⟨[], by decide⟩
  let second : StringImpl := ⟨[0], by decide⟩
  have reached := always ⟨fun _ storageMap => (storageMap.map.keys, false), fun _ _ => .refl _⟩ 0
    [.importItem first none, .key 0, .importItem second none] _ (Runs.final_mem_visited _ _)
  have inPlace := reached.inPlace (.refl _) ⟨0, some first⟩ (by rfl) (by decide)
  exact absurd inPlace (by decide)

end EnumeratedMap
end Storage
end PalmWebKit
