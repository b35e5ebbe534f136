import PalmWebKit.Storage.StorageMap

/-!
# The accounts of storage maps

For every call, exactly when the running length stays the length of all items and
the call is seen through its own area only.
-/

namespace PalmWebKit
namespace Storage

open List

namespace StorageMap

/-- The key is present and its value is the null string. -/
def HoldsNull (storageMap : StorageMap) (key : StringImpl) : Prop :=
  storageMap.map.lookup key = some none

/-- The running length is the length of all keys and values, as a number without a bound. -/
def Counted (storageMap : StorageMap) : Prop :=
  storageMap.currentLength.toNat = storageMap.totalLength

/-- The length that `setItem` computes, as a number without a bound. -/
def neededLength (storageMap : StorageMap) (key value : StringImpl) : Nat :=
  storageMap.totalLength + value.characters.length -
      characterCount (storageMap.getItem key) +
    if storageMap.getItem key = none then key.characters.length else 0

/-- There is a quota, and the length that is needed does not fit. -/
def OverQuota (storageMap : StorageMap) (key value : StringImpl) : Prop :=
  storageMap.quotaSize ≠ noQuota ∧ (2 ^ 32 ≤ storageMap.totalLength + value.characters.length ∨
      storageMap.quotaSize.toNat / 2 < storageMap.neededLength key value)

section Lengths

variable {storageMap : StorageMap} {key value : StringImpl} {item : Option StringImpl}

theorem getItem_of_lookup (found : storageMap.map.lookup key = some item) :
    storageMap.getItem key = item := by
  rw [getItem, found]
  rfl

theorem getItem_of_not_mem (absent : storageMap.map.lookup key = none) :
    storageMap.getItem key = none := by
  rw [getItem, absent]
  rfl

theorem totalLength_insert (changed : StorageMap)
    (inserted : changed.map = storageMap.map.insert key item) :
    changed.totalLength + WeightedMap.entryWeightAt
          (fun (key : StringImpl) value => key.characters.length + characterCount value)
          storageMap.map key =
      storageMap.totalLength + (key.characters.length + characterCount item) := by
  rw [totalLength, inserted]
  exact WeightedMap.entryTotal_insert _ _ _ _

theorem totalLength_erase (changed : StorageMap) (erased : changed.map = storageMap.map.erase key) :
    changed.totalLength + WeightedMap.entryWeightAt
          (fun (key : StringImpl) value => key.characters.length + characterCount value)
          storageMap.map key =
      storageMap.totalLength := by
  rw [totalLength, erased]
  exact WeightedMap.entryTotal_erase _ _ _

theorem characterCount_getItem_le :
    characterCount (storageMap.getItem key) ≤ storageMap.totalLength := by
  have entryWeight := WeightedMap.entryWeightAt_le_entryTotal
    (fun (key : StringImpl) value => key.characters.length + characterCount value)
    storageMap.map key
  cases found : storageMap.map.lookup key with
  | none =>
    rw [getItem_of_not_mem found]
    exact Nat.zero_le _
  | some item =>
    rw [WeightedMap.entryWeightAt_of_lookup found] at entryWeight
    rw [getItem_of_lookup found]
    exact le_trans (Nat.le_add_left _ _) entryWeight

/-- After a value is stored the items have the needed length, unless the key held
the null string: then its own length is counted once more. -/
theorem totalLength_insert_eq (changed : StorageMap)
    (inserted : changed.map = storageMap.map.insert key (some value)) : changed.totalLength +
        (if storageMap.map.lookup key = some none then key.characters.length else 0) =
      storageMap.neededLength key value := by
  have total := totalLength_insert changed inserted
  cases found : storageMap.map.lookup key with
  | none =>
    rw [WeightedMap.entryWeightAt_of_lookup_none found] at total
    rw [neededLength, getItem_of_not_mem found]
    simp only [characterCount, reduceCtorEq, if_true, if_false] at total ⊢
    omega
  | some item =>
    rw [WeightedMap.entryWeightAt_of_lookup found] at total
    rw [neededLength, getItem_of_lookup found]
    cases item with
    | none =>
      simp only [characterCount, if_true] at total ⊢
      omega
    | some old =>
      simp only [characterCount, Option.some.injEq, reduceCtorEq, if_false] at total ⊢
      omega

/-- After a key is taken out the items have its length and that of its value less. -/
theorem totalLength_erase_eq (changed : StorageMap)
    (erased : changed.map = storageMap.map.erase key) :
    changed.totalLength + (characterCount (storageMap.getItem key) +
          if storageMap.map.lookup key = none then 0 else key.characters.length) =
      storageMap.totalLength := by
  have total := totalLength_erase changed erased
  cases found : storageMap.map.lookup key with
  | none =>
    rw [WeightedMap.entryWeightAt_of_lookup_none found] at total
    rw [getItem_of_not_mem found]
    simpa [characterCount] using total
  | some item =>
    rw [WeightedMap.entryWeightAt_of_lookup found] at total
    rw [getItem_of_lookup found, if_neg (by simp)]
    omega

end Lengths

/-- The tests of `setItem` find exactly the lengths that do not fit. -/
theorem overflow_or_overQuota_iff {current value old key quota : UInt32}
    (within : old.toNat ≤ current.toNat) : ((decide (current + value < current) ||
          decide (current + value - old > current + value) ||
          decide (current + value - old + key < current + value - old)) ||
        decide (current + value - old + key > quota / 2)) = true ↔
      2 ^ 32 ≤ current.toNat + value.toNat ∨
        quota.toNat / 2 < current.toNat + value.toNat - old.toNat + key.toNat := by
  have valueFits := value.toNat_lt
  have keyFits := key.toNat_lt
  have quotaFits := quota.toNat_lt
  simp only [Bool.or_eq_true, decide_eq_true_eq, gt_iff_lt, UInt32.lt_iff_toNat_lt,
    UInt32.toNat_add, UInt32.toNat_sub, UInt32.toNat_div]
  have two : (2 : UInt32).toNat = 2 := rfl
  rw [two]
  omega

theorem neededLength_toNat {current value old key : UInt32} (within : old.toNat ≤ current.toNat) :
    (current + value - old + key).toNat =
      (current.toNat + value.toNat - old.toNat + key.toNat) % 2 ^ 32 := by
  have oldFits := old.toNat_lt
  simp only [UInt32.toNat_add, UInt32.toNat_sub]
  omega

section Calls

variable {storageMap : StorageMap} {key value : StringImpl} {item : Option StringImpl}

variable (counted : storageMap.Counted)
include counted

/-- A call of `setItem` that does not fit changes nothing. -/
theorem setItemUnshared_of_overQuota (overQuota : storageMap.OverQuota key value) :
    (storageMap.setItemUnshared key value).self = storageMap ∧
      (storageMap.setItemUnshared key value).quotaException = true := by
  have within : (stringLength (storageMap.getItem key)).toNat ≤
      storageMap.currentLength.toNat := by
    rw [toNat_stringLength, counted]
    exact characterCount_getItem_le
  have tests := (@overflow_or_overQuota_iff _ value.length _
    (if storageMap.getItem key = none then key.length else 0)
    storageMap.quotaSize within).2
  rw [counted, toNat_stringLength, apply_ite UInt32.toNat] at tests
  unfold setItemUnshared
  simp only [if_pos (And.intro overQuota.1 (tests overQuota.2)), and_self]

/-- Another call of `setItem` stores the item and the needed length. -/
theorem setItemUnshared_of_not_overQuota (fits : ¬ storageMap.OverQuota key value) :
    (storageMap.setItemUnshared key value).quotaException = false ∧
      (storageMap.setItemUnshared key value).self.map = storageMap.map.insert key (some value) ∧
      (storageMap.setItemUnshared key value).self.quotaSize = storageMap.quotaSize ∧
      (storageMap.setItemUnshared key value).self.currentLength.toNat =
        storageMap.neededLength key value % 2 ^ 32 := by
  have within : (stringLength (storageMap.getItem key)).toNat ≤
      storageMap.currentLength.toNat := by
    rw [toNat_stringLength, counted]
    exact characterCount_getItem_le
  have tests := (@overflow_or_overQuota_iff _ value.length _
    (if storageMap.getItem key = none then key.length else 0)
    storageMap.quotaSize within).1
  have stored := @neededLength_toNat _ value.length _
    (if storageMap.getItem key = none then key.length else 0) within
  rw [counted, toNat_stringLength, apply_ite UInt32.toNat] at tests stored
  unfold setItemUnshared
  simp only [if_neg fun both : storageMap.quotaSize ≠ noQuota ∧ _ =>
    fits ⟨both.1, tests both.2⟩, true_and]
  exact stored

theorem setItemUnshared_counted_iff :
    (storageMap.setItemUnshared key value).self.Counted ↔ storageMap.OverQuota key value ∨
        (key.characters = [] ∨ ¬ storageMap.HoldsNull key) ∧
          storageMap.neededLength key value < 2 ^ 32 := by
  by_cases overQuota : storageMap.OverQuota key value
  · rw [(setItemUnshared_of_overQuota counted overQuota).1]
    exact iff_of_true counted (.inl overQuota)
  · obtain ⟨-, inserted, -, stored⟩ := setItemUnshared_of_not_overQuota counted overQuota
    have total := totalLength_insert_eq _ inserted
    have keyFits := key.fits
    rw [Counted, or_iff_right overQuota, ← length_eq_zero_iff, HoldsNull]
    by_cases null : storageMap.map.lookup key = some none
    · rw [if_pos null] at total
      simp only [null, not_true_eq_false, or_false]
      omega
    · rw [if_neg null] at total
      simp only [null, not_false_eq_true, or_true, true_and]
      omega

/-- A call of `setItem` that succeeds leaves at most the quota. -/
theorem setItemUnshared_withinQuota
    (succeeds : (storageMap.setItemUnshared key value).quotaException = false)
    (hasQuota : storageMap.quotaSize ≠ noQuota) :
    2 * (storageMap.setItemUnshared key value).self.currentLength.toNat ≤
      storageMap.quotaSize.toNat := by
  by_cases overQuota : storageMap.OverQuota key value
  · rw [(setItemUnshared_of_overQuota counted overQuota).2] at succeeds
    exact absurd succeeds (by decide)
  · obtain ⟨-, -, -, stored⟩ := setItemUnshared_of_not_overQuota counted overQuota
    have fits : ¬ storageMap.quotaSize.toNat / 2 < storageMap.neededLength key value :=
      fun tooLong => overQuota ⟨hasQuota, .inr tooLong⟩
    omega

theorem setItemUnshared_quotaSize :
    (storageMap.setItemUnshared key value).self.quotaSize = storageMap.quotaSize := by
  by_cases overQuota : storageMap.OverQuota key value
  · rw [(setItemUnshared_of_overQuota counted overQuota).1]
  · exact (setItemUnshared_of_not_overQuota counted overQuota).2.2.1

theorem setItemUnshared_of_rejected
    (rejected : (storageMap.setItemUnshared key value).quotaException = true) :
    (storageMap.setItemUnshared key value).self = storageMap := by
  by_cases overQuota : storageMap.OverQuota key value
  · exact (setItemUnshared_of_overQuota counted overQuota).1
  · rw [(setItemUnshared_of_not_overQuota counted overQuota).1] at rejected
    exact absurd rejected (by decide)

theorem removeItemUnshared_counted_iff :
    (storageMap.removeItemUnshared key).self.Counted ↔
      key.characters = [] ∨ ¬ storageMap.HoldsNull key := by
  have total := totalLength_erase_eq (storageMap.removeItemUnshared key).self
    (rfl : _ = storageMap.map.erase key)
  have currentFits := storageMap.currentLength.toNat_lt
  rw [counted] at currentFits
  rw [Counted, ← length_eq_zero_iff, HoldsNull]
  cases found : storageMap.map.lookup key with
  | none =>
    have noItem := getItem_of_not_mem found
    rw [noItem, found, if_pos rfl] at total
    have kept : (storageMap.removeItemUnshared key).self.currentLength =
        storageMap.currentLength - 0 := by
      dsimp only [removeItemUnshared]
      rw [noItem]
      rfl
    rw [kept, UInt32.sub_zero, counted]
    simp only [characterCount, reduceCtorEq, not_false_eq_true, or_true, iff_true] at total ⊢
    omega
  | some item =>
    have stored := getItem_of_lookup found
    rw [stored, found, if_neg (Option.some_ne_none item)] at total
    cases item with
    | none =>
      have kept : (storageMap.removeItemUnshared key).self.currentLength =
          storageMap.currentLength - 0 := by
        dsimp only [removeItemUnshared]
        rw [stored]
        rfl
      rw [kept, UInt32.sub_zero, counted]
      simp only [characterCount, not_true_eq_false, or_false] at total ⊢
      omega
    | some old =>
      have kept : (storageMap.removeItemUnshared key).self.currentLength =
          storageMap.currentLength - key.length - old.length := by
        dsimp only [removeItemUnshared]
        rw [stored]
        rfl
      have oldFits := old.fits
      rw [kept, UInt32.toNat_sub, UInt32.toNat_sub, StringImpl.toNat_length,
        StringImpl.toNat_length, counted]
      simp only [characterCount, Option.some.injEq, reduceCtorEq, not_false_eq_true,
        or_true, iff_true] at total ⊢
      omega

omit counted

theorem importItem_currentLength (counted : storageMap.Counted) :
    (storageMap.importItem key item).currentLength.toNat =
      (storageMap.totalLength + (key.characters.length + characterCount item)) % 2 ^ 32 := by
  dsimp only [importItem]
  rw [UInt32.toNat_add, UInt32.toNat_add, counted, StringImpl.toNat_length, toNat_stringLength]
  omega

theorem importItem_counted_iff (counted : storageMap.Counted) :
    (storageMap.importItem key item).Counted ↔
      if key ∈ storageMap.map then
        (key.characters.length + characterCount item) % 2 ^ 32 = 0
      else
        storageMap.totalLength + (key.characters.length + characterCount item) < 2 ^ 32 := by
  have stored := @importItem_currentLength _ key item counted
  have currentFits := storageMap.currentLength.toNat_lt
  rw [Counted] at counted
  by_cases present : key ∈ storageMap.map
  · have same : (storageMap.importItem key item).totalLength = storageMap.totalLength := by
      simp only [totalLength, importItem, contains, present, decide_true, if_true]
    rw [Counted, if_pos present]
    omega
  · have total := @totalLength_insert storageMap key item
      (storageMap.importItem key item)
      (by simp only [importItem, contains, present, decide_false, if_false, Bool.false_eq_true])
    rw [WeightedMap.entryWeightAt_of_lookup_none (AList.lookup_eq_none.2 present)] at total
    rw [Counted, if_neg present]
    omega

theorem importItem_of_mem (present : key ∈ storageMap.map)
    (nothing : (key.characters.length + characterCount item) % 2 ^ 32 = 0) :
    storageMap.importItem key item = storageMap := by
  have noLength : storageMap.currentLength + key.length + stringLength item =
      storageMap.currentLength := by
    apply UInt32.toNat.inj
    have currentFits := storageMap.currentLength.toNat_lt
    rw [UInt32.toNat_add, UInt32.toNat_add, StringImpl.toNat_length, toNat_stringLength]
    omega
  dsimp only [importItem]
  rw [noLength, contains, decide_eq_true present, if_pos rfl]

theorem importItem_ne_of_not_mem (absent : key ∉ storageMap.map) :
    storageMap.importItem key item ≠ storageMap := by
  intro same
  apply absent
  have inserted : (storageMap.importItem key item).map = storageMap.map.insert key item := by
    simp only [importItem, contains, absent, decide_false, if_false, Bool.false_eq_true]
  rw [← same, inserted, AList.mem_insert]
  exact .inl rfl

end Calls

end StorageMap

namespace StorageAreas

variable {areas : StorageAreas} {area other address : Nat} {storageMap : StorageMap}

/-- The running length of every area is the length of its items. -/
def Counted (areas : StorageAreas) : Prop :=
  ∀ area storageMap, areas.storageMapOf area = some storageMap → storageMap.Counted

/-- What a call has to keep: the accounts of all areas, the quota, an item that is
rejected changes nothing, and the other areas see nothing of it. -/
structure KeepsAccounts (areas : StorageAreas) (call : Call) : Prop where
  counted : (areas.step call).Counted
  withinQuota : ∀ area key value storageMap,
    call = .setItem area key value → areas.quotaException call = false →
    (areas.step call).storageMapOf area = some storageMap →
    storageMap.quotaSize ≠ StorageMap.noQuota →
    2 * storageMap.currentLength.toNat ≤ storageMap.quotaSize.toNat
  rejected : areas.quotaException call = true →
    ∀ area, (areas.step call).storageMapOf area = areas.storageMapOf area
  isolated : ∀ area, area < areas.storageMaps.length → call.area? ≠ some area →
    (areas.step call).storageMapOf area = areas.storageMapOf area

/-- No item is stored over or taken from a key that holds the null string, the
lengths stay in range, and items are imported under new keys into a map of one area. -/
def Permitted (areas : StorageAreas) : Call → Prop
  | .create _ => True
  | .copy _ => True
  | .setItem area key value =>
    ∀ storageMap, areas.storageMapOf area = some storageMap → storageMap.OverQuota key value ∨
        (key.characters = [] ∨ ¬ storageMap.HoldsNull key) ∧
          storageMap.neededLength key value < 2 ^ 32
  | .removeItem area key =>
    ∀ storageMap, areas.storageMapOf area = some storageMap →
      key.characters = [] ∨ ¬ storageMap.HoldsNull key
  | .importItem area key value =>
    ∀ address, areas.storageMaps[area]? = some address →
      if key ∈ (areas.contents address).map then
        (key.characters.length + characterCount value) % 2 ^ 32 = 0
      else
        areas.refCount address = 1 ∧ (areas.contents address).totalLength +
            (key.characters.length + characterCount value) < 2 ^ 32

section Sharing

theorem two_le_refCount (first : areas.storageMaps[area]? = some address)
    (second : areas.storageMaps[other]? = some address) (distinct : area ≠ other) :
    2 ≤ areas.refCount address := by
  rw [refCount, ← duplicate_iff_two_le_count, duplicate_iff_exists_distinct_get]
  obtain ⟨firstBound, firstAt⟩ := List.getElem?_eq_some_iff.1 first
  obtain ⟨secondBound, secondAt⟩ := List.getElem?_eq_some_iff.1 second
  rcases Nat.lt_or_gt_of_ne distinct with isBefore | isBehind
  · exact ⟨⟨area, firstBound⟩, ⟨other, secondBound⟩, isBefore, firstAt.symm, secondAt.symm⟩
  · exact ⟨⟨other, secondBound⟩, ⟨area, firstBound⟩, isBehind, secondAt.symm, firstAt.symm⟩

theorem exists_sharing (shared : 2 ≤ areas.refCount address) (area : Nat) :
    ∃ other, other ≠ area ∧ areas.storageMaps[other]? = some address := by
  rw [refCount, ← duplicate_iff_two_le_count, duplicate_iff_exists_distinct_get] at shared
  obtain ⟨first, second, isBefore, firstAt, secondAt⟩ := shared
  by_cases equal : first.val = area
  · refine ⟨second.val, ?_, List.getElem?_eq_some_iff.2 ⟨second.isLt, secondAt.symm⟩⟩
    rw [← equal]
    exact (Nat.ne_of_lt isBefore).symm
  · exact ⟨first.val, equal, List.getElem?_eq_some_iff.2 ⟨first.isLt, firstAt.symm⟩⟩

theorem address_lt (found : areas.storageMaps[area]? = some address) :
    address < areas.next := areas.allocated address (mem_of_getElem? found)

theorem storageMapOf_of_getElem? (found : areas.storageMaps[area]? = some address) :
    areas.storageMapOf area = some (areas.contents address) := by
  rw [storageMapOf, found, Option.map_some]

theorem storageMapOf_store : (areas.store address storageMap).storageMapOf other =
      if areas.storageMaps[other]? = some address then some storageMap
      else areas.storageMapOf other := by
  simp only [storageMapOf, store]
  cases found : areas.storageMaps[other]? with
  | none => rw [if_neg (by simp), Option.map_none, Option.map_none]
  | some otherAddress =>
    by_cases equal : otherAddress = address
    · rw [equal, if_pos rfl, Option.map_some, Function.update_self]
    · rw [if_neg fun same => equal (Option.some.inj same), Option.map_some,
        Option.map_some, Function.update_of_ne equal]

theorem storageMapOf_redirect (inRange : area < areas.storageMaps.length) :
    (areas.redirect area storageMap).storageMapOf other =
      if other = area then some storageMap else areas.storageMapOf other := by
  simp only [storageMapOf, redirect]
  by_cases equal : other = area
  · rw [if_pos equal, equal, getElem?_set_self inRange, Option.map_some, Function.update_self]
  · rw [if_neg equal, getElem?_set_ne (Ne.symm equal)]
    cases found : areas.storageMaps[other]? with
    | none => rfl
    | some otherAddress =>
      rw [Option.map_some, Option.map_some, Function.update_of_ne (Nat.ne_of_lt (address_lt found))]

/-- Through copy-on-write a change reaches exactly the area it is made through. -/
theorem storageMapOf_mutate (areas : StorageAreas) (area other : Nat)
    (change : StorageMap → Mutation)
    (returnsNone : ∀ storageMap, (change storageMap).newStorageMap = none) :
    (areas.mutate area fun refCount storageMap =>
        StorageMap.copyOnWrite refCount storageMap change).storageMapOf other =
      if other = area then
        (areas.storageMapOf area).map fun storageMap => (change storageMap).self
      else areas.storageMapOf other := by
  cases found : areas.storageMaps[area]? with
  | none =>
    unfold mutate
    rw [found]
    by_cases equal : other = area
    · rw [if_pos equal, equal, storageMapOf, found]
      rfl
    · rw [if_neg equal]
  | some address =>
    rw [storageMapOf_of_getElem? found, Option.map_some]
    by_cases shared : areas.refCount address > 1
    · have redirected : (areas.mutate area fun refCount storageMap =>
          StorageMap.copyOnWrite refCount storageMap change) =
          areas.redirect area (change (areas.contents address)).self := by
        unfold mutate StorageMap.copyOnWrite
        simp only [found, if_pos shared, store, Function.update_eq_self, StorageMap.copy_eq]
      rw [redirected, storageMapOf_redirect (List.getElem?_eq_some_iff.1 found).1]
    · have stored : (areas.mutate area fun refCount storageMap =>
          StorageMap.copyOnWrite refCount storageMap change) =
          areas.store address (change (areas.contents address)).self := by
        unfold mutate StorageMap.copyOnWrite
        simp only [found, if_neg shared, returnsNone]
      rw [stored, storageMapOf_store]
      by_cases equal : other = area
      · rw [if_pos equal, equal, if_pos found]
      · rw [if_neg equal, if_neg fun foundOther => shared (two_le_refCount foundOther found equal)]

/-- An import is seen by all areas that share the map. -/
theorem storageMapOf_importItem {key : StringImpl} {value : Option StringImpl}
    (found : areas.storageMaps[area]? = some address) :
    (areas.importItem area key value).storageMapOf other =
      if areas.storageMaps[other]? = some address then
        some ((areas.contents address).importItem key value)
      else areas.storageMapOf other := by
  unfold importItem
  simp only [found, storageMapOf_store]

theorem storageMapOf_create (areas : StorageAreas) (quota : UInt32) (area : Nat) :
    (areas.create quota).storageMapOf area =
      if area = areas.storageMaps.length then some (StorageMap.create quota)
      else areas.storageMapOf area := by
  simp only [storageMapOf, create]
  by_cases equal : area = areas.storageMaps.length
  · rw [if_pos equal, equal, getElem?_append_right le_rfl, Nat.sub_self,
      getElem?_cons_zero, Option.map_some, Function.update_self]
  · rw [if_neg equal]
    cases found : areas.storageMaps[area]? with
    | none =>
      have behind := getElem?_eq_none_iff.1 found
      rw [getElem?_eq_none (by
        rw [length_append, length_singleton]
        omega), Option.map_none, Option.map_none]
    | some address =>
      have inRange := (List.getElem?_eq_some_iff.1 found).1
      rw [getElem?_append_left inRange, found, Option.map_some, Option.map_some,
        Function.update_of_ne (Nat.ne_of_lt (address_lt found))]

theorem storageMapOf_copy (areas : StorageAreas) (area other : Nat) :
    (areas.copy area).storageMapOf other =
      if other = areas.storageMaps.length then areas.storageMapOf area
      else areas.storageMapOf other := by
  simp only [storageMapOf, copy]
  by_cases equal : other = areas.storageMaps.length
  · rw [if_pos equal, equal, getElem?_append_right le_rfl, Nat.sub_self]
    cases areas.storageMaps[area]? <;> rfl
  · rw [if_neg equal]
    rcases Nat.lt_or_gt_of_ne equal with inRange | behind
    · rw [getElem?_append_left inRange]
    · have atMostOne := Option.length_toList_le (o := areas.storageMaps[area]?)
      rw [getElem?_eq_none (Nat.le_of_lt behind), getElem?_eq_none]
      rw [length_append]
      omega

end Sharing

section Steps

variable {key value : StringImpl} {item : Option StringImpl}

theorem step_setItem : (areas.step (.setItem area key value)).storageMapOf other =
      if other = area then
        (areas.storageMapOf area).map fun storageMap => (storageMap.setItemUnshared key value).self
      else areas.storageMapOf other := by
  refine storageMapOf_mutate areas area other
    (fun storageMap => storageMap.setItemUnshared key value) fun storageMap => ?_
  exact (apply_ite Mutation.newStorageMap _ _ _).trans (ite_self _)

theorem step_removeItem : (areas.step (.removeItem area key)).storageMapOf other =
      if other = area then
        (areas.storageMapOf area).map fun storageMap => (storageMap.removeItemUnshared key).self
      else areas.storageMapOf other :=
  storageMapOf_mutate areas area other
    (fun storageMap => storageMap.removeItemUnshared key) fun _ => rfl

theorem quotaException_setItem (found : areas.storageMapOf area = some storageMap) :
    areas.quotaException (.setItem area key value) =
      (storageMap.setItemUnshared key value).quotaException := by
  obtain ⟨address, atArea, rfl⟩ := Option.map_eq_some_iff.1 found
  unfold quotaException StorageMap.setItem StorageMap.copyOnWrite
  simp only [atArea, StorageMap.copy_eq]
  split <;> rfl

variable (counted : areas.Counted)
include counted

theorem keepsAccounts_create (quota : UInt32) :
    areas.KeepsAccounts (.create quota) where
  counted := by
    intro area storageMap found
    rw [step, storageMapOf_create] at found
    split at found
    · cases found
      rfl
    · exact counted area storageMap found
  withinQuota := by
    intro _ _ _ _ isSetItem
    cases isSetItem
  rejected := by
    intro isTrue
    exact absurd isTrue (by simp [quotaException])
  isolated := by
    intro area inRange _
    rw [step, storageMapOf_create, if_neg (Nat.ne_of_lt inRange)]

theorem keepsAccounts_copy (area : Nat) :
    areas.KeepsAccounts (.copy area) where
  counted := by
    intro other storageMap found
    rw [step, storageMapOf_copy] at found
    split at found
    · exact counted area storageMap found
    · exact counted other storageMap found
  withinQuota := by
    intro _ _ _ _ isSetItem
    cases isSetItem
  rejected := by
    intro isTrue
    exact absurd isTrue (by simp [quotaException])
  isolated := by
    intro other inRange _
    rw [step, storageMapOf_copy, if_neg (Nat.ne_of_lt inRange)]

theorem keepsAccounts_setItem_iff (area : Nat) (key value : StringImpl) :
    areas.KeepsAccounts (.setItem area key value) ↔
      areas.Permitted (.setItem area key value) := by
  constructor
  · intro keeps storageMap found
    have stored := keeps.counted area _ (by rw [step_setItem, if_pos rfl, found]; rfl)
    exact (StorageMap.setItemUnshared_counted_iff (counted area _ found)).1 stored
  · intro permitted
    refine ⟨?_, ?_, ?_, ?_⟩
    · intro other changed foundChanged
      rw [step_setItem] at foundChanged
      split at foundChanged
      · obtain ⟨storageMap, found, rfl⟩ := Option.map_eq_some_iff.1 foundChanged
        exact (StorageMap.setItemUnshared_counted_iff (counted area _ found)).2
          (permitted storageMap found)
      · exact counted other changed foundChanged
    · intro sameArea sameKey sameValue changed isCall succeeds foundChanged hasQuota
      cases isCall
      rw [step_setItem, if_pos rfl] at foundChanged
      obtain ⟨storageMap, found, rfl⟩ := Option.map_eq_some_iff.1 foundChanged
      rw [quotaException_setItem found] at succeeds
      rw [StorageMap.setItemUnshared_quotaSize (counted area _ found)] at hasQuota ⊢
      exact StorageMap.setItemUnshared_withinQuota (counted area _ found) succeeds hasQuota
    · intro rejected other
      rw [step_setItem]
      split
      · next equal =>
          rw [equal]
          cases found : areas.storageMapOf area with
          | none => rfl
          | some storageMap =>
            rw [quotaException_setItem found] at rejected
            rw [Option.map_some, StorageMap.setItemUnshared_of_rejected
              (counted area _ found) rejected]
      · rfl
    · intro other _ differs
      rw [step_setItem, if_neg fun equal => differs (congrArg some equal.symm)]

theorem keepsAccounts_removeItem_iff (area : Nat) (key : StringImpl) :
    areas.KeepsAccounts (.removeItem area key) ↔
      areas.Permitted (.removeItem area key) := by
  constructor
  · intro keeps storageMap found
    have stored := keeps.counted area _ (by rw [step_removeItem, if_pos rfl, found]; rfl)
    exact (StorageMap.removeItemUnshared_counted_iff (counted area _ found)).1 stored
  · intro permitted
    refine ⟨?_, ?_, ?_, ?_⟩
    · intro other changed foundChanged
      rw [step_removeItem] at foundChanged
      split at foundChanged
      · obtain ⟨storageMap, found, rfl⟩ := Option.map_eq_some_iff.1 foundChanged
        exact (StorageMap.removeItemUnshared_counted_iff (counted area _ found)).2
          (permitted storageMap found)
      · exact counted other changed foundChanged
    · intro _ _ _ _ isSetItem
      cases isSetItem
    · intro isTrue
      exact absurd isTrue (by simp [quotaException])
    · intro other _ differs
      rw [step_removeItem, if_neg fun equal => differs (congrArg some equal.symm)]

theorem keepsAccounts_importItem_iff (area : Nat) (key : StringImpl)
    (value : Option StringImpl) : areas.KeepsAccounts (.importItem area key value) ↔
      areas.Permitted (.importItem area key value) := by
  constructor
  · intro keeps address found
    have atArea := storageMapOf_of_getElem? found
    have imported := keeps.counted area ((areas.contents address).importItem key value)
      (by rw [step, storageMapOf_importItem found, if_pos found])
    have fits := (StorageMap.importItem_counted_iff (counted area _ atArea)).1 imported
    by_cases present : key ∈ (areas.contents address).map
    · rw [if_pos present] at fits ⊢
      exact fits
    · rw [if_neg present] at fits ⊢
      refine ⟨?_, fits⟩
      have referred : 0 < areas.refCount address :=
        count_pos_iff.2 (mem_of_getElem? found)
      by_contra several
      obtain ⟨other, differs, foundOther⟩ := @exists_sharing areas address (by omega) area
      have unchanged := keeps.isolated other (List.getElem?_eq_some_iff.1 foundOther).1
        fun equal => differs (Option.some.inj equal).symm
      rw [step, storageMapOf_importItem found, if_pos foundOther,
        storageMapOf_of_getElem? foundOther, Option.some_inj] at unchanged
      exact StorageMap.importItem_ne_of_not_mem present unchanged
  · intro permitted
    have unchangedOrUnshared : ∀ other, other ≠ area →
        (areas.step (.importItem area key value)).storageMapOf other =
          areas.storageMapOf other := by
      intro other differs
      cases found : areas.storageMaps[area]? with
      | none =>
        unfold step importItem
        simp only [found]
      | some address =>
        rw [step, storageMapOf_importItem found]
        split
        · next foundOther =>
            have allowed := permitted address found
            rw [storageMapOf_of_getElem? foundOther]
            by_cases present : key ∈ (areas.contents address).map
            · rw [if_pos present] at allowed
              rw [StorageMap.importItem_of_mem present allowed]
            · rw [if_neg present] at allowed
              have shared := two_le_refCount foundOther found differs
              omega
        · rfl
    refine ⟨?_, ?_, ?_, ?_⟩
    · intro other changed foundChanged
      by_cases equal : other = area
      · cases found : areas.storageMaps[area]? with
        | none =>
          unfold step importItem at foundChanged
          simp only [found] at foundChanged
          exact counted other changed foundChanged
        | some address =>
          have atArea := storageMapOf_of_getElem? found
          rw [step, storageMapOf_importItem found, equal, if_pos found,
            Option.some_inj] at foundChanged
          rw [← foundChanged]
          apply (StorageMap.importItem_counted_iff (counted area _ atArea)).2
          have allowed := permitted address found
          by_cases present : key ∈ (areas.contents address).map
          · rw [if_pos present] at allowed ⊢
            exact allowed
          · rw [if_neg present] at allowed ⊢
            exact allowed.2
      · rw [unchangedOrUnshared other equal] at foundChanged
        exact counted other changed foundChanged
    · intro _ _ _ _ isSetItem
      cases isSetItem
    · intro isTrue
      exact absurd isTrue (by simp [quotaException])
    · intro other _ differs
      exact unchangedOrUnshared other fun equal => differs (congrArg some equal.symm)

/-- A call keeps the accounts exactly when it is permitted. -/
theorem keepsAccounts_iff (call : Call) :
    areas.KeepsAccounts call ↔ areas.Permitted call := by
  cases call with
  | create quota => exact iff_of_true (keepsAccounts_create counted quota) trivial
  | copy area => exact iff_of_true (keepsAccounts_copy counted area) trivial
  | setItem area key value => exact keepsAccounts_setItem_iff counted area key value
  | removeItem area key => exact keepsAccounts_removeItem_iff counted area key
  | importItem area key value => exact keepsAccounts_importItem_iff counted area key value

end Steps

/-- In every run all calls keep the accounts exactly when all of them are permitted. -/
theorem quota_run_iff (calls : List Call) :
    Runs.StepsMeet step KeepsAccounts initial calls ↔ Runs.StepsMeet step Permitted initial calls :=
  Runs.stepsMeet_iff_of_invariant
    (fun _ call counted => keepsAccounts_iff counted call)
    (fun _ _ _ keeps => keeps.counted)
    calls
    (fun area _ found => by
      rw [storageMapOf, initial, getElem?_nil] at found
      cases found)

/-- The key of an item imported with the null string is counted twice after another
value is stored. -/
theorem stored_over_null_counted_twice :
    ¬ ∀ calls : List Call, Runs.StepsMeet step KeepsAccounts initial calls := by
  intro always
  have keeps := (always
    [.create StorageMap.noQuota, .importItem 0 ⟨WString.lit "k", by decide⟩ none,
      .setItem 0 ⟨WString.lit "k", by decide⟩ ⟨WString.lit "v", by decide⟩]).2.2.1.counted
  have counted := keeps 0 _ rfl
  exact absurd counted (by unfold StorageMap.Counted; decide)

end StorageAreas

end Storage
end PalmWebKit
