import PalmWebKit.Logic.WeightedMap
import PalmWebKit.Logic.Runs
import PalmWebKit.Text.CodeUnits

/-!
# Storage maps

The items of a web storage area with the running count of their length.  Storage
areas share a map until one of them changes it: the change then goes to a copy.
The iterator that serves `key(index)` is left out.
-/

namespace PalmWebKit
namespace Storage

/-- The characters of a string that is not null, whose length is an `unsigned`. -/
structure StringImpl where
  characters : WString
  fits : characters.length < 2 ^ 32
  deriving DecidableEq

namespace StringImpl

def length (impl : StringImpl) : UInt32 := UInt32.ofNatLT impl.characters.length impl.fits

@[simp] theorem toNat_length (impl : StringImpl) : impl.length.toNat = impl.characters.length := rfl

end StringImpl

/-- `String::length`, zero for the null string. -/
def stringLength : Option StringImpl → UInt32
  | none => 0
  | some impl => impl.length

/-- The number of characters, zero for the null string. -/
def characterCount : Option StringImpl → Nat
  | none => 0
  | some impl => impl.characters.length

@[simp] theorem toNat_stringLength (text : Option StringImpl) :
    (stringLength text).toNat = characterCount text := by
  cases text <;> rfl

/-- `StorageMap`; a value of the map can be the null string. -/
structure StorageMap where
  map : AList fun _ : StringImpl => Option StringImpl
  quotaSize : UInt32
  currentLength : UInt32

/-- What a call of `setItem` or `removeItem` leaves in the map it is called on, the
map it returns, and its two other results. -/
structure Mutation where
  self : StorageMap
  newStorageMap : Option StorageMap
  oldValue : Option StringImpl
  quotaException : Bool

namespace StorageMap

def noQuota : UInt32 := 0xFFFFFFFF

def create (quotaSize : UInt32) : StorageMap :=
  { map := ∅, quotaSize, currentLength := 0 }

def copy (storageMap : StorageMap) : StorageMap :=
  { create storageMap.quotaSize with
    map := storageMap.map, currentLength := storageMap.currentLength }

/-- The null string when there is no such key. -/
def getItem (storageMap : StorageMap) (key : StringImpl) : Option StringImpl :=
  (storageMap.map.lookup key).join

def contains (storageMap : StorageMap) (key : StringImpl) : Bool := decide (key ∈ storageMap.map)

/-- `setItem` behind its copy-on-write test. -/
def setItemUnshared (storageMap : StorageMap) (key value : StringImpl) : Mutation :=
  let newLength := storageMap.currentLength
  let overflow := decide (newLength + value.length < newLength)
  let newLength := newLength + value.length
  let oldValue := storageMap.getItem key
  let overflow := overflow || decide (newLength - stringLength oldValue > newLength)
  let newLength := newLength - stringLength oldValue
  let adjustedKeyLength := if oldValue = none then key.length else 0
  let overflow := overflow || decide (newLength + adjustedKeyLength < newLength)
  let newLength := newLength + adjustedKeyLength
  let overQuota := decide (newLength > storageMap.quotaSize / 2)
  if storageMap.quotaSize ≠ noQuota ∧ (overflow || overQuota) = true then
    { self := storageMap, newStorageMap := none, oldValue, quotaException := true }
  else
    { self :=
        { storageMap with
          currentLength := newLength, map := storageMap.map.insert key (some value) }
      newStorageMap := none, oldValue, quotaException := false }

/-- `removeItem` behind its copy-on-write test. -/
def removeItemUnshared (storageMap : StorageMap) (key : StringImpl) : Mutation :=
  let oldValue := storageMap.getItem key
  let keptLength :=
    if oldValue = none then storageMap.currentLength
    else storageMap.currentLength - key.length
  { self :=
      { storageMap with
        map := storageMap.map.erase key
        currentLength := keptLength - stringLength oldValue }
    newStorageMap := none, oldValue, quotaException := false }

/-- A map with more than one reference is copied, and the copy is changed and
returned. -/
def copyOnWrite (refCount : Nat) (storageMap : StorageMap)
    (mutate : StorageMap → Mutation) : Mutation :=
  if refCount > 1 then
    let copied := mutate storageMap.copy
    { copied with self := storageMap, newStorageMap := some copied.self }
  else mutate storageMap

def setItem (refCount : Nat) (storageMap : StorageMap) (key value : StringImpl) : Mutation :=
  copyOnWrite refCount storageMap fun target => target.setItemUnshared key value

def removeItem (refCount : Nat) (storageMap : StorageMap) (key : StringImpl) : Mutation :=
  copyOnWrite refCount storageMap fun target => target.removeItemUnshared key

/-- `HashMap::add` leaves the value of a key that is present. -/
def importItem (storageMap : StorageMap) (key : StringImpl)
    (value : Option StringImpl) : StorageMap :=
  { storageMap with
    map :=
      if storageMap.contains key then storageMap.map
      else storageMap.map.insert key value
    currentLength := storageMap.currentLength + key.length + stringLength value }

/-- The length of all keys and values. -/
def totalLength (storageMap : StorageMap) : Nat :=
  WeightedMap.entryTotal
    (fun (key : StringImpl) value => key.characters.length + characterCount value)
    storageMap.map

@[simp] theorem copy_eq (storageMap : StorageMap) : storageMap.copy = storageMap := rfl

end StorageMap

/-- The storage maps that were allocated and, for every storage area, the one it
refers to. -/
structure StorageAreas where
  contents : Nat → StorageMap
  next : Nat
  storageMaps : List Nat
  allocated : ∀ address ∈ storageMaps, address < next

/-- A call on the area of a number. -/
inductive Call
  | create (quota : UInt32)
  | copy (area : Nat)
  | setItem (area : Nat) (key value : StringImpl)
  | removeItem (area : Nat) (key : StringImpl)
  | importItem (area : Nat) (key : StringImpl) (value : Option StringImpl)
  deriving DecidableEq

namespace Call

/-- The area through which a map is changed. -/
def area? : Call → Option Nat
  | .create _ => none
  | .copy _ => none
  | .setItem area _ _ => some area
  | .removeItem area _ => some area
  | .importItem area _ _ => some area

end Call

namespace StorageAreas

def initial : StorageAreas :=
  { contents := fun _ => StorageMap.create StorageMap.noQuota
    next := 0
    storageMaps := []
    allocated := by simp }

/-- The references to a map are those of the areas. -/
def refCount (areas : StorageAreas) (address : Nat) : Nat := areas.storageMaps.count address

/-- The map an area refers to. -/
def storageMapOf (areas : StorageAreas) (area : Nat) : Option StorageMap :=
  (areas.storageMaps[area]?).map areas.contents

/-- `StorageAreaImpl::create` -/
def create (areas : StorageAreas) (quota : UInt32) : StorageAreas :=
  { contents := Function.update areas.contents areas.next (StorageMap.create quota)
    next := areas.next + 1
    storageMaps := areas.storageMaps ++ [areas.next]
    allocated := by
      intro address member
      rw [List.mem_append, List.mem_singleton] at member
      rcases member with old | rfl
      · exact Nat.lt_succ_of_lt (areas.allocated address old)
      · exact Nat.lt_succ_self _ }

/-- `StorageAreaImpl::copy`: the new area refers to the same map. -/
def copy (areas : StorageAreas) (area : Nat) : StorageAreas :=
  { areas with
    storageMaps := areas.storageMaps ++ (areas.storageMaps[area]?).toList
    allocated := by
      intro address member
      rw [List.mem_append, Option.mem_toList] at member
      rcases member with old | copied
      · exact areas.allocated address old
      · exact areas.allocated address (List.mem_of_getElem? copied) }

/-- The map at an address takes a new value. -/
def store (areas : StorageAreas) (address : Nat) (storageMap : StorageMap) : StorageAreas :=
  { areas with contents := Function.update areas.contents address storageMap }

/-- An area refers to a new map. -/
def redirect (areas : StorageAreas) (area : Nat) (newStorageMap : StorageMap) : StorageAreas :=
  { contents := Function.update areas.contents areas.next newStorageMap
    next := areas.next + 1
    storageMaps := areas.storageMaps.set area areas.next
    allocated := by
      intro address member
      rcases List.mem_or_eq_of_mem_set member with old | rfl
      · exact Nat.lt_succ_of_lt (areas.allocated address old)
      · exact Nat.lt_succ_self _ }

/-- A call of `setItem` or `removeItem` on the map of an area, which takes the
returned map when there is one. -/
def mutate (areas : StorageAreas) (area : Nat)
    (op : Nat → StorageMap → Mutation) : StorageAreas :=
  match areas.storageMaps[area]? with
  | none => areas
  | some address =>
    let mutation := op (areas.refCount address) (areas.contents address)
    let changed := areas.store address mutation.self
    match mutation.newStorageMap with
    | none => changed
    | some newStorageMap => changed.redirect area newStorageMap

/-- `StorageAreaImpl::importItem` -/
def importItem (areas : StorageAreas) (area : Nat) (key : StringImpl)
    (value : Option StringImpl) : StorageAreas :=
  match areas.storageMaps[area]? with
  | none => areas
  | some address => areas.store address ((areas.contents address).importItem key value)

def step (areas : StorageAreas) : Call → StorageAreas
  | .create quota => areas.create quota
  | .copy area => areas.copy area
  | .setItem area key value =>
    areas.mutate area fun refCount storageMap => storageMap.setItem refCount key value
  | .removeItem area key =>
    areas.mutate area fun refCount storageMap => storageMap.removeItem refCount key
  | .importItem area key value => areas.importItem area key value

/-- Whether a call ends with a quota exception. -/
def quotaException (areas : StorageAreas) : Call → Bool
  | .setItem area key value =>
    match areas.storageMaps[area]? with
    | none => false
    | some address =>
      ((areas.contents address).setItem (areas.refCount address) key value).quotaException
  | _ => false

end StorageAreas

end Storage
end PalmWebKit
