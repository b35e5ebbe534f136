import Mathlib

/-!
# The allocator of executable memory

`MetaAllocator` hands out blocks of reserved address space.  Its free blocks are kept in
a tree by size and in two hash maps, by their start and by their end; a count for every
page tells when it has to be committed.
-/

namespace PalmWebKit
namespace Memory

/-- The constants of the platform and of the allocator.  Neither the first nor the last
page of the address space is ever reserved. -/
structure Platform where
  bits : Nat
  logPageSize : Nat
  logAllocationGranule : Nat
  pageSize_lt : 2 ^ logPageSize < 2 ^ bits - 1
  granule_lt : 2 ^ logAllocationGranule < 2 ^ bits - 1

namespace Platform

variable (env : Platform)

def pageSize : Nat := 2 ^ env.logPageSize

def allocationGranule : Nat := 2 ^ env.logAllocationGranule

/-- What a `size_t` keeps of a number. -/
def wrap (value : Nat) : Nat := value % 2 ^ env.bits

/-- `none` is the call of `CRASH`. -/
def roundUp (sizeInBytes : Nat) : Option Nat :=
  if 2 ^ env.bits - 1 - env.allocationGranule ≤ sizeInBytes then none
  else some ((sizeInBytes + env.allocationGranule - 1) / env.allocationGranule *
    env.allocationGranule)

end Platform

/-- A block of addresses. -/
structure Extent where
  start : Nat
  sizeInBytes : Nat
  deriving DecidableEq, Repr

def Extent.stop (extent : Extent) : Nat := extent.start + extent.sizeInBytes

/-! ## Free space -/

/-- The free blocks.  `nodes` is the memory of the nodes, of which those from `newNode` on
are not in use. -/
structure FreeSpace where
  nodes : Nat → Extent
  newNode : Nat
  sizeMap : List Nat
  startAddressMap : Nat → Option Nat
  endAddressMap : Nat → Option Nat

namespace FreeSpace

/-- `HashMap::remove` -/
def mapRemove (map : Nat → Option Nat) (key : Nat) : Nat → Option Nat :=
  Function.update map key none

/-- `HashMap::add`, which keeps an entry that is there. -/
def mapAdd (map : Nat → Option Nat) (key value : Nat) : Nat → Option Nat :=
  if (map key).isSome then map else Function.update map key (some value)

variable (space : FreeSpace)

/-- `m_freeSpaceSizeMap.findLeastGreaterThanOrEqual`.  Which of the least nodes the search
meets depends on the shape of the tree. -/
def findLeastGreaterThanOrEqual (met sizeInBytes : Nat) : Option Nat :=
  let large := space.sizeMap.filter fun node => sizeInBytes ≤ (space.nodes node).sizeInBytes
  match large.argmin fun node => (space.nodes node).sizeInBytes with
  | none => none
  | some node =>
    if met ∈ large ∧ (space.nodes met).sizeInBytes = (space.nodes node).sizeInBytes then
      some met
    else
      some node

/-- The block that is found, and the space without it. -/
def findAndRemoveFreeSpace (env : Platform)
    (met sizeInBytes : Nat) : Option (Nat × FreeSpace) :=
  match space.findLeastGreaterThanOrEqual met sizeInBytes with
  | none => none
  | some node =>
    let extent := space.nodes node
    let sizeMap := space.sizeMap.erase node
    if extent.sizeInBytes = sizeInBytes then
      some (extent.start, { space with
        sizeMap := sizeMap
        startAddressMap := mapRemove space.startAddressMap extent.start
        endAddressMap := mapRemove space.endAddressMap extent.stop })
    else
      let firstPage := extent.start / env.pageSize
      let lastPage := (extent.start + extent.sizeInBytes - 1) / env.pageSize
      let lastPageForLeftAllocation := (extent.start + sizeInBytes - 1) / env.pageSize
      let firstPageForRightAllocation :=
        (extent.start + extent.sizeInBytes - sizeInBytes) / env.pageSize
      if lastPageForLeftAllocation - firstPage + 1 ≤ lastPage - firstPageForRightAllocation + 1 then
        let rest : Extent := ⟨extent.start + sizeInBytes, extent.sizeInBytes - sizeInBytes⟩
        some (extent.start, { space with
          nodes := Function.update space.nodes node rest
          sizeMap := node :: sizeMap
          startAddressMap :=
            mapAdd (mapRemove space.startAddressMap extent.start) rest.start node })
      else
        let rest : Extent := ⟨extent.start, extent.sizeInBytes - sizeInBytes⟩
        let result := extent.start + extent.sizeInBytes - sizeInBytes
        some (result, { space with
          nodes := Function.update space.nodes node rest
          sizeMap := node :: sizeMap
          endAddressMap := mapAdd (mapRemove space.endAddressMap extent.stop) result node })

/-- Free blocks that touch the new one become one with it. -/
def addFreeSpace (start sizeInBytes : Nat) : FreeSpace :=
  let stop := start + sizeInBytes
  match space.endAddressMap start, space.startAddressMap stop with
  | some leftNode, some rightNode =>
    let left := space.nodes leftNode
    let right := space.nodes rightNode
    let rightEnd := stop + right.sizeInBytes
    let grown : Extent := ⟨left.start, left.sizeInBytes + (sizeInBytes + right.sizeInBytes)⟩
    { space with
      nodes := Function.update space.nodes leftNode grown
      sizeMap := leftNode :: (space.sizeMap.erase leftNode).erase rightNode
      startAddressMap := mapRemove space.startAddressMap stop
      endAddressMap := mapAdd
        (mapRemove (mapRemove space.endAddressMap left.stop) rightEnd) rightEnd leftNode }
  | some leftNode, none =>
    let left := space.nodes leftNode
    let grown : Extent := ⟨left.start, left.sizeInBytes + sizeInBytes⟩
    { space with
      nodes := Function.update space.nodes leftNode grown
      sizeMap := leftNode :: space.sizeMap.erase leftNode
      endAddressMap := mapAdd (mapRemove space.endAddressMap left.stop) stop leftNode }
  | none, some rightNode =>
    let right := space.nodes rightNode
    let grown : Extent := ⟨start, right.sizeInBytes + sizeInBytes⟩
    { space with
      nodes := Function.update space.nodes rightNode grown
      sizeMap := rightNode :: space.sizeMap.erase rightNode
      startAddressMap := mapAdd (mapRemove space.startAddressMap stop) start rightNode }
  | none, none =>
    { nodes := Function.update space.nodes space.newNode ⟨start, sizeInBytes⟩
      newNode := space.newNode + 1
      sizeMap := space.newNode :: space.sizeMap
      startAddressMap := mapAdd space.startAddressMap start space.newNode
      endAddressMap := mapAdd space.endAddressMap stop space.newNode }

end FreeSpace

/-! ## Pages -/

/-- The counts of the pages.  `committed` holds for the pages that were asked for with
`notifyNeedPage` and not given back with `notifyPageIsFree`. -/
structure Pages where
  occupancyMap : Nat → Option Nat
  bytesCommitted : Nat
  committed : Nat → Bool

namespace Pages

variable (env : Platform) (pages : Pages)

def incrementPage (page : Nat) : Pages :=
  match pages.occupancyMap page with
  | none =>
    { occupancyMap := Function.update pages.occupancyMap page (some 1)
      bytesCommitted := pages.bytesCommitted + env.pageSize
      committed := Function.update pages.committed page true }
  | some count =>
    { pages with occupancyMap := Function.update pages.occupancyMap page (some (count + 1)) }

/-- The page is in the map. -/
def decrementPage (page : Nat) : Pages :=
  match pages.occupancyMap page with
  | none => pages
  | some count =>
    if count - 1 = 0 then
      { occupancyMap := Function.update pages.occupancyMap page none
        bytesCommitted := pages.bytesCommitted - env.pageSize
        committed := Function.update pages.committed page false }
    else
      { pages with occupancyMap := Function.update pages.occupancyMap page (some (count - 1)) }

/-- The pages of a loop from the first one to the last one. -/
def pageLoop (firstPage lastPage : Nat) : List Nat :=
  List.range' firstPage (lastPage + 1 - firstPage)

def incrementPageOccupancy (address sizeInBytes : Nat) : Pages :=
  let firstPage := address / env.pageSize
  let lastPage := env.wrap (address + sizeInBytes - 1) / env.pageSize
  (pageLoop firstPage lastPage).foldl (incrementPage env) pages

def decrementPageOccupancy (address sizeInBytes : Nat) : Pages :=
  let firstPage := address / env.pageSize
  let lastPage := env.wrap (address + sizeInBytes - 1) / env.pageSize
  (pageLoop firstPage lastPage).foldl (decrementPage env) pages

end Pages

/-! ## The allocator -/

structure MetaAllocator where
  freeSpace : FreeSpace
  pages : Pages
  bytesAllocated : Nat
  bytesReserved : Nat

namespace MetaAllocator

def empty : MetaAllocator where
  freeSpace := ⟨fun _ => ⟨0, 0⟩, 0, [], fun _ => none, fun _ => none⟩
  pages := ⟨fun _ => none, 0, fun _ => false⟩
  bytesAllocated := 0
  bytesReserved := 0

variable (env : Platform) (allocator : MetaAllocator)

def addFreshFreeSpace (start sizeInBytes : Nat) : MetaAllocator :=
  { allocator with
    bytesReserved := allocator.bytesReserved + sizeInBytes
    freeSpace := allocator.freeSpace.addFreeSpace start sizeInBytes }

def addFreeSpaceFromReleasedHandle (start sizeInBytes : Nat) : MetaAllocator :=
  { allocator with
    bytesAllocated := allocator.bytesAllocated - sizeInBytes
    freeSpace := allocator.freeSpace.addFreeSpace start sizeInBytes }

/-- `MetaAllocator::release(MetaAllocatorHandle*)` -/
def release (handle : Extent) : MetaAllocator :=
  if handle.sizeInBytes ≠ 0 then
    addFreeSpaceFromReleasedHandle
      { allocator with
        pages := allocator.pages.decrementPageOccupancy env handle.start
          handle.sizeInBytes }
      handle.start handle.sizeInBytes
  else
    allocator

/-- `MetaAllocatorHandle::shrink`, and the handle behind it. -/
def shrink (handle : Extent) (newSizeInBytes : Nat) : Option (MetaAllocator × Extent) :=
  match env.roundUp newSizeInBytes with
  | none => none
  | some newSizeInBytes =>
    if newSizeInBytes = handle.sizeInBytes then
      some (allocator, handle)
    else
      let freeStart := handle.start + newSizeInBytes
      let freeSize := handle.sizeInBytes - newSizeInBytes
      let freeEnd := freeStart + freeSize
      let firstCompletelyFreePage :=
        (freeStart + env.pageSize - 1) / env.pageSize * env.pageSize
      let pages :=
        if firstCompletelyFreePage < freeEnd then
          allocator.pages.decrementPageOccupancy env firstCompletelyFreePage
            (freeSize - (firstCompletelyFreePage - freeStart))
        else
          allocator.pages
      some (addFreeSpaceFromReleasedHandle { allocator with pages := pages } freeStart
        freeSize, ⟨handle.start, newSizeInBytes⟩)

/-- The number of pages that `allocate` asks `allocateNewSpace` for. -/
def requestedNumberOfPages (sizeInBytes : Nat) : Nat :=
  env.wrap (sizeInBytes + env.pageSize - 1) / env.pageSize

/-- What `allocateNewSpace` returns: a start and the number of pages. -/
structure NewSpace where
  start : Nat
  numberOfPages : Nat
  deriving DecidableEq, Repr

/-- The new space in bytes. -/
def NewSpace.extent (newSpace : NewSpace) : Extent :=
  ⟨newSpace.start, newSpace.numberOfPages * env.pageSize⟩

/-- The end of `allocate`, where a block has been found. -/
def handOut (start sizeInBytes : Nat) : MetaAllocator :=
  { allocator with
    pages := allocator.pages.incrementPageOccupancy env start sizeInBytes
    bytesAllocated := allocator.bytesAllocated + sizeInBytes }

/-- The allocator with new space, of which the first bytes are not free. -/
def reserve (newSpace : NewSpace) (sizeInBytes : Nat) : MetaAllocator :=
  let roundedUpSize := newSpace.numberOfPages * env.pageSize
  { allocator with
    bytesReserved := allocator.bytesReserved + roundedUpSize
    freeSpace :=
      if roundedUpSize > sizeInBytes then
        allocator.freeSpace.addFreeSpace (newSpace.start + sizeInBytes)
          (roundedUpSize - sizeInBytes)
      else
        allocator.freeSpace }

/-- What `allocate` leaves: the allocator, the handle if there is one, and the space that
was reserved for it. -/
structure Allocation where
  allocator : MetaAllocator
  handle : Option Extent
  newSpace : Option NewSpace

/-- `allocateNewSpace` is the answer of the subclass to the number of pages it is asked for;
`none` is the call of `CRASH`. -/
def allocate (met sizeInBytes : Nat)
    (allocateNewSpace : Nat → Option NewSpace) : Option Allocation :=
  if sizeInBytes = 0 then
    some ⟨allocator, none, none⟩
  else
    match env.roundUp sizeInBytes with
    | none => none
    | some sizeInBytes =>
      match allocator.freeSpace.findAndRemoveFreeSpace env met sizeInBytes with
      | some (start, freeSpace) =>
        some ⟨handOut env { allocator with freeSpace := freeSpace } start sizeInBytes,
          some ⟨start, sizeInBytes⟩, none⟩
      | none =>
        match allocateNewSpace (requestedNumberOfPages env sizeInBytes) with
        | none => some ⟨allocator, none, none⟩
        | some newSpace =>
          some ⟨handOut env (allocator.reserve env newSpace sizeInBytes) newSpace.start
            sizeInBytes, some ⟨newSpace.start, sizeInBytes⟩, some newSpace⟩

end MetaAllocator

end Memory
end PalmWebKit
