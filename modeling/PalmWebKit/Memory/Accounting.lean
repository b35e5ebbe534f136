import PalmWebKit.Logic.Runs
import PalmWebKit.Memory.LiveHandles

/-!
# Accounting of the allocator

Over every run of calls the free blocks and the live handles are the reserved space, and
the counts of the pages are those of the handles on them, as long as no handle that
begins inside a page is shrunk to nothing.
-/

namespace PalmWebKit
namespace Memory

open List

/-- The allocator, its live handles and what was ever reserved. -/
structure ObservedAllocator where
  allocator : MetaAllocator
  handles : List Extent
  reserved : List Extent

/-- A call of the allocator or of the handle at an index. -/
inductive AllocatorCall
  | addFreshFreeSpace (start sizeInBytes : Nat)
  | allocate (met sizeInBytes : Nat) (allocateNewSpace : Nat → Option MetaAllocator.NewSpace)
  | shrink (index newSizeInBytes : Nat)
  | release (index : Nat)

namespace ObservedAllocator

open MetaAllocator

/-- The platform has not reserved the block before. -/
def Fresh (env : Platform) (reserved : List Extent) (block : Extent) : Prop :=
  env.pageSize ≤ block.start ∧ block.stop ≤ 2 ^ env.bits - env.pageSize ∧
    ∀ range ∈ reserved, block.stop ≤ range.start ∨ range.stop ≤ block.start

instance (env : Platform) (reserved : List Extent)
    (block : Extent) : Decidable (Fresh env reserved block) := by
  unfold Fresh
  infer_instance

/-- The answers of `allocateNewSpace` that the platform can give. -/
def newSpace (env : Platform) (reserved : List Extent)
    (allocateNewSpace : Nat → Option NewSpace) (requested : Nat) : Option NewSpace :=
  (allocateNewSpace requested).filter fun newSpace =>
    requested ≤ newSpace.numberOfPages ∧ Fresh env reserved (newSpace.extent env)

/-- A call.  Space that is not fresh is never given to the allocator, a handle never grows,
and a run ends with `CRASH`. -/
def step (env : Platform) (observed : ObservedAllocator) : AllocatorCall → ObservedAllocator
  | .addFreshFreeSpace start sizeInBytes =>
    if 0 < sizeInBytes ∧ Fresh env observed.reserved ⟨start, sizeInBytes⟩ then
      { observed with
        allocator := observed.allocator.addFreshFreeSpace start sizeInBytes
        reserved := ⟨start, sizeInBytes⟩ :: observed.reserved }
    else
      observed
  | .allocate met sizeInBytes allocateNewSpace =>
    match observed.allocator.allocate env met sizeInBytes
        (newSpace env observed.reserved allocateNewSpace) with
    | none => observed
    | some allocation =>
      ⟨allocation.allocator, allocation.handle.toList ++ observed.handles,
        (allocation.newSpace.map (NewSpace.extent env)).toList ++ observed.reserved⟩
  | .shrink index newSizeInBytes =>
    match observed.handles[index]? with
    | none => observed
    | some handle =>
      if newSizeInBytes ≤ handle.sizeInBytes then
        match observed.allocator.shrink env handle newSizeInBytes with
        | none => observed
        | some (allocator, shrunk) =>
          { observed with
            allocator := allocator
            handles := observed.handles.set index shrunk }
      else
        observed
  | .release index =>
    match observed.handles[index]? with
    | none => observed
    | some handle =>
      { observed with
        allocator := observed.allocator.release env handle
        handles := observed.handles.eraseIdx index }

def initial : ObservedAllocator := ⟨MetaAllocator.empty, [], []⟩

/-- The free blocks and the live handles. -/
def blocks (observed : ObservedAllocator) : List Extent :=
  observed.allocator.freeSpace.sizeMap.map observed.allocator.freeSpace.nodes ++ observed.handles

/-- The accounts of the allocator are those of its blocks. -/
structure Accounts (env : Platform) (observed : ObservedAllocator) : Prop where
  disjoint : observed.blocks.Pairwise Extent.Disjoint
  covers : ∀ address, (∃ block ∈ observed.blocks, block.Has address) ↔
    ∃ range ∈ observed.reserved, range.Has address
  notAdjacent : ∀ node ∈ observed.allocator.freeSpace.sizeMap,
    ∀ other ∈ observed.allocator.freeSpace.sizeMap, (observed.allocator.freeSpace.nodes node).stop ≠
        (observed.allocator.freeSpace.nodes other).start
  nodup : observed.allocator.freeSpace.sizeMap.Nodup
  start_iff : ∀ address node, observed.allocator.freeSpace.startAddressMap address = some node ↔
      node ∈ observed.allocator.freeSpace.sizeMap ∧
        (observed.allocator.freeSpace.nodes node).start = address
  stop_iff : ∀ address node, observed.allocator.freeSpace.endAddressMap address = some node ↔
      node ∈ observed.allocator.freeSpace.sizeMap ∧
        (observed.allocator.freeSpace.nodes node).stop = address
  bytesReserved : observed.allocator.bytesReserved = totalSize observed.blocks
  bytesAllocated : observed.allocator.bytesAllocated = totalSize observed.handles
  occupancy : ∀ page, (observed.allocator.pages.occupancyMap page).getD 0 =
    occupants env observed.handles page
  committed : ∀ page, observed.allocator.pages.committed page = true ↔
    0 < occupants env observed.handles page
  bytesCommitted : observed.allocator.pages.bytesCommitted =
    env.pageSize * {page | 0 < occupants env observed.handles page}.ncard

/-- What every call keeps. -/
structure Invariant (env : Platform) (observed : ObservedAllocator) : Prop where
  covers : Covers observed.allocator.freeSpace observed.handles observed.reserved
  counted : observed.allocator.pages.Counted env (occupants env observed.handles)
  bytesReserved : observed.allocator.bytesReserved = totalSize observed.reserved
  bytesAllocated : observed.allocator.bytesAllocated = totalSize observed.handles
  granules : ∀ handle ∈ observed.handles, env.allocationGranule ∣ handle.sizeInBytes
  inside : ∀ range ∈ observed.reserved, env.pageSize ≤ range.start ∧
    range.stop ≤ 2 ^ env.bits - env.pageSize

variable {env : Platform} {observed : ObservedAllocator}

theorem Invariant.accounts
    (inv : Invariant env observed) : Accounts env observed := by
  have covers := inv.covers
  have indexed := covers.indexed
  have counted := inv.counted
  constructor
  · refine pairwise_append.2 ⟨?_, covers.disjoint, ?_⟩
    · refine pairwise_map.2 (indexed.nodup.imp_of_mem fun isFirst isSecond differ => ?_)
      have separated := indexed.separated _ isFirst _ isSecond differ
      intro address
      simp only [Extent.Has, Extent.Separated] at *
      omega
    · intro block isBlock handle isHandle address has handleHas
      obtain ⟨node, isNode, rfl⟩ := mem_map.1 isBlock
      exact covers.notFree handle isHandle address handleHas ⟨node, isNode, has⟩
  · intro address
    rw [← covers.covers, blocks]
    simp only [mem_append, or_and_right, exists_or, mem_map, exists_exists_and_eq_and]
    rfl
  · intro node isNode other isOther touch
    have positive := indexed.positive node isNode
    by_cases same : node = other
    · subst same
      simp only [Extent.stop] at touch
      omega
    · have separated := indexed.separated node isNode other isOther same
      simp only [Extent.Separated, Extent.stop] at *
      omega
  · exact indexed.nodup
  · exact indexed.start_iff
  · exact indexed.stop_iff
  · rw [inv.bytesReserved, ← covers.sizes, blocks, totalSize, totalSize, map_append,
      sum_append, map_map]
    rfl
  · exact inv.bytesAllocated
  · intro page
    rw [counted.occupancy]
    split
    next unused => exact unused.symm
    next => rfl
  · exact counted.committed
  · exact counted.bytesCommitted

theorem invariant_initial : Invariant env initial := by
  have noBlock : ∀ address, ¬initial.allocator.freeSpace.Free address :=
    fun address ⟨node, isNode, _⟩ => absurd isNode not_mem_nil
  refine ⟨⟨⟨.nil, ?_, ?_, ?_, ?_, ?_⟩, .nil, ?_, ?_, rfl⟩, ?_, rfl, rfl,
    ?_, ?_⟩
  · exact fun _ isNode => absurd isNode not_mem_nil
  · exact fun _ isNode => absurd isNode not_mem_nil
  · exact fun _ isNode => absurd isNode not_mem_nil
  · exact fun _ _ => iff_of_false (fun isSome => by cases isSome)
      fun isNode => absurd isNode.1 not_mem_nil
  · exact fun _ _ => iff_of_false (fun isSome => by cases isSome)
      fun isNode => absurd isNode.1 not_mem_nil
  · exact fun _ isBlock => absurd isBlock not_mem_nil
  · intro address
    simp only [initial, not_mem_nil, false_and, exists_false, or_false, iff_false]
    exact noBlock address
  · refine ⟨fun _ => rfl, fun _ => iff_of_false Bool.false_ne_true (lt_irrefl 0), ?_, ?_⟩
    · simp [initial, occupants]
    · simp [initial, occupants, MetaAllocator.empty]
  · exact fun _ isHandle => absurd isHandle not_mem_nil
  · exact fun _ isRange => absurd isRange not_mem_nil

/-! ## The calls -/

section Calls

variable
  {allocator : MetaAllocator}
  {handle : Extent}
  {handles reserved : List Extent}

theorem Invariant.perm {other : List Extent}
    (inv : Invariant env ⟨allocator, handles, reserved⟩)
    (permutation : handles.Perm other) : Invariant env ⟨allocator, other, reserved⟩ := by
  refine ⟨inv.covers.perm permutation, ?_, inv.bytesReserved, ?_, ?_, inv.inside⟩
  · exact inv.counted.congr fun page => (permutation.countP_eq _).symm
  · refine inv.bytesAllocated.trans ?_
    rw [totalSize, totalSize, (permutation.map _).sum_eq]
  · exact fun other isOther => inv.granules other (permutation.mem_iff.2 isOther)

theorem Invariant.handle_le (inv : Invariant env ⟨allocator, handles, reserved⟩)
    (isHandle : handle ∈ handles) (positive : 0 < handle.sizeInBytes) :
    handle.stop ≤ 2 ^ env.bits - env.pageSize :=
  inv.covers.stop_le (fun range isRange => (inv.inside range isRange).2) isHandle
    positive

theorem Invariant.addFreshFreeSpace {start sizeInBytes : Nat}
    (inv : Invariant env ⟨allocator, handles, reserved⟩) (positive : 0 < sizeInBytes)
    (isFresh : Fresh env reserved ⟨start, sizeInBytes⟩) :
    Invariant env ⟨allocator.addFreshFreeSpace start sizeInBytes, handles,
      ⟨start, sizeInBytes⟩ :: reserved⟩ := by
  obtain ⟨isBehind, isBefore, isApart⟩ := isFresh
  have isNew : ∀ range ∈ reserved, (⟨start, sizeInBytes⟩ : Extent).Disjoint range := by
    intro range isRange address has rangeHas
    have apart := isApart range isRange
    simp only [Extent.Has] at *
    omega
  have covers := (inv.covers.reserve isNew).free positive
  refine ⟨covers, inv.counted, ?_, inv.bytesAllocated, inv.granules,
    forall_mem_cons.2 ⟨⟨isBehind, isBefore⟩, inv.inside⟩⟩
  rw [totalSize_cons, MetaAllocator.addFreshFreeSpace, inv.bytesReserved, Nat.add_comm]

theorem Invariant.release
    (inv : Invariant env ⟨allocator, handle :: handles, reserved⟩) :
    Invariant env ⟨allocator.release env handle, handles, reserved⟩ := by
  have granules := (forall_mem_cons.1 inv.granules).2
  have allocated := inv.bytesAllocated
  rw [totalSize_cons] at allocated
  rw [MetaAllocator.release]
  split
  next notEmpty =>
    have positive := Nat.pos_of_ne_zero notEmpty
    have fits := inv.handle_le (.head _) positive
    refine ⟨inv.covers.free positive, ?_, inv.bytesReserved, ?_, granules, inv.inside⟩
    · have counted := @counted_decrementPageOccupancy env _ handle handles handle ⟨0, 0⟩
        positive (fits.trans (Nat.sub_le _ _))
        (fun page => (or_iff_right (by exact Bool.false_ne_true)).symm)
        (fun page _ => by exact Bool.false_ne_true) inv.counted
      refine counted.congr fun page => ?_
      rfl
    · simp only [addFreeSpaceFromReleasedHandle] at *
      omega
  next isEmpty =>
    have isZero := not_ne_iff.1 isEmpty
    refine ⟨inv.covers.forget isZero, ?_, inv.bytesReserved, ?_, granules, inv.inside⟩
    · refine inv.counted.congr fun page => ?_
      rw [occupants_cons, Extent.overlapsPage_of_size_eq_zero isZero]
      rfl
    · simp only at *
      omega

/-- The allocator with a new handle. -/
theorem Invariant.handOut {start sizeInBytes : Nat}
    (covers : Covers allocator.freeSpace (⟨start, sizeInBytes⟩ :: handles) reserved)
    (counted : allocator.pages.Counted env (occupants env handles))
    (bytesReserved : allocator.bytesReserved = totalSize reserved)
    (bytesAllocated : allocator.bytesAllocated = totalSize handles)
    (granules : ∀ handle ∈ handles, env.allocationGranule ∣ handle.sizeInBytes)
    (inside : ∀ range ∈ reserved, env.pageSize ≤ range.start ∧
      range.stop ≤ 2 ^ env.bits - env.pageSize)
    (positive : 0 < sizeInBytes)
    (isGranules : env.allocationGranule ∣ sizeInBytes) :
    Invariant env ⟨allocator.handOut env start sizeInBytes,
      ⟨start, sizeInBytes⟩ :: handles, reserved⟩ := by
  have fits := covers.stop_le (fun range isRange => (inside range isRange).2)
    (.head _) positive
  refine ⟨covers, ?_, bytesReserved, ?_, forall_mem_cons.2 ⟨isGranules, granules⟩, inside⟩
  · exact @counted_incrementPageOccupancy env _ ⟨start, sizeInBytes⟩ handles positive
      (fits.trans (Nat.sub_le _ _)) counted
  · rw [totalSize_cons, Nat.add_comm, ← bytesAllocated]
    rfl

theorem Invariant.reserve {newSpace : NewSpace} {sizeInBytes : Nat}
    (inv : Invariant env ⟨allocator, handles, reserved⟩)
    (isFresh : Fresh env reserved (newSpace.extent env))
    (isLarge : sizeInBytes ≤ newSpace.numberOfPages * env.pageSize) :
    Covers (allocator.reserve env newSpace sizeInBytes).freeSpace
      (⟨newSpace.start, sizeInBytes⟩ :: handles) (newSpace.extent env :: reserved) := by
  obtain ⟨isBehind, isBefore, isApart⟩ := isFresh
  have isNew : ∀ range ∈ reserved, (newSpace.extent env).Disjoint range := by
    intro range isRange address has rangeHas
    have apart := isApart range isRange
    simp only [Extent.Has] at *
    omega
  have covers := (inv.covers.reserve isNew).split isLarge
  rw [MetaAllocator.reserve]
  split
  next isMore => exact covers.free (Nat.sub_pos_of_lt isMore)
  next notMore => exact covers.forget (by dsimp only; omega)

/-- The pages that are asked for hold the block, if their number does not wrap. -/
theorem le_requested {sizeInBytes numberOfPages : Nat}
    (fits : sizeInBytes + env.pageSize ≤ 2 ^ env.bits)
    (isLarge : requestedNumberOfPages env sizeInBytes ≤ numberOfPages) :
    sizeInBytes ≤ numberOfPages * env.pageSize := by
  have positive := env.pageSize_pos
  have notWrapped : env.wrap (sizeInBytes + env.pageSize - 1) =
      sizeInBytes + env.pageSize - 1 := Nat.mod_eq_of_lt (by omega)
  rw [requestedNumberOfPages, notWrapped] at isLarge
  have isDivided := Nat.div_add_mod' (sizeInBytes + env.pageSize - 1) env.pageSize
  have isLess := Nat.mod_lt (sizeInBytes + env.pageSize - 1) positive
  have isProduct := Nat.mul_le_mul_right env.pageSize isLarge
  omega

variable {met sizeInBytes : Nat}

theorem findAndRemoveFreeSpace_eq_none {space : FreeSpace} :
    space.findAndRemoveFreeSpace env met sizeInBytes = none ↔
      space.findLeastGreaterThanOrEqual met sizeInBytes = none := by
  unfold FreeSpace.findAndRemoveFreeSpace
  cases space.findLeastGreaterThanOrEqual met sizeInBytes with
  | none => exact iff_of_true rfl rfl
  | some node =>
    refine iff_of_false (fun isNone => ?_) (Option.some_ne_none node)
    dsimp only at isNone
    split at isNone
    · cases isNone
    · split at isNone <;> cases isNone

/-- The new space holds the block that it is reserved for. -/
def AllocateFits (env : Platform) (space : FreeSpace) (met sizeInBytes : Nat)
    (allocateNewSpace : Nat → Option NewSpace) : Prop :=
  ∀ rounded, env.roundUp sizeInBytes = some rounded → sizeInBytes ≠ 0 →
    space.findLeastGreaterThanOrEqual met rounded = none →
      ∀ newSpace, allocateNewSpace (requestedNumberOfPages env rounded) = some newSpace →
        rounded + env.pageSize ≤ 2 ^ env.bits

variable {allocateNewSpace : Nat → Option NewSpace}

theorem Invariant.allocate {allocation : Allocation}
    (inv : Invariant env ⟨allocator, handles, reserved⟩)
    (isFresh : ∀ requested newSpace, allocateNewSpace requested = some newSpace →
      requested ≤ newSpace.numberOfPages ∧ Fresh env reserved (newSpace.extent env))
    (fits : AllocateFits env allocator.freeSpace met sizeInBytes allocateNewSpace)
    (isResult : allocator.allocate env met sizeInBytes allocateNewSpace = some allocation) :
    Invariant env ⟨allocation.allocator, allocation.handle.toList ++ handles,
      (allocation.newSpace.map (NewSpace.extent env)).toList ++ reserved⟩ := by
  unfold MetaAllocator.allocate at isResult
  split at isResult
  next =>
    obtain rfl := Option.some.inj isResult
    exact inv
  next notZero =>
    split at isResult
    next => cases isResult
    next rounded isRounded =>
      obtain ⟨isAtLeast, isGranules, _, _⟩ := roundUp_spec isRounded
      have positive : 0 < rounded := lt_of_lt_of_le (Nat.pos_of_ne_zero notZero) isAtLeast
      split at isResult
      next start freeSpace isFound =>
        obtain rfl := Option.some.inj isResult
        obtain ⟨indexed, splits⟩ := FreeSpace.findAndRemoveFreeSpace_spec
          inv.covers.indexed positive isFound
        exact @Invariant.handOut env { allocator with freeSpace := freeSpace } handles
          reserved start rounded (inv.covers.take indexed splits) inv.counted
          inv.bytesReserved inv.bytesAllocated inv.granules inv.inside
          positive isGranules
      next notFound =>
        split at isResult
        next =>
          obtain rfl := Option.some.inj isResult
          exact inv
        next newSpace isNewSpace =>
          obtain rfl := Option.some.inj isResult
          obtain ⟨isEnough, fresh⟩ := isFresh _ newSpace isNewSpace
          have notWrapped := fits rounded isRounded notZero
            (findAndRemoveFreeSpace_eq_none.1 notFound) newSpace isNewSpace
          have isLarge := le_requested notWrapped isEnough
          have bytesReserved : (allocator.reserve env newSpace rounded).bytesReserved =
              totalSize (newSpace.extent env :: reserved) := by
            have wasReserved : allocator.bytesReserved = totalSize reserved := inv.bytesReserved
            rw [totalSize_cons, Nat.add_comm, ← wasReserved]
            rfl
          exact @Invariant.handOut env (allocator.reserve env newSpace rounded) handles
            (newSpace.extent env :: reserved) newSpace.start rounded
            (inv.reserve fresh isLarge) inv.counted bytesReserved
            inv.bytesAllocated inv.granules
            (forall_mem_cons.2 ⟨⟨fresh.1, fresh.2.1⟩, inv.inside⟩) positive
            isGranules

/-- A handle that the new space does not hold is not covered. -/
theorem allocateFits_of_accounts {allocation : Allocation}
    (inv : Invariant env ⟨allocator, handles, reserved⟩)
    (isFresh : ∀ requested newSpace, allocateNewSpace requested = some newSpace →
      requested ≤ newSpace.numberOfPages ∧ Fresh env reserved (newSpace.extent env))
    (isResult : allocator.allocate env met sizeInBytes allocateNewSpace = some allocation)
    (accounts : Accounts env ⟨allocation.allocator, allocation.handle.toList ++ handles,
      (allocation.newSpace.map (NewSpace.extent env)).toList ++ reserved⟩) :
    AllocateFits env allocator.freeSpace met sizeInBytes allocateNewSpace := by
  intro rounded isRounded notZero notFound newSpace isNewSpace
  have positive : 0 < rounded :=
    lt_of_lt_of_le (Nat.pos_of_ne_zero notZero) (roundUp_spec isRounded).1
  have isAllocation : allocation = ⟨handOut env
      (allocator.reserve env newSpace rounded) newSpace.start rounded,
      some ⟨newSpace.start, rounded⟩, some newSpace⟩ := by
    rw [MetaAllocator.allocate, if_neg notZero] at isResult
    simp only [isRounded, findAndRemoveFreeSpace_eq_none.2 notFound, isNewSpace] at isResult
    exact (Option.some.inj isResult).symm
  obtain ⟨_, isBehind, isBefore, _⟩ := isFresh _ newSpace isNewSpace
  subst isAllocation
  obtain ⟨range, isRange, has⟩ := (accounts.covers (newSpace.start + rounded - 1)).1
    ⟨⟨newSpace.start, rounded⟩, mem_append_right _ (.head _), by
      simp only [Extent.Has, Extent.stop]
      omega⟩
  have isInside : range.stop ≤ 2 ^ env.bits - env.pageSize := by
    rcases mem_cons.1 isRange with rfl | isOld
    · exact isBefore
    · exact (inv.inside range isOld).2
  have isLess := has.2
  omega

/-! ### Shrinking -/

section Shrink

variable {start sizeInBytes kept : Nat}

/-- The first byte behind the kept ones that begins a page. -/
def firstFreePage (env : Platform) (freeStart : Nat) : Nat :=
  (freeStart + env.pageSize - 1) / env.pageSize * env.pageSize

theorem le_firstFreePage (freeStart : Nat) : freeStart ≤ firstFreePage env freeStart := by
  have positive := env.pageSize_pos
  have isDivided := Nat.div_add_mod' (freeStart + env.pageSize - 1) env.pageSize
  have isLess := Nat.mod_lt (freeStart + env.pageSize - 1) positive
  unfold firstFreePage
  omega

/-- A page that does not begin before the byte does not begin before the free page. -/
theorem firstFreePage_le {freeStart page : Nat} (isBehind : freeStart ≤ page * env.pageSize) :
    firstFreePage env freeStart ≤ page * env.pageSize := by
  have positive := env.pageSize_pos
  refine Nat.mul_le_mul_right _ (Nat.lt_succ_iff.1 ?_)
  rw [Nat.div_lt_iff_lt_mul positive, Nat.succ_mul]
  omega

theorem next_le_firstFreePage {freeStart page : Nat}
    (isBefore : page * env.pageSize < firstFreePage env freeStart) :
    (page + 1) * env.pageSize ≤ firstFreePage env freeStart :=
  Nat.mul_le_mul_right _ (Nat.lt_of_mul_lt_mul_right isBefore)

/-- The part of the block whose pages stay counted. -/
def countedPart (env : Platform) (start sizeInBytes kept : Nat) : Extent :=
  ⟨start, min sizeInBytes (firstFreePage env (start + kept) - start)⟩

/-- The pages behind a shrunk handle. -/
def shrinkPages (env : Platform) (pages : Pages) (start sizeInBytes kept : Nat) : Pages :=
  let firstCompletelyFreePage := firstFreePage env (start + kept)
  if firstCompletelyFreePage < start + kept + (sizeInBytes - kept) then
    pages.decrementPageOccupancy env firstCompletelyFreePage
      (sizeInBytes - kept - (firstCompletelyFreePage - (start + kept)))
  else
    pages

theorem counted_shrinkPages {pages : Pages} (isLess : kept < sizeInBytes)
    (fits : start + sizeInBytes ≤ 2 ^ env.bits)
    (counted : pages.Counted env (occupants env (⟨start, sizeInBytes⟩ :: handles))) :
    (shrinkPages env pages start sizeInBytes kept).Counted env
      (occupants env (countedPart env start sizeInBytes kept :: handles)) := by
  have isBehind := @le_firstFreePage env (start + kept)
  rw [shrinkPages]
  split
  next isFreed =>
    have sameSize : sizeInBytes - kept - (firstFreePage env (start + kept) - (start + kept)) =
        start + sizeInBytes - firstFreePage env (start + kept) := by omega
    rw [sameSize]
    refine @counted_decrementPageOccupancy env pages ⟨start, sizeInBytes⟩ handles
      ⟨firstFreePage env (start + kept),
        start + sizeInBytes - firstFreePage env (start + kept)⟩ _ (by dsimp only; omega)
      (by simp only [Extent.stop]; omega) (fun page => ?_) (fun page => ?_) counted
    · simp only [Extent.overlapsPage, Bool.and_eq_true, decide_eq_true_eq]
      simp only [Extent.stop, countedPart]
      rcases lt_or_ge (page * env.pageSize) (firstFreePage env (start + kept)) with
        isBefore | isAfter
      · have isNext := next_le_firstFreePage isBefore
        omega
      · have isPage := Nat.succ_mul page env.pageSize
        have positive := env.pageSize_pos
        rw [Nat.succ_eq_add_one] at isPage
        omega
    · simp only [Extent.overlapsPage, Bool.and_eq_true, decide_eq_true_eq]
      simp only [Extent.stop, countedPart]
      rcases lt_or_ge (page * env.pageSize) (firstFreePage env (start + kept)) with
        isBefore | isAfter
      · have isNext := next_le_firstFreePage isBefore
        omega
      · omega
  next notFreed =>
    have isWhole : countedPart env start sizeInBytes kept = ⟨start, sizeInBytes⟩ := by
      rw [countedPart, min_eq_left (by omega)]
    rw [isWhole]
    exact counted

/-- The shrunk handle is on the counted pages, unless it is empty and began inside a
page. -/
theorem overlapsPage_countedPart (isLess : kept < sizeInBytes)
    (isKept : kept = 0 → env.pageSize ∣ start) (page : Nat) :
    (countedPart env start sizeInBytes kept).overlapsPage env page =
      Extent.overlapsPage env page ⟨start, kept⟩ := by
  have isBehind := @le_firstFreePage env (start + kept)
  rw [Bool.eq_iff_iff]
  simp only [Extent.overlapsPage, Bool.and_eq_true, decide_eq_true_eq]
  simp only [Extent.stop, countedPart]
  by_cases isEmpty : kept = 0
  · obtain ⟨count, isStart⟩ := isKept isEmpty
    have isFirst : firstFreePage env (start + kept) ≤ start := by
      rw [isEmpty, isStart, Nat.mul_comm]
      exact firstFreePage_le le_rfl
    omega
  · rcases lt_or_ge (page * env.pageSize) (start + kept) with isBefore | isAfter
    · omega
    · have isFree := firstFreePage_le isAfter
      omega

/-- The page on which an empty handle began stays counted. -/
theorem overlapsPage_start (positive : 0 < sizeInBytes) (notAligned : ¬env.pageSize ∣ start) :
    (countedPart env start sizeInBytes 0).overlapsPage env
      (start / env.pageSize) = true := by
  have pagePositive := env.pageSize_pos
  have isBehind := @le_firstFreePage env start
  have isDivided := Nat.div_add_mod' start env.pageSize
  have isLess := Nat.mod_lt start pagePositive
  have isSucc := Nat.succ_mul (start / env.pageSize) env.pageSize
  rw [Nat.succ_eq_add_one] at isSucc
  have notFirst : firstFreePage env start ≠ start := fun same =>
    notAligned (same ▸ Nat.dvd_mul_left _ _)
  simp only [Extent.overlapsPage, Bool.and_eq_true, decide_eq_true_eq]
  simp only [Extent.stop, countedPart, Nat.add_zero]
  omega

end Shrink

/-- The allocator behind a handle that gives back its end. -/
def shrunkAllocator (env : Platform) (allocator : MetaAllocator) (handle : Extent)
    (kept : Nat) : MetaAllocator :=
  addFreeSpaceFromReleasedHandle
    { allocator with
      pages := shrinkPages env allocator.pages handle.start handle.sizeInBytes kept }
    (handle.start + kept) (handle.sizeInBytes - kept)

variable
  {result : MetaAllocator}
  {shrunk : Extent}

theorem shrink_eq_some {newSizeInBytes : Nat}
    (isResult : allocator.shrink env handle newSizeInBytes = some (result, shrunk)) :
    ∃ kept, env.roundUp newSizeInBytes = some kept ∧
      ((kept = handle.sizeInBytes ∧ result = allocator ∧ shrunk = handle) ∨
        (kept ≠ handle.sizeInBytes ∧ result = shrunkAllocator env allocator handle kept ∧
          shrunk = ⟨handle.start, kept⟩)) := by
  unfold MetaAllocator.shrink at isResult
  split at isResult
  next => cases isResult
  next kept isKept =>
    refine ⟨kept, isKept, ?_⟩
    split at isResult
    next same =>
      obtain ⟨rfl, rfl⟩ := Prod.mk.inj (Option.some.inj isResult)
      exact .inl ⟨same, rfl, rfl⟩
    next differ =>
      obtain ⟨rfl, rfl⟩ := Prod.mk.inj (Option.some.inj isResult)
      exact .inr ⟨differ, rfl, rfl⟩

theorem roundUp_eq_zero_iff {sizeInBytes rounded : Nat}
    (isRounded : env.roundUp sizeInBytes = some rounded) : rounded = 0 ↔ sizeInBytes = 0 := by
  obtain ⟨isAtLeast, _, _, isLeast⟩ := roundUp_spec isRounded
  have least := isLeast 0 (Nat.dvd_zero _)
  omega

/-- The size 0 is rounded to itself. -/
theorem shrink_zero_ne_none : allocator.shrink env handle 0 ≠ none := by
  have notCrash : ¬2 ^ env.bits - 1 - env.allocationGranule ≤ 0 := by
    rw [Nat.le_zero, Nat.sub_eq_zero_iff_le]
    exact not_le.2 env.granule_lt
  rw [MetaAllocator.shrink, Platform.roundUp, if_neg notCrash]
  dsimp only
  split <;> exact Option.some_ne_none _

variable (inv : Invariant env ⟨allocator, handle :: handles, reserved⟩)
include inv

theorem Invariant.counted_shrunk {kept : Nat} (isLess : kept < handle.sizeInBytes) :
    (shrunkAllocator env allocator handle kept).pages.Counted env
      (occupants env
        (countedPart env handle.start handle.sizeInBytes kept :: handles)) := by
  have fits := inv.handle_le (.head _) (Nat.zero_lt_of_lt isLess)
  exact counted_shrinkPages isLess (fits.trans (Nat.sub_le _ _)) inv.counted

theorem Invariant.shrink {newSizeInBytes : Nat} (isSmaller : newSizeInBytes ≤ handle.sizeInBytes)
    (fits : newSizeInBytes = 0 → handle.sizeInBytes = 0 ∨ env.pageSize ∣ handle.start)
    (isResult : allocator.shrink env handle newSizeInBytes = some (result, shrunk)) :
    Invariant env ⟨result, shrunk :: handles, reserved⟩ := by
  obtain ⟨isGranules, granules⟩ := forall_mem_cons.1 inv.granules
  obtain ⟨kept, isKept, ⟨_, rfl, rfl⟩ | ⟨differ, rfl, rfl⟩⟩ := shrink_eq_some isResult
  · exact inv
  · obtain ⟨isAtLeast, keptGranules, _, isLeast⟩ := roundUp_spec isKept
    have isLess := lt_of_le_of_ne (isLeast handle.sizeInBytes isGranules isSmaller) differ
    have covers := (inv.covers.split isLess.le).free (Nat.sub_pos_of_lt isLess)
    refine ⟨covers, ?_, inv.bytesReserved, ?_,
      forall_mem_cons.2 ⟨keptGranules, granules⟩, inv.inside⟩
    · refine (inv.counted_shrunk isLess).congr fun page => ?_
      rw [occupants_cons, occupants_cons, overlapsPage_countedPart isLess]
      intro isEmpty
      rcases fits ((roundUp_eq_zero_iff isKept).1 isEmpty) with isZero | isAligned
      · omega
      · exact isAligned
    · have allocated := inv.bytesAllocated
      rw [totalSize_cons] at allocated ⊢
      simp only [shrunkAllocator, addFreeSpaceFromReleasedHandle] at allocated ⊢
      omega

theorem shrinkFits_of_accounts
    (isResult : allocator.shrink env handle 0 = some (result, shrunk))
    (accounts : ∀ page, (result.pages.occupancyMap page).getD 0 =
      occupants env (shrunk :: handles) page) :
    handle.sizeInBytes = 0 ∨ env.pageSize ∣ handle.start := by
  by_contra neither
  obtain ⟨notEmpty, notAligned⟩ := not_or.1 neither
  have positive := Nat.pos_of_ne_zero notEmpty
  obtain ⟨kept, isKept, ⟨same, _, _⟩ | ⟨differ, rfl, rfl⟩⟩ := shrink_eq_some isResult
  · exact notEmpty (same ▸ (roundUp_eq_zero_iff isKept).2 rfl)
  · obtain rfl := (roundUp_eq_zero_iff isKept).2 rfl
    have counted := inv.counted_shrunk positive
    have account := accounts (handle.start / env.pageSize)
    rw [counted.occupancy, occupants_cons, occupants_cons,
      overlapsPage_start positive notAligned, Extent.overlapsPage_of_size_eq_zero rfl] at account
    simp at account

end Calls

/-! ## Runs -/

/-- What a call has to meet to keep the accounts. -/
def StepFits (env : Platform) (observed : ObservedAllocator) : AllocatorCall → Prop
  | .allocate met sizeInBytes allocateNewSpace =>
    AllocateFits env observed.allocator.freeSpace met sizeInBytes
      (newSpace env observed.reserved allocateNewSpace)
  | .shrink index newSizeInBytes => ∀ handle, observed.handles[index]? = some handle →
      newSizeInBytes = 0 → handle.sizeInBytes = 0 ∨ env.pageSize ∣ handle.start
  | _ => True

theorem fresh_of_newSpace {reserved : List Extent} {allocateNewSpace : Nat → Option NewSpace}
    {requested : Nat} {space : NewSpace}
    (isSpace : newSpace env reserved allocateNewSpace requested = some space) :
    requested ≤ space.numberOfPages ∧ Fresh env reserved (space.extent env) := by
  have isFiltered := (Option.filter_eq_some_iff.1 isSpace).2
  exact of_decide_eq_true isFiltered

/-- The handle at an index, before the others. -/
theorem perm_of_getElem? {handles : List Extent} {index : Nat} {handle : Extent}
    (isHandle : handles[index]? = some handle) :
    (handle :: handles.eraseIdx index).Perm handles := by
  obtain ⟨isIndex, rfl⟩ := List.getElem?_eq_some_iff.1 isHandle
  exact List.getElem_cons_eraseIdx_perm isIndex

theorem Invariant.step (inv : Invariant env observed) {call : AllocatorCall}
    (fits : StepFits env observed call) :
    Invariant env (ObservedAllocator.step env observed call) := by
  obtain ⟨allocator, handles, reserved⟩ := observed
  cases call with
  | addFreshFreeSpace start sizeInBytes =>
    dsimp only [ObservedAllocator.step]
    split
    next isFresh => exact inv.addFreshFreeSpace isFresh.1 isFresh.2
    next => exact inv
  | allocate met sizeInBytes allocateNewSpace =>
    dsimp only [ObservedAllocator.step]
    split
    next => exact inv
    next allocation isResult =>
      exact inv.allocate (fun _ _ => fresh_of_newSpace) fits isResult
  | shrink index newSizeInBytes =>
    dsimp only [ObservedAllocator.step]
    split
    next => exact inv
    next handle isHandle =>
      split
      next isSmaller =>
        split
        next => exact inv
        next result shrunk isResult =>
          have moved := inv.perm (perm_of_getElem? isHandle).symm
          obtain ⟨isIndex, _⟩ := List.getElem?_eq_some_iff.1 isHandle
          exact (moved.shrink isSmaller (fits handle isHandle) isResult).perm
            (List.set_perm_cons_eraseIdx isIndex shrunk).symm
      next => exact inv
  | release index =>
    dsimp only [ObservedAllocator.step]
    split
    next => exact inv
    next handle isHandle => exact (inv.perm (perm_of_getElem? isHandle).symm).release

theorem Invariant.stepFits (inv : Invariant env observed) {call : AllocatorCall}
    (accounts : Accounts env (ObservedAllocator.step env observed call)) :
    StepFits env observed call := by
  obtain ⟨allocator, handles, reserved⟩ := observed
  cases call with
  | addFreshFreeSpace start sizeInBytes | release index => trivial
  | allocate met sizeInBytes allocateNewSpace =>
    dsimp only [ObservedAllocator.step] at accounts
    split at accounts
    next isCrash =>
      intro rounded isRounded notZero notFound space isSpace
      exfalso
      rw [MetaAllocator.allocate, if_neg notZero] at isCrash
      simp only [isRounded, findAndRemoveFreeSpace_eq_none.2 notFound, isSpace] at isCrash
      cases isCrash
    next allocation isResult =>
      exact allocateFits_of_accounts inv (fun _ _ => fresh_of_newSpace) isResult accounts
  | shrink index newSizeInBytes =>
    rintro handle isHandle rfl
    have isSmaller := Nat.zero_le handle.sizeInBytes
    have moved := inv.perm (perm_of_getElem? isHandle).symm
    obtain ⟨isIndex, _⟩ := List.getElem?_eq_some_iff.1 isHandle
    dsimp only [ObservedAllocator.step] at accounts
    simp only [isHandle, if_pos isSmaller] at accounts
    split at accounts
    next isCrash => exact (shrink_zero_ne_none isCrash).elim
    next result shrunk isResult =>
      refine shrinkFits_of_accounts moved isResult fun page => ?_
      refine (accounts.occupancy page).trans ?_
      exact (List.set_perm_cons_eraseIdx isIndex shrunk).countP_eq _

/-- Over a run the accounts are right exactly when no handle that begins inside a page is
shrunk to nothing, and no space is reserved for a block whose pages cannot be counted. -/
theorem accounts_run_iff (env : Platform) (calls : List AllocatorCall) :
    (∀ observed ∈ Runs.visited (step env) initial calls, Accounts env observed) ↔
      Runs.StepsMeet (step env) (StepFits env) initial calls :=
  @Runs.visited_iff_stepsMeet_of_invariant _ _ (step env) (Invariant env)
    (Accounts env) (StepFits env)
    (fun _ inv => inv.accounts)
    (fun _ _ inv fits => inv.step fits)
    (fun _ _ inv accounts => inv.stepFits accounts)
    calls _ invariant_initial

/-- Pages of 4096 bytes, granules of 32 bytes. -/
def jitPlatform : Platform where
  bits := 32
  logPageSize := 12
  logAllocationGranule := 5
  pageSize_lt := by decide
  granule_lt := by decide

/-- The second handle of a page is shrunk to nothing, and the page keeps two. -/
theorem page_of_empty_handle :
    ¬∀ env calls, ∀ observed ∈ Runs.visited (step env) initial calls,
      Accounts env observed := by
  intro always
  have accounts := always jitPlatform
    [.addFreshFreeSpace 4096 8192, .allocate 0 32 fun _ => none, .allocate 0 32 fun _ => none,
      .shrink 0 0] _ (Runs.final_mem_visited _ _)
  have occupancy := accounts.occupancy 1
  revert occupancy
  decide +kernel

end ObservedAllocator

end Memory
end PalmWebKit
