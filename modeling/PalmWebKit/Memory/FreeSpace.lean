import PalmWebKit.Memory.MetaAllocator

/-!
# The indices of the free blocks

Every change of the free blocks removes nodes from the three indices and inserts one.
-/

namespace PalmWebKit
namespace Memory

open List

/-- The address is one of the block. -/
def Extent.Has (extent : Extent) (address : Nat) : Prop :=
  extent.start ≤ address ∧ address < extent.stop

/-- The blocks do not touch. -/
def Extent.Separated (extent other : Extent) : Prop :=
  extent.stop < other.start ∨ other.stop < extent.start

theorem Extent.Separated.symm {extent other : Extent}
    (separated : extent.Separated other) : other.Separated extent := Or.symm separated

namespace FreeSpace

/-- The three indices list the same blocks, which are not empty and do not touch. -/
structure Indexed (space : FreeSpace) : Prop where
  nodup : space.sizeMap.Nodup
  used : ∀ node ∈ space.sizeMap, node < space.newNode
  positive : ∀ node ∈ space.sizeMap, 0 < (space.nodes node).sizeInBytes
  separated : ∀ node ∈ space.sizeMap, ∀ other ∈ space.sizeMap, node ≠ other →
    (space.nodes node).Separated (space.nodes other)
  start_iff : ∀ address node, space.startAddressMap address = some node ↔
    node ∈ space.sizeMap ∧ (space.nodes node).start = address
  stop_iff : ∀ address node, space.endAddressMap address = some node ↔
    node ∈ space.sizeMap ∧ (space.nodes node).stop = address

/-- The address is free. -/
def Free (space : FreeSpace) (address : Nat) : Prop :=
  ∃ node ∈ space.sizeMap, (space.nodes node).Has address

/-- The sum of the sizes of the free blocks. -/
def total (space : FreeSpace) : Nat :=
  (space.sizeMap.map fun node => (space.nodes node).sizeInBytes).sum

/-! ## Removing and inserting a node -/

variable {space : FreeSpace} {node : Nat} {extent : Extent}

/-- The space without a node. -/
def remove (space : FreeSpace) (node : Nat) : FreeSpace :=
  { space with
    sizeMap := space.sizeMap.erase node
    startAddressMap := mapRemove space.startAddressMap (space.nodes node).start
    endAddressMap := mapRemove space.endAddressMap (space.nodes node).stop }

/-- The space with a node for the block. -/
def insert (space : FreeSpace) (node : Nat) (extent : Extent) : FreeSpace :=
  { space with
    nodes := Function.update space.nodes node extent
    sizeMap := node :: space.sizeMap
    startAddressMap := mapAdd space.startAddressMap extent.start node
    endAddressMap := mapAdd space.endAddressMap extent.stop node }

variable {map : Nat → Option Nat}

theorem mapRemove_eq_some {key address value : Nat} :
    mapRemove map key address = some value ↔ address ≠ key ∧ map address = some value := by
  by_cases isKey : address = key
  · subst isKey
    simp [mapRemove]
  · simp [mapRemove, isKey]

theorem mapAdd_eq_some {key address added value : Nat} (isNew : map key = none) :
    mapAdd map key added address = some value ↔
      (address = key ∧ value = added) ∨ map address = some value := by
  by_cases isKey : address = key
  · subst isKey
    simp [mapAdd, isNew, eq_comm]
  · simp [mapAdd, isNew, isKey]

/-- A removed entry comes back. -/
theorem mapAdd_mapRemove {key value : Nat}
    (isValue : map key = some value) : mapAdd (mapRemove map key) key value = map := by
  funext address
  by_cases isKey : address = key
  · subst isKey
    simp [mapAdd, mapRemove, isValue]
  · simp [mapAdd, mapRemove, isKey]

variable {other : Nat}

/-- Non-empty blocks that do not touch differ at both ends. -/
theorem Indexed.eq_of_start (indexed : space.Indexed) (isNode : node ∈ space.sizeMap)
    (isOther : other ∈ space.sizeMap)
    (same : (space.nodes node).start = (space.nodes other).start) : node = other := by
  by_contra differ
  have separated := indexed.separated node isNode other isOther differ
  have positive := indexed.positive node isNode
  simp only [Extent.Separated, Extent.stop] at separated
  omega

theorem Indexed.eq_of_stop (indexed : space.Indexed) (isNode : node ∈ space.sizeMap)
    (isOther : other ∈ space.sizeMap)
    (same : (space.nodes node).stop = (space.nodes other).stop) : node = other := by
  by_contra differ
  have separated := indexed.separated node isNode other isOther differ
  have positive := indexed.positive node isNode
  simp only [Extent.Separated, Extent.stop] at separated same
  omega

theorem Indexed.remove (indexed : space.Indexed)
    (isNode : node ∈ space.sizeMap) : (space.remove node).Indexed := by
  have memErase : ∀ other, other ∈ space.sizeMap.erase node ↔
      other ≠ node ∧ other ∈ space.sizeMap := fun other => indexed.nodup.mem_erase_iff
  constructor
  · exact indexed.nodup.erase node
  · exact fun other isOther => indexed.used other ((memErase other).1 isOther).2
  · exact fun other isOther => indexed.positive other ((memErase other).1 isOther).2
  · exact fun first isFirst second isSecond =>
      indexed.separated first ((memErase first).1 isFirst).2 second
        ((memErase second).1 isSecond).2
  · intro address other
    refine mapRemove_eq_some.trans ?_
    rw [indexed.start_iff, FreeSpace.remove, memErase]
    constructor
    · rintro ⟨isOutside, isOther, rfl⟩
      refine ⟨⟨?_, isOther⟩, rfl⟩
      rintro rfl
      exact isOutside rfl
    · rintro ⟨⟨differ, isOther⟩, rfl⟩
      exact ⟨fun same => differ (indexed.eq_of_start isOther isNode same), isOther, rfl⟩
  · intro address other
    refine mapRemove_eq_some.trans ?_
    rw [indexed.stop_iff, FreeSpace.remove, memErase]
    constructor
    · rintro ⟨isOutside, isOther, rfl⟩
      refine ⟨⟨?_, isOther⟩, rfl⟩
      rintro rfl
      exact isOutside rfl
    · rintro ⟨⟨differ, isOther⟩, rfl⟩
      exact ⟨fun same => differ (indexed.eq_of_stop isOther isNode same), isOther, rfl⟩

variable (indexed : space.Indexed)
include indexed

theorem Indexed.notMem_remove : node ∉ (space.remove node).sizeMap :=
  indexed.nodup.not_mem_erase

theorem Indexed.mem_remove :
    other ∈ (space.remove node).sizeMap ↔ other ≠ node ∧ other ∈ space.sizeMap :=
  indexed.nodup.mem_erase_iff

theorem Indexed.free_remove (isNode : node ∈ space.sizeMap) (address : Nat) : space.Free address ↔
      (space.remove node).Free address ∨ (space.nodes node).Has address := by
  constructor
  · rintro ⟨other, isOther, has⟩
    by_cases same : other = node
    · subst same
      exact .inr has
    · exact .inl ⟨other, indexed.mem_remove.2 ⟨same, isOther⟩, has⟩
  · rintro (⟨other, isOther, has⟩ | has)
    · exact ⟨other, (indexed.mem_remove.1 isOther).2, has⟩
    · exact ⟨node, isNode, has⟩

theorem Indexed.not_free_remove (isNode : node ∈ space.sizeMap) {address : Nat}
    (has : (space.nodes node).Has address) : ¬(space.remove node).Free address := by
  rintro ⟨other, isOther, otherHas⟩
  obtain ⟨differ, isMem⟩ := indexed.mem_remove.1 isOther
  have separated := indexed.separated other isMem node isNode differ
  change (space.nodes other).Has address at otherHas
  simp only [Extent.Has, Extent.Separated] at has otherHas separated
  omega

omit indexed

theorem total_remove (isNode : node ∈ space.sizeMap) :
    space.total = (space.remove node).total + (space.nodes node).sizeInBytes := by
  have summed := sum_map_erase (fun node => (space.nodes node).sizeInBytes) isNode
  rw [total, ← summed]
  exact Nat.add_comm _ _

section Insert

variable
  (indexed : space.Indexed)
  (isNew : node ∉ space.sizeMap)
  (isUsed : node < space.newNode)
  (positive : 0 < extent.sizeInBytes)
  (separated : ∀ other ∈ space.sizeMap, extent.Separated (space.nodes other))

include isNew in
theorem nodes_insert {other : Nat} (isOther : other ∈ space.sizeMap) :
    (space.insert node extent).nodes other = space.nodes other :=
  Function.update_of_ne (ne_of_mem_of_not_mem isOther isNew) _ _

include indexed isNew isUsed positive separated in
theorem Indexed.insert : (space.insert node extent).Indexed := by
  have atNode : (space.insert node extent).nodes node = extent := Function.update_self _ _ _
  have noStart : space.startAddressMap extent.start = none := by
    rw [Option.eq_none_iff_forall_ne_some]
    intro other isSome
    obtain ⟨isOther, atStart⟩ := (indexed.start_iff _ _).1 isSome
    have apart := separated other isOther
    have otherPositive := indexed.positive other isOther
    simp only [Extent.Separated, Extent.stop] at apart
    omega
  have noStop : space.endAddressMap extent.stop = none := by
    rw [Option.eq_none_iff_forall_ne_some]
    intro other isSome
    obtain ⟨isOther, atStop⟩ := (indexed.stop_iff _ _).1 isSome
    have apart := separated other isOther
    simp only [Extent.Separated, Extent.stop] at apart atStop
    omega
  constructor
  · exact nodup_cons.2 ⟨isNew, indexed.nodup⟩
  · exact forall_mem_cons.2 ⟨isUsed, indexed.used⟩
  · refine forall_mem_cons.2 ⟨by rw [atNode]; exact positive, fun other isOther => ?_⟩
    rw [nodes_insert isNew isOther]
    exact indexed.positive other isOther
  · intro first isFirst second isSecond differ
    rcases mem_cons.1 isFirst with rfl | isInFirst <;>
      rcases mem_cons.1 isSecond with rfl | isInSecond
    · exact absurd rfl differ
    · rw [atNode, nodes_insert isNew isInSecond]
      exact separated second isInSecond
    · rw [atNode, nodes_insert isNew isInFirst]
      exact (separated first isInFirst).symm
    · rw [nodes_insert isNew isInFirst, nodes_insert isNew isInSecond]
      exact indexed.separated first isInFirst second isInSecond differ
  · intro address other
    refine (mapAdd_eq_some noStart).trans ?_
    rw [indexed.start_iff]
    constructor
    · rintro (⟨rfl, rfl⟩ | ⟨isOther, rfl⟩)
      · exact ⟨.head _, by rw [atNode]⟩
      · exact ⟨.tail _ isOther, by rw [nodes_insert isNew isOther]⟩
    · rintro ⟨isMem, rfl⟩
      rcases mem_cons.1 isMem with rfl | isOther
      · rw [atNode]
        exact .inl ⟨rfl, rfl⟩
      · rw [nodes_insert isNew isOther]
        exact .inr ⟨isOther, rfl⟩
  · intro address other
    refine (mapAdd_eq_some noStop).trans ?_
    rw [indexed.stop_iff]
    constructor
    · rintro (⟨rfl, rfl⟩ | ⟨isOther, rfl⟩)
      · exact ⟨.head _, by rw [atNode]⟩
      · exact ⟨.tail _ isOther, by rw [nodes_insert isNew isOther]⟩
    · rintro ⟨isMem, rfl⟩
      rcases mem_cons.1 isMem with rfl | isOther
      · rw [atNode]
        exact .inl ⟨rfl, rfl⟩
      · rw [nodes_insert isNew isOther]
        exact .inr ⟨isOther, rfl⟩

include isNew in
theorem free_insert (address : Nat) :
    (space.insert node extent).Free address ↔ space.Free address ∨ extent.Has address := by
  have atNode : (space.insert node extent).nodes node = extent := Function.update_self _ _ _
  constructor
  · rintro ⟨other, isMem, has⟩
    rcases mem_cons.1 isMem with rfl | isOther
    · rw [atNode] at has
      exact .inr has
    · rw [nodes_insert isNew isOther] at has
      exact .inl ⟨other, isOther, has⟩
  · rintro (⟨other, isOther, has⟩ | has)
    · exact ⟨other, .tail _ isOther, by rwa [nodes_insert isNew isOther]⟩
    · exact ⟨node, .head _, by rwa [atNode]⟩

include isNew in
theorem total_insert : (space.insert node extent).total = space.total + extent.sizeInBytes := by
  have atNode : (space.insert node extent).nodes node = extent := Function.update_self _ _ _
  have others : space.sizeMap.map
      (fun node_ => ((space.insert node extent).nodes node_).sizeInBytes) =
      space.sizeMap.map fun node => (space.nodes node).sizeInBytes := by
    refine map_congr_left fun other isOther => ?_
    rw [nodes_insert isNew isOther]
  change ((node :: space.sizeMap).map
    fun node_ => ((space.insert node extent).nodes node_).sizeInBytes).sum = _
  rw [map_cons, others, atNode, Nat.add_comm]
  rfl

end Insert

/-! ## Taking a block -/

/-- The whole space is the rest and the block. -/
structure Splits (whole rest : FreeSpace) (extent : Extent) : Prop where
  free : ∀ address, whole.Free address ↔ rest.Free address ∨ extent.Has address
  apart : ∀ address, extent.Has address → ¬rest.Free address
  total : whole.total = rest.total + extent.sizeInBytes

theorem findLeastGreaterThanOrEqual_spec {met sizeInBytes : Nat}
    (found : space.findLeastGreaterThanOrEqual met sizeInBytes = some node) :
    node ∈ space.sizeMap ∧ sizeInBytes ≤ (space.nodes node).sizeInBytes := by
  have isLarge : node ∈ space.sizeMap.filter
      fun node => sizeInBytes ≤ (space.nodes node).sizeInBytes := by
    unfold findLeastGreaterThanOrEqual at found
    dsimp only at found
    split at found
    next => cases found
    next least isLeast =>
      split at found
      next isMet =>
        obtain rfl := Option.some.inj found
        exact isMet.1
      next =>
        obtain rfl := Option.some.inj found
        exact argmin_mem isLeast
  rw [mem_filter, decide_eq_true_eq] at isLarge
  exact isLarge

/-- A node shrinks to a part of its block. -/
theorem Indexed.shrink (indexed : space.Indexed) (isNode : node ∈ space.sizeMap)
    (positive : 0 < extent.sizeInBytes)
    (inside : (space.nodes node).start ≤ extent.start ∧ extent.stop ≤ (space.nodes node).stop) :
    ((space.remove node).insert node extent).Indexed := by
  refine (indexed.remove isNode).insert indexed.notMem_remove (indexed.used node isNode) positive
    fun other isOther => ?_
  obtain ⟨differ, isMem⟩ := indexed.mem_remove.1 isOther
  have separated := indexed.separated node isNode other isMem differ.symm
  change extent.Separated (space.nodes other)
  simp only [Extent.Separated] at separated ⊢
  omega

theorem Indexed.splits_shrink (indexed : space.Indexed) (isNode : node ∈ space.sizeMap)
    {taken : Extent}
    (isPartition : ∀ address, (space.nodes node).Has address ↔
      extent.Has address ∨ taken.Has address)
    (apart : ∀ address, taken.Has address → ¬extent.Has address)
    (sizes : (space.nodes node).sizeInBytes = extent.sizeInBytes + taken.sizeInBytes) :
    Splits space ((space.remove node).insert node extent) taken := by
  have isNew : node ∉ (space.remove node).sizeMap := indexed.notMem_remove
  constructor
  · intro address
    rw [indexed.free_remove isNode, free_insert isNew, isPartition, or_assoc]
  · intro address has isFree
    rcases (free_insert isNew address).1 isFree with isRest | isExtent
    · exact indexed.not_free_remove isNode ((isPartition address).2 (.inr has)) isRest
    · exact apart address has isExtent
  · rw [total_remove isNode, total_insert isNew, sizes, Nat.add_assoc]

theorem findAndRemoveFreeSpace_spec {env : Platform} {met sizeInBytes start : Nat}
    {rest : FreeSpace} (indexed : space.Indexed) (positive : 0 < sizeInBytes)
    (found : space.findAndRemoveFreeSpace env met sizeInBytes = some (start, rest)) :
    rest.Indexed ∧ Splits space rest ⟨start, sizeInBytes⟩ := by
  unfold findAndRemoveFreeSpace at found
  split at found
  next => cases found
  next node isFound =>
    obtain ⟨isNode, isLarge⟩ := findLeastGreaterThanOrEqual_spec isFound
    have isStart := (indexed.start_iff _ node).2 ⟨isNode, rfl⟩
    have isStop := (indexed.stop_iff _ node).2 ⟨isNode, rfl⟩
    dsimp only at found
    split at found
    next same =>
      obtain ⟨rfl, rfl⟩ := Prod.mk.inj (Option.some.inj found)
      subst same
      exact ⟨indexed.remove isNode, indexed.free_remove isNode,
        fun _ has => indexed.not_free_remove isNode has, total_remove isNode⟩
    next differ =>
      split at found
      next =>
        obtain ⟨rfl, isRest⟩ := Prod.mk.inj (Option.some.inj found)
        have isStopOf : (space.nodes node).start + sizeInBytes +
            ((space.nodes node).sizeInBytes - sizeInBytes) = (space.nodes node).stop := by
          simp only [Extent.stop]
          omega
        have isInsert : rest = (space.remove node).insert node
            ⟨(space.nodes node).start + sizeInBytes,
              (space.nodes node).sizeInBytes - sizeInBytes⟩ := by
          rw [← isRest, FreeSpace.insert, FreeSpace.remove]
          simp only [Extent.stop, isStopOf]
          rw [show (space.nodes node).start + (space.nodes node).sizeInBytes =
            (space.nodes node).stop from rfl, mapAdd_mapRemove isStop]
        rw [isInsert]
        refine ⟨indexed.shrink isNode (by dsimp only; omega) ?_,
          indexed.splits_shrink isNode ?_ ?_ ?_⟩
        · simp only [Extent.stop]
          omega
        · intro address
          simp only [Extent.Has, Extent.stop]
          omega
        · intro address
          simp only [Extent.Has, Extent.stop]
          omega
        · dsimp only
          omega
      next =>
        obtain ⟨isResult, isRest⟩ := Prod.mk.inj (Option.some.inj found)
        have isStopOf : (space.nodes node).start + ((space.nodes node).sizeInBytes - sizeInBytes) =
            (space.nodes node).start + (space.nodes node).sizeInBytes - sizeInBytes := by
          omega
        have isInsert : rest = (space.remove node).insert node
            ⟨(space.nodes node).start, (space.nodes node).sizeInBytes - sizeInBytes⟩ := by
          rw [← isRest, FreeSpace.insert, FreeSpace.remove]
          simp only [Extent.stop, isStopOf, mapAdd_mapRemove isStart]
        rw [isInsert]
        refine ⟨indexed.shrink isNode (by dsimp only; omega) ?_,
          indexed.splits_shrink isNode ?_ ?_ ?_⟩
        · simp only [Extent.stop]
          omega
        · intro address
          simp only [Extent.Has, Extent.stop]
          omega
        · intro address
          simp only [Extent.Has, Extent.stop]
          omega
        · dsimp only
          omega

/-! ## Adding a block -/

/-- The grown block takes the place of the blocks it touches. -/
theorem Indexed.splits_insert {rest whole : FreeSpace} {added : Extent} (indexed : rest.Indexed)
    (isNew : node ∉ rest.sizeMap) (isUsed : node < rest.newNode) (positive : 0 < extent.sizeInBytes)
    (separated : ∀ other ∈ rest.sizeMap, extent.Separated (rest.nodes other))
    (notFree : ∀ address, added.Has address → ¬whole.Free address)
    (isPartition : ∀ address, rest.Free address ∨ extent.Has address ↔
      whole.Free address ∨ added.Has address)
    (sizes : rest.total + extent.sizeInBytes = whole.total + added.sizeInBytes) :
    (rest.insert node extent).Indexed ∧ Splits (rest.insert node extent) whole added := by
  refine ⟨indexed.insert isNew isUsed positive separated, ?_, notFree, ?_⟩
  · intro address
    rw [free_insert isNew, isPartition]
  · rw [total_insert isNew, sizes]

section Add

variable
  {start sizeInBytes leftNode rightNode : Nat}
  (indexed : space.Indexed)
  (positive : 0 < sizeInBytes)
  (notFree : ∀ address, (⟨start, sizeInBytes⟩ : Extent).Has address → ¬space.Free address)

include indexed positive notFree

/-- The new block lies on one side of every free block. -/
theorem Indexed.beside {other : Nat} (isOther : other ∈ space.sizeMap) :
    (space.nodes other).stop ≤ start ∨ start + sizeInBytes ≤ (space.nodes other).start := by
  have otherPositive := indexed.positive other isOther
  by_contra overlap
  refine notFree (max start (space.nodes other).start) ?_ ⟨other, isOther, ?_⟩
  · simp only [Extent.Has, Extent.stop] at *
    omega
  · simp only [Extent.Has, Extent.stop] at *
    omega

theorem addFreeSpace_between (isLeft : space.endAddressMap start = some leftNode)
    (isRight : space.startAddressMap (start + sizeInBytes) = some rightNode) :
    (space.addFreeSpace start sizeInBytes).Indexed ∧
      Splits (space.addFreeSpace start sizeInBytes) space ⟨start, sizeInBytes⟩ := by
  obtain ⟨isLeftNode, atStart⟩ := (indexed.stop_iff _ _).1 isLeft
  obtain ⟨isRightNode, atStop⟩ := (indexed.start_iff _ _).1 isRight
  have differ : rightNode ≠ leftNode := by
    rintro rfl
    simp only [Extent.stop] at atStart
    omega
  have withoutLeft := indexed.remove isLeftNode
  have isRightMem : rightNode ∈ (space.remove leftNode).sizeMap :=
    indexed.mem_remove.2 ⟨differ, isRightNode⟩
  have withoutBoth := withoutLeft.remove isRightMem
  have isNew : leftNode ∉ ((space.remove leftNode).remove rightNode).sizeMap := fun isMem =>
    indexed.notMem_remove (withoutLeft.mem_remove.1 isMem).2
  have isInsert : space.addFreeSpace start sizeInBytes =
      ((space.remove leftNode).remove rightNode).insert leftNode
        ⟨(space.nodes leftNode).start, (space.nodes leftNode).sizeInBytes +
          (sizeInBytes + (space.nodes rightNode).sizeInBytes)⟩ := by
    have startDiffer : start + sizeInBytes ≠ (space.nodes leftNode).start := by
      simp only [Extent.stop] at atStart
      omega
    have isLeftStart : mapRemove space.startAddressMap (start + sizeInBytes)
        (space.nodes leftNode).start = some leftNode :=
      mapRemove_eq_some.2 ⟨startDiffer.symm, (indexed.start_iff _ _).2 ⟨isLeftNode, rfl⟩⟩
    have commute : mapRemove (mapRemove space.startAddressMap (space.nodes leftNode).start)
        (start + sizeInBytes) =
        mapRemove (mapRemove space.startAddressMap (start + sizeInBytes))
          (space.nodes leftNode).start := Function.update_comm startDiffer.symm _ _ _
    have rightEnd : start + sizeInBytes + (space.nodes rightNode).sizeInBytes =
        (space.nodes rightNode).stop := by
      rw [← atStop]
      rfl
    have grownEnd : (⟨(space.nodes leftNode).start, (space.nodes leftNode).sizeInBytes +
        (sizeInBytes + (space.nodes rightNode).sizeInBytes)⟩ : Extent).stop =
        (space.nodes rightNode).stop := by
      simp only [Extent.stop] at atStart ⊢
      omega
    simp only [addFreeSpace, isLeft, isRight, FreeSpace.insert, FreeSpace.remove, atStop,
      commute, mapAdd_mapRemove isLeftStart, rightEnd, grownEnd]
  rw [isInsert]
  refine withoutBoth.splits_insert isNew (indexed.used leftNode isLeftNode)
    (by dsimp only; omega) ?_ notFree ?_ ?_
  · intro other isOther
    obtain ⟨notRight, isMem⟩ := withoutLeft.mem_remove.1 isOther
    obtain ⟨notLeft, isMember⟩ := indexed.mem_remove.1 isMem
    have fromLeft := indexed.separated other isMember leftNode isLeftNode notLeft
    have fromRight := indexed.separated other isMember rightNode isRightNode notRight
    have apart := indexed.beside positive notFree isMember
    change Extent.Separated _ (space.nodes other)
    simp only [Extent.Separated, Extent.stop] at *
    omega
  · intro address
    have isLeftFree := indexed.free_remove isLeftNode address
    have isRightFree := withoutLeft.free_remove isRightMem address
    rw [isLeftFree, isRightFree, or_assoc, or_assoc]
    refine or_congr_right ?_
    change _ ↔ (space.nodes rightNode).Has address ∨ _
    simp only [Extent.Has, Extent.stop] at *
    omega
  · have leftTotal := total_remove isLeftNode
    have rightTotal := total_remove isRightMem
    change _ = _ + (space.nodes rightNode).sizeInBytes at rightTotal
    dsimp only
    omega

theorem addFreeSpace_left (isLeft : space.endAddressMap start = some leftNode)
    (noRight : space.startAddressMap (start + sizeInBytes) = none) :
    (space.addFreeSpace start sizeInBytes).Indexed ∧
      Splits (space.addFreeSpace start sizeInBytes) space ⟨start, sizeInBytes⟩ := by
  obtain ⟨isLeftNode, atStart⟩ := (indexed.stop_iff _ _).1 isLeft
  have isNew : leftNode ∉ (space.remove leftNode).sizeMap := indexed.notMem_remove
  have isInsert : space.addFreeSpace start sizeInBytes = (space.remove leftNode).insert leftNode
        ⟨(space.nodes leftNode).start, (space.nodes leftNode).sizeInBytes + sizeInBytes⟩ := by
    have isLeftStart := (indexed.start_iff _ _).2 ⟨isLeftNode, rfl⟩
    have grownEnd : (space.nodes leftNode).start +
        ((space.nodes leftNode).sizeInBytes + sizeInBytes) = start + sizeInBytes := by
      simp only [Extent.stop] at atStart
      omega
    simp only [addFreeSpace, isLeft, noRight, FreeSpace.insert, FreeSpace.remove,
      mapAdd_mapRemove isLeftStart, Extent.stop, grownEnd]
  rw [isInsert]
  refine (indexed.remove isLeftNode).splits_insert isNew (indexed.used leftNode isLeftNode)
    (by dsimp only; omega) ?_ notFree ?_ ?_
  · intro other isOther
    obtain ⟨notLeft, isMember⟩ := indexed.mem_remove.1 isOther
    have fromLeft := indexed.separated other isMember leftNode isLeftNode notLeft
    have apart := indexed.beside positive notFree isMember
    have notAtStop : (space.nodes other).start ≠ start + sizeInBytes := by
      intro isAtStop
      have isRight := (indexed.start_iff _ _).2 ⟨isMember, isAtStop⟩
      rw [noRight] at isRight
      cases isRight
    change Extent.Separated _ (space.nodes other)
    simp only [Extent.Separated, Extent.stop] at *
    omega
  · intro address
    rw [indexed.free_remove isLeftNode address, or_assoc]
    refine or_congr_right ?_
    simp only [Extent.Has, Extent.stop] at *
    omega
  · have leftTotal := total_remove isLeftNode
    dsimp only
    omega

theorem addFreeSpace_right (noLeft : space.endAddressMap start = none)
    (isRight : space.startAddressMap (start + sizeInBytes) = some rightNode) :
    (space.addFreeSpace start sizeInBytes).Indexed ∧
      Splits (space.addFreeSpace start sizeInBytes) space ⟨start, sizeInBytes⟩ := by
  obtain ⟨isRightNode, atStop⟩ := (indexed.start_iff _ _).1 isRight
  have isNew : rightNode ∉ (space.remove rightNode).sizeMap := indexed.notMem_remove
  have isInsert : space.addFreeSpace start sizeInBytes = (space.remove rightNode).insert rightNode
        ⟨start, (space.nodes rightNode).sizeInBytes + sizeInBytes⟩ := by
    have isRightStop := (indexed.stop_iff _ _).2 ⟨isRightNode, rfl⟩
    have grownEnd : start + ((space.nodes rightNode).sizeInBytes + sizeInBytes) =
        (space.nodes rightNode).stop := by
      simp only [Extent.stop]
      omega
    rw [addFreeSpace]
    rw [noLeft, isRight, FreeSpace.insert, FreeSpace.remove, atStop]
    rw [show (⟨start, (space.nodes rightNode).sizeInBytes + sizeInBytes⟩ : Extent).stop =
      (space.nodes rightNode).stop from grownEnd, mapAdd_mapRemove isRightStop]
  rw [isInsert]
  refine (indexed.remove isRightNode).splits_insert isNew (indexed.used rightNode isRightNode)
    (by dsimp only; omega) ?_ notFree ?_ ?_
  · intro other isOther
    obtain ⟨notRight, isMember⟩ := indexed.mem_remove.1 isOther
    have fromRight := indexed.separated other isMember rightNode isRightNode notRight
    have apart := indexed.beside positive notFree isMember
    have notAtStart : (space.nodes other).stop ≠ start := by
      intro isAtStart
      have isLeft := (indexed.stop_iff _ _).2 ⟨isMember, isAtStart⟩
      rw [noLeft] at isLeft
      cases isLeft
    change Extent.Separated _ (space.nodes other)
    simp only [Extent.Separated, Extent.stop] at *
    omega
  · intro address
    rw [indexed.free_remove isRightNode address, or_assoc]
    refine or_congr_right ?_
    simp only [Extent.Has, Extent.stop] at *
    omega
  · have rightTotal := total_remove isRightNode
    dsimp only
    omega

theorem addFreeSpace_alone (noLeft : space.endAddressMap start = none)
    (noRight : space.startAddressMap (start + sizeInBytes) = none) :
    (space.addFreeSpace start sizeInBytes).Indexed ∧
      Splits (space.addFreeSpace start sizeInBytes) space ⟨start, sizeInBytes⟩ := by
  let allocated : FreeSpace := { space with newNode := space.newNode + 1 }
  have isNew : space.newNode ∉ allocated.sizeMap := fun isMem =>
    absurd (indexed.used _ isMem) (lt_irrefl _)
  have allocatedIndexed : allocated.Indexed :=
    { indexed with used := fun node isMem => (indexed.used node isMem).trans (Nat.lt_succ_self _) }
  have isInsert : space.addFreeSpace start sizeInBytes =
      allocated.insert space.newNode ⟨start, sizeInBytes⟩ := by
    simp only [addFreeSpace, noLeft, noRight]
    rfl
  rw [isInsert]
  refine allocatedIndexed.splits_insert isNew (Nat.lt_succ_self _) positive ?_ notFree
    (fun _ => Iff.rfl) rfl
  intro other isOther
  have apart := indexed.beside positive notFree isOther
  have notAtStart : (space.nodes other).stop ≠ start := by
    intro isAtStart
    have isLeft := (indexed.stop_iff _ _).2 ⟨isOther, isAtStart⟩
    rw [noLeft] at isLeft
    cases isLeft
  have notAtStop : (space.nodes other).start ≠ start + sizeInBytes := by
    intro isAtStop
    have isRight := (indexed.start_iff _ _).2 ⟨isOther, isAtStop⟩
    rw [noRight] at isRight
    cases isRight
  change Extent.Separated _ (space.nodes other)
  simp only [Extent.Separated, Extent.stop] at *
  omega

/-- A block that is not free is added to the free ones. -/
theorem addFreeSpace_spec : (space.addFreeSpace start sizeInBytes).Indexed ∧
      Splits (space.addFreeSpace start sizeInBytes) space ⟨start, sizeInBytes⟩ := by
  cases isLeft : space.endAddressMap start with
  | none =>
    cases isRight : space.startAddressMap (start + sizeInBytes) with
    | none => exact addFreeSpace_alone indexed positive notFree isLeft isRight
    | some rightNode => exact addFreeSpace_right indexed positive notFree isLeft isRight
  | some leftNode =>
    cases isRight : space.startAddressMap (start + sizeInBytes) with
    | none => exact addFreeSpace_left indexed positive notFree isLeft isRight
    | some rightNode => exact addFreeSpace_between indexed positive notFree isLeft isRight

end Add

end FreeSpace

end Memory
end PalmWebKit
