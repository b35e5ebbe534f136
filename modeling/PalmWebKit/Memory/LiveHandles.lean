import PalmWebKit.Memory.FreeSpace
import PalmWebKit.Memory.PageOccupancy

/-!
# Handles and free blocks

The free blocks and the blocks that are handed out share the reserved space.  Blocks are
taken from the free ones, split, and given back.
-/

namespace PalmWebKit
namespace Memory

open List

/-- The blocks have no common address. -/
def Extent.Disjoint (extent other : Extent) : Prop :=
  ∀ address, extent.Has address → ¬other.Has address

theorem Extent.Disjoint.symm {extent other : Extent}
    (disjoint : extent.Disjoint other) : other.Disjoint extent :=
  fun address otherHas has => disjoint address has otherHas

/-- The sum of the sizes of blocks. -/
def totalSize (blocks : List Extent) : Nat := (blocks.map Extent.sizeInBytes).sum

theorem totalSize_cons (block : Extent) (blocks : List Extent) :
    totalSize (block :: blocks) = block.sizeInBytes + totalSize blocks := sum_cons

/-- The free space and the other blocks are the reserved space. -/
structure Covers (space : FreeSpace) (blocks reserved : List Extent) : Prop where
  indexed : space.Indexed
  disjoint : blocks.Pairwise Extent.Disjoint
  notFree : ∀ block ∈ blocks, ∀ address, block.Has address → ¬space.Free address
  covers : ∀ address, (space.Free address ∨ ∃ block ∈ blocks, block.Has address) ↔
    ∃ range ∈ reserved, range.Has address
  sizes : space.total + totalSize blocks = totalSize reserved

namespace Covers

variable
  {space rest : FreeSpace}
  {block : Extent}
  {blocks reserved : List Extent}

theorem perm {other : List Extent} (covers : Covers space blocks reserved)
    (permutation : blocks.Perm other) : Covers space other reserved := by
  refine ⟨covers.indexed, ?_, ?_, ?_, ?_⟩
  · exact (permutation.pairwise_iff Extent.Disjoint.symm).1 covers.disjoint
  · exact fun block isMem => covers.notFree block (permutation.mem_iff.2 isMem)
  · intro address
    rw [← covers.covers]
    simp only [permutation.mem_iff]
  · rw [← covers.sizes, totalSize, totalSize, (permutation.map _).sum_eq]

/-- A block is taken from the free ones. -/
theorem take (covers : Covers space blocks reserved) (indexed : rest.Indexed)
    (splits : space.Splits rest block) : Covers rest (block :: blocks) reserved := by
  have isFree : ∀ address, block.Has address → space.Free address :=
    fun address has => (splits.free address).2 (.inr has)
  refine ⟨indexed, pairwise_cons.2 ⟨fun other isOther address has otherHas =>
    covers.notFree other isOther address otherHas (isFree address has), covers.disjoint⟩,
    forall_mem_cons.2 ⟨splits.apart, fun other isOther address has restFree =>
      covers.notFree other isOther address has ((splits.free address).2 (.inl restFree))⟩,
    fun address => ?_, ?_⟩
  · rw [← covers.covers, splits.free, exists_mem_cons_iff, or_assoc]
  · rw [← covers.sizes, splits.total, totalSize_cons, Nat.add_assoc]

/-- A block becomes free. -/
theorem free (covers : Covers space (block :: blocks) reserved) (positive : 0 < block.sizeInBytes) :
    Covers (space.addFreeSpace block.start block.sizeInBytes) blocks reserved := by
  obtain ⟨apart, disjoint⟩ := pairwise_cons.1 covers.disjoint
  obtain ⟨notFree, othersNotFree⟩ := forall_mem_cons.1 covers.notFree
  obtain ⟨indexed, splits⟩ := FreeSpace.addFreeSpace_spec covers.indexed positive notFree
  refine ⟨indexed, disjoint, fun other isOther address has isFree => ?_, fun address => ?_, ?_⟩
  · rcases (splits.free address).1 isFree with wasFree | isBlock
    · exact othersNotFree other isOther address has wasFree
    · exact apart other isOther address isBlock has
  · rw [← covers.covers, splits.free, exists_mem_cons_iff, or_assoc]
  · rw [← covers.sizes, splits.total, totalSize_cons, Nat.add_assoc]

/-- A block without addresses is forgotten. -/
theorem forget (covers : Covers space (block :: blocks) reserved)
    (isEmpty : block.sizeInBytes = 0) : Covers space blocks reserved := by
  have hasNone : ∀ address, ¬block.Has address := by
    intro address
    simp only [Extent.Has, Extent.stop]
    omega
  refine ⟨covers.indexed, (pairwise_cons.1 covers.disjoint).2,
    (forall_mem_cons.1 covers.notFree).2, fun address => ?_, ?_⟩
  · rw [← covers.covers, exists_mem_cons_iff, or_iff_right (hasNone address)]
  · rw [← covers.sizes, totalSize_cons, isEmpty, Nat.zero_add]

/-- A block is split in two. -/
theorem split {start sizeInBytes kept : Nat}
    (covers : Covers space (⟨start, sizeInBytes⟩ :: blocks) reserved) (fits : kept ≤ sizeInBytes) :
    Covers space (⟨start + kept, sizeInBytes - kept⟩ :: ⟨start, kept⟩ :: blocks) reserved := by
  obtain ⟨apart, disjoint⟩ := pairwise_cons.1 covers.disjoint
  obtain ⟨notFree, othersNotFree⟩ := forall_mem_cons.1 covers.notFree
  have isPartition : ∀ address, (⟨start, sizeInBytes⟩ : Extent).Has address ↔
      (⟨start + kept, sizeInBytes - kept⟩ : Extent).Has address ∨
        (⟨start, kept⟩ : Extent).Has address := by
    intro address
    simp only [Extent.Has, Extent.stop]
    omega
  refine ⟨covers.indexed, ?_, ?_, fun address => ?_, ?_⟩
  · refine pairwise_cons.2 ⟨forall_mem_cons.2 ⟨?_, ?_⟩,
      pairwise_cons.2 ⟨?_, disjoint⟩⟩
    · intro address
      simp only [Extent.Has, Extent.stop]
      omega
    · exact fun other isOther address has =>
        apart other isOther address ((isPartition address).2 (.inl has))
    · exact fun other isOther address has =>
        apart other isOther address ((isPartition address).2 (.inr has))
  · exact forall_mem_cons.2
      ⟨fun address has => notFree address ((isPartition address).2 (.inl has)),
        forall_mem_cons.2
          ⟨fun address has => notFree address ((isPartition address).2 (.inr has)),
            othersNotFree⟩⟩
  · rw [← covers.covers, exists_mem_cons_iff, exists_mem_cons_iff,
      exists_mem_cons_iff, isPartition, or_assoc]
  · rw [← covers.sizes, totalSize_cons, totalSize_cons, totalSize_cons]
    dsimp only
    omega

/-- New space is reserved. -/
theorem reserve (covers : Covers space blocks reserved)
    (isFresh : ∀ range ∈ reserved, block.Disjoint range) :
    Covers space (block :: blocks) (block :: reserved) := by
  have isReserved : ∀ address, (space.Free address ∨ ∃ block ∈ blocks, block.Has address) →
      ¬block.Has address := by
    intro address isCovered has
    obtain ⟨range, isRange, rangeHas⟩ := (covers.covers address).1 isCovered
    exact isFresh range isRange address has rangeHas
  refine ⟨covers.indexed, pairwise_cons.2 ⟨fun other isOther address has otherHas =>
    isReserved address (.inr ⟨other, isOther, otherHas⟩) has, covers.disjoint⟩,
    forall_mem_cons.2 ⟨fun address has isFree => isReserved address (.inl isFree) has,
      covers.notFree⟩, fun address => ?_, ?_⟩
  · rw [exists_mem_cons_iff, exists_mem_cons_iff, ← covers.covers, or_left_comm]
  · rw [totalSize_cons, totalSize_cons, ← covers.sizes, Nat.add_left_comm]

/-- A block is inside the limits of the reserved space. -/
theorem stop_le {limit : Nat} (covers : Covers space blocks reserved)
    (inside : ∀ range ∈ reserved, range.stop ≤ limit) (isBlock : block ∈ blocks)
    (positive : 0 < block.sizeInBytes) : block.stop ≤ limit := by
  have hasLast : block.Has (block.stop - 1) := by
    simp only [Extent.Has, Extent.stop]
    omega
  obtain ⟨range, isRange, rangeHas⟩ := (covers.covers _).1 (.inr ⟨block, isBlock, hasLast⟩)
  have isInside := inside range isRange
  have isBefore := rangeHas.2
  omega

end Covers

/-! ## Rounding -/

section Rounding

variable {env : Platform} {sizeInBytes rounded : Nat}

theorem Platform.granule_pos (env : Platform) : 0 < env.allocationGranule :=
  Nat.two_pow_pos _

/-- The least number of granules that is not less. -/
theorem roundUp_spec (isRounded : env.roundUp sizeInBytes = some rounded) :
    sizeInBytes ≤ rounded ∧ env.allocationGranule ∣ rounded ∧ rounded < 2 ^ env.bits ∧
      ∀ size, env.allocationGranule ∣ size → sizeInBytes ≤ size → rounded ≤ size := by
  have positive := env.granule_pos
  unfold Platform.roundUp at isRounded
  split at isRounded
  next => cases isRounded
  next fits =>
    obtain rfl := Option.some.inj isRounded
    have isDivided := Nat.div_add_mod' (sizeInBytes + env.allocationGranule - 1)
      env.allocationGranule
    have isLess := Nat.mod_lt (sizeInBytes + env.allocationGranule - 1) positive
    refine ⟨by omega, Nat.dvd_mul_left _ _, by omega, fun size isMultiple isAtLeast => ?_⟩
    obtain ⟨count, rfl⟩ := isMultiple
    rw [Nat.mul_comm env.allocationGranule count] at *
    refine Nat.mul_le_mul_right _ (Nat.lt_succ_iff.1 ?_)
    rw [Nat.div_lt_iff_lt_mul positive, Nat.succ_mul]
    omega

end Rounding

end Memory
end PalmWebKit
