import PalmWebKit.Memory.MetaAllocator

/-!
# The counts of the pages

The loops over the pages of a block add one to their counts, or take one from them, and
keep the committed bytes those of the pages with a count.
-/

namespace PalmWebKit
namespace Memory

namespace Pages

variable (env : Platform)

/-- The map has the counts that are not 0, and these pages are committed. -/
structure Counted (pages : Pages) (count : Nat → Nat) : Prop where
  occupancy : ∀ page, pages.occupancyMap page =
    if count page = 0 then none else some (count page)
  committed : ∀ page, pages.committed page = true ↔ 0 < count page
  finite : {page | 0 < count page}.Finite
  bytesCommitted : pages.bytesCommitted = env.pageSize * {page | 0 < count page}.ncard

variable {env} {pages : Pages} {count : Nat → Nat} {page : Nat}

theorem Counted.congr {other : Nat → Nat} (counted : pages.Counted env count)
    (same : ∀ page, other page = count page) : pages.Counted env other := by
  rw [funext same]
  exact counted

/-! ## One page -/

theorem Counted.incrementPage (counted : pages.Counted env count) :
    (pages.incrementPage env page).Counted env
      (Function.update count page (count page + 1)) := by
  have occupancy := counted.occupancy page
  by_cases unused : count page = 0
  · rw [if_pos unused] at occupancy
    have notIn : page ∉ {page | 0 < count page} := by
      simp only [Set.mem_ofPred_eq]
      omega
    have used : {other | 0 < Function.update count page (count page + 1) other} =
        insert page {page | 0 < count page} := by
      ext other
      by_cases same : other = page
      · subst same
        simp
      · simp [same]
    simp only [Pages.incrementPage, occupancy]
    refine ⟨fun other => ?_, fun other => ?_, ?_, ?_⟩
    · by_cases same : other = page
      · subst same
        simp [unused]
      · simp [same, counted.occupancy]
    · by_cases same : other = page
      · subst same
        simp
      · simp [same, counted.committed]
    · rw [used]
      exact counted.finite.insert page
    · rw [used, Set.ncard_insert_of_notMem notIn counted.finite, counted.bytesCommitted,
        Nat.mul_succ]
  · rw [if_neg unused] at occupancy
    have used : {other | 0 < Function.update count page (count page + 1) other} =
        {page | 0 < count page} := by
      ext other
      by_cases same : other = page
      · subst same
        simp [Nat.pos_of_ne_zero unused]
      · simp [same]
    simp only [Pages.incrementPage, occupancy]
    refine ⟨fun other => ?_, fun other => ?_, ?_, ?_⟩
    · by_cases same : other = page
      · subst same
        simp
      · simp [same, counted.occupancy]
    · by_cases same : other = page
      · subst same
        simp [counted.committed, Nat.pos_of_ne_zero unused]
      · simp [same, counted.committed]
    · rw [used]
      exact counted.finite
    · rw [used, counted.bytesCommitted]

theorem Counted.decrementPage (counted : pages.Counted env count) (isUsed : 0 < count page) :
    (pages.decrementPage env page).Counted env
      (Function.update count page (count page - 1)) := by
  have occupancy := counted.occupancy page
  rw [if_neg isUsed.ne'] at occupancy
  by_cases isLast : count page - 1 = 0
  · have isIn : page ∈ {page | 0 < count page} := isUsed
    have used : {other | 0 < Function.update count page (count page - 1) other} =
        {page | 0 < count page} \ {page} := by
      ext other
      by_cases same : other = page
      · subst same
        simp [isLast]
      · simp [same]
    simp only [Pages.decrementPage, occupancy, if_pos isLast]
    refine ⟨fun other => ?_, fun other => ?_, ?_, ?_⟩
    · by_cases same : other = page
      · subst same
        simp [isLast]
      · simp [same, counted.occupancy]
    · by_cases same : other = page
      · subst same
        simp [isLast]
      · simp [same, counted.committed]
    · rw [used]
      exact counted.finite.sdiff
    · rw [used, counted.bytesCommitted, ← Set.ncard_sdiff_singleton_add_one isIn counted.finite,
        Nat.mul_succ, Nat.add_sub_cancel]
  · have used : {other | 0 < Function.update count page (count page - 1) other} =
        {page | 0 < count page} := by
      ext other
      by_cases same : other = page
      · subst same
        simp [Nat.pos_of_ne_zero isLast, isUsed]
      · simp [same]
    simp only [Pages.decrementPage, occupancy, if_neg isLast]
    refine ⟨fun other => ?_, fun other => ?_, ?_, ?_⟩
    · by_cases same : other = page
      · subst same
        simp [isLast]
      · simp [same, counted.occupancy]
    · by_cases same : other = page
      · subst same
        simp [counted.committed, Nat.pos_of_ne_zero isLast, isUsed]
      · simp [same, counted.committed]
    · rw [used]
      exact counted.finite
    · rw [used, counted.bytesCommitted]

/-! ## Loops over pages -/

theorem Counted.incrementPages {loop : List Nat} (nodup : loop.Nodup)
    (counted : pages.Counted env count) :
    (loop.foldl (Pages.incrementPage env) pages).Counted env
      fun page => count page + if page ∈ loop then 1 else 0 := by
  induction loop generalizing pages count with
  | nil => exact counted.congr fun page => by simp
  | cons first later ih =>
    obtain ⟨isNew, laterNodup⟩ := List.nodup_cons.1 nodup
    refine (ih laterNodup counted.incrementPage).congr fun page => ?_
    by_cases same : page = first
    · subst same
      simp [isNew]
    · simp [same]

theorem Counted.decrementPages {loop : List Nat} (nodup : loop.Nodup)
    (counted : pages.Counted env count) (isUsed : ∀ page ∈ loop, 0 < count page) :
    (loop.foldl (Pages.decrementPage env) pages).Counted env
      fun page => count page - if page ∈ loop then 1 else 0 := by
  induction loop generalizing pages count with
  | nil => exact counted.congr fun page => by simp
  | cons first later ih =>
    obtain ⟨isNew, laterNodup⟩ := List.nodup_cons.1 nodup
    obtain ⟨firstUsed, laterUsed⟩ := List.forall_mem_cons.1 isUsed
    refine (ih laterNodup (counted.decrementPage firstUsed)
      fun page isLater => ?_).congr fun page => ?_
    · rw [Function.update_of_ne (ne_of_mem_of_not_mem isLater isNew)]
      exact laterUsed page isLater
    · by_cases same : page = first
      · subst same
        simp [isNew]
      · simp [same]

theorem nodup_pageLoop (firstPage lastPage : Nat) : (pageLoop firstPage lastPage).Nodup :=
  List.nodup_range'

theorem mem_pageLoop {firstPage lastPage : Nat} :
    page ∈ pageLoop firstPage lastPage ↔ firstPage ≤ page ∧ page ≤ lastPage := by
  rw [pageLoop, List.mem_range'_1]
  omega

end Pages

/-! ## Blocks on pages -/

/-- The block has an address on the page. -/
def Extent.overlapsPage (env : Platform) (page : Nat) (extent : Extent) : Bool :=
  0 < extent.sizeInBytes && extent.start < (page + 1) * env.pageSize &&
    page * env.pageSize < extent.stop

theorem Platform.pageSize_pos (env : Platform) : 0 < env.pageSize := Nat.two_pow_pos _

namespace Extent

variable {env : Platform} {extent : Extent} {page : Nat}

theorem overlapsPage_of_size_eq_zero
    (isEmpty : extent.sizeInBytes = 0) : extent.overlapsPage env page = false := by
  simp [overlapsPage, isEmpty]

theorem overlapsPage_iff (positive : 0 < extent.sizeInBytes) :
    extent.overlapsPage env page = true ↔ extent.start / env.pageSize ≤ page ∧
        page ≤ (extent.start + extent.sizeInBytes - 1) / env.pageSize := by
  have pagePositive := env.pageSize_pos
  rw [← Nat.lt_succ_iff, Nat.div_lt_iff_lt_mul pagePositive, Nat.le_div_iff_mul_le pagePositive]
  simp only [overlapsPage, Bool.and_eq_true, decide_eq_true_eq, positive, true_and]
  simp only [Extent.stop, Nat.succ_eq_add_one]
  omega

end Extent

/-- The number of blocks on a page. -/
def occupants (env : Platform) (handles : List Extent) (page : Nat) : Nat :=
  handles.countP (Extent.overlapsPage env page)

section Occupants

variable
  {env : Platform}
  {pages : Pages}
  {handle : Extent}
  {handles : List Extent}

theorem occupants_cons (page : Nat) :
    occupants env (handle :: handles) page = occupants env handles page +
        if handle.overlapsPage env page = true then 1 else 0 := List.countP_cons

/-- The pages of a block that does not reach the end of the address space. -/
theorem mem_pageLoop_iff {address sizeInBytes page : Nat} (positive : 0 < sizeInBytes)
    (fits : address + sizeInBytes ≤ 2 ^ env.bits) :
    page ∈ Pages.pageLoop (address / env.pageSize)
        (env.wrap (address + sizeInBytes - 1) / env.pageSize) ↔
      Extent.overlapsPage env page ⟨address, sizeInBytes⟩ = true := by
  have notWrapped : env.wrap (address + sizeInBytes - 1) = address + sizeInBytes - 1 :=
    Nat.mod_eq_of_lt (by omega)
  rw [Pages.mem_pageLoop, notWrapped, Extent.overlapsPage_iff positive]

theorem counted_incrementPageOccupancy (positive : 0 < handle.sizeInBytes)
    (fits : handle.stop ≤ 2 ^ env.bits)
    (counted : pages.Counted env (occupants env handles)) :
    (pages.incrementPageOccupancy env handle.start handle.sizeInBytes).Counted env
      (occupants env (handle :: handles)) := by
  refine (counted.incrementPages (Pages.nodup_pageLoop _ _)).congr fun page => ?_
  rw [occupants_cons]
  simp only [mem_pageLoop_iff positive fits]

/-- The block that is taken from the pages is what the handle has on them and the other
one, which takes its place, has not. -/
theorem counted_decrementPageOccupancy {freed other : Extent} (positive : 0 < freed.sizeInBytes)
    (fits : freed.stop ≤ 2 ^ env.bits)
    (isDifference : ∀ page, handle.overlapsPage env page = true ↔
      other.overlapsPage env page = true ∨ freed.overlapsPage env page = true)
    (apart : ∀ page, freed.overlapsPage env page = true →
      ¬other.overlapsPage env page = true)
    (counted : pages.Counted env (occupants env (handle :: handles))) :
    (pages.decrementPageOccupancy env freed.start freed.sizeInBytes).Counted env
      (occupants env (other :: handles)) := by
  refine (counted.decrementPages (Pages.nodup_pageLoop _ _) fun page isPage => ?_).congr
    fun page => ?_
  · rw [mem_pageLoop_iff positive fits] at isPage
    rw [occupants_cons, if_pos ((isDifference page).2 (Or.inr isPage))]
    exact Nat.succ_pos _
  · rw [occupants_cons, occupants_cons]
    simp only [mem_pageLoop_iff positive fits, isDifference]
    have notBoth := apart page
    by_cases isFreed : freed.overlapsPage env page = true
    · simp [isFreed, notBoth isFreed]
    · simp [isFreed]

end Occupants

end Memory
end PalmWebKit
