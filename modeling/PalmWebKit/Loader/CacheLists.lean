import PalmWebKit.Loader.CacheOperations

/-!
# The lists and the totals of the memory cache

Three facts about a cache, each relative to a set of resources: the LRU lists hold
the set, the list of live decoded resources is the set, and the totals count the
set.  Between two steps of one operation the three sets differ, and every step of
the source changes one of them by one resource.
-/

namespace PalmWebKit
namespace Loader
namespace MemoryCache

open List Logic.IntrusiveList

/-- The sequences of the LRU lists, one for each size class. -/
structure Queues (cache : MemoryCache) (listed : Finset Address)
    (queue : Nat → List Address) : Prop where
  represents : ∀ index, Represents cache.allLinks (cache.lruList index) (queue index)
  mem_iff : ∀ index address, address ∈ queue index ↔
      address ∈ listed ∧ queueIndex (cache.resource address) = index
  unlinked : ∀ address, address ∉ listed → Unlinked cache.allLinks address
  accessed : ∀ address ∈ listed, (cache.resource address).accessCount ≠ 0

/-- The LRU lists hold exactly the resources of `listed`, each in its own list. -/
def Queued (cache : MemoryCache) (listed : Finset Address) : Prop :=
  ∃ queue, Queues cache listed queue

/-- The list of live decoded resources is `tracked`, in the order of `nodes`. -/
structure Tracks (cache : MemoryCache) (tracked : Finset Address)
    (nodes : List Address) : Prop where
  represents : Represents cache.liveLinks cache.liveDecodedResources nodes
  mem_iff : ∀ address, address ∈ nodes ↔ address ∈ tracked
  flag_iff : ∀ address,
    (cache.resource address).inLiveDecodedResourcesList = true ↔ address ∈ tracked
  unlinked : ∀ address, address ∉ tracked → Unlinked cache.liveLinks address

/-- The list of live decoded resources holds exactly `tracked`. -/
def Tracked (cache : MemoryCache) (tracked : Finset Address) : Prop :=
  ∃ nodes, Tracks cache tracked nodes

/-- What one resource adds to the live or to the dead total. -/
def share (live : Bool) (resource : CachedResource) : UInt32 :=
  if resource.hasClients = live then resource.size else 0

def total (cache : MemoryCache) (counted : Finset Address) (live : Bool) : UInt32 :=
  ∑ address ∈ counted, share live (cache.resource address)

/-- The two totals count exactly `counted`. -/
structure Counted (cache : MemoryCache) (counted : Finset Address) : Prop where
  liveSize_eq : cache.liveSize = cache.total counted true
  deadSize_eq : cache.deadSize = cache.total counted false

/-! ## What each step leaves alone -/

section Frames

variable (cache : MemoryCache) (address : Address)

variable (change : CachedResource → CachedResource)
include change

@[simp]
theorem update_resource (other : Address) :
    (cache.update address change).resource other =
      if other = address then change (cache.resource address) else cache.resource other := by
  simp [update, Function.update_apply]

@[simp]
theorem update_lruList :
    (cache.update address change).lruList = cache.lruList := rfl

@[simp]
theorem update_frame : (cache.update address change).allLinks = cache.allLinks ∧
    (cache.update address change).liveLinks = cache.liveLinks ∧
    (cache.update address change).liveDecodedResources = cache.liveDecodedResources ∧
    (cache.update address change).liveSize = cache.liveSize ∧
    (cache.update address change).deadSize = cache.deadSize ∧
    (cache.update address change).created = cache.created := ⟨rfl, rfl, rfl, rfl, rfl, rfl⟩

omit change

@[simp]
theorem insertInLRUList_frame : (cache.insertInLRUList address).resource = cache.resource ∧
    (cache.insertInLRUList address).liveLinks = cache.liveLinks ∧
    (cache.insertInLRUList address).liveDecodedResources = cache.liveDecodedResources ∧
    (cache.insertInLRUList address).liveSize = cache.liveSize ∧
    (cache.insertInLRUList address).deadSize = cache.deadSize ∧
    (cache.insertInLRUList address).created = cache.created :=
  ⟨rfl, rfl, rfl, rfl, rfl, rfl⟩

@[simp]
theorem removeFromLRUList_frame : (cache.removeFromLRUList address).resource = cache.resource ∧
    (cache.removeFromLRUList address).liveLinks = cache.liveLinks ∧
    (cache.removeFromLRUList address).liveDecodedResources = cache.liveDecodedResources ∧
    (cache.removeFromLRUList address).liveSize = cache.liveSize ∧
    (cache.removeFromLRUList address).deadSize = cache.deadSize ∧
    (cache.removeFromLRUList address).created = cache.created := by
  unfold removeFromLRUList
  split <;> exact ⟨rfl, rfl, rfl, rfl, rfl, rfl⟩

@[simp]
theorem insertInLive_resource (other : Address) :
    (cache.insertInLiveDecodedResourcesList address).resource other =
      if other = address then
        { cache.resource address with inLiveDecodedResourcesList := true }
      else cache.resource other := by
  simp [insertInLiveDecodedResourcesList]

@[simp]
theorem insertInLive_frame : (cache.insertInLiveDecodedResourcesList address).allLinks = cache.allLinks ∧
    (cache.insertInLiveDecodedResourcesList address).lruList = cache.lruList ∧
    (cache.insertInLiveDecodedResourcesList address).liveSize = cache.liveSize ∧
    (cache.insertInLiveDecodedResourcesList address).deadSize = cache.deadSize ∧
    (cache.insertInLiveDecodedResourcesList address).created = cache.created :=
  ⟨rfl, rfl, rfl, rfl, rfl⟩

@[simp]
theorem removeFromLive_resource (other : Address) :
    (cache.removeFromLiveDecodedResourcesList address).resource other =
      if other = address then
        { cache.resource address with inLiveDecodedResourcesList := false }
      else cache.resource other := by
  unfold removeFromLiveDecodedResourcesList
  split
  · simp
  · rename_i unmarked
    split
    · rename_i same
      subst same
      rw [Bool.not_eq_true] at unmarked
      rw [← unmarked]
    · rfl

@[simp]
theorem removeFromLive_frame : (cache.removeFromLiveDecodedResourcesList address).allLinks = cache.allLinks ∧
    (cache.removeFromLiveDecodedResourcesList address).lruList = cache.lruList ∧
    (cache.removeFromLiveDecodedResourcesList address).liveSize = cache.liveSize ∧
    (cache.removeFromLiveDecodedResourcesList address).deadSize = cache.deadSize ∧
    (cache.removeFromLiveDecodedResourcesList address).created = cache.created := by
  unfold removeFromLiveDecodedResourcesList
  split <;> exact ⟨rfl, rfl, rfl, rfl, rfl⟩

variable (live : Bool)
include live

@[simp]
theorem adjustSize_resource (delta : UInt32) :
    (cache.adjustSize live delta).resource = cache.resource := by
  unfold adjustSize
  split <;> rfl

@[simp]
theorem adjustSize_allLinks (delta : UInt32) :
    (cache.adjustSize live delta).allLinks = cache.allLinks := by
  unfold adjustSize
  split <;> rfl

@[simp]
theorem adjustSize_lruList (delta : UInt32) :
    (cache.adjustSize live delta).lruList = cache.lruList := by
  unfold adjustSize
  split <;> rfl

@[simp]
theorem adjustSize_liveLinks (delta : UInt32) :
    (cache.adjustSize live delta).liveLinks = cache.liveLinks := by
  unfold adjustSize
  split <;> rfl

@[simp]
theorem adjustSize_liveDecodedResources (delta : UInt32) :
    (cache.adjustSize live delta).liveDecodedResources = cache.liveDecodedResources := by
  unfold adjustSize
  split <;> rfl

@[simp]
theorem adjustSize_created (delta : UInt32) :
    (cache.adjustSize live delta).created = cache.created := by
  unfold adjustSize
  split <;> rfl

@[simp]
theorem adjustSize_liveSize (delta : UInt32) :
    (cache.adjustSize live delta).liveSize =
      cache.liveSize + if live = true then delta else 0 := by
  cases live <;> simp [adjustSize]

@[simp]
theorem adjustSize_deadSize (delta : UInt32) :
    (cache.adjustSize live delta).deadSize =
      cache.deadSize + if live = false then delta else 0 := by
  cases live <;> simp [adjustSize]

end Frames

/-! ## The LRU lists -/

@[simp]
theorem lruList_growFor (cache : MemoryCache) (address : Address) (index : Nat) :
    (cache.growFor address).lruList index = cache.lruList index := by
  unfold lruList growFor
  by_cases inside : index < cache.allResources.length
  · simp only [getElem?_append_left inside]
  · rw [not_lt] at inside
    simp only [getElem?_append_right inside, getElem?_replicate,
      getElem?_eq_none inside]
    split <;> rfl

theorem queueIndex_lt_growFor (cache : MemoryCache) (address : Address) :
    queueIndex (cache.resource address) < (cache.growFor address).allResources.length := by
  simp only [growFor, length_append, length_replicate]
  omega

theorem lruList_setLruList (cache : MemoryCache) (address : Address)
    (changed : Links Address × Ends Address) (index : Nat) :
    ((cache.growFor address).setLruList address changed).lruList index =
      if index = queueIndex (cache.resource address) then changed.2
      else cache.lruList index := by
  have inside := queueIndex_lt_growFor cache address
  rw [← lruList_growFor cache address index]
  simp only [setLruList, lruList, getElem?_set]
  have sameResource : (cache.growFor address).resource = cache.resource := rfl
  rw [sameResource]
  by_cases same : index = queueIndex (cache.resource address)
  · simp [same, inside]
  · simp [same, Ne.symm same]

variable {listed : Finset Address}

/-- The lists depend on the size and the access count of their members. -/
theorem Queued.congr {cache other : MemoryCache} (queued : Queued cache listed)
    (sameLinks : other.allLinks = cache.allLinks) (sameLists : other.lruList = cache.lruList)
    (sameSize : ∀ address ∈ listed, (other.resource address).size = (cache.resource address).size)
    (sameCount : ∀ address ∈ listed,
      (other.resource address).accessCount = (cache.resource address).accessCount) :
    Queued other listed := by
  obtain ⟨queue, queues⟩ := queued
  refine ⟨queue, ⟨fun index => ?_, fun index address => ?_, fun address outside => ?_,
    fun address member => ?_⟩⟩
  · rw [sameLinks, sameLists]
    exact queues.represents index
  · rw [queues.mem_iff]
    refine and_congr_right (fun member => ?_)
    rw [queueIndex, queueIndex, sameSize address member, sameCount address member]
  · rw [sameLinks]
    exact queues.unlinked address outside
  · rw [sameCount address member]
    exact queues.accessed address member

variable
  {cache : MemoryCache}
  {address : Address}

/-- Two queues share no member. -/
theorem Queues.not_mem_of_ne {queue : Nat → List Address} (queues : Queues cache listed queue)
    {first second : Nat} (ne : first ≠ second) (member : address ∈ queue first) :
    address ∉ queue second := by
  intro other
  exact ne (((queues.mem_iff _ _).1 member).2.symm.trans ((queues.mem_iff _ _).1 other).2)

/-- Removal takes one resource out of the lists. -/
theorem Queued.removeFromLRUList (queued : Queued cache listed) (address : Address) :
    Queued (cache.removeFromLRUList address) (listed.erase address) := by
  obtain ⟨queue, queues⟩ := queued
  unfold MemoryCache.removeFromLRUList
  by_cases untouched : (cache.resource address).accessCount = 0
  · have outside : address ∉ listed := fun member => queues.accessed address member untouched
    rw [if_pos untouched, Finset.erase_eq_of_notMem outside]
    exact ⟨queue, queues⟩
  rw [if_neg untouched]
  let index := queueIndex (cache.resource address)
  have represents := queues.represents index
  have removedEq : remove (cache.growFor address).allLinks
      ((cache.growFor address).lruList (queueIndex ((cache.growFor address).resource address)))
      address = remove cache.allLinks (cache.lruList index) address := by
    rw [lruList_growFor]
    rfl
  dsimp only
  rw [removedEq]
  by_cases member : address ∈ listed
  · have inQueue : address ∈ queue index := (queues.mem_iff _ _).2 ⟨member, rfl⟩
    refine ⟨Function.update queue index ((queue index).erase address), ?_, ?_, ?_, ?_⟩
    · intro other
      rw [lruList_setLruList]
      by_cases same : other = index
      · subst same
        rw [if_pos rfl, Function.update_self]
        exact represents.remove inQueue
      · rw [if_neg same, Function.update_of_ne same]
        refine (queues.represents other).congr (fun node inOther => ?_)
          (fun node inOther => ?_)
        · exact (represents.remove_links_of_not_mem inQueue (queues.not_mem_of_ne same inOther)).1
        · exact (represents.remove_links_of_not_mem inQueue (queues.not_mem_of_ne same inOther)).2
    · intro other node
      by_cases same : other = index
      · subst same
        rw [Function.update_self, represents.nodup.mem_erase_iff, queues.mem_iff, Finset.mem_erase]
        tauto
      · rw [Function.update_of_ne same, queues.mem_iff, Finset.mem_erase]
        constructor
        · rintro ⟨inListed, indexEq⟩
          refine ⟨⟨?_, inListed⟩, indexEq⟩
          rintro rfl
          exact same indexEq.symm
        · rintro ⟨⟨_, inListed⟩, indexEq⟩
          exact ⟨inListed, indexEq⟩
    · intro node outside
      by_cases same : node = address
      · subst same
        exact represents.unlinked_remove inQueue
      · have notListed : node ∉ listed := fun inListed =>
          outside (Finset.mem_erase.2 ⟨same, inListed⟩)
        have notQueued : node ∉ queue index := fun inOther =>
          notListed ((queues.mem_iff _ _).1 inOther).1
        have kept := represents.remove_links_of_not_mem inQueue notQueued
        exact ⟨kept.1.trans (queues.unlinked node notListed).1,
          kept.2.trans (queues.unlinked node notListed).2⟩
    · intro node inErased
      exact queues.accessed node (Finset.mem_of_mem_erase inErased)
  · -- the early return of the source: no links, and not the head of this list
    have notHead : (cache.lruList index).head ≠ some address := by
      rw [represents.head_eq]
      intro equal
      exact member ((queues.mem_iff _ _).1 (mem_of_mem_head? equal)).1
    rw [Finset.erase_eq_of_notMem member,
      remove_of_unlinked (queues.unlinked address member) notHead]
    refine Queued.congr ⟨queue, queues⟩ rfl ?_ (fun _ _ => rfl) (fun _ _ => rfl)
    funext other
    rw [lruList_setLruList]
    split
    · rename_i same
      rw [same]
    · rfl

/-- Insertion puts one more resource into the list of its size class. -/
theorem Queued.insertInLRUList (queued : Queued cache listed) (outside : address ∉ listed)
    (accessed : (cache.resource address).accessCount ≠ 0) :
    Queued (cache.insertInLRUList address) (insert address listed) := by
  obtain ⟨queue, queues⟩ := queued
  let index := queueIndex (cache.resource address)
  have represents := queues.represents index
  have notQueued : ∀ other, address ∉ queue other := fun other inOther =>
    outside ((queues.mem_iff _ _).1 inOther).1
  have insertedEq : insertFront (cache.growFor address).allLinks
      ((cache.growFor address).lruList (queueIndex ((cache.growFor address).resource address)))
      address = insertFront cache.allLinks (cache.lruList index) address := by
    rw [lruList_growFor]
    rfl
  unfold MemoryCache.insertInLRUList
  dsimp only
  rw [insertedEq]
  refine ⟨Function.update queue index (address :: queue index), ?_, ?_, ?_, ?_⟩
  · intro other
    rw [lruList_setLruList]
    by_cases same : other = index
    · subst same
      rw [if_pos rfl, Function.update_self]
      exact represents.insertFront (queues.unlinked address outside) (notQueued _)
    · rw [if_neg same, Function.update_of_ne same]
      refine (queues.represents other).congr (fun node inOther => ?_) (fun node inOther => ?_)
      · have ne : node ≠ address := fun equal => notQueued other (equal ▸ inOther)
        exact insertFront_next_of_ne ne
      · exact represents.insertFront_prev_of_not_mem address
          (queues.not_mem_of_ne same inOther)
  · intro other node
    rw [Finset.mem_insert]
    by_cases same : other = index
    · subst same
      rw [Function.update_self, mem_cons, queues.mem_iff]
      constructor
      · rintro (rfl | ⟨inListed, indexEq⟩)
        · exact ⟨.inl rfl, rfl⟩
        · exact ⟨.inr inListed, indexEq⟩
      · rintro ⟨rfl | inListed, indexEq⟩
        · exact .inl rfl
        · exact .inr ⟨inListed, indexEq⟩
    · rw [Function.update_of_ne same, queues.mem_iff]
      constructor
      · rintro ⟨inListed, indexEq⟩
        exact ⟨.inr inListed, indexEq⟩
      · rintro ⟨rfl | inListed, indexEq⟩
        · exact absurd indexEq.symm same
        · exact ⟨inListed, indexEq⟩
  · intro node notInserted
    rw [Finset.mem_insert, not_or] at notInserted
    have notListed := queues.unlinked node notInserted.2
    have notInQueue : node ∉ queue index := fun inOther =>
      notInserted.2 ((queues.mem_iff _ _).1 inOther).1
    exact ⟨(insertFront_next_of_ne notInserted.1).trans notListed.1,
      (represents.insertFront_prev_of_not_mem address notInQueue).trans notListed.2⟩
  · intro node inInserted
    rcases Finset.mem_insert.1 inInserted with rfl | inListed
    · exact accessed
    · exact queues.accessed node inListed

/-- Lists without a head are cut off unnoticed. -/
theorem Queued.resize (queued : Queued cache listed) (length : Nat)
    (headless : ∀ index, length ≤ index → (cache.lruList index).head = none) :
    Queued (cache.resize length) listed := by
  obtain ⟨queue, queues⟩ := queued
  refine Queued.congr ⟨queue, queues⟩ rfl ?_ (fun _ _ => rfl) (fun _ _ => rfl)
  funext index
  change ((cache.allResources.take length)[index]?).getD Ends.empty = cache.lruList index
  by_cases kept : index < length
  · rw [getElem?_take_of_lt kept]
    rfl
  · have represents := queues.represents index
    rw [represents.eq_nil_of_head (headless index (not_lt.1 kept)),
      represents_nil_iff] at represents
    rw [represents, getElem?_take_eq_none (not_lt.1 kept)]
    rfl

/-! ## The live decoded resources -/

variable {tracked : Finset Address}

/-- The list of live decoded resources depends on the flags. -/
theorem Tracked.congr {cache other : MemoryCache} (isTracked : Tracked cache tracked)
    (sameLinks : other.liveLinks = cache.liveLinks)
    (sameEnds : other.liveDecodedResources = cache.liveDecodedResources)
    (sameFlag : ∀ address, (other.resource address).inLiveDecodedResourcesList =
        (cache.resource address).inLiveDecodedResourcesList) : Tracked other tracked := by
  obtain ⟨nodes, tracks⟩ := isTracked
  refine ⟨nodes, ?_, tracks.mem_iff, fun address => ?_, ?_⟩
  · rw [sameLinks, sameEnds]
    exact tracks.represents
  · rw [sameFlag]
    exact tracks.flag_iff address
  · rw [sameLinks]
    exact tracks.unlinked

/-- The flag says whether a resource is in the list. -/
theorem Tracked.flag_iff (isTracked : Tracked cache tracked) (address : Address) :
    (cache.resource address).inLiveDecodedResourcesList = true ↔ address ∈ tracked := by
  obtain ⟨nodes, tracks⟩ := isTracked
  exact tracks.flag_iff address

/-- Removal takes one resource out of the list. -/
theorem Tracked.removeFromLive (isTracked : Tracked cache tracked) (address : Address) :
    Tracked (cache.removeFromLiveDecodedResourcesList address) (tracked.erase address) := by
  obtain ⟨nodes, tracks⟩ := isTracked
  by_cases marked : (cache.resource address).inLiveDecodedResourcesList = true
  · have member := (tracks.flag_iff address).1 marked
    have inNodes := (tracks.mem_iff address).2 member
    have removedEq : cache.removeFromLiveDecodedResourcesList address = { cache.update address
            (fun resource => { resource with inLiveDecodedResourcesList := false }) with
          liveLinks := (remove cache.liveLinks cache.liveDecodedResources address).1
          liveDecodedResources :=
            (remove cache.liveLinks cache.liveDecodedResources address).2 } := by
      rw [removeFromLiveDecodedResourcesList, if_pos marked]
      rfl
    refine ⟨nodes.erase address, ?_, fun other => ?_, fun other => ?_, fun other outside => ?_⟩
    · rw [removedEq]
      exact tracks.represents.remove inNodes
    · rw [tracks.represents.nodup.mem_erase_iff, tracks.mem_iff, Finset.mem_erase]
    · rw [removeFromLive_resource, Finset.mem_erase, ← tracks.flag_iff other]
      split
      · rename_i same
        simp [same]
      · rename_i ne
        simp [ne]
    · rw [removedEq]
      by_cases same : other = address
      · subst same
        exact tracks.represents.unlinked_remove inNodes
      · have notTracked : other ∉ tracked := fun inTracked =>
          outside (Finset.mem_erase.2 ⟨same, inTracked⟩)
        have notInNodes : other ∉ nodes := fun inOther =>
          notTracked ((tracks.mem_iff other).1 inOther)
        have kept := tracks.represents.remove_links_of_not_mem inNodes notInNodes
        exact ⟨kept.1.trans (tracks.unlinked other notTracked).1,
          kept.2.trans (tracks.unlinked other notTracked).2⟩
  · have outside : address ∉ tracked := fun member => marked ((tracks.flag_iff _).2 member)
    rw [removeFromLiveDecodedResourcesList, if_neg marked, Finset.erase_eq_of_notMem outside]
    exact ⟨nodes, tracks⟩

/-- Insertion puts one more resource into the list. -/
theorem Tracked.insertInLive (isTracked : Tracked cache tracked) (outside : address ∉ tracked) :
    Tracked (cache.insertInLiveDecodedResourcesList address) (insert address tracked) := by
  obtain ⟨nodes, tracks⟩ := isTracked
  have notInNodes : address ∉ nodes := fun inNodes => outside ((tracks.mem_iff _).1 inNodes)
  refine ⟨address :: nodes, ?_, fun other => ?_, fun other => ?_, fun other notInserted => ?_⟩
  · exact tracks.represents.insertFront (tracks.unlinked address outside) notInNodes
  · rw [mem_cons, tracks.mem_iff, Finset.mem_insert]
  · rw [insertInLive_resource, Finset.mem_insert, ← tracks.flag_iff other]
    split
    · rename_i same
      simp [same]
    · rename_i ne
      simp [ne]
  · rw [Finset.mem_insert, not_or] at notInserted
    have notTracked := tracks.unlinked other notInserted.2
    have notInOther : other ∉ nodes := fun inOther =>
      notInserted.2 ((tracks.mem_iff other).1 inOther)
    exact ⟨(insertFront_next_of_ne notInserted.1).trans notTracked.1,
      (tracks.represents.insertFront_prev_of_not_mem address notInOther).trans notTracked.2⟩

/-! ## The totals -/

variable {counted : Finset Address}

/-- Totals of resources that all keep their share. -/
theorem total_congr {cache other : MemoryCache} {live : Bool}
    (sameShare : ∀ address ∈ counted,
      share live (other.resource address) = share live (cache.resource address)) :
    other.total counted live = cache.total counted live := Finset.sum_congr rfl sameShare

/-- A total without one resource. -/
theorem total_erase (member : address ∈ counted) (live : Bool) :
    cache.total (counted.erase address) live =
      cache.total counted live - share live (cache.resource address) := by
  have split : share live (cache.resource address) + cache.total (counted.erase address) live =
      cache.total counted live :=
    Finset.add_sum_erase counted (fun node => share live (cache.resource node)) member
  rw [← split]
  abel

/-- A total with one more resource. -/
theorem total_insert (outside : address ∉ counted) (live : Bool) :
    cache.total (insert address counted) live =
      share live (cache.resource address) + cache.total counted live := Finset.sum_insert outside

theorem Counted.congr {cache other : MemoryCache} (isCounted : Counted cache counted)
    (sameLive : other.liveSize = cache.liveSize) (sameDead : other.deadSize = cache.deadSize)
    (sameShare : ∀ address ∈ counted, ∀ live,
      share live (other.resource address) = share live (cache.resource address)) :
    Counted other counted where
  liveSize_eq := by
    rw [sameLive, isCounted.liveSize_eq]
    exact (total_congr (fun address member => sameShare address member true)).symm
  deadSize_eq := by
    rw [sameDead, isCounted.deadSize_eq]
    exact (total_congr (fun address member => sameShare address member false)).symm

/-- The totals follow the change of one counted resource. -/
theorem Counted.replace {cache other : MemoryCache} (isCounted : Counted cache counted)
    (member : address ∈ counted)
    (sameResource : ∀ node ∈ counted, node ≠ address → ∀ live,
      share live (other.resource node) = share live (cache.resource node))
    (liveChange : other.liveSize = cache.liveSize - share true (cache.resource address) +
        share true (other.resource address))
    (deadChange : other.deadSize = cache.deadSize - share false (cache.resource address) +
        share false (other.resource address)) : Counted other counted := by
  have general (live : Bool) : other.total counted live =
      cache.total counted live - share live (cache.resource address) +
        share live (other.resource address) := by
    have others : other.total (counted.erase address) live =
        cache.total (counted.erase address) live :=
      total_congr (fun node inErased => sameResource node
        (Finset.mem_of_mem_erase inErased) (Finset.ne_of_mem_erase inErased) live)
    rw [total_erase member, total_erase member] at others
    rw [← others]
    abel
  refine ⟨?_, ?_⟩
  · rw [liveChange, isCounted.liveSize_eq, general]
  · rw [deadChange, isCounted.deadSize_eq, general]

/-- The totals follow one more counted resource. -/
theorem Counted.insert {cache other : MemoryCache} (isCounted : Counted cache counted)
    (outside : address ∉ counted)
    (sameResource : ∀ node ∈ counted, ∀ live,
      share live (other.resource node) = share live (cache.resource node))
    (liveChange : other.liveSize = cache.liveSize + share true (other.resource address))
    (deadChange : other.deadSize = cache.deadSize + share false (other.resource address)) :
    Counted other (insert address counted) := by
  refine ⟨?_, ?_⟩
  · rw [total_insert outside, total_congr (fun node member => sameResource node member true),
      liveChange, isCounted.liveSize_eq, add_comm]
  · rw [total_insert outside, total_congr (fun node member => sameResource node member false),
      deadChange, isCounted.deadSize_eq, add_comm]

/-- The totals follow one counted resource less. -/
theorem Counted.erase {cache other : MemoryCache} (isCounted : Counted cache counted)
    (member : address ∈ counted)
    (sameResource : ∀ node ∈ counted, node ≠ address → ∀ live,
      share live (other.resource node) = share live (cache.resource node))
    (liveChange : other.liveSize = cache.liveSize - share true (cache.resource address))
    (deadChange : other.deadSize = cache.deadSize - share false (cache.resource address)) :
    Counted other (counted.erase address) := by
  have others (live : Bool) : other.total (counted.erase address) live =
      cache.total (counted.erase address) live :=
    total_congr (fun node inErased => sameResource node
      (Finset.mem_of_mem_erase inErased) (Finset.ne_of_mem_erase inErased) live)
  refine ⟨?_, ?_⟩
  · rw [others, total_erase member, liveChange, isCounted.liveSize_eq]
  · rw [others, total_erase member, deadChange, isCounted.deadSize_eq]

end MemoryCache
end Loader
end PalmWebKit
