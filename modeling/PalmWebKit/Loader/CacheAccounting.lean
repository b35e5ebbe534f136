import PalmWebKit.Loader.CacheLists

/-!
# Accounting of the memory cache

In a run whose calls are all permitted, the lists and the totals are those of the
resources in the cache after every call.  The permission that a page can fail to
have is the one for a first client: a resource that has kept its decoded data while
it had no clients is not put into the list of live decoded resources.
-/

namespace PalmWebKit
namespace Loader
namespace MemoryCache

open Logic.IntrusiveList

/-- The resources in the cache. -/
def cached (cache : MemoryCache) : Finset Address :=
  (Finset.range cache.created).filter (fun address => (cache.resource address).inCache = true)

/-- In the cache, with clients and with decoded data. -/
def IsLiveDecoded (resource : CachedResource) : Prop :=
  resource.inCache = true ∧ resource.hasClients = true ∧ resource.decodedSize ≠ 0

instance (resource : CachedResource) : Decidable (IsLiveDecoded resource) :=
  inferInstanceAs (Decidable (_ ∧ _ ∧ _))

def liveDecoded (cache : MemoryCache) : Finset Address :=
  (Finset.range cache.created).filter (fun address => IsLiveDecoded (cache.resource address))

/-- The lists and the totals are those of the resources in the cache. -/
structure Accounted (cache : MemoryCache) : Prop where
  allocated : ∀ address, (cache.resource address).inCache = true → address < cache.created
  queued : Queued cache cache.cached
  tracked : Tracked cache cache.liveDecoded
  counted : Counted cache cache.cached

namespace Accounted

variable {cache other : MemoryCache} {address : Address}

theorem mem_cached (accounted : Accounted cache) (node : Address) :
    node ∈ cache.cached ↔ (cache.resource node).inCache = true := by
  rw [cached, Finset.mem_filter, Finset.mem_range]
  exact ⟨And.right, fun inside => ⟨accounted.allocated node inside, inside⟩⟩

theorem mem_liveDecoded (accounted : Accounted cache) (node : Address) :
    node ∈ cache.liveDecoded ↔ IsLiveDecoded (cache.resource node) := by
  rw [liveDecoded, Finset.mem_filter, Finset.mem_range]
  exact ⟨And.right, fun live => ⟨accounted.allocated node live.1, live⟩⟩

/-- The flag of a resource says whether it is live and decoded. -/
theorem flag_iff (accounted : Accounted cache) (node : Address) :
    (cache.resource node).inLiveDecodedResourcesList = true ↔
      IsLiveDecoded (cache.resource node) := by
  rw [accounted.tracked.flag_iff, accounted.mem_liveDecoded]

theorem accessCount_ne_zero (accounted : Accounted cache)
    (inside : (cache.resource address).inCache = true) :
    (cache.resource address).accessCount ≠ 0 := by
  obtain ⟨queue, queues⟩ := accounted.queued
  exact queues.accessed address ((accounted.mem_cached address).2 inside)

end Accounted

/-! ## One changed resource -/

/-- The caches differ in one resource at most. -/
structure DiffersAt (cache other : MemoryCache) (address : Address) : Prop where
  created_eq : other.created = cache.created
  resource_eq : ∀ node, node ≠ address → other.resource node = cache.resource node

section OneResource

variable {cache other : MemoryCache} {address : Address}

variable (differs : DiffersAt cache other address)
include differs

theorem DiffersAt.cached_of_inCache (allocated : address < cache.created)
    (inside : (other.resource address).inCache = true) :
    other.cached = insert address cache.cached := by
  ext node
  rw [cached, cached, Finset.mem_insert, Finset.mem_filter, differs.created_eq]
  by_cases same : node = address
  · subst same
    simp [allocated, inside]
  · simp [same, differs.resource_eq node same]

theorem DiffersAt.cached_of_not_inCache (outside : (other.resource address).inCache = false) :
    other.cached = cache.cached.erase address := by
  ext node
  rw [cached, cached, Finset.mem_erase, Finset.mem_filter, differs.created_eq]
  by_cases same : node = address
  · subst same
    simp [outside]
  · simp [same, differs.resource_eq node same]

theorem DiffersAt.cached_of_same
    (same : (other.resource address).inCache = (cache.resource address).inCache) :
    other.cached = cache.cached := by
  ext node
  rw [cached, cached, Finset.mem_filter, Finset.mem_filter, differs.created_eq]
  by_cases here : node = address
  · rw [here, same]
  · rw [differs.resource_eq node here]

theorem DiffersAt.liveDecoded_of_live (allocated : address < cache.created)
    (live : IsLiveDecoded (other.resource address)) :
    other.liveDecoded = insert address cache.liveDecoded := by
  ext node
  rw [liveDecoded, liveDecoded, Finset.mem_insert, Finset.mem_filter, differs.created_eq]
  by_cases same : node = address
  · subst same
    simp [allocated, live]
  · simp [same, differs.resource_eq node same]

theorem DiffersAt.liveDecoded_of_not_live (notLive : ¬ IsLiveDecoded (other.resource address)) :
    other.liveDecoded = cache.liveDecoded.erase address := by
  ext node
  rw [liveDecoded, liveDecoded, Finset.mem_erase, Finset.mem_filter, differs.created_eq]
  by_cases same : node = address
  · subst same
    simp [notLive]
  · simp [same, differs.resource_eq node same]

theorem DiffersAt.liveDecoded_of_iff
    (same : IsLiveDecoded (other.resource address) ↔ IsLiveDecoded (cache.resource address)) :
    other.liveDecoded = cache.liveDecoded := by
  ext node
  rw [liveDecoded, liveDecoded, Finset.mem_filter, Finset.mem_filter, differs.created_eq]
  by_cases here : node = address
  · rw [here, same]
  · rw [differs.resource_eq node here]

omit differs

theorem DiffersAt.allocated (differs : DiffersAt cache other address) (accounted : Accounted cache)
    (allocatedHere : (other.resource address).inCache = true → address < cache.created) :
    ∀ node, (other.resource node).inCache = true → node < other.created := by
  intro node inside
  rw [differs.created_eq]
  by_cases same : node = address
  · subst same
    exact allocatedHere inside
  · rw [differs.resource_eq node same] at inside
    exact accounted.allocated node inside

/-- The other resources keep their share. -/
theorem DiffersAt.share_eq (differs : DiffersAt cache other address) (node : Address)
    (ne : node ≠ address) (live : Bool) :
    share live (other.resource node) = share live (cache.resource node) := by
  rw [differs.resource_eq node ne]

theorem differsAt_update (cache : MemoryCache) (address : Address)
    (change : CachedResource → CachedResource) :
    DiffersAt cache (cache.update address change) address where
  created_eq := rfl
  resource_eq := fun node ne => by simp [ne]

end OneResource

/-- The two resources are the same to the lists and to the totals. -/
structure SameAccount (old new : CachedResource) : Prop where
  inCache_eq : new.inCache = old.inCache
  flag_eq : new.inLiveDecodedResourcesList = old.inLiveDecodedResourcesList
  size_eq : new.size = old.size
  decodedSize_eq : new.decodedSize = old.decodedSize
  accessCount_eq : new.accessCount = old.accessCount
  hasClients_eq : new.hasClients = old.hasClients

namespace Accounted

variable {cache : MemoryCache} {address : Address}

variable {change : CachedResource → CachedResource}

/-- A change that the account does not see. -/
theorem update_same (accounted : Accounted cache)
    (same : SameAccount (cache.resource address) (change (cache.resource address))) :
    Accounted (cache.update address change) := by
  have differs := differsAt_update cache address change
  have cachedEq : (cache.update address change).cached = cache.cached :=
    differs.cached_of_same (by simpa using same.inCache_eq)
  have liveEq : (cache.update address change).liveDecoded = cache.liveDecoded := by
    refine differs.liveDecoded_of_iff ?_
    simp [IsLiveDecoded, same.inCache_eq, same.hasClients_eq, same.decodedSize_eq]
  refine ⟨differs.allocated accounted (fun inside => ?_), ?_, ?_, ?_⟩
  · refine accounted.allocated address ?_
    rw [update_resource, if_pos rfl, same.inCache_eq] at inside
    exact inside
  · rw [cachedEq]
    refine accounted.queued.congr rfl rfl (fun node _ => ?_) (fun node _ => ?_)
    · rw [update_resource]
      split
      · rename_i here
        rw [here, same.size_eq]
      · rfl
    · rw [update_resource]
      split
      · rename_i here
        rw [here, same.accessCount_eq]
      · rfl
  · rw [liveEq]
    refine accounted.tracked.congr rfl rfl (fun node => ?_)
    rw [update_resource]
    split
    · rename_i here
      rw [here, same.flag_eq]
    · rfl
  · rw [cachedEq]
    refine accounted.counted.congr rfl rfl (fun node _ live => ?_)
    rw [update_resource]
    split
    · rename_i here
      rw [here, share, share, same.hasClients_eq, same.size_eq]
    · rfl

/-- A change of a resource outside the cache. -/
theorem update_outside (accounted : Accounted cache)
    (outside : (cache.resource address).inCache = false)
    (stillOutside : (change (cache.resource address)).inCache = false)
    (sameFlag : (change (cache.resource address)).inLiveDecodedResourcesList =
      (cache.resource address).inLiveDecodedResourcesList) :
    Accounted (cache.update address change) := by
  have differs := differsAt_update cache address change
  have notCached : address ∉ cache.cached := by
    rw [accounted.mem_cached, outside]
    exact Bool.false_ne_true
  have cachedEq : (cache.update address change).cached = cache.cached :=
    differs.cached_of_same (by simp [outside, stillOutside])
  have liveEq : (cache.update address change).liveDecoded = cache.liveDecoded := by
    refine differs.liveDecoded_of_iff ?_
    simp [IsLiveDecoded, outside, stillOutside]
  have elsewhere (node : Address) (member : node ∈ cache.cached) :
      (cache.update address change).resource node = cache.resource node :=
    differs.resource_eq node (fun same => notCached (same ▸ member))
  refine ⟨differs.allocated accounted (fun inside => ?_), ?_, ?_, ?_⟩
  · rw [update_resource, if_pos rfl, stillOutside] at inside
    exact absurd inside Bool.false_ne_true
  · rw [cachedEq]
    exact accounted.queued.congr rfl rfl (fun node member => by rw [elsewhere node member])
      (fun node member => by rw [elsewhere node member])
  · rw [liveEq]
    refine accounted.tracked.congr rfl rfl (fun node => ?_)
    rw [update_resource]
    split
    · rename_i here
      rw [here, sameFlag]
    · rfl
  · rw [cachedEq]
    exact accounted.counted.congr rfl rfl
      (fun node member live => by rw [elsewhere node member])

/-! ## Clients -/

/-- A first client makes a resource live; the list is not told. -/
theorem addClientToSet (accounted : Accounted cache) (client : Client)
    (undecoded : (cache.resource address).inCache = true →
      (cache.resource address).hasClients = false → (cache.resource address).decodedSize = 0) :
    Accounted (cache.addClientToSet address client) := by
  have clientsAfter : ∃ change : CachedResource → CachedResource,
      (change (cache.resource address)).hasClients = true ∧
      (∃ clients waiting, change (cache.resource address) = { cache.resource address with
          clients := clients, clientsAwaitingCallback := waiting }) ∧
      cache.addClientToSet address client = (if (cache.resource address).hasClients = false ∧
            (cache.resource address).inCache = true then
          cache.addToLiveResourcesSize address
        else cache).update address change := by
    unfold MemoryCache.addClientToSet
    by_cases waits : (cache.resource address).type = .rawResource ∧
        (cache.resource address).response.isNull = false ∧
        (cache.resource address).proxyResource = none
    · rw [if_pos waits]
      refine ⟨_, ?_, ⟨_, _, rfl⟩, rfl⟩
      by_cases member : client ∈ (cache.resource address).clientsAwaitingCallback
      · have nonempty := List.ne_nil_of_mem member
        simp [member, CachedResource.hasClients, nonempty]
      · simp [member, CachedResource.hasClients]
    · rw [if_neg waits]
      refine ⟨_, ?_, ⟨_, _, rfl⟩, rfl⟩
      simp [CachedResource.hasClients]
  obtain ⟨change, nowLive, ⟨clients, waiting, changeEq⟩, addedEq⟩ := clientsAfter
  rw [addedEq]
  by_cases inside : (cache.resource address).inCache = true
  · by_cases alive : (cache.resource address).hasClients = true
    · rw [if_neg (by simp [alive])]
      refine accounted.update_same ?_
      exact
        { inCache_eq := by rw [changeEq]
          flag_eq := by rw [changeEq]
          size_eq := by rw [changeEq]; rfl
          decodedSize_eq := by rw [changeEq]
          accessCount_eq := by rw [changeEq]
          hasClients_eq := by rw [nowLive, alive] }
    · have dead : (cache.resource address).hasClients = false := by simpa using alive
      rw [if_pos ⟨dead, inside⟩]
      have differs : DiffersAt cache
          ((cache.addToLiveResourcesSize address).update address change) address :=
        ⟨rfl, fun node ne => by simp [ne, addToLiveResourcesSize]⟩
      have resourceEq : ((cache.addToLiveResourcesSize address).update address change).resource
          address = change (cache.resource address) := by
        rw [update_resource, if_pos rfl]
        rfl
      have cachedEq := differs.cached_of_same (by rw [resourceEq, changeEq])
      have liveEq := differs.liveDecoded_of_iff (by
        rw [resourceEq]
        simp [IsLiveDecoded, changeEq, undecoded inside dead])
      have sizeEq : (change (cache.resource address)).size =
          (cache.resource address).size := by
        rw [changeEq]
        rfl
      refine ⟨differs.allocated accounted (fun _ => accounted.allocated address inside), ?_, ?_, ?_⟩
      · rw [cachedEq]
        refine accounted.queued.congr rfl rfl (fun node _ => ?_) (fun node _ => ?_)
        · by_cases here : node = address
          · rw [here, resourceEq, sizeEq]
          · rw [differs.resource_eq node here]
        · by_cases here : node = address
          · rw [here, resourceEq, changeEq]
          · rw [differs.resource_eq node here]
      · rw [liveEq]
        refine accounted.tracked.congr rfl rfl (fun node => ?_)
        by_cases here : node = address
        · rw [here, resourceEq, changeEq]
        · rw [differs.resource_eq node here]
      · rw [cachedEq]
        refine accounted.counted.replace ((accounted.mem_cached address).2 inside)
          (fun node _ ne live => differs.share_eq node ne live) ?_ ?_
        · rw [resourceEq, share, share, nowLive, dead, sizeEq]
          simp [addToLiveResourcesSize]
        · rw [resourceEq, share, share, nowLive, dead]
          simp [addToLiveResourcesSize]
  · have outside : (cache.resource address).inCache = false := by simpa using inside
    rw [if_neg (by simp [outside])]
    exact accounted.update_outside outside (by rw [changeEq, outside]) (by rw [changeEq])

/-- A callback moves a client from one set to the other. -/
theorem didAddClient (accounted : Accounted cache) (address : Address) (client : Client) :
    Accounted (cache.didAddClient address client) := by
  unfold MemoryCache.didAddClient
  split
  · rename_i waiting
    refine accounted.update_same ⟨rfl, rfl, rfl, rfl, rfl, ?_⟩
    have nonempty := List.ne_nil_of_mem waiting
    simp [CachedResource.hasClients, nonempty]
  · exact accounted

/-- The last client takes a resource out of the live ones. -/
theorem removeClient (accounted : Accounted cache) {client : Client}
    (present : client ∈ (cache.resource address).clients ∨
      client ∈ (cache.resource address).clientsAwaitingCallback) :
    Accounted (cache.removeClient address client) := by
  have alive : (cache.resource address).hasClients = true := by
    rcases present with member | member <;>
      simp [CachedResource.hasClients, List.ne_nil_of_mem member]
  unfold MemoryCache.removeClient
  dsimp only
  generalize changeEq : (fun resource : CachedResource =>
    if client ∈ resource.clientsAwaitingCallback then
      { resource with
        clientsAwaitingCallback := resource.clientsAwaitingCallback.filter (· ≠ client) }
    else { resource with clients := resource.clients.erase client }) = change
  have shape : ∃ clients waiting, change (cache.resource address) = { cache.resource address with
        clients := clients, clientsAwaitingCallback := waiting } := by
    rw [← changeEq]
    dsimp only
    split <;> exact ⟨_, _, rfl⟩
  obtain ⟨clients, waiting, shapeEq⟩ := shape
  have sizeEq : (change (cache.resource address)).size = (cache.resource address).size := by
    rw [shapeEq]
    rfl
  rw [update_resource, if_pos rfl]
  by_cases inside : (cache.resource address).inCache = true
  · by_cases stillAlive : (change (cache.resource address)).hasClients = true
    · rw [if_neg (by simp [stillAlive])]
      refine accounted.update_same ?_
      exact
        { inCache_eq := by rw [shapeEq]
          flag_eq := by rw [shapeEq]
          size_eq := sizeEq
          decodedSize_eq := by rw [shapeEq]
          accessCount_eq := by rw [shapeEq]
          hasClients_eq := by rw [stillAlive, alive] }
    · have dead : (change (cache.resource address)).hasClients = false := by
        simpa using stillAlive
      rw [if_pos ⟨dead, by rw [shapeEq]; exact inside⟩]
      let changed := (cache.update address change).removeFromLiveResourcesSize address
      have changedEq (node : Address) : changed.resource node =
          (cache.update address change).resource node := rfl
      have resourceEq : (changed.removeFromLiveDecodedResourcesList address).resource address =
          { change (cache.resource address) with inLiveDecodedResourcesList := false } := by
        rw [removeFromLive_resource, if_pos rfl, changedEq, update_resource, if_pos rfl]
      have differs : DiffersAt cache (changed.removeFromLiveDecodedResourcesList address)
          address := by
        refine ⟨(removeFromLive_frame _ _).2.2.2.2, fun node ne => ?_⟩
        rw [removeFromLive_resource, if_neg ne, changedEq, update_resource, if_neg ne]
      have cachedEq := differs.cached_of_same (by rw [resourceEq, shapeEq])
      have notLive : ¬ IsLiveDecoded
          ((changed.removeFromLiveDecodedResourcesList address).resource address) := by
        rw [resourceEq]
        rintro ⟨_, hasClients, _⟩
        exact Bool.false_ne_true (dead.symm.trans hasClients)
      have liveEq := differs.liveDecoded_of_not_live notLive
      have finalSize : ((changed.removeFromLiveDecodedResourcesList address).resource
          address).size = (cache.resource address).size := by
        rw [resourceEq, ← sizeEq]
        rfl
      refine ⟨differs.allocated accounted (fun _ => accounted.allocated address inside), ?_, ?_, ?_⟩
      · rw [cachedEq]
        refine accounted.queued.congr (by rw [(removeFromLive_frame _ _).1]; rfl)
          (by rw [(removeFromLive_frame _ _).2.1]; rfl) (fun node _ => ?_) (fun node _ => ?_)
        · by_cases here : node = address
          · rw [here, finalSize]
          · rw [differs.resource_eq node here]
        · by_cases here : node = address
          · rw [here, resourceEq, shapeEq]
          · rw [differs.resource_eq node here]
      · rw [liveEq]
        refine Tracked.removeFromLive ?_ address
        refine accounted.tracked.congr rfl rfl (fun node => ?_)
        rw [changedEq, update_resource]
        split
        · rename_i here
          rw [here, shapeEq]
        · rfl
      · rw [cachedEq]
        refine accounted.counted.replace ((accounted.mem_cached address).2 inside)
          (fun node _ ne live => differs.share_eq node ne live) ?_ ?_
        · have nowDead : ((changed.removeFromLiveDecodedResourcesList address).resource
              address).hasClients = false := by
            rw [resourceEq]
            exact dead
          rw [share, share, nowDead, alive]
          simp [removeFromLiveResourcesSize, sizeEq]
        · have nowDead : ((changed.removeFromLiveDecodedResourcesList address).resource
              address).hasClients = false := by
            rw [resourceEq]
            exact dead
          rw [share, share, nowDead, alive, finalSize]
          simp [removeFromLiveResourcesSize, sizeEq]
  · have outside : (cache.resource address).inCache = false := by simpa using inside
    rw [if_neg (by rw [shapeEq, outside]; simp)]
    exact accounted.update_outside outside (by rw [shapeEq]; exact outside) (by rw [shapeEq])

/-! ## Sizes and accesses -/

/-- A resource is taken out of its list, changed, and put into the list that its new
size and its new access count choose. -/
theorem relisted (accounted : Accounted cache) (inside : (cache.resource address).inCache = true)
    (accessed : (change (cache.resource address)).accessCount ≠ 0) :
    Queued (((cache.removeFromLRUList address).update address change).insertInLRUList address)
      cache.cached := by
  have member := (accounted.mem_cached address).2 inside
  have removed := accounted.queued.removeFromLRUList address
  have changed : Queued ((cache.removeFromLRUList address).update address change)
      (cache.cached.erase address) := by
    refine removed.congr rfl rfl (fun node inErased => ?_) (fun node inErased => ?_)
    · rw [update_resource, if_neg (Finset.ne_of_mem_erase inErased)]
    · rw [update_resource, if_neg (Finset.ne_of_mem_erase inErased)]
  have inserted := changed.insertInLRUList (Finset.notMem_erase address _) (by
    rw [update_resource, if_pos rfl, (removeFromLRUList_frame _ _).1]
    exact accessed)
  rwa [Finset.insert_erase member] at inserted

/-- The decoded size chooses the list, the total and the place among the live
decoded resources. -/
theorem setDecodedSize (accounted : Accounted cache) (address : Address) (size : UInt32) :
    Accounted (cache.setDecodedSize address size) := by
  unfold MemoryCache.setDecodedSize
  by_cases unchanged : size = (cache.resource address).decodedSize
  · rw [if_pos unchanged]
    exact accounted
  rw [if_neg unchanged]
  by_cases inside : (cache.resource address).inCache = true
  · rw [if_pos inside, if_pos inside]
    let listed := ((cache.removeFromLRUList address).update address
      (fun resource => { resource with decodedSize := size })).insertInLRUList address
    have listedHere : listed.resource address =
        { cache.resource address with decodedSize := size } := by
      simp [listed]
    have listedElsewhere (node : Address) (ne : node ≠ address) :
        listed.resource node = cache.resource node := by
      simp [listed, ne]
    have isQueued : Queued listed cache.cached :=
      accounted.relisted inside (accounted.accessCount_ne_zero inside)
    have isTracked : Tracked listed cache.liveDecoded := by
      refine accounted.tracked.congr (by simp [listed]) (by simp [listed]) (fun node => ?_)
      by_cases here : node = address
      · rw [here, listedHere]
      · rw [listedElsewhere node here]
    have flagIff := accounted.flag_iff address
    -- the three cases of the source leave the flag as the new size asks
    have tracked : ∃ tracked : MemoryCache,
        (if size ≠ 0 ∧ (listed.resource address).inLiveDecodedResourcesList = false ∧
            (listed.resource address).hasClients = true then
          listed.insertInLiveDecodedResourcesList address
        else if size = 0 ∧ (listed.resource address).inLiveDecodedResourcesList = true then
          listed.removeFromLiveDecodedResourcesList address
        else listed) = tracked ∧
        DiffersAt cache tracked address ∧
        (∃ flag, tracked.resource address = { cache.resource address with
          decodedSize := size, inLiveDecodedResourcesList := flag }) ∧
        tracked.allLinks = listed.allLinks ∧ tracked.lruList = listed.lruList ∧
        tracked.liveSize = cache.liveSize ∧ tracked.deadSize = cache.deadSize ∧
        Tracked tracked (if size ≠ 0 ∧ (cache.resource address).hasClients = true then
          insert address cache.liveDecoded else cache.liveDecoded.erase address) := by
      refine ⟨_, rfl, ?_⟩
      rw [listedHere]
      by_cases nonzero : size ≠ 0
      · by_cases marked : (cache.resource address).inLiveDecodedResourcesList = true
        · have member : address ∈ cache.liveDecoded := (accounted.tracked.flag_iff address).1 marked
          have alive : (cache.resource address).hasClients = true := (flagIff.mp marked).2.1
          rw [if_neg (by simp [marked]), if_neg (by simp [nonzero]),
            if_pos ⟨nonzero, alive⟩, Finset.insert_eq_of_mem member]
          refine ⟨⟨by simp [listed], listedElsewhere⟩, ⟨true, ?_⟩, rfl, rfl,
            by simp [listed], by simp [listed], isTracked⟩
          rw [listedHere, ← marked]
        · have unmarked : (cache.resource address).inLiveDecodedResourcesList = false := by
            simpa using marked
          have outside : address ∉ cache.liveDecoded := fun member =>
            marked ((accounted.tracked.flag_iff address).2 member)
          by_cases alive : (cache.resource address).hasClients = true
          · rw [if_pos ⟨nonzero, unmarked, alive⟩, if_pos ⟨nonzero, alive⟩]
            refine ⟨⟨by simp [listed], fun node ne => ?_⟩, ⟨true, ?_⟩, rfl, rfl,
              by simp [listed], by simp [listed], isTracked.insertInLive outside⟩
            · rw [insertInLive_resource, if_neg ne, listedElsewhere node ne]
            · rw [insertInLive_resource, if_pos rfl, listedHere]
          · rw [if_neg (fun both => alive both.2.2), if_neg (by simp [unmarked]),
              if_neg (fun both => alive both.2), Finset.erase_eq_of_notMem outside]
            refine ⟨⟨by simp [listed], listedElsewhere⟩, ⟨false, ?_⟩, rfl, rfl,
              by simp [listed], by simp [listed], isTracked⟩
            rw [listedHere, ← unmarked]
      · have zero : size = 0 := not_not.1 nonzero
        rw [if_neg (fun both => nonzero both.1)]
        by_cases marked : (cache.resource address).inLiveDecodedResourcesList = true
        · rw [if_pos ⟨zero, marked⟩, if_neg (fun both => nonzero both.1)]
          refine ⟨⟨by simp [listed], fun node ne => ?_⟩, ⟨false, ?_⟩,
            by simp, by simp, by simp [listed], by simp [listed],
            isTracked.removeFromLive address⟩
          · rw [removeFromLive_resource, if_neg ne, listedElsewhere node ne]
          · rw [removeFromLive_resource, if_pos rfl, listedHere]
        · have unmarked : (cache.resource address).inLiveDecodedResourcesList = false := by
            simpa using marked
          have outside : address ∉ cache.liveDecoded := fun member =>
            marked ((accounted.tracked.flag_iff address).2 member)
          rw [if_neg (fun both => marked both.2), if_neg (fun both => nonzero both.1),
            Finset.erase_eq_of_notMem outside]
          refine ⟨⟨by simp [listed], listedElsewhere⟩, ⟨false, ?_⟩, rfl, rfl,
            by simp [listed], by simp [listed], isTracked⟩
          rw [listedHere, ← unmarked]
    obtain ⟨tracked, trackedEq, differs, ⟨flag, hereEq⟩, sameLinks, sameLists, sameLive,
      sameDead, isTracked⟩ := tracked
    change Accounted ((if size ≠ 0 ∧ (listed.resource address).inLiveDecodedResourcesList =
        false ∧ (listed.resource address).hasClients = true then
          listed.insertInLiveDecodedResourcesList address
        else if size = 0 ∧ (listed.resource address).inLiveDecodedResourcesList = true then
          listed.removeFromLiveDecodedResourcesList address
        else listed).adjustSize (listed.resource address).hasClients
          (size - (cache.resource address).decodedSize))
    rw [trackedEq, listedHere]
    let final := tracked.adjustSize (cache.resource address).hasClients
      (size - (cache.resource address).decodedSize)
    change Accounted final
    have finalDiffers : DiffersAt cache final address :=
      ⟨(adjustSize_created _ _ _).trans differs.created_eq, fun node ne => by
        rw [adjustSize_resource, differs.resource_eq node ne]⟩
    have finalHere : final.resource address = { cache.resource address with
        decodedSize := size, inLiveDecodedResourcesList := flag } := by
      rw [adjustSize_resource, hereEq]
    have cachedEq := finalDiffers.cached_of_same (by rw [finalHere])
    have allocated := accounted.allocated address inside
    have liveEq : final.liveDecoded =
        if size ≠ 0 ∧ (cache.resource address).hasClients = true then
          insert address cache.liveDecoded else cache.liveDecoded.erase address := by
      split
      · rename_i both
        refine finalDiffers.liveDecoded_of_live allocated ?_
        rw [finalHere]
        exact ⟨inside, both.2, both.1⟩
      · rename_i neither
        refine finalDiffers.liveDecoded_of_not_live ?_
        rw [finalHere]
        rintro ⟨_, hasClients, nonzero⟩
        exact neither ⟨nonzero, hasClients⟩
    have sizeEq : (final.resource address).size =
        (cache.resource address).size + (size - (cache.resource address).decodedSize) := by
      rw [finalHere]
      change (cache.resource address).encodedSize + size + (cache.resource address).overheadSize =
        (cache.resource address).encodedSize + (cache.resource address).decodedSize +
          (cache.resource address).overheadSize + (size - (cache.resource address).decodedSize)
      abel
    refine ⟨finalDiffers.allocated accounted (fun _ => allocated), ?_, ?_, ?_⟩
    · rw [cachedEq]
      refine isQueued.congr ((adjustSize_allLinks _ _ _).trans sameLinks)
        ((adjustSize_lruList _ _ _).trans sameLists) (fun node _ => ?_) (fun node _ => ?_)
      · by_cases here : node = address
        · rw [here, finalHere, listedHere]
          rfl
        · rw [finalDiffers.resource_eq node here, listedElsewhere node here]
      · by_cases here : node = address
        · rw [here, finalHere, listedHere]
        · rw [finalDiffers.resource_eq node here, listedElsewhere node here]
    · rw [liveEq]
      refine isTracked.congr (adjustSize_liveLinks _ _ _)
        (adjustSize_liveDecodedResources _ _ _) (fun node => ?_)
      rw [adjustSize_resource]
    · rw [cachedEq]
      have hasClientsEq : (final.resource address).hasClients =
          (cache.resource address).hasClients := by
        rw [finalHere]
        rfl
      refine accounted.counted.replace ((accounted.mem_cached address).2 inside)
        (fun node _ ne live => finalDiffers.share_eq node ne live) ?_ ?_
      · rw [share, share, hasClientsEq, sizeEq, adjustSize_liveSize, sameLive]
        split
        · abel
        · simp
      · rw [share, share, hasClientsEq, sizeEq, adjustSize_deadSize, sameDead]
        split
        · abel
        · simp
  · have outside : (cache.resource address).inCache = false := by simpa using inside
    rw [if_neg inside, if_neg inside]
    exact accounted.update_outside outside outside rfl

/-- The encoded size chooses the list and the total. -/
theorem setEncodedSize (accounted : Accounted cache) (address : Address) (size : UInt32) :
    Accounted (cache.setEncodedSize address size) := by
  unfold MemoryCache.setEncodedSize
  by_cases unchanged : size = (cache.resource address).encodedSize
  · rw [if_pos unchanged]
    exact accounted
  rw [if_neg unchanged]
  by_cases inside : (cache.resource address).inCache = true
  · rw [if_pos inside, if_pos inside]
    generalize deltaEq : size - (cache.resource address).encodedSize = delta
    let final := (((cache.removeFromLRUList address).update address
      (fun resource => { resource with encodedSize := size })).insertInLRUList
        address).adjustSize (cache.resource address).hasClients delta
    have finalHere : final.resource address =
        { cache.resource address with encodedSize := size } := by
      simp [final]
    have differs : DiffersAt cache final address :=
      ⟨by simp [final], fun node ne => by simp [final, ne]⟩
    have cachedEq := differs.cached_of_same (by rw [finalHere])
    have liveEq := differs.liveDecoded_of_iff (by rw [finalHere]; rfl)
    have hasClientsEq : (final.resource address).hasClients =
        (cache.resource address).hasClients := by
      rw [finalHere]
      rfl
    have sizeEq : (final.resource address).size =
        (cache.resource address).size + delta := by
      rw [finalHere, ← deltaEq]
      change size + (cache.resource address).decodedSize + (cache.resource address).overheadSize =
        (cache.resource address).encodedSize + (cache.resource address).decodedSize +
          (cache.resource address).overheadSize + (size - (cache.resource address).encodedSize)
      abel
    have isQueued : Queued (((cache.removeFromLRUList address).update address
        (fun resource => { resource with encodedSize := size })).insertInLRUList address)
          cache.cached := accounted.relisted inside (accounted.accessCount_ne_zero inside)
    refine ⟨differs.allocated accounted (fun _ => accounted.allocated address inside), ?_, ?_, ?_⟩
    · rw [cachedEq]
      refine isQueued.congr (adjustSize_allLinks _ _ _) (adjustSize_lruList _ _ _)
        (fun node _ => ?_) (fun node _ => ?_)
      · rw [adjustSize_resource]
      · rw [adjustSize_resource]
    · rw [liveEq]
      refine accounted.tracked.congr (by simp [final]) (by simp [final]) (fun node => ?_)
      by_cases here : node = address
      · rw [here, finalHere]
      · rw [differs.resource_eq node here]
    · rw [cachedEq]
      refine accounted.counted.replace ((accounted.mem_cached address).2 inside)
        (fun node _ ne live => differs.share_eq node ne live) ?_ ?_
      · have sameLive : final.liveSize = cache.liveSize +
            if (cache.resource address).hasClients = true then delta else 0 := by
          simp [final]
        rw [share, share, hasClientsEq, sizeEq, sameLive]
        split
        · abel
        · simp
      · have sameDead : final.deadSize = cache.deadSize +
            if (cache.resource address).hasClients = false then delta else 0 := by
          simp [final]
        rw [share, share, hasClientsEq, sizeEq, sameDead]
        split
        · abel
        · simp
  · have outside : (cache.resource address).inCache = false := by simpa using inside
    rw [if_neg inside, if_neg inside]
    exact accounted.update_outside outside outside rfl

/-- An access to decoded data moves the resource to the front. -/
theorem didAccessDecodedData (accounted : Accounted cache) (address : Address) :
    Accounted (cache.didAccessDecodedData address) := by
  unfold MemoryCache.didAccessDecodedData
  dsimp only
  split
  · rename_i both
    let final := (cache.removeFromLiveDecodedResourcesList
      address).insertInLiveDecodedResourcesList address
    have sameResource : final.resource = cache.resource := by
      funext node
      rw [insertInLive_resource]
      split
      · rename_i here
        rw [removeFromLive_resource, if_pos rfl, here, ← both.2]
      · rename_i ne
        rw [removeFromLive_resource, if_neg ne]
    have differs : DiffersAt cache final address :=
      ⟨by simp [final], fun node _ => by rw [sameResource]⟩
    have member : address ∈ cache.liveDecoded := (accounted.tracked.flag_iff address).1 both.2
    have isTracked := (accounted.tracked.removeFromLive address).insertInLive
      (Finset.notMem_erase address cache.liveDecoded)
    rw [Finset.insert_erase member] at isTracked
    refine ⟨differs.allocated accounted (fun _ => accounted.allocated address both.1), ?_, ?_, ?_⟩
    · rw [differs.cached_of_same (by rw [sameResource])]
      exact accounted.queued.congr (by simp [final]) (by simp [final])
        (fun _ _ => by rw [sameResource]) (fun _ _ => by rw [sameResource])
    · rw [differs.liveDecoded_of_iff (by rw [sameResource])]
      exact isTracked
    · rw [differs.cached_of_same (by rw [sameResource])]
      exact accounted.counted.congr (by simp [final]) (by simp [final])
        (fun _ _ _ => by rw [sameResource])
  · exact accounted

/-- An access counts, and moves the resource to the list it now belongs to. -/
theorem resourceAccessed (accounted : Accounted cache)
    (inside : (cache.resource address).inCache = true)
    (counts : (cache.resource address).accessCount + 1 ≠ 0) :
    Accounted (cache.resourceAccessed address) := by
  unfold MemoryCache.resourceAccessed
  dsimp only
  rw [(removeFromLRUList_frame _ _).1, if_neg (accounted.accessCount_ne_zero inside)]
  let final := ((cache.removeFromLRUList address).update address
    (fun resource => { resource with accessCount := resource.accessCount + 1 })).insertInLRUList
      address
  have finalHere : final.resource address = { cache.resource address with
        accessCount := (cache.resource address).accessCount + 1 } := by
    simp [final]
  have differs : DiffersAt cache final address :=
    ⟨by simp [final], fun node ne => by simp [final, ne]⟩
  have cachedEq := differs.cached_of_same (by rw [finalHere])
  have liveEq := differs.liveDecoded_of_iff (by rw [finalHere]; rfl)
  refine ⟨differs.allocated accounted (fun _ => accounted.allocated address inside), ?_, ?_, ?_⟩
  · rw [cachedEq]
    exact accounted.relisted inside counts
  · rw [liveEq]
    refine accounted.tracked.congr (by simp [final]) (by simp [final]) (fun node => ?_)
    by_cases here : node = address
    · rw [here, finalHere]
    · rw [differs.resource_eq node here]
  · rw [cachedEq]
    refine accounted.counted.congr (by simp [final]) (by simp [final]) (fun node _ live => ?_)
    by_cases here : node = address
    · rw [here, finalHere]
      rfl
    · rw [differs.resource_eq node here]

/-! ## Entering and leaving -/

/-- A resource leaves the cache, its lists and its total. -/
theorem evict (accounted : Accounted cache) (address : Address) :
    Accounted (cache.evict address) := by
  unfold MemoryCache.evict
  by_cases inside : (cache.resource address).inCache = true
  · rw [if_pos inside]
    let unlisted := ((cache.removeURL (cache.resource address).url).setInCache address
      false).removeFromLRUList address
    let final := (unlisted.removeFromLiveDecodedResourcesList address).adjustSize
      ((unlisted.removeFromLiveDecodedResourcesList address).resource address).hasClients
      (0 - ((unlisted.removeFromLiveDecodedResourcesList address).resource address).size)
    have unlistedHere : unlisted.resource address =
        { cache.resource address with inCache := false } := by
      simp [unlisted, setInCache, removeURL]
    have unlistedElsewhere (node : Address) (ne : node ≠ address) :
        unlisted.resource node = cache.resource node := by
      simp [unlisted, setInCache, removeURL, ne]
    have finalHere : final.resource address = { cache.resource address with
          inCache := false, inLiveDecodedResourcesList := false } := by
      simp [final, unlistedHere]
    have differs : DiffersAt cache final address := by
      refine ⟨?_, fun node ne => ?_⟩
      · simp [final, unlisted, setInCache, removeURL]
      · simp [final, unlistedElsewhere node ne, ne]
    have member := (accounted.mem_cached address).2 inside
    have cachedEq := differs.cached_of_not_inCache (by rw [finalHere])
    have notLive : ¬ IsLiveDecoded (final.resource address) := by
      rw [finalHere]
      exact fun live => Bool.false_ne_true live.1
    have liveEq := differs.liveDecoded_of_not_live notLive
    have sizeEq : ((unlisted.removeFromLiveDecodedResourcesList address).resource
        address).size = (cache.resource address).size := by
      rw [removeFromLive_resource, if_pos rfl, unlistedHere]
      rfl
    have hasClientsEq : ((unlisted.removeFromLiveDecodedResourcesList address).resource
        address).hasClients = (cache.resource address).hasClients := by
      rw [removeFromLive_resource, if_pos rfl, unlistedHere]
      rfl
    refine ⟨differs.allocated accounted (fun _ => accounted.allocated address inside), ?_, ?_, ?_⟩
    · rw [cachedEq]
      have outside : Queued ((cache.removeURL (cache.resource address).url).setInCache
          address false) cache.cached := by
        refine accounted.queued.congr rfl rfl (fun node _ => ?_) (fun node _ => ?_)
        · rw [setInCache, update_resource]
          split
          · rename_i here
            rw [here]
            rfl
          · rfl
        · rw [setInCache, update_resource]
          split
          · rename_i here
            rw [here]
            rfl
          · rfl
      refine (outside.removeFromLRUList address).congr (by simp [final, unlisted])
        (by simp [final, unlisted]) (fun node inErased => ?_) (fun node inErased => ?_)
      all_goals
        rw [differs.resource_eq node (Finset.ne_of_mem_erase inErased),
          ← unlistedElsewhere node (Finset.ne_of_mem_erase inErased)]
    · rw [liveEq]
      have unlistedTracked : Tracked unlisted cache.liveDecoded := by
        refine accounted.tracked.congr (by simp [unlisted, setInCache, removeURL])
          (by simp [unlisted, setInCache, removeURL]) (fun node => ?_)
        by_cases here : node = address
        · rw [here, unlistedHere]
        · rw [unlistedElsewhere node here]
      refine (unlistedTracked.removeFromLive address).congr (adjustSize_liveLinks _ _ _)
        (adjustSize_liveDecodedResources _ _ _) (fun node => ?_)
      rw [adjustSize_resource]
    · rw [cachedEq]
      refine accounted.counted.erase member
        (fun node _ ne live => differs.share_eq node ne live) ?_ ?_
      · rw [share, adjustSize_liveSize, hasClientsEq, sizeEq]
        have sameLive : (unlisted.removeFromLiveDecodedResourcesList address).liveSize =
            cache.liveSize := by
          simp [unlisted, setInCache, removeURL]
        rw [sameLive]
        split
        · abel
        · simp
      · rw [share, adjustSize_deadSize, hasClientsEq, sizeEq]
        have sameDead : (unlisted.removeFromLiveDecodedResourcesList address).deadSize =
            cache.deadSize := by
          simp [unlisted, setInCache, removeURL]
        rw [sameDead]
        split
        · abel
        · simp
  · rw [if_neg inside]
    exact accounted

end Accounted

end MemoryCache
end Loader
end PalmWebKit
