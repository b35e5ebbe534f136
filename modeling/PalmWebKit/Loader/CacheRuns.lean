import PalmWebKit.Loader.CacheAccounting

/-!
# Accounted runs of the memory cache

A resource enters the cache when it is added and when its revalidation succeeds.
`Permitted` is the condition on one call, and a run of permitted calls keeps the
account from call to call, whatever loops the calls come from.
-/

namespace PalmWebKit
namespace Loader
namespace MemoryCache

open Logic.IntrusiveList

namespace Accounted

variable {cache other : MemoryCache} {address : Address}

theorem not_mem_cached (accounted : Accounted cache)
    (outside : (cache.resource address).inCache = false) : address ∉ cache.cached := by
  rw [accounted.mem_cached, outside]
  exact Bool.false_ne_true

/-- A resource outside the cache is not in the live list. -/
theorem not_mem_liveDecoded (accounted : Accounted cache)
    (outside : (cache.resource address).inCache = false) : address ∉ cache.liveDecoded := by
  rw [accounted.mem_liveDecoded]
  exact fun live => Bool.false_ne_true (outside.symm.trans live.1)

/-- One resource more in the cache. -/
theorem entered (accounted : Accounted cache) (allocated : address < cache.created)
    (outside : (cache.resource address).inCache = false) (differs : DiffersAt cache other address)
    (inside : (other.resource address).inCache = true)
    (queued : Queued other (insert address cache.cached))
    (tracked : Tracked other (if IsLiveDecoded (other.resource address) then
      insert address cache.liveDecoded else cache.liveDecoded))
    (liveChange : other.liveSize = cache.liveSize + share true (other.resource address))
    (deadChange : other.deadSize = cache.deadSize + share false (other.resource address)) :
    Accounted other := by
  have cachedEq := differs.cached_of_inCache allocated inside
  refine ⟨differs.allocated accounted (fun _ => allocated), ?_, ?_, ?_⟩
  · rw [cachedEq]
    exact queued
  · by_cases live : IsLiveDecoded (other.resource address)
    · rw [differs.liveDecoded_of_live allocated live]
      rwa [if_pos live] at tracked
    · rw [differs.liveDecoded_of_not_live live,
        Finset.erase_eq_of_notMem (accounted.not_mem_liveDecoded outside)]
      rwa [if_neg live] at tracked
  · rw [cachedEq]
    refine accounted.counted.insert (accounted.not_mem_cached outside)
      (fun node member live => ?_) liveChange deadChange
    refine differs.share_eq node ?_ live
    rintro rfl
    exact accounted.not_mem_cached outside member

/-- A new resource enters the cache. -/
theorem add (accounted : Accounted cache) (allocated : address < cache.created)
    (untouched : (cache.resource address).accessCount = 0)
    (clientless : (cache.resource address).hasClients = false) : Accounted (cache.add address) := by
  have outside : (cache.resource address).inCache = false := by
    by_contra inside
    rw [Bool.not_eq_false] at inside
    exact accounted.accessCount_ne_zero inside untouched
  unfold MemoryCache.add
  by_cases disabled : cache.disabled = true
  · rw [if_pos disabled]
    exact accounted
  rw [if_neg disabled]
  let mapped := (cache.setURL (cache.resource address).url address).setInCache address true
  have mappedHere : mapped.resource address = { cache.resource address with inCache := true } := by
    simp [mapped, setInCache, setURL, removeURL]
  have mappedElsewhere (node : Address) (ne : node ≠ address) :
      mapped.resource node = cache.resource node := by
    simp [mapped, setInCache, setURL, removeURL, ne]
  let final := ((mapped.adjustSize false (cache.resource address).size).update address
    (fun resource => { resource with accessCount := resource.accessCount + 1 })).insertInLRUList
      address
  have accessedEq : mapped.resourceAccessed address = final := by
    have removedEq : mapped.removeFromLRUList address = mapped := by
      rw [removeFromLRUList, if_pos (by rw [mappedHere]; exact untouched)]
    have sizeEq : (mapped.resource address).size = (cache.resource address).size := by
      rw [mappedHere]
      rfl
    have hasClientsEq : (mapped.resource address).hasClients = false := by
      rw [mappedHere]
      exact clientless
    have countEq : (mapped.resource address).accessCount = 0 := by
      rw [mappedHere]
      exact untouched
    unfold MemoryCache.resourceAccessed
    dsimp only
    rw [removedEq, if_pos countEq, sizeEq, hasClientsEq]
  rw [accessedEq]
  have finalHere : final.resource address = { cache.resource address with
        inCache := true, accessCount := (cache.resource address).accessCount + 1 } := by
    simp [final, mappedHere]
  have differs : DiffersAt cache final address := by
    refine ⟨?_, fun node ne => ?_⟩
    · simp [final, mapped, setInCache, setURL, removeURL]
    · simp [final, mappedElsewhere node ne, ne]
  have finalClients : (final.resource address).hasClients = false := by
    rw [finalHere]
    exact clientless
  have finalSize : (final.resource address).size = (cache.resource address).size := by
    rw [finalHere]
    rfl
  refine accounted.entered allocated outside differs (by rw [finalHere]) ?_ ?_ ?_ ?_
  · have notCached := accounted.not_mem_cached outside
    refine Queued.insertInLRUList ?_ notCached ?_
    · refine accounted.queued.congr ?_ ?_ (fun node member => ?_) (fun node member => ?_)
      · simp [mapped, setInCache, setURL, removeURL]
      · rw [update_lruList]
        rfl
      all_goals
        have ne : node ≠ address := fun here => notCached (here ▸ member)
        rw [update_resource, if_neg ne, adjustSize_resource, mappedElsewhere node ne]
    · rw [update_resource, if_pos rfl, adjustSize_resource, mappedHere]
      change (cache.resource address).accessCount + 1 ≠ 0
      rw [untouched]
      decide
  · rw [if_neg (fun live => Bool.false_ne_true (finalClients.symm.trans live.2.1))]
    refine accounted.tracked.congr ?_ ?_ (fun node => ?_)
    · simp [final, mapped, setInCache, setURL, removeURL]
    · simp [final, mapped, setInCache, setURL, removeURL]
    · by_cases here : node = address
      · rw [here, finalHere]
      · rw [differs.resource_eq node here]
  · rw [share, finalClients]
    simp [final, mapped, setInCache, setURL, removeURL]
  · rw [share, finalClients, finalSize]
    simp [final, mapped, setInCache, setURL, removeURL]

/-- A resource enters the list of live decoded resources if it belongs there. -/
theorem tracked_insertIfLiveDecoded {tracked : Finset Address} (isTracked : Tracked cache tracked)
    (notTracked : address ∉ tracked) (inside : (cache.resource address).inCache = true) :
    Tracked (cache.insertIfLiveDecoded address)
      (if IsLiveDecoded (cache.resource address) then insert address tracked else tracked) := by
  unfold insertIfLiveDecoded
  by_cases both : (cache.resource address).decodedSize ≠ 0 ∧
      (cache.resource address).hasClients = true
  · rw [if_pos both, if_pos ⟨inside, both.2, both.1⟩]
    exact isTracked.insertInLive notTracked
  · rw [if_neg both, if_neg (fun live => both ⟨live.2.2, live.2.1⟩)]
    exact isTracked

/-- Nothing but the flag of one resource changes with the list of live decoded
resources. -/
theorem insertIfLiveDecoded_frame (cache : MemoryCache) (address : Address) :
    (∃ flag, (cache.insertIfLiveDecoded address).resource address =
      { cache.resource address with inLiveDecodedResourcesList := flag }) ∧
    DiffersAt cache (cache.insertIfLiveDecoded address) address ∧
    (cache.insertIfLiveDecoded address).allLinks = cache.allLinks ∧
    (cache.insertIfLiveDecoded address).lruList = cache.lruList ∧
    (cache.insertIfLiveDecoded address).liveSize = cache.liveSize ∧
    (cache.insertIfLiveDecoded address).deadSize = cache.deadSize := by
  unfold insertIfLiveDecoded
  dsimp only
  split
  · refine ⟨⟨true, by rw [insertInLive_resource, if_pos rfl]⟩,
      ⟨rfl, fun node ne => ?_⟩, rfl, rfl, rfl, rfl⟩
    rw [insertInLive_resource, if_neg ne]
  · exact ⟨⟨_, rfl⟩, ⟨rfl, fun _ _ => rfl⟩, rfl, rfl, rfl, rfl⟩

/-- What `bringBack` comes to: a size of zero is added to no total, which changes
nothing. -/
theorem bringBack_eq (cache : MemoryCache) (address : Address) (response : ResourceResponse) :
    ∃ listed : MemoryCache,
      listed = (((cache.setURL (cache.resource address).url address).setInCache
        address true).setResponse address response).insertInLRUList address ∧
      cache.bringBack address response = (listed.insertIfLiveDecoded address).adjustSize
          (listed.resource address).hasClients (listed.resource address).size := by
  refine ⟨_, rfl, ?_⟩
  unfold bringBack
  dsimp only
  generalize (((cache.setURL (cache.resource address).url address).setInCache
    address true).setResponse address response).insertInLRUList address = listed
  obtain ⟨⟨flag, hereEq⟩, _⟩ := insertIfLiveDecoded_frame listed address
  have hasClientsEq : ((listed.insertIfLiveDecoded address).resource address).hasClients =
      (listed.resource address).hasClients := by
    rw [hereEq]
    rfl
  rw [hasClientsEq]
  split
  · rfl
  · rename_i empty
    rw [not_not.1 empty]
    cases (listed.resource address).hasClients <;> simp [adjustSize]

/-- A revalidated resource comes back with its clients and its data. -/
theorem bringBack (accounted : Accounted cache) (allocated : address < cache.created)
    (outside : (cache.resource address).inCache = false)
    (accessed : (cache.resource address).accessCount ≠ 0) (response : ResourceResponse) :
    Accounted (cache.bringBack address response) ∧
      DiffersAt cache (cache.bringBack address response) address ∧
      ∃ flag, (cache.bringBack address response).resource address = { cache.resource address with
          inCache := true, response := response, inLiveDecodedResourcesList := flag } := by
  obtain ⟨listed, listedEq, broughtEq⟩ := bringBack_eq cache address response
  rw [broughtEq]
  have notCached := accounted.not_mem_cached outside
  have notLive := accounted.not_mem_liveDecoded outside
  have listedHere : listed.resource address =
      { cache.resource address with inCache := true, response := response } := by
    simp [listedEq, setInCache, setURL, removeURL, setResponse]
  have listedDiffers : DiffersAt cache listed address := by
    refine ⟨by simp [listedEq, setInCache, setURL, removeURL, setResponse],
      fun node ne => ?_⟩
    simp [listedEq, setInCache, setURL, removeURL, setResponse, ne]
  have listedSizes : listed.liveSize = cache.liveSize ∧ listed.deadSize = cache.deadSize := by
    constructor <;> simp [listedEq, setInCache, setURL, removeURL, setResponse]
  have listedQueued : Queued listed (insert address cache.cached) := by
    rw [listedEq]
    refine Queued.insertInLRUList ?_ notCached ?_
    · refine accounted.queued.congr
        (by simp [setInCache, setURL, removeURL, setResponse])
        (by rw [setResponse, setInCache, update_lruList]; rfl)
        (fun node member => ?_) (fun node member => ?_)
      all_goals
        have ne : node ≠ address := fun here => notCached (here ▸ member)
        simp [setInCache, setURL, removeURL, setResponse, ne]
    · simpa [setInCache, setURL, removeURL, setResponse] using accessed
  have listedTracked : Tracked listed cache.liveDecoded := by
    refine accounted.tracked.congr
      (by simp [listedEq, setInCache, setURL, removeURL, setResponse])
      (by simp [listedEq, setInCache, setURL, removeURL, setResponse]) (fun node => ?_)
    by_cases here : node = address
    · rw [here, listedHere]
    · rw [listedDiffers.resource_eq node here]
  obtain ⟨⟨flag, trackedHere⟩, trackedDiffers, sameLinks, sameLists, sameLive, sameDead⟩ :=
    insertIfLiveDecoded_frame listed address
  have isTracked := tracked_insertIfLiveDecoded listedTracked notLive (by rw [listedHere])
  generalize finalEq : (listed.insertIfLiveDecoded address).adjustSize
    (listed.resource address).hasClients (listed.resource address).size = final
  have finalHere : final.resource address =
      { listed.resource address with inLiveDecodedResourcesList := flag } := by
    rw [← finalEq, adjustSize_resource, trackedHere]
  have differs : DiffersAt cache final address := by
    refine ⟨?_, fun node ne => ?_⟩
    · rw [← finalEq, adjustSize_created, trackedDiffers.created_eq, listedDiffers.created_eq]
    · rw [← finalEq, adjustSize_resource, trackedDiffers.resource_eq node ne,
        listedDiffers.resource_eq node ne]
  have hasClientsEq : (final.resource address).hasClients =
      (listed.resource address).hasClients := by
    rw [finalHere]
    rfl
  have sizeEq : (final.resource address).size = (listed.resource address).size := by
    rw [finalHere]
    rfl
  have liveIff : IsLiveDecoded (final.resource address) ↔
      IsLiveDecoded (listed.resource address) := by
    rw [finalHere]
    rfl
  refine ⟨?_, differs, flag, by rw [finalHere, listedHere]⟩
  refine accounted.entered allocated outside differs (by rw [finalHere, listedHere]) ?_ ?_ ?_ ?_
  · refine listedQueued.congr ?_ ?_ (fun node _ => ?_) (fun node _ => ?_)
    · rw [← finalEq, adjustSize_allLinks, sameLinks]
    · rw [← finalEq, adjustSize_lruList, sameLists]
    · by_cases here : node = address
      · rw [here, sizeEq]
      · rw [differs.resource_eq node here, listedDiffers.resource_eq node here]
    · by_cases here : node = address
      · rw [here, finalHere]
      · rw [differs.resource_eq node here, listedDiffers.resource_eq node here]
  · rw [if_congr liveIff rfl rfl]
    refine isTracked.congr ?_ ?_ (fun node => ?_)
    · rw [← finalEq, adjustSize_liveLinks]
    · rw [← finalEq, adjustSize_liveDecodedResources]
    · rw [← finalEq, adjustSize_resource]
  · rw [share, hasClientsEq, sizeEq, ← finalEq, adjustSize_liveSize, sameLive, listedSizes.1]
  · rw [share, hasClientsEq, sizeEq, ← finalEq, adjustSize_deadSize, sameDead, listedSizes.2]

/-- A new resource is outside the cache. -/
theorem create (accounted : Accounted cache) (type : ResourceType) (url : String)
    (objectSize : UInt32) : Accounted (cache.create type url objectSize) := by
  have outside : (cache.resource cache.created).inCache = false := by
    by_contra inside
    rw [Bool.not_eq_false] at inside
    exact lt_irrefl _ (accounted.allocated _ inside)
  have unmarked : (cache.resource cache.created).inLiveDecodedResourcesList = false := by
    by_contra marked
    rw [Bool.not_eq_false] at marked
    exact Bool.false_ne_true (outside.symm.trans ((accounted.flag_iff _).1 marked).1)
  have updated : Accounted (cache.update cache.created
      (fun _ => CachedResource.create type url objectSize)) :=
    accounted.update_outside outside rfl unmarked.symm
  generalize changedEq :
    cache.update cache.created (fun _ => CachedResource.create type url objectSize) = changed
    at updated
  have createdEq : changed.created = cache.created := by rw [← changedEq]; rfl
  have cachedEq : (cache.create type url objectSize).cached = changed.cached := by
    ext node
    rw [updated.mem_cached, cached, Finset.mem_filter, Finset.mem_range]
    unfold MemoryCache.create
    rw [changedEq]
    refine ⟨And.right, fun inside => ⟨?_, inside⟩⟩
    have := updated.allocated node inside
    rw [createdEq] at this
    exact Nat.lt_succ_of_lt this
  have liveEq : (cache.create type url objectSize).liveDecoded = changed.liveDecoded := by
    ext node
    rw [updated.mem_liveDecoded, liveDecoded, Finset.mem_filter, Finset.mem_range]
    unfold MemoryCache.create
    rw [changedEq]
    refine ⟨And.right, fun live => ⟨?_, live⟩⟩
    have := updated.allocated node live.1
    rw [createdEq] at this
    exact Nat.lt_succ_of_lt this
  unfold MemoryCache.create at cachedEq liveEq ⊢
  rw [changedEq] at cachedEq liveEq ⊢
  refine ⟨fun node inside => ?_, ?_, ?_, ?_⟩
  · have := updated.allocated node inside
    rw [createdEq] at this
    exact Nat.lt_succ_of_lt this
  · rw [cachedEq]
    exact updated.queued.congr rfl rfl (fun _ _ => rfl) (fun _ _ => rfl)
  · rw [liveEq]
    exact updated.tracked.congr rfl rfl (fun _ => rfl)
  · rw [cachedEq]
    exact updated.counted.congr rfl rfl (fun _ _ _ => rfl)

/-- Empty lists are cut off. -/
theorem resize (accounted : Accounted cache) (length : Nat)
    (headless : ∀ index, length ≤ index → (cache.lruList index).head = none) :
    Accounted (cache.resize length) where
  allocated := accounted.allocated
  queued := accounted.queued.resize length headless
  tracked := accounted.tracked.congr rfl rfl (fun _ => rfl)
  counted := accounted.counted.congr rfl rfl (fun _ _ _ => rfl)

/-! ## Revalidation -/

variable (resource : CachedResource)
include resource

theorem sameAccount_proxyResource (proxy : Option Address) :
    SameAccount resource { resource with proxyResource := proxy } := ⟨rfl, rfl, rfl, rfl, rfl, rfl⟩

theorem sameAccount_resourceToRevalidate (target : Option Address) :
    SameAccount resource { resource with resourceToRevalidate := target } :=
  ⟨rfl, rfl, rfl, rfl, rfl, rfl⟩

/-- The overhead of a response is the same for every response. -/
theorem sameAccount_response (response : ResourceResponse) :
    SameAccount resource { resource with response := response } := ⟨rfl, rfl, rfl, rfl, rfl, rfl⟩

theorem sameAccount_loading (loading : Bool) :
    SameAccount resource { resource with loading := loading } := ⟨rfl, rfl, rfl, rfl, rfl, rfl⟩

theorem sameAccount_preloadCount (count : UInt32) :
    SameAccount resource { resource with preloadCount := count } := ⟨rfl, rfl, rfl, rfl, rfl, rfl⟩

omit resource

theorem setResourceToRevalidate (accounted : Accounted cache) (address target : Address) :
    Accounted (cache.setResourceToRevalidate address target) := by
  unfold MemoryCache.setResourceToRevalidate
  refine Accounted.update_same ?_ (sameAccount_resourceToRevalidate _ _)
  exact accounted.update_same (sameAccount_proxyResource _ _)

theorem clearResourceToRevalidate (accounted : Accounted cache) (address : Address) :
    Accounted (cache.clearResourceToRevalidate address) := by
  unfold MemoryCache.clearResourceToRevalidate
  split
  · exact accounted
  · refine Accounted.update_same ?_ (sameAccount_resourceToRevalidate _ _)
    split
    · exact accounted.update_same (sameAccount_proxyResource _ _)
    · exact accounted

theorem hasClients_waiting (resource : CachedResource) (client : Client) :
    ({ resource with clientsAwaitingCallback :=
        if client ∈ resource.clientsAwaitingCallback then resource.clientsAwaitingCallback
        else client :: resource.clientsAwaitingCallback } : CachedResource).hasClients =
      true := by
  by_cases member : client ∈ resource.clientsAwaitingCallback
  · simp [CachedResource.hasClients, member, List.ne_nil_of_mem member]
  · simp [CachedResource.hasClients, member]

/-- A resource that was given a client has one. -/
theorem hasClients_addClientToSet (cache : MemoryCache) (address : Address) (client : Client) :
    ((cache.addClientToSet address client).resource address).hasClients = true := by
  unfold MemoryCache.addClientToSet
  dsimp only
  split
  · rw [update_resource, if_pos rfl]
    exact hasClients_waiting _ client
  · simp [CachedResource.hasClients]

/-- Clients move to a resource that has clients already or no decoded data. -/
theorem switchClients (accounted : Accounted cache) {target : Address}
    (outside : (cache.resource address).inCache = false) (ne : target ≠ address)
    (undecoded : (cache.resource address).clients ≠ [] →
      (cache.resource target).hasClients = false → (cache.resource target).decodedSize = 0) :
    Accounted (cache.switchClientsToRevalidatedResource address target) := by
  unfold MemoryCache.switchClientsToRevalidatedResource
  generalize (cache.resource address).clients = clientsToMove at undecoded
  have added (clients : List Client) (start : MemoryCache) (fine : Accounted start)
      (condition : clients ≠ [] → (start.resource target).hasClients = false →
        (start.resource target).decodedSize = 0) :
      Accounted (clients.foldl (fun cache client => cache.addClientToSet target client)
        start) := by
    induction clients generalizing start with
    | nil => exact fine
    | cons client rest ih =>
      refine ih _
        (fine.addClientToSet client (fun _ => condition (List.cons_ne_nil _ _)))
        (fun _ dead => ?_)
      rw [hasClients_addClientToSet] at dead
      exact absurd dead.symm Bool.false_ne_true
  have told (clients : List Client) (start : MemoryCache) (fine : Accounted start) :
      Accounted (clients.foldl (fun cache client =>
        if client ∈ (cache.resource target).clients then cache.didAddClient target client
        else cache) start) := by
    induction clients generalizing start with
    | nil => exact fine
    | cons client rest ih =>
      refine ih _ ?_
      change Accounted (if client ∈ (start.resource target).clients then
        start.didAddClient target client else start)
      split
      · exact fine.didAddClient target client
      · exact fine
  refine told _ _ (added _ _ (accounted.update_outside outside outside rfl) ?_)
  rw [update_resource, if_neg ne]
  exact undecoded

/-- What an eviction leaves of the resources. -/
theorem evict_resource (accounted : Accounted cache) (address : Address) :
    DiffersAt cache (cache.evict address) address ∧ (cache.evict address).resource address =
        { cache.resource address with
          inCache := false, inLiveDecodedResourcesList := false } := by
  unfold MemoryCache.evict
  split
  · refine ⟨⟨?_, fun node ne => ?_⟩, ?_⟩
    · simp [setInCache, removeURL]
    · simp [setInCache, removeURL, ne]
    · simp [setInCache, removeURL]
  · rename_i outside
    rw [Bool.not_eq_true] at outside
    have unmarked : (cache.resource address).inLiveDecodedResourcesList = false := by
      by_contra marked
      rw [Bool.not_eq_false] at marked
      exact Bool.false_ne_true (outside.symm.trans ((accounted.flag_iff _).1 marked).1)
    refine ⟨⟨rfl, fun _ _ => rfl⟩, ?_⟩
    generalize cache.resource address = resource at outside unmarked ⊢
    cases resource
    dsimp only at outside unmarked
    rw [outside, unmarked]

/-- A resource comes back in the place of the one that revalidated it. -/
theorem revalidationSucceeded (accounted : Accounted cache) {target : Address}
    (revalidates : (cache.resource address).resourceToRevalidate = some target)
    (ne : target ≠ address) (allocated : target < cache.created)
    (outside : (cache.resource target).inCache = false)
    (accessed : (cache.resource target).accessCount ≠ 0)
    (undecoded : (cache.resource address).clients ≠ [] →
      (cache.resource target).hasClients = false → (cache.resource target).decodedSize = 0)
    (response : ResourceResponse) : Accounted (cache.revalidationSucceeded address response) := by
  unfold MemoryCache.revalidationSucceeded
  rw [revalidates]
  obtain ⟨evictDiffers, evictHere⟩ := accounted.evict_resource address
  have targetEq := evictDiffers.resource_eq target ne
  obtain ⟨returned, returnDiffers, flag, targetHere⟩ :=
    (accounted.evict address).bringBack (by rw [evictDiffers.created_eq]; exact allocated)
      (by rw [targetEq]; exact outside) (by rw [targetEq]; exact accessed) response
  have sourceEq := returnDiffers.resource_eq address ne.symm
  refine Accounted.clearResourceToRevalidate ?_ address
  refine returned.switchClients ?_ ne ?_
  · rw [sourceEq, evictHere]
  · rw [sourceEq, evictHere, targetHere, targetEq]
    exact undecoded

end Accounted

/-! ## Runs -/

/-- The condition on one call.  Resources are added when they are new, and a removed
client is one that was added; these the callers see to.  The first client of a
resource in the cache must not find decoded data. -/
def Permitted (cache : MemoryCache) : Operation → Prop
  | .add address =>
    address < cache.created ∧ (cache.resource address).accessCount = 0 ∧
      (cache.resource address).hasClients = false
  | .resourceAccessed address =>
    (cache.resource address).inCache = true ∧ (cache.resource address).accessCount + 1 ≠ 0
  | .revalidationSucceeded address _ =>
    ∃ target, (cache.resource address).resourceToRevalidate = some target ∧
      target ≠ address ∧ target < cache.created ∧
      (cache.resource target).inCache = false ∧
      (cache.resource target).accessCount ≠ 0 ∧
      ((cache.resource address).clients ≠ [] → (cache.resource target).hasClients = false →
          (cache.resource target).decodedSize = 0)
  | .addClient address _ =>
    (cache.resource address).inCache = true → (cache.resource address).hasClients = false →
        (cache.resource address).decodedSize = 0
  | .removeClient address client =>
    client ∈ (cache.resource address).clients ∨
      client ∈ (cache.resource address).clientsAwaitingCallback
  | .resize length => ∀ index, length ≤ index → (cache.lruList index).head = none
  | _ => True

/-- Every call of a run is permitted when it is made. -/
def AllPermitted : MemoryCache → List Operation → Prop
  | _, [] => True
  | cache, op :: ops =>
    Permitted cache op ∧ AllPermitted (cache.apply op) ops

variable {cache : MemoryCache}

/-- One permitted call keeps the account. -/
theorem Accounted.apply (accounted : Accounted cache) {op : Operation}
    (permitted : Permitted cache op) : Accounted (cache.apply op) := by
  cases op with
  | create type url objectSize => exact accounted.create type url objectSize
  | add address => exact accounted.add permitted.1 permitted.2.1 permitted.2.2
  | resourceAccessed address => exact accounted.resourceAccessed permitted.1 permitted.2
  | evict address => exact accounted.evict address
  | setResponse address response =>
    simp only [MemoryCache.apply, MemoryCache.setResponse]
    exact accounted.update_same (sameAccount_response _ _)
  | setLoading address loading =>
    simp only [MemoryCache.apply]
    exact accounted.update_same (sameAccount_loading _ _)
  | increasePreloadCount address | decreasePreloadCount address =>
    simp only [MemoryCache.apply]
    exact accounted.update_same (sameAccount_preloadCount _ _)
  | setResourceToRevalidate address target => exact accounted.setResourceToRevalidate address target
  | clearResourceToRevalidate address => exact accounted.clearResourceToRevalidate address
  | revalidationSucceeded address response =>
    obtain ⟨target, revalidates, ne, allocated, outside, accessed, undecoded⟩ := permitted
    exact accounted.revalidationSucceeded revalidates ne allocated outside accessed
      undecoded response
  | addClient address client =>
    have added := accounted.addClientToSet client permitted
    change Accounted (cache.addClient address client)
    unfold MemoryCache.addClient
    dsimp only
    split
    · exact added
    · exact added.didAddClient address client
  | didAddClient address client => exact accounted.didAddClient address client
  | removeClient address client => exact accounted.removeClient permitted
  | setDecodedSize address size => exact accounted.setDecodedSize address size
  | setEncodedSize address size => exact accounted.setEncodedSize address size
  | didAccessDecodedData address => exact accounted.didAccessDecodedData address
  | resize length => exact accounted.resize length permitted
  | setCapacities minDeadBytes maxDeadBytes totalBytes | setPruneEnabled enabled
  | setDisabled disabled =>
    exact ⟨accounted.allocated, accounted.queued.congr rfl rfl (fun _ _ => rfl) (fun _ _ => rfl),
      accounted.tracked.congr rfl rfl (fun _ => rfl),
      accounted.counted.congr rfl rfl (fun _ _ _ => rfl)⟩

/-- A run of permitted calls keeps the account. -/
theorem Accounted.run (accounted : Accounted cache) {ops : List Operation}
    (permitted : AllPermitted cache ops) : Accounted (cache.run ops) := by
  induction ops generalizing cache with
  | nil => exact accounted
  | cons op ops ih => exact ih (accounted.apply permitted.1) permitted.2

theorem accounted_empty (capacity : UInt32) : Accounted (empty capacity) := by
  have noneCached : (empty capacity).cached = ∅ :=
    Finset.eq_empty_of_forall_notMem
      (fun _ member => absurd (Finset.mem_filter.1 member).2 Bool.false_ne_true)
  have noneLive : (empty capacity).liveDecoded = ∅ :=
    Finset.eq_empty_of_forall_notMem
      (fun _ member => absurd (Finset.mem_filter.1 member).2.1 Bool.false_ne_true)
  refine ⟨fun _ inside => absurd inside Bool.false_ne_true, ?_, ?_, ?_⟩
  · rw [noneCached]
    refine ⟨fun _ => [], fun index => ?_, fun index address => ?_, fun _ _ => ⟨rfl, rfl⟩,
      fun address member => ?_⟩
    · exact represents_nil_iff.2 (by simp [lruList, empty])
    · simp
    · simp at member
  · rw [noneLive]
    refine ⟨[], Represents.empty _, fun address => ?_, fun address => ?_,
      fun _ _ => ⟨rfl, rfl⟩⟩
    · simp
    · simp [empty, CachedResource.create]
  · exact ⟨rfl, rfl⟩

/-! ## The account in the terms of the cache -/

/-- The sum of the sizes of the resources in the cache, with or without clients. -/
def sizeOfCached (cache : MemoryCache) (live : Bool) : Nat :=
  ∑ address ∈ cache.cached.filter
    (fun address => (cache.resource address).hasClients = live),
    (cache.resource address).size.toNat

/-- The totals are the sums of the sizes, counted in words of 32 bits; every resource
in the cache that was accessed is in the LRU list its size and its access count
choose, and in no other; the list of live decoded resources holds those with
clients and decoded data. -/
structure Consistent (cache : MemoryCache) : Prop where
  liveSize_eq : cache.liveSize.toNat = cache.sizeOfCached true % 2 ^ 32
  deadSize_eq : cache.deadSize.toNat = cache.sizeOfCached false % 2 ^ 32
  lists : ∃ queue : Nat → List Address,
    (∀ index, Represents cache.allLinks (cache.lruList index) (queue index)) ∧
    ∀ index address, address ∈ queue index ↔
      (cache.resource address).inCache = true ∧ (cache.resource address).accessCount ≠ 0 ∧
        queueIndex (cache.resource address) = index
  live : ∃ nodes : List Address, Represents cache.liveLinks cache.liveDecodedResources nodes ∧
    ∀ address, address ∈ nodes ↔ (cache.resource address).inCache = true ∧
        (cache.resource address).hasClients = true ∧ (cache.resource address).decodedSize ≠ 0

/-- A sum of words is the sum of the numbers, modulo the word. -/
theorem toNat_total (cache : MemoryCache) (live : Bool) :
    (cache.total cache.cached live).toNat = cache.sizeOfCached live % 2 ^ 32 := by
  unfold total sizeOfCached
  generalize cache.cached = counted
  induction counted using Finset.induction_on with
  | empty => rfl
  | insert address rest outside ih =>
    rw [Finset.sum_insert outside, UInt32.toNat_add, ih, Finset.filter_insert, share]
    split
    · rw [Finset.sum_insert (fun member => outside (Finset.mem_filter.1 member).1), Nat.add_mod_mod]
    · simp

theorem Accounted.consistent (accounted : Accounted cache) : Consistent cache where
  liveSize_eq := by rw [accounted.counted.liveSize_eq, toNat_total]
  deadSize_eq := by rw [accounted.counted.deadSize_eq, toNat_total]
  lists := by
    obtain ⟨queue, queues⟩ := accounted.queued
    refine ⟨queue, queues.represents, fun index address => ?_⟩
    rw [queues.mem_iff, accounted.mem_cached]
    constructor
    · rintro ⟨inside, indexEq⟩
      exact ⟨inside, accounted.accessCount_ne_zero inside, indexEq⟩
    · rintro ⟨inside, _, indexEq⟩
      exact ⟨inside, indexEq⟩
  live := by
    obtain ⟨nodes, tracks⟩ := accounted.tracked
    refine ⟨nodes, tracks.represents, fun address => ?_⟩
    rw [tracks.mem_iff, accounted.mem_liveDecoded]
    rfl

/-- Decoded data that is set to nothing when it is destroyed, and a clock for which
nothing is too new. -/
def plainEnvironment : Environment where
  destroyDecodedData := fun _ address => [.setDecodedSize address 0]
  allClientsRemoved := fun _ _ => []
  tooNewToPrune := fun _ _ => false
  targetSize := fun capacity => capacity / 20 * 19
  percentageOf := fun _ => none
  protocolIsHttps := fun url => url.startsWith "https:"

/-- An image is loaded, shown and decoded. -/
def shownImage : List Event :=
  [.call (.create .otherResource "http://a/i.png" 400), .call (.add 0),
    .call (.setEncodedSize 0 1000), .call (.addClient 0 1), .call (.setDecodedSize 0 4000)]

end MemoryCache
end Loader
end PalmWebKit
