import PalmWebKit.Logic.IntrusiveList

/-!
# The memory cache and its resources

The cache of loaded resources: a map from URLs, one LRU list for each size class,
one list of the live resources with decoded data, and two running totals.  The
links of both kinds of list are fields of the resources; here they are kept beside
the resources as functions of the address.

Memory is purgeable on other platforms only, so the purgeable branches are left
out, and a resource that is deleted keeps its address, which is never used again.
-/

namespace PalmWebKit
namespace Loader
namespace MemoryCache

open Logic.IntrusiveList

/-- The place of a resource on the heap. -/
abbrev Address := Nat

/-- One `CachedResourceClient`. -/
abbrev Client := Nat

/-- The types of resources that this part tells apart. -/
inductive ResourceType where
  | rawResource
  | otherResource
deriving DecidableEq

/-- What is read of a `ResourceResponse`. -/
structure ResourceResponse where
  isNull : Bool
  cacheControlContainsNoStore : Bool
deriving DecidableEq

/-- `ResourceResponse::memoryUsage`: an average, whatever the response holds. -/
def ResourceResponse.memoryUsage (_response : ResourceResponse) : UInt32 := 1280

/-- A `CachedResource`, without its list links. -/
structure CachedResource where
  type : ResourceType
  url : String
  /-- `sizeof(CachedResource)` -/
  objectSize : UInt32
  response : ResourceResponse
  encodedSize : UInt32
  decodedSize : UInt32
  accessCount : UInt32
  preloadCount : UInt32
  loading : Bool
  inCache : Bool
  inLiveDecodedResourcesList : Bool
  resourceToRevalidate : Option Address
  proxyResource : Option Address
  /-- one occurrence for each count in the `HashCountedSet` -/
  clients : List Client
  clientsAwaitingCallback : List Client
deriving DecidableEq

namespace CachedResource

/-- The constructor. -/
def create (type : ResourceType) (url : String) (objectSize : UInt32) : CachedResource where
  type := type
  url := url
  objectSize := objectSize
  response := { isNull := true, cacheControlContainsNoStore := false }
  encodedSize := 0
  decodedSize := 0
  accessCount := 0
  preloadCount := 0
  loading := false
  inCache := false
  inLiveDecodedResourcesList := false
  resourceToRevalidate := none
  proxyResource := none
  clients := []
  clientsAwaitingCallback := []

def hasClients (resource : CachedResource) : Bool :=
  !resource.clients.isEmpty || !resource.clientsAwaitingCallback.isEmpty

def averageClientsHashMapSize : UInt32 := 384

def overheadSize (resource : CachedResource) : UInt32 :=
  resource.objectSize + resource.response.memoryUsage + averageClientsHashMapSize +
    UInt32.ofNat resource.url.length * 2

def size (resource : CachedResource) : UInt32 :=
  resource.encodedSize + resource.decodedSize + resource.overheadSize

def isLoaded (resource : CachedResource) : Bool := !resource.loading

def isPreloaded (resource : CachedResource) : Bool := resource.preloadCount != 0

def isCacheValidator (resource : CachedResource) : Bool := resource.resourceToRevalidate.isSome

end CachedResource

def fastLog2 (value : UInt32) : Nat :=
  let log2 := if value &&& (value - 1) ≠ 0 then 1 else 0
  let (log2, value) := if value >>> 16 ≠ 0 then (log2 + 16, value >>> 16) else (log2, value)
  let (log2, value) := if value >>> 8 ≠ 0 then (log2 + 8, value >>> 8) else (log2, value)
  let (log2, value) := if value >>> 4 ≠ 0 then (log2 + 4, value >>> 4) else (log2, value)
  let (log2, value) := if value >>> 2 ≠ 0 then (log2 + 2, value >>> 2) else (log2, value)
  if value >>> 1 ≠ 0 then log2 + 1 else log2

/-- The size class of a resource. -/
def queueIndex (resource : CachedResource) : Nat :=
  fastLog2 (resource.size / max resource.accessCount 1)

end MemoryCache

open MemoryCache Logic.IntrusiveList

/-- The cache, with the resources it is about. -/
structure MemoryCache where
  disabled : Bool
  pruneEnabled : Bool
  capacity : UInt32
  minDeadCapacity : UInt32
  maxDeadCapacity : UInt32
  liveSize : UInt32
  deadSize : UInt32
  allResources : List (Ends Address)
  liveDecodedResources : Ends Address
  /-- the `HashMap` from URLs, in the order of its iteration -/
  resources : List (String × Address)
  /-- the addresses below this one have been allocated -/
  created : Nat
  resource : Address → CachedResource
  /-- `m_nextInAllResourcesList` and `m_prevInAllResourcesList` -/
  allLinks : Links Address
  /-- `m_nextInLiveResourcesList` and `m_prevInLiveResourcesList` -/
  liveLinks : Links Address

namespace MemoryCache

/-- The constructor; `capacity` is `cDefaultCacheCapacity`. -/
def empty (capacity : UInt32) : MemoryCache where
  disabled := false
  pruneEnabled := true
  capacity := capacity
  minDeadCapacity := 0
  maxDeadCapacity := capacity
  liveSize := 0
  deadSize := 0
  allResources := []
  liveDecodedResources := Ends.empty
  resources := []
  created := 0
  resource := fun _ => CachedResource.create .otherResource "" 0
  allLinks := { next := fun _ => none, prev := fun _ => none }
  liveLinks := { next := fun _ => none, prev := fun _ => none }

/-- Change the fields of one resource. -/
def update (cache : MemoryCache) (address : Address)
    (change : CachedResource → CachedResource) : MemoryCache :=
  { cache with
    resource := Function.update cache.resource address (change (cache.resource address)) }

/-! ## The lists -/

/-- The list of one size class; the vector is longer than `index` where this is read. -/
def lruList (cache : MemoryCache) (index : Nat) : Ends Address :=
  (cache.allResources[index]?).getD Ends.empty

/-- `lruListFor`: the vector grows to hold the resource's list. -/
def growFor (cache : MemoryCache) (address : Address) : MemoryCache :=
  let needed := queueIndex (cache.resource address) + 1
  { cache with
    allResources := cache.allResources ++
      List.replicate (needed - cache.allResources.length) Ends.empty }

/-- Write back the list of the resource's size class. -/
def setLruList (cache : MemoryCache) (address : Address)
    (changed : Links Address × Ends Address) : MemoryCache :=
  { cache with
    allLinks := changed.1
    allResources := cache.allResources.set (queueIndex (cache.resource address)) changed.2 }

def removeFromLRUList (cache : MemoryCache) (address : Address) : MemoryCache :=
  if (cache.resource address).accessCount = 0 then cache
  else
    let grown := cache.growFor address
    grown.setLruList address
      (remove grown.allLinks (grown.lruList (queueIndex (grown.resource address))) address)

def insertInLRUList (cache : MemoryCache) (address : Address) : MemoryCache :=
  let grown := cache.growFor address
  grown.setLruList address
    (insertFront grown.allLinks (grown.lruList (queueIndex (grown.resource address))) address)

def removeFromLiveDecodedResourcesList (cache : MemoryCache) (address : Address) : MemoryCache :=
  if (cache.resource address).inLiveDecodedResourcesList then
    let marked := cache.update address
      (fun resource => { resource with inLiveDecodedResourcesList := false })
    let removed := remove marked.liveLinks marked.liveDecodedResources address
    { marked with liveLinks := removed.1, liveDecodedResources := removed.2 }
  else cache

def insertInLiveDecodedResourcesList (cache : MemoryCache) (address : Address) : MemoryCache :=
  let marked := cache.update address
    (fun resource => { resource with inLiveDecodedResourcesList := true })
  let inserted := insertFront marked.liveLinks marked.liveDecodedResources address
  { marked with liveLinks := inserted.1, liveDecodedResources := inserted.2 }

/-! ## The totals -/

def addToLiveResourcesSize (cache : MemoryCache) (address : Address) : MemoryCache :=
  { cache with
    liveSize := cache.liveSize + (cache.resource address).size
    deadSize := cache.deadSize - (cache.resource address).size }

def removeFromLiveResourcesSize (cache : MemoryCache) (address : Address) : MemoryCache :=
  { cache with
    liveSize := cache.liveSize - (cache.resource address).size
    deadSize := cache.deadSize + (cache.resource address).size }

/-- `adjustSize`: the signed difference is added modulo the word, so it is passed as
the word it becomes. -/
def adjustSize (cache : MemoryCache) (live : Bool) (delta : UInt32) : MemoryCache :=
  if live then { cache with liveSize := cache.liveSize + delta }
  else { cache with deadSize := cache.deadSize + delta }

/-! ## The map -/

def removeURL (cache : MemoryCache) (url : String) : MemoryCache :=
  { cache with resources := cache.resources.filter (fun entry => entry.1 ≠ url) }

def setURL (cache : MemoryCache) (url : String) (address : Address) : MemoryCache :=
  { cache.removeURL url with
    resources := (cache.removeURL url).resources ++ [(url, address)] }

def setInCache (cache : MemoryCache) (address : Address) (inCache : Bool) : MemoryCache :=
  cache.update address (fun resource => { resource with inCache := inCache })

/-! ## The operations of the cache -/

def resourceAccessed (cache : MemoryCache) (address : Address) : MemoryCache :=
  let removed := cache.removeFromLRUList address
  let resource := removed.resource address
  let counted :=
    if resource.accessCount = 0 then removed.adjustSize resource.hasClients resource.size
    else removed
  let increased := counted.update address
    (fun resource => { resource with accessCount := resource.accessCount + 1 })
  increased.insertInLRUList address

def add (cache : MemoryCache) (address : Address) : MemoryCache :=
  if cache.disabled then cache
  else
    let mapped := cache.setURL (cache.resource address).url address
    (mapped.setInCache address true).resourceAccessed address

def evict (cache : MemoryCache) (address : Address) : MemoryCache :=
  if (cache.resource address).inCache then
    let unmapped := cache.removeURL (cache.resource address).url
    let outside := unmapped.setInCache address false
    let unlisted := outside.removeFromLRUList address
    let unlisted := unlisted.removeFromLiveDecodedResourcesList address
    unlisted.adjustSize (unlisted.resource address).hasClients
      (0 - (unlisted.resource address).size)
  else cache

/-! ## The operations of a resource -/

def setResponse (cache : MemoryCache) (address : Address) (response : ResourceResponse) :
    MemoryCache := cache.update address (fun resource => { resource with response := response })

def setResourceToRevalidate (cache : MemoryCache) (address target : Address) : MemoryCache :=
  let proxied := cache.update target
    (fun resource => { resource with proxyResource := some address })
  proxied.update address (fun resource => { resource with resourceToRevalidate := some target })

/-- `clearResourceToRevalidate`, outside the switching of clients. -/
def clearResourceToRevalidate (cache : MemoryCache) (address : Address) : MemoryCache :=
  match (cache.resource address).resourceToRevalidate with
  | none => cache
  | some target =>
    let released :=
      if (cache.resource target).proxyResource = some address then
        cache.update target (fun resource => { resource with proxyResource := none })
      else cache
    released.update address (fun resource => { resource with resourceToRevalidate := none })

def addClientToSet (cache : MemoryCache) (address : Address) (client : Client) : MemoryCache :=
  let resource := cache.resource address
  let counted :=
    if resource.hasClients = false ∧ resource.inCache = true then
      cache.addToLiveResourcesSize address
    else cache
  if resource.type = .rawResource ∧ resource.response.isNull = false ∧
      resource.proxyResource = none then
    counted.update address (fun resource =>
      { resource with clientsAwaitingCallback :=
          if client ∈ resource.clientsAwaitingCallback then
            resource.clientsAwaitingCallback
          else client :: resource.clientsAwaitingCallback })
  else counted.update address (fun resource =>
      { resource with clients := client :: resource.clients })

/-- `didAddClient`, when the callback of a waiting client is made. -/
def didAddClient (cache : MemoryCache) (address : Address) (client : Client) : MemoryCache :=
  if client ∈ (cache.resource address).clientsAwaitingCallback then
    cache.update address (fun resource =>
      { resource with
        clients := client :: resource.clients
        clientsAwaitingCallback := resource.clientsAwaitingCallback.filter (· ≠ client) })
  else cache

/-- `addClient`: a client that must wait for its callback is told nothing yet. -/
def addClient (cache : MemoryCache) (address : Address) (client : Client) : MemoryCache :=
  let resource := cache.resource address
  let added := cache.addClientToSet address client
  if resource.type = .rawResource ∧ resource.response.isNull = false ∧
      resource.proxyResource = none then
    added
  else added.didAddClient address client

/-- `removeClient`, until the cache is asked to prune. -/
def removeClient (cache : MemoryCache) (address : Address) (client : Client) : MemoryCache :=
  let removed := cache.update address (fun resource =>
    if client ∈ resource.clientsAwaitingCallback then
      { resource with
        clientsAwaitingCallback := resource.clientsAwaitingCallback.filter (· ≠ client) }
    else { resource with clients := resource.clients.erase client })
  if (removed.resource address).hasClients = false ∧ (removed.resource address).inCache = true then
    (removed.removeFromLiveResourcesSize address).removeFromLiveDecodedResourcesList address
  else removed

def setDecodedSize (cache : MemoryCache) (address : Address) (size : UInt32) : MemoryCache :=
  let old := cache.resource address
  if size = old.decodedSize then cache
  else
    let delta := size - old.decodedSize
    let unlisted := if old.inCache then cache.removeFromLRUList address else cache
    let resized := unlisted.update address
      (fun resource => { resource with decodedSize := size })
    if old.inCache then
      let listed := resized.insertInLRUList address
      let resource := listed.resource address
      let tracked :=
        if size ≠ 0 ∧ resource.inLiveDecodedResourcesList = false ∧ resource.hasClients = true then
          listed.insertInLiveDecodedResourcesList address
        else if size = 0 ∧ resource.inLiveDecodedResourcesList = true then
          listed.removeFromLiveDecodedResourcesList address
        else listed
      tracked.adjustSize resource.hasClients delta
    else resized

def setEncodedSize (cache : MemoryCache) (address : Address) (size : UInt32) : MemoryCache :=
  let old := cache.resource address
  if size = old.encodedSize then cache
  else
    let delta := size - old.encodedSize
    let unlisted := if old.inCache then cache.removeFromLRUList address else cache
    let resized := unlisted.update address
      (fun resource => { resource with encodedSize := size })
    if old.inCache then
      (resized.insertInLRUList address).adjustSize old.hasClients delta
    else resized

/-- `didAccessDecodedData`, until the cache is asked to prune. -/
def didAccessDecodedData (cache : MemoryCache) (address : Address) : MemoryCache :=
  let resource := cache.resource address
  if resource.inCache = true ∧ resource.inLiveDecodedResourcesList = true then
    (cache.removeFromLiveDecodedResourcesList address).insertInLiveDecodedResourcesList address
  else cache

/-- `switchClientsToRevalidatedResource`; the clients are told when all have moved. -/
def switchClientsToRevalidatedResource (cache : MemoryCache) (address target : Address) :
    MemoryCache :=
  let clientsToMove := (cache.resource address).clients
  let cleared := cache.update address (fun resource => { resource with clients := [] })
  let moved := clientsToMove.foldl
    (fun cache client => cache.addClientToSet target client) cleared
  clientsToMove.foldl
    (fun cache client =>
      if client ∈ (cache.resource target).clients then cache.didAddClient target client
      else cache)
    moved

/-- The end of the list insertions of `revalidationSucceeded`. -/
def insertIfLiveDecoded (cache : MemoryCache) (address : Address) : MemoryCache :=
  let resource := cache.resource address
  if resource.decodedSize ≠ 0 ∧ resource.hasClients = true then
    cache.insertInLiveDecodedResourcesList address
  else cache

/-- The part of `revalidationSucceeded` between the eviction of the revalidating
resource and the switching of its clients. -/
def bringBack (cache : MemoryCache) (address : Address)
    (response : ResourceResponse) : MemoryCache :=
  let mapped := cache.setURL (cache.resource address).url address
  let inside := mapped.setInCache address true
  let updated := inside.setResponse address response
  let listed := updated.insertInLRUList address
  let delta := (listed.resource address).size
  let tracked := listed.insertIfLiveDecoded address
  if delta ≠ 0 then tracked.adjustSize (tracked.resource address).hasClients delta
  else tracked

/-- `revalidationSucceeded`; `response` is the resource's own response with the headers
of the validating one. -/
def revalidationSucceeded (cache : MemoryCache) (revalidatingResource : Address)
    (response : ResourceResponse) : MemoryCache :=
  match (cache.resource revalidatingResource).resourceToRevalidate with
  | none => cache
  | some address =>
    let evicted := cache.evict revalidatingResource
    let returned := evicted.bringBack address response
    let switched := returned.switchClientsToRevalidatedResource revalidatingResource address
    switched.clearResourceToRevalidate revalidatingResource

end MemoryCache
end Loader
end PalmWebKit
