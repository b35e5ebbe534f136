import PalmWebKit.Loader.MemoryCache

/-!
# Runs of the memory cache

An operation is one call that changes the cache or a resource.  Pruning and the
other loops of the cache carry out several of them, one after the other; what they
call outside the cache (the decoded data of each type of resource, the clock, the
arithmetic on percentages) is in `Environment`.
-/

namespace PalmWebKit
namespace Loader
namespace MemoryCache

open Logic.IntrusiveList

/-- One call. -/
inductive Operation where
  | create (type : ResourceType) (url : String) (objectSize : UInt32)
  | add (address : Address)
  | resourceAccessed (address : Address)
  | evict (address : Address)
  | setResponse (address : Address) (response : ResourceResponse)
  | setLoading (address : Address) (loading : Bool)
  | increasePreloadCount (address : Address)
  | decreasePreloadCount (address : Address)
  | setResourceToRevalidate (address target : Address)
  | clearResourceToRevalidate (address : Address)
  | revalidationSucceeded (address : Address) (response : ResourceResponse)
  | addClient (address : Address) (client : Client)
  | didAddClient (address : Address) (client : Client)
  | removeClient (address : Address) (client : Client)
  | setDecodedSize (address : Address) (size : UInt32)
  | setEncodedSize (address : Address) (size : UInt32)
  | didAccessDecodedData (address : Address)
  | resize (length : Nat)
  | setCapacities (minDeadBytes maxDeadBytes totalBytes : UInt32)
  | setPruneEnabled (enabled : Bool)
  | setDisabled (disabled : Bool)

/-- Allocate a resource at the next address. -/
def create (cache : MemoryCache) (type : ResourceType) (url : String)
    (objectSize : UInt32) : MemoryCache :=
  let allocated := cache.update cache.created
    (fun _ => CachedResource.create type url objectSize)
  { allocated with created := cache.created + 1 }

/-- `m_allResources.resize` to a smaller length. -/
def resize (cache : MemoryCache) (length : Nat) : MemoryCache :=
  { cache with allResources := cache.allResources.take length }

/-- Carry out one call, without the loops that it starts. -/
def apply (cache : MemoryCache) : Operation → MemoryCache
  | .create type url objectSize => cache.create type url objectSize
  | .add address => cache.add address
  | .resourceAccessed address => cache.resourceAccessed address
  | .evict address => cache.evict address
  | .setResponse address response => cache.setResponse address response
  | .setLoading address loading =>
    cache.update address (fun resource => { resource with loading := loading })
  | .increasePreloadCount address => cache.update address
      (fun resource => { resource with preloadCount := resource.preloadCount + 1 })
  | .decreasePreloadCount address => cache.update address
      (fun resource => { resource with preloadCount := resource.preloadCount - 1 })
  | .setResourceToRevalidate address target => cache.setResourceToRevalidate address target
  | .clearResourceToRevalidate address => cache.clearResourceToRevalidate address
  | .revalidationSucceeded address response => cache.revalidationSucceeded address response
  | .addClient address client => cache.addClient address client
  | .didAddClient address client => cache.didAddClient address client
  | .removeClient address client => cache.removeClient address client
  | .setDecodedSize address size => cache.setDecodedSize address size
  | .setEncodedSize address size => cache.setEncodedSize address size
  | .didAccessDecodedData address => cache.didAccessDecodedData address
  | .resize length => cache.resize length
  | .setCapacities minDeadBytes maxDeadBytes totalBytes =>
    { cache with
      minDeadCapacity := minDeadBytes
      maxDeadCapacity := maxDeadBytes
      capacity := totalBytes }
  | .setPruneEnabled enabled => { cache with pruneEnabled := enabled }
  | .setDisabled disabled => { cache with disabled := disabled }

/-- Carry out calls in order. -/
def run (cache : MemoryCache) (ops : List Operation) : MemoryCache := ops.foldl apply cache

@[simp]
theorem run_nil (cache : MemoryCache) : cache.run [] = cache := rfl

@[simp]
theorem run_cons (cache : MemoryCache) (op : Operation) (ops : List Operation) :
    cache.run (op :: ops) = (cache.apply op).run ops := rfl

theorem run_append (cache : MemoryCache) (first second : List Operation) :
    cache.run (first ++ second) = (cache.run first).run second := List.foldl_append

/-! ## Loops -/

/-- What is not part of the cache. -/
structure Environment where
  /-- the calls that `destroyDecodedData` of this resource makes -/
  destroyDecodedData : MemoryCache → Address → List Operation
  /-- the calls that `allClientsRemoved` of this resource makes -/
  allClientsRemoved : MemoryCache → Address → List Operation
  /-- the time since the last access is below `cMinDelayBeforeLiveDecodedPrune` -/
  tooNewToPrune : MemoryCache → Address → Bool
  /-- `capacity * cTargetPrunePercentage` -/
  targetSize : UInt32 → UInt32
  /-- `currentSize * prunePercentage`, `none` for a percentage out of range -/
  percentageOf : UInt32 → Option UInt32
  /-- `url().protocolIs("https")` -/
  protocolIsHttps : String → Bool

/-- A cache and the calls that led to it since a loop began. -/
structure Progress where
  cache : MemoryCache
  made : List Operation

def Progress.perform (progress : Progress) (ops : List Operation) : Progress where
  cache := progress.cache.run ops
  made := progress.made ++ ops

variable (env : Environment)

/-- The loop of `pruneLiveResourcesToSize`; `fuel` bounds the members of the list. -/
def pruneLiveLoop (targetSize : UInt32) : Nat → Option Address → Progress → Progress
  | 0, _, progress => progress
  | _, none, progress => progress
  | fuel + 1, some current, progress =>
    let prev := progress.cache.liveLinks.prev current
    let resource := progress.cache.resource current
    if resource.isLoaded ∧ resource.decodedSize ≠ 0 then
      if env.tooNewToPrune progress.cache current then progress
      else
        let destroyed := progress.perform
          (env.destroyDecodedData progress.cache current)
        if targetSize ≠ 0 ∧ destroyed.cache.liveSize ≤ targetSize then destroyed
        else pruneLiveLoop targetSize fuel prev destroyed
    else pruneLiveLoop targetSize fuel prev progress

def pruneLiveResourcesToSize (targetSize : UInt32) (progress : Progress) : Progress :=
  pruneLiveLoop env targetSize (progress.cache.created + 1)
    progress.cache.liveDecodedResources.tail progress

/-- Flush the decoded data in one queue.  The flag says that the target is met. -/
def flushLoop (targetSize : UInt32) : Nat → Option Address → Progress → Progress × Bool
  | 0, _, progress => (progress, false)
  | _, none, progress => (progress, false)
  | fuel + 1, some current, progress =>
    let previous := progress.cache.allLinks.prev current
    let resource := progress.cache.resource current
    let idle := !resource.hasClients && !resource.isPreloaded && resource.isLoaded
    let flushed :=
      if idle then
        progress.perform (env.destroyDecodedData progress.cache current)
      else progress
    if idle ∧ targetSize ≠ 0 ∧ flushed.cache.deadSize ≤ targetSize then (flushed, true)
    else if previous.any (fun address => !(flushed.cache.resource address).inCache) then
      (flushed, false)
    else flushLoop targetSize fuel previous flushed

/-- Evict from one queue.  The flag says that the target is met. -/
def evictLoop (targetSize : UInt32) : Nat → Option Address → Progress → Progress × Bool
  | 0, _, progress => (progress, false)
  | _, none, progress => (progress, false)
  | fuel + 1, some current, progress =>
    let previous := progress.cache.allLinks.prev current
    let resource := progress.cache.resource current
    let idle := !resource.hasClients && !resource.isPreloaded && !resource.isCacheValidator
    let evicted := if idle then progress.perform [.evict current] else progress
    if idle ∧ targetSize ≠ 0 ∧ evicted.cache.deadSize ≤ targetSize then (evicted, true)
    else if previous.any (fun address => !(evicted.cache.resource address).inCache) then
      (evicted, false)
    else evictLoop targetSize fuel previous evicted

/-- The queues from `index - 1` down to the first. -/
def pruneDeadQueues (targetSize : UInt32) : Nat → Bool → Progress → Progress
  | 0, _, progress => progress
  | index + 1, canShrinkLRULists, progress =>
    let flushed := flushLoop env targetSize (progress.cache.created + 1)
      (progress.cache.lruList index).tail progress
    if flushed.2 then flushed.1
    else
      let evicted := evictLoop targetSize (flushed.1.cache.created + 1)
        (flushed.1.cache.lruList index).tail flushed.1
      if evicted.2 then evicted.1
      else if (evicted.1.cache.lruList index).head ≠ none then
        pruneDeadQueues targetSize index false evicted.1
      else if canShrinkLRULists then
        pruneDeadQueues targetSize index true (evicted.1.perform [.resize index])
      else pruneDeadQueues targetSize index false evicted.1

def pruneDeadResourcesToSize (targetSize : UInt32) (progress : Progress) : Progress :=
  if targetSize ≠ 0 ∧ progress.cache.deadSize ≤ targetSize then progress
  else pruneDeadQueues env targetSize progress.cache.allResources.length true progress

def deadCapacity (cache : MemoryCache) : UInt32 :=
  min (max (cache.capacity - min cache.liveSize cache.capacity) cache.minDeadCapacity)
    cache.maxDeadCapacity

def liveCapacity (cache : MemoryCache) : UInt32 := cache.capacity - cache.deadCapacity

def pruneLiveResources (progress : Progress) : Progress :=
  let capacity := progress.cache.liveCapacity
  if progress.cache.pruneEnabled = false then progress
  else if capacity ≠ 0 ∧ progress.cache.liveSize ≤ capacity then progress
  else pruneLiveResourcesToSize env (env.targetSize capacity) progress

def pruneDeadResources (progress : Progress) : Progress :=
  let capacity := progress.cache.deadCapacity
  if progress.cache.pruneEnabled = false then progress
  else if capacity ≠ 0 ∧ progress.cache.deadSize ≤ capacity then progress
  else pruneDeadResourcesToSize env (env.targetSize capacity) progress

def prune (progress : Progress) : Progress :=
  let cache := progress.cache
  if cache.liveSize + cache.deadSize ≤ cache.capacity ∧ cache.maxDeadCapacity ≠ 0 ∧
      cache.deadSize ≤ cache.maxDeadCapacity then
    progress
  else pruneLiveResources env (pruneDeadResources env progress)

def pruneLiveResourcesToPercentage (progress : Progress) : Progress :=
  if progress.cache.pruneEnabled = false then progress
  else
    match env.percentageOf (progress.cache.liveSize + progress.cache.deadSize) with
    | none => progress
    | some targetSize => pruneLiveResourcesToSize env targetSize progress

def pruneDeadResourcesToPercentage (progress : Progress) : Progress :=
  if progress.cache.pruneEnabled = false then progress
  else
    match env.percentageOf (progress.cache.liveSize + progress.cache.deadSize) with
    | none => progress
    | some targetSize => pruneDeadResourcesToSize env targetSize progress

/-- The loop of `setDisabled`; `fuel` bounds the entries of the map. -/
def evictMapped : Nat → Progress → Progress
  | 0, progress => progress
  | fuel + 1, progress =>
    match progress.cache.resources with
    | [] => progress
    | (_, address) :: _ => evictMapped fuel (progress.perform [.evict address])

def setDisabled (disabled : Bool) (progress : Progress) : Progress :=
  let flagged := progress.perform [.setDisabled disabled]
  if disabled then evictMapped flagged.cache.resources.length flagged else flagged

/-- `removeClient`, with what it starts when the last client is gone. -/
def removeClientAndPrune (address : Address) (client : Client) (progress : Progress) : Progress :=
  let removed := progress.perform [.removeClient address client]
  let resource := removed.cache.resource address
  if resource.hasClients = false ∧ resource.inCache = true then
    let told := removed.perform (env.allClientsRemoved removed.cache address)
    if (told.cache.resource address).response.cacheControlContainsNoStore then
      if env.protocolIsHttps (told.cache.resource address).url then
        told.perform [.evict address]
      else told
    else prune env told
  else removed

/-- What happens to the cache from outside. -/
inductive Event where
  | call (op : Operation)
  | removeClient (address : Address) (client : Client)
  | didAccessDecodedData (address : Address)
  | destroyDecodedData (address : Address)
  | prune
  | pruneToPercentage
  | setCapacities (minDeadBytes maxDeadBytes totalBytes : UInt32)
  | setDisabled (disabled : Bool)
  | evictResources
  | removeResourcesWithOrigin (hasOrigin : String → Bool)
  | removeUrlFromCache (url : String)

/-- Carry out one event with all its loops. -/
def handle (progress : Progress) : Event → Progress
  | .call op => progress.perform [op]
  | .removeClient address client => removeClientAndPrune env address client progress
  | .didAccessDecodedData address =>
    let accessed := progress.perform [.didAccessDecodedData address]
    if (progress.cache.resource address).inCache then prune env accessed
    else accessed
  | .destroyDecodedData address =>
    progress.perform (env.destroyDecodedData progress.cache address)
  | .prune => prune env progress
  | .pruneToPercentage =>
    pruneLiveResourcesToPercentage env
      (pruneDeadResourcesToPercentage env progress)
  | .setCapacities minDeadBytes maxDeadBytes totalBytes =>
    prune env
      (progress.perform [.setCapacities minDeadBytes maxDeadBytes totalBytes])
  | .setDisabled disabled => setDisabled disabled progress
  | .evictResources =>
    if progress.cache.disabled then progress
    else setDisabled false (setDisabled true progress)
  | .removeResourcesWithOrigin hasOrigin =>
    progress.perform
      ((progress.cache.resources.filter (fun entry =>
        hasOrigin (progress.cache.resource entry.2).url)).map (fun entry => .evict entry.2))
  | .removeUrlFromCache url =>
    match progress.cache.resources.find? (fun entry => entry.1 = url) with
    | none => progress
    | some entry => progress.perform [.evict entry.2]

/-- Carry out events in order, from a cache without calls made. -/
def handleAll (cache : MemoryCache) (events : List Event) : Progress :=
  events.foldl (handle env) { cache := cache, made := [] }

/-! ## A loop carries out its calls -/

/-- The cache is what the calls made since `start` lead to. -/
def Progress.From (start : MemoryCache) (progress : Progress) : Prop :=
  progress.cache = start.run progress.made

namespace Progress.From

variable {start : MemoryCache}
variable {progress : Progress}

theorem perform (reached : progress.From start) (ops : List Operation) :
    (progress.perform ops).From start := by
  unfold From Progress.perform at *
  rw [run_append, ← reached]

theorem pruneLiveLoop (targetSize : UInt32) (fuel : Nat) (current : Option Address)
    (reached : progress.From start) :
    (pruneLiveLoop env targetSize fuel current progress).From start := by
  induction fuel generalizing current progress with
  | zero => simpa [MemoryCache.pruneLiveLoop] using reached
  | succ fuel ih =>
    cases current with
    | none => simpa [MemoryCache.pruneLiveLoop] using reached
    | some current =>
      simp only [MemoryCache.pruneLiveLoop]
      split_ifs
      · exact reached
      · exact reached.perform _
      · exact ih _ (reached.perform _)
      · exact ih _ reached

theorem flushLoop (targetSize : UInt32) (fuel : Nat) (current : Option Address)
    (reached : progress.From start) :
    (flushLoop env targetSize fuel current progress).1.From start := by
  induction fuel generalizing current progress with
  | zero => simpa [MemoryCache.flushLoop] using reached
  | succ fuel ih =>
    cases current with
    | none => simpa [MemoryCache.flushLoop] using reached
    | some current =>
      simp only [MemoryCache.flushLoop]
      split_ifs
      all_goals first
        | exact reached
        | exact reached.perform _
        | exact ih _ reached
        | exact ih _ (reached.perform _)

theorem evictLoop (targetSize : UInt32) (fuel : Nat) (current : Option Address)
    (reached : progress.From start) :
    (evictLoop targetSize fuel current progress).1.From start := by
  induction fuel generalizing current progress with
  | zero => simpa [MemoryCache.evictLoop] using reached
  | succ fuel ih =>
    cases current with
    | none => simpa [MemoryCache.evictLoop] using reached
    | some current =>
      simp only [MemoryCache.evictLoop]
      split_ifs
      all_goals first
        | exact reached
        | exact reached.perform _
        | exact ih _ reached
        | exact ih _ (reached.perform _)

theorem pruneDeadQueues (targetSize : UInt32) (index : Nat) (canShrinkLRULists : Bool)
    (reached : progress.From start) :
    (pruneDeadQueues env targetSize index canShrinkLRULists progress).From start := by
  induction index generalizing canShrinkLRULists progress with
  | zero => exact reached
  | succ index ih =>
    have flushed := flushLoop env targetSize (progress.cache.created + 1)
      (progress.cache.lruList index).tail reached
    have evicted := fun fuel current => evictLoop targetSize fuel current flushed
    simp only [MemoryCache.pruneDeadQueues]
    split_ifs
    · exact flushed
    · exact evicted _ _
    · exact ih _ (evicted _ _)
    · exact ih _ ((evicted _ _).perform _)
    · exact ih _ (evicted _ _)

theorem pruneLiveResourcesToSize (targetSize : UInt32) (reached : progress.From start) :
    (pruneLiveResourcesToSize env targetSize progress).From start :=
  pruneLiveLoop env targetSize _ _ reached

theorem pruneDeadResourcesToSize (targetSize : UInt32) (reached : progress.From start) :
    (pruneDeadResourcesToSize env targetSize progress).From start := by
  unfold MemoryCache.pruneDeadResourcesToSize
  split_ifs
  · exact reached
  · exact pruneDeadQueues env targetSize _ _ reached

theorem prune (reached : progress.From start) : (prune env progress).From start := by
  have dead : (pruneDeadResources env progress).From start := by
    unfold pruneDeadResources
    dsimp only
    split_ifs
    · exact reached
    · exact reached
    · exact pruneDeadResourcesToSize env _ reached
  unfold MemoryCache.prune pruneLiveResources
  dsimp only
  split_ifs
  · exact reached
  · exact dead
  · exact dead
  · exact pruneLiveResourcesToSize env _ dead

theorem pruneToPercentage (reached : progress.From start) :
    (handle env progress .pruneToPercentage).From start := by
  have dead : (pruneDeadResourcesToPercentage env progress).From start := by
    unfold pruneDeadResourcesToPercentage
    split_ifs
    · exact reached
    · split
      · exact reached
      · exact pruneDeadResourcesToSize env _ reached
  unfold handle pruneLiveResourcesToPercentage
  dsimp only
  split_ifs
  · exact dead
  · split
    · exact dead
    · exact pruneLiveResourcesToSize env _ dead

theorem setDisabled (disabled : Bool) (reached : progress.From start) :
    (setDisabled disabled progress).From start := by
  have evicted (fuel : Nat) (progress : Progress) (reached : progress.From start) :
      (evictMapped fuel progress).From start := by
    induction fuel generalizing progress with
    | zero => exact reached
    | succ fuel ih =>
      unfold evictMapped
      split
      · exact reached
      · exact ih _ (reached.perform _)
  unfold MemoryCache.setDisabled
  split_ifs
  · exact evicted _ _ (reached.perform _)
  · exact reached.perform _

theorem removeClientAndPrune (address : Address) (client : Client) (reached : progress.From start) :
    (removeClientAndPrune env address client progress).From start := by
  unfold MemoryCache.removeClientAndPrune
  dsimp only
  split_ifs
  · exact ((reached.perform _).perform _).perform _
  · exact (reached.perform _).perform _
  · exact prune env ((reached.perform _).perform _)
  · exact reached.perform _

/-- Every event leads where the calls it makes lead. -/
theorem handle (event : Event) (reached : progress.From start) :
    (handle env progress event).From start := by
  cases event with
  | call op | destroyDecodedData address | removeResourcesWithOrigin hasOrigin =>
    exact reached.perform _
  | removeClient address client => exact removeClientAndPrune env _ _ reached
  | didAccessDecodedData address =>
    unfold MemoryCache.handle
    dsimp only
    split_ifs
    · exact prune env (reached.perform _)
    · exact reached.perform _
  | prune => exact prune env reached
  | pruneToPercentage => exact pruneToPercentage env reached
  | setCapacities minDeadBytes maxDeadBytes totalBytes =>
    exact prune env (reached.perform _)
  | setDisabled disabled => exact setDisabled disabled reached
  | evictResources =>
    unfold MemoryCache.handle
    split_ifs
    · exact reached
    · exact setDisabled false (setDisabled true reached)
  | removeUrlFromCache url =>
    unfold MemoryCache.handle
    dsimp only
    split
    · exact reached
    · exact reached.perform _

end Progress.From

/-- A run of events is the run of the calls it makes. -/
theorem handleAll_from (cache : MemoryCache) (events : List Event) :
    (handleAll env cache events).From cache := by
  have general (progress : Progress) (reached : progress.From cache) :
      (events.foldl (handle env) progress).From cache := by
    induction events generalizing progress with
    | nil => exact reached
    | cons event events ih => exact ih _ (reached.handle env event)
  exact general _ rfl

end MemoryCache
end Loader
end PalmWebKit
