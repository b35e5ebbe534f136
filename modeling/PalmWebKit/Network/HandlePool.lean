import Mathlib

/-!
# The pool of curl handles

`CurlHandlePool` adds handles to the curl multi handle up to a maximum, queues
the rest, and counts the handles it has added in `m_activeJobs`.  Timers,
client calls and completion messages reach it in any order, some of them from
inside `curl_multi_perform`.
-/

namespace PalmWebKit
namespace Network

/-- A `CurlHandle`, numbered in the order of construction. -/
abbrev JobId := Nat

/-- The fields of a `CurlHandle` that the pool depends on. -/
structure CurlJob where
  isInMulti : Bool
  cancelled : Bool
  /-- `m_handle` is not null. -/
  hasHandle : Bool
  /-- `m_delTimer` is active. -/
  delTimer : Bool
  /-- Owned by `loadResourceSynchronously`. -/
  sync : Bool
  deriving DecidableEq, Repr

/-- The settings that the pool and its handles read. -/
structure PoolSettings where
  maxActiveConnections : Int
  runningInBrowserServer : Bool
  deriving DecidableEq, Repr

structure CurlHandlePool where
  /-- The handles that are not deleted. -/
  sHandles : List JobId
  job : JobId → CurlJob
  /-- The handles added to the multi handle. -/
  multiHandle : List JobId
  queuedJobs : List JobId
  activeJobs : Int
  withinMulti : Bool
  nextJob : JobId
  /-- The jobs that have been counted in `activeJobs` so far. -/
  activated : List JobId
  /-- The jobs for which `activeJobs` has been decremented so far. -/
  decremented : List JobId

/-- How a transfer ends. -/
inductive Completion
  | finished (httpCode : Int)
  | failed (timedOut : Bool) (httpResponseCode : Int)
  deriving DecidableEq, Repr

namespace CurlHandlePool

def start : CurlHandlePool where
  sHandles := []
  job := fun _ => ⟨false, false, false, false, false⟩
  multiHandle := []
  queuedJobs := []
  activeJobs := 0
  withinMulti := false
  nextJob := 0
  activated := []
  decremented := []

/-- `curl_multi_add_handle` refuses a null handle and an added one. -/
def multiAddHandle (pool : CurlHandlePool) (job : JobId) : CurlHandlePool :=
  if (pool.job job).hasHandle = false ∨ job ∈ pool.multiHandle then pool
  else { pool with multiHandle := pool.multiHandle ++ [job] }

/-- `curl_multi_remove_handle`; `curl_easy_cleanup` does the same. -/
def multiRemoveHandle (pool : CurlHandlePool) (job : JobId) : CurlHandlePool :=
  { pool with multiHandle := pool.multiHandle.erase job }

def setInMulti (pool : CurlHandlePool) (job : JobId) : CurlHandlePool :=
  { pool with
    job := Function.update pool.job job { pool.job job with isInMulti := true } }

def delayedDelete (pool : CurlHandlePool) (job : JobId) : CurlHandlePool :=
  { pool with
    job := Function.update pool.job job { pool.job job with delTimer := true } }

def setCancelled (pool : CurlHandlePool) (job : JobId) : CurlHandlePool :=
  { pool with
    job := Function.update pool.job job { pool.job job with cancelled := true } }

/-- `m_activeJobs--` for a job. -/
def decrement (pool : CurlHandlePool) (job : JobId) : CurlHandlePool :=
  { pool with
    activeJobs := pool.activeJobs - 1
    decremented := pool.decremented ++ [job] }

/-- `CurlHandlePool::cancelJob`, which is `CurlHandle::cancelledLoading`. -/
def cancelJob (pool : CurlHandlePool) (job : JobId) : CurlHandlePool := pool.delayedDelete job

def startJob (pool : CurlHandlePool) (job : JobId) : CurlHandlePool :=
  let pool := (pool.multiAddHandle job).setInMulti job
  { pool with
    activeJobs := pool.activeJobs + 1
    activated := pool.activated ++ [job] }

def startOrQueueJob (settings : PoolSettings) (pool : CurlHandlePool)
    (job : JobId) : CurlHandlePool :=
  if pool.activeJobs < settings.maxActiveConnections then pool.startJob job
  else { pool with queuedJobs := pool.queuedJobs ++ [job] }

/-- The loop of `startQueuedJobs` over the queue. -/
def startQueuedLoop (settings : PoolSettings) : List JobId → CurlHandlePool → CurlHandlePool
  | [], pool => { pool with queuedJobs := [] }
  | job :: rest, pool =>
    if pool.activeJobs < settings.maxActiveConnections then
      startQueuedLoop settings rest
        (startJob { pool with queuedJobs := rest } job)
    else
      { pool with queuedJobs := job :: rest }

def startQueuedJobs (settings : PoolSettings) (pool : CurlHandlePool) : CurlHandlePool :=
  startQueuedLoop settings pool.queuedJobs pool

/-- `CurlHandlePool::cancel` with `removeQueuedJob`.  The cancel of a job that
is being transferred is left to the transfer. -/
def cancelInPool (pool : CurlHandlePool) (job : JobId) : CurlHandlePool :=
  if job ∈ pool.queuedJobs then
    cancelJob { pool with queuedJobs := pool.queuedJobs.erase job } job
  else if pool.withinMulti then pool
  else pool.cancelJob job

/-- `CurlHandle::cancel`. -/
def cancel (pool : CurlHandlePool) (job : JobId) : CurlHandlePool :=
  (pool.cancelInPool job).setCancelled job

/-- `CurlHandlePool::release`.  Inside `curl_multi_perform` it is not
implemented. -/
def release (settings : PoolSettings) (pool : CurlHandlePool) (job : JobId) : CurlHandlePool :=
  if pool.withinMulti then pool
  else if (pool.job job).isInMulti then
    ((pool.multiRemoveHandle job).decrement job).startQueuedJobs settings
  else
    pool

/-- `delete` of a `CurlHandle`. -/
def deleteJob (settings : PoolSettings) (pool : CurlHandlePool) (job : JobId) : CurlHandlePool :=
  let pool := { pool with sHandles := pool.sHandles.erase job }
  if (pool.job job).hasHandle then
    (pool.release settings job).multiRemoveHandle job
  else
    pool

/-- One handle in the second loop of `restart`. -/
def restartJob (pool : CurlHandlePool) (job : JobId) : CurlHandlePool :=
  if (pool.job job).isInMulti then
    if (pool.job job).cancelled then
      let pool :=
        if (pool.job job).hasHandle then
          let pool := pool.decrement job
          { pool with
            job := Function.update pool.job job
              { pool.job job with hasHandle := false } }
        else
          pool
      pool.cancelJob job
    else
      (pool.multiAddHandle job).setInMulti job
  else
    pool

/-- `restart`: a new multi handle gets the handles that are not cancelled. -/
def restart (settings : PoolSettings) (pool : CurlHandlePool) : CurlHandlePool :=
  (pool.sHandles.foldl restartJob { pool with multiHandle := [] }).startQueuedJobs
    settings

def restartAsync (pool : CurlHandlePool) (job : JobId) : CurlHandlePool :=
  (pool.multiRemoveHandle job).multiAddHandle job

/-- `CurlHandle::finishedLoading`.  The client may cancel the job when it is
told. -/
def finishedLoading (settings : PoolSettings) (pool : CurlHandlePool) (job : JobId) (httpCode : Int)
    (authCancelled clientCancels : Bool) : CurlHandlePool :=
  let told := if clientCancels then pool.cancel job else pool
  if httpCode = 401 ∧ !authCancelled then
    if !settings.runningInBrowserServer then told.cancelInPool job
    else pool.restartAsync job
  else
    told.delayedDelete job

/-- `CurlHandle::failedLoading`. -/
def failedLoading (pool : CurlHandlePool) (job : JobId) (timedOut : Bool) (httpResponseCode : Int)
    (authCancelled clientCancels : Bool) : CurlHandlePool :=
  if httpResponseCode = 401 ∧ !authCancelled ∧ timedOut then
    pool.restartAsync job
  else
    let told := if clientCancels then pool.cancel job else pool
    told.delayedDelete job

/-- The end of a transfer, for `finishedLoading` or `failedLoading`. -/
def complete (settings : PoolSettings) (pool : CurlHandlePool) (job : JobId)
    (completion : Completion) (authCancelled clientCancels : Bool) : CurlHandlePool :=
  match completion with
  | .finished httpCode => pool.finishedLoading settings job httpCode authCancelled clientCancels
  | .failed timedOut httpResponseCode =>
    pool.failedLoading job timedOut httpResponseCode authCancelled
      clientCancels

/-- A new `CurlHandle` with a handle from `acquire`. -/
def create (pool : CurlHandlePool) (sync : Bool) : JobId × CurlHandlePool :=
  (pool.nextJob, { pool with
      sHandles := pool.sHandles ++ [pool.nextJob]
      job := Function.update pool.job pool.nextJob
        { isInMulti := false
          cancelled := false
          hasHandle := true
          delTimer := false
          sync }
      nextJob := pool.nextJob + 1 })

/-- `CurlHandle::startAsync` of a new handle. -/
def startAsync (settings : PoolSettings) (pool : CurlHandlePool)
    (setupJob : Bool) : CurlHandlePool :=
  let (job, pool) := pool.create false
  if !setupJob then pool.delayedDelete job
  else if pool.withinMulti then
    { pool with queuedJobs := pool.queuedJobs ++ [job] }
  else
    pool.startOrQueueJob settings job

/-- `CurlHandle::startSync` of a new handle; `curl_easy_perform` does not use
the multi handle. -/
def startSync (settings : PoolSettings) (pool : CurlHandlePool) (setupJob : Bool)
    (completion : Completion) (authCancelled clientCancels : Bool) : CurlHandlePool :=
  let (job, pool) := pool.create true
  if !setupJob then pool.delayedDelete job
  else pool.complete settings job completion authCancelled clientCancels

/-- One completion message in `sourceDispatch`. -/
def message (settings : PoolSettings) (pool : CurlHandlePool) (job : JobId)
    (completion : Completion) (authCancelled clientCancels : Bool) : CurlHandlePool :=
  if (pool.job job).cancelled then pool.cancelJob job
  else pool.complete settings job completion authCancelled clientCancels

/-- What reaches the pool.  `sourceDispatch` is split where other code runs:
the client's between `performBegin` and `performEnd` and at every message. -/
inductive Event
  | startAsync (setupJob : Bool)
  | cancel (job : JobId)
  | delTimer (job : JobId)
  | performBegin
  | performEnd
  | message
      (job : JobId) (completion : Completion)
      (authCancelled clientCancels : Bool)
  | dispatchEnd
  | startSync
      (setupJob : Bool) (completion : Completion)
      (authCancelled clientCancels : Bool)
  | deleteSync (job : JobId)
  | restart

/-- The state after an event.  Only existing handles are cancelled or deleted,
and curl reports only added handles.  The main loop does not dispatch the
source inside itself, and `restart` asserts that it is outside
`curl_multi_perform`. -/
def step (settings : PoolSettings) (pool : CurlHandlePool) : Event → CurlHandlePool
  | .startAsync setupJob => pool.startAsync settings setupJob
  | .cancel job => if job ∈ pool.sHandles then pool.cancel job else pool
  | .delTimer job =>
    if job ∈ pool.sHandles ∧ (pool.job job).delTimer then
      pool.deleteJob settings job
    else pool
  | .performBegin => { pool with withinMulti := true }
  | .performEnd => { pool with withinMulti := false }
  | .message job completion authCancelled clientCancels =>
    if job ∈ pool.multiHandle ∧ !pool.withinMulti then
      pool.message settings job completion authCancelled clientCancels
    else pool
  | .dispatchEnd => if pool.withinMulti then pool else pool.startQueuedJobs settings
  | .startSync setupJob completion authCancelled clientCancels =>
    pool.startSync settings setupJob completion authCancelled clientCancels
  | .deleteSync job =>
    if job ∈ pool.sHandles ∧ (pool.job job).sync then
      pool.deleteJob settings job
    else pool
  | .restart => if pool.withinMulti then pool else pool.restart settings

end CurlHandlePool
end Network
end PalmWebKit
