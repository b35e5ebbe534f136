import PalmWebKit.Logic.Runs
import PalmWebKit.Network.HandlePool

/-!
# Accounting of the pool

The count of active jobs is the number of handles in the multi handle as long
as no handle gets there without `startJob` and none leaves without `release`.
Two events break this: a synchronous load that is restarted after a 401, and a
delayed delete inside `curl_multi_perform`.
-/

namespace PalmWebKit
namespace Network
namespace CurlHandlePool

open List

/-- The accounts of the pool are in order. -/
structure Accounted (settings : PoolSettings) (pool : CurlHandlePool) : Prop where
  count : pool.activeJobs = pool.multiHandle.length
  bound : pool.activeJobs ≤ max 0 settings.maxActiveConnections
  queueNodup : pool.queuedJobs.Nodup
  queueApart : ∀ job ∈ pool.queuedJobs, job ∉ pool.multiHandle
  multiLive : ∀ job ∈ pool.multiHandle, job ∈ pool.sHandles
  /-- No job is counted twice. -/
  activatedNodup : pool.activated.Nodup
  /-- Every counted job is in the multi handle or has been decremented once. -/
  activatedOnce : pool.activated.Perm (pool.multiHandle ++ pool.decremented)

/-- The invariant of a run that keeps the accounts. -/
structure Sound (settings : PoolSettings) (pool : CurlHandlePool) : Prop where
  handlesNodup : pool.sHandles.Nodup
  handlesOld : ∀ job ∈ pool.sHandles, job < pool.nextJob
  multiNodup : pool.multiHandle.Nodup
  mem_multi : ∀ job, job ∈ pool.multiHandle ↔
    job ∈ pool.sHandles ∧ (pool.job job).isInMulti = true ∧ (pool.job job).hasHandle = true
  count : pool.activeJobs = pool.multiHandle.length
  bound : pool.activeJobs ≤ max 0 settings.maxActiveConnections
  queueNodup : pool.queuedJobs.Nodup
  queued : ∀ job ∈ pool.queuedJobs, job ∈ pool.sHandles ∧
    (pool.job job).isInMulti = false ∧ (pool.job job).hasHandle = true ∧
      (pool.job job).delTimer = false ∧ (pool.job job).sync = false
  syncApart : ∀ job ∈ pool.sHandles, (pool.job job).sync = true → (pool.job job).isInMulti = false
  activatedNodup : pool.activated.Nodup
  activatedOnce : pool.activated.Perm (pool.multiHandle ++ pool.decremented)
  activatedOld : ∀ job ∈ pool.activated, job < pool.nextJob
  fresh : ∀ job ∈ pool.sHandles, (pool.job job).isInMulti = false → job ∉ pool.activated

theorem Sound.accounted {settings : PoolSettings} {pool : CurlHandlePool}
    (sound : pool.Sound settings) : pool.Accounted settings where
  count := sound.count
  bound := sound.bound
  queueNodup := sound.queueNodup
  queueApart := by
    intro job inQueue inMulti
    have waiting := (sound.queued job inQueue).2.1
    rw [((sound.mem_multi job).1 inMulti).2.1] at waiting
    cases waiting
  multiLive := fun job inMulti => ((sound.mem_multi job).1 inMulti).1
  activatedNodup := sound.activatedNodup
  activatedOnce := sound.activatedOnce

theorem sound_start (settings : PoolSettings) : start.Sound settings where
  handlesNodup := .nil
  handlesOld := by simp [start]
  multiNodup := .nil
  mem_multi := by simp [start]
  count := rfl
  bound := le_max_left _ _
  queueNodup := .nil
  queued := by simp [start]
  syncApart := by simp [start]
  activatedNodup := .nil
  activatedOnce := .refl _
  activatedOld := by simp [start]
  fresh := by simp [start]

section Operations

variable {settings : PoolSettings} {pool : CurlHandlePool} {job : JobId}

/-! ## Flags and the queue -/

/-- A job outside the queue may change its other flags. -/
theorem Sound.updateJob (sound : pool.Sound settings) (notQueued : job ∉ pool.queuedJobs)
    {record : CurlJob} (isInMulti : record.isInMulti = (pool.job job).isInMulti)
    (hasHandle : record.hasHandle = (pool.job job).hasHandle)
    (sync : record.sync = (pool.job job).sync) : Sound settings
      { pool with job := Function.update pool.job job record } := by
  have sameMulti : ∀ other, (Function.update pool.job job record other).isInMulti =
        (pool.job other).isInMulti := by
    intro other
    by_cases same : other = job
    · rw [same, Function.update_self, isInMulti]
    · rw [Function.update_of_ne same]
  have sameHandle : ∀ other, (Function.update pool.job job record other).hasHandle =
        (pool.job other).hasHandle := by
    intro other
    by_cases same : other = job
    · rw [same, Function.update_self, hasHandle]
    · rw [Function.update_of_ne same]
  have sameSync : ∀ other, (Function.update pool.job job record other).sync =
        (pool.job other).sync := by
    intro other
    by_cases same : other = job
    · rw [same, Function.update_self, sync]
    · rw [Function.update_of_ne same]
  exact
    { sound with
      mem_multi := fun other => by
        rw [sameMulti, sameHandle]
        exact sound.mem_multi other
      queued := fun other inQueue => by
        have ne : other ≠ job := by
          rintro rfl
          exact notQueued inQueue
        dsimp only
        rw [Function.update_of_ne ne]
        exact sound.queued other inQueue
      syncApart := fun other live => by
        rw [sameMulti, sameSync]
        exact sound.syncApart other live
      fresh := fun other live => by
        rw [sameMulti]
        exact sound.fresh other live }

theorem Sound.delayedDelete (sound : pool.Sound settings) (notQueued : job ∉ pool.queuedJobs) :
    (pool.delayedDelete job).Sound settings := sound.updateJob notQueued rfl rfl rfl

theorem Sound.setCancelled (sound : pool.Sound settings) (notQueued : job ∉ pool.queuedJobs) :
    (pool.setCancelled job).Sound settings := sound.updateJob notQueued rfl rfl rfl

/-- Jobs may leave the queue. -/
theorem Sound.dequeue (sound : pool.Sound settings) {queue : List JobId}
    (sublist : queue.Sublist pool.queuedJobs) : Sound settings { pool with queuedJobs := queue } :=
  { sound with
    queueNodup := sound.queueNodup.sublist sublist
    queued := fun other inQueue => sound.queued other (sublist.subset inQueue) }

/-! ## Starting jobs -/

/-- A waiting job that has left the queue is started. -/
theorem Sound.startJob (sound : pool.Sound settings)
    (room : pool.activeJobs < settings.maxActiveConnections) (notQueued : job ∉ pool.queuedJobs)
    (live : job ∈ pool.sHandles) (isInMulti : (pool.job job).isInMulti = false)
    (hasHandle : (pool.job job).hasHandle = true) (notSync : (pool.job job).sync = false) :
    (pool.startJob job).Sound settings := by
  have notAdded : job ∉ pool.multiHandle := by
    rw [sound.mem_multi, isInMulti]
    simp
  have notActivated := sound.fresh job live isInMulti
  have started : pool.startJob job = { pool with
        multiHandle := pool.multiHandle ++ [job]
        job := Function.update pool.job job
          { pool.job job with isInMulti := true }
        activeJobs := pool.activeJobs + 1
        activated := pool.activated ++ [job] } := by
    simp [CurlHandlePool.startJob, multiAddHandle, notAdded, hasHandle, setInMulti]
  rw [started]
  refine
    { sound with
      multiNodup := ?_
      mem_multi := ?_
      count := ?_
      bound := ?_
      queued := ?_
      syncApart := ?_
      activatedNodup := ?_
      activatedOnce := ?_
      activatedOld := ?_
      fresh := ?_ }
  · exact nodup_append_comm.1
      (nodup_cons.2 ⟨notAdded, sound.multiNodup⟩)
  · intro other
    dsimp only
    rw [mem_append, sound.mem_multi other]
    by_cases same : other = job
    · rw [same]
      simp [live, hasHandle]
    · rw [Function.update_of_ne same]
      simp [same]
  · rw [sound.count]
    simp
  · have := sound.bound
    dsimp only
    omega
  · intro other inQueue
    have ne : other ≠ job := by
      rintro rfl
      exact notQueued inQueue
    dsimp only
    rw [Function.update_of_ne ne]
    exact sound.queued other inQueue
  · intro other otherLive isSync
    dsimp only at isSync ⊢
    by_cases same : other = job
    · rw [same, Function.update_self, notSync] at isSync
      cases isSync
    · rw [Function.update_of_ne same] at isSync ⊢
      exact sound.syncApart other otherLive isSync
  · exact nodup_append_comm.1
      (nodup_cons.2 ⟨notActivated, sound.activatedNodup⟩)
  · refine (sound.activatedOnce.append_right [job]).trans ?_
    rw [append_assoc, append_assoc]
    exact List.Perm.append_left _ perm_append_comm
  · intro other member
    rcases mem_append.1 member with old | new
    · exact sound.activatedOld other old
    · rw [mem_singleton.1 new]
      exact sound.handlesOld job live
  · intro other otherLive notInMulti
    dsimp only at notInMulti
    by_cases same : other = job
    · rw [same, Function.update_self] at notInMulti
      cases notInMulti
    · rw [Function.update_of_ne same] at notInMulti
      rw [mem_append, mem_singleton, not_or]
      exact ⟨sound.fresh other otherLive notInMulti, same⟩

@[simp] theorem queuedJobs_multiAddHandle :
    (pool.multiAddHandle job).queuedJobs = pool.queuedJobs := by
  unfold multiAddHandle
  split_ifs <;> rfl

@[simp] theorem queuedJobs_startJob : (pool.startJob job).queuedJobs = pool.queuedJobs := by
  simp [CurlHandlePool.startJob, setInMulti]

theorem sound_startQueuedLoop (queue : List JobId) {pool : CurlHandlePool}
    (isQueue : pool.queuedJobs = queue) (sound : pool.Sound settings) :
    (startQueuedLoop settings queue pool).Sound settings := by
  induction queue generalizing pool with
  | nil => exact sound.dequeue (nil_sublist _)
  | cons job rest ih =>
    rw [startQueuedLoop]
    split_ifs with room
    · have queueNodup := sound.queueNodup
      have front : job ∈ pool.queuedJobs := by
        rw [isQueue]
        exact .head _
      have tail : rest.Sublist pool.queuedJobs := by
        rw [isQueue]
        exact sublist_cons_self job rest
      rw [isQueue] at queueNodup
      obtain ⟨live, isInMulti, hasHandle, -, notSync⟩ := sound.queued job front
      apply ih (queuedJobs_startJob)
      exact (sound.dequeue tail).startJob room
        (nodup_cons.1 queueNodup).1 live isInMulti hasHandle notSync
    · rw [← isQueue]
      exact sound

theorem Sound.startQueuedJobs (sound : pool.Sound settings) :
    (pool.startQueuedJobs settings).Sound settings :=
  sound_startQueuedLoop pool.queuedJobs rfl sound

/-! ## New jobs -/

/-- A new job is live, waits and has not been counted. -/
theorem Sound.create (sound : pool.Sound settings) (sync : Bool) :
    (pool.create sync).2.Sound settings := by
  have notLive : pool.nextJob ∉ pool.sHandles := fun live =>
    absurd (sound.handlesOld _ live) (lt_irrefl _)
  have ne : ∀ other ∈ pool.sHandles, other ≠ pool.nextJob :=
    fun other live => (sound.handlesOld other live).ne
  have kept : ∀ other ∈ pool.sHandles, (pool.create sync).2.job other = pool.job other :=
    fun other live => Function.update_of_ne (ne other live) _ _
  have new : (pool.create sync).2.job pool.nextJob =
      ⟨false, false, true, false, sync⟩ := Function.update_self _ _ _
  have mem_handles : ∀ other, other ∈ (pool.create sync).2.sHandles ↔
      other ∈ pool.sHandles ∨ other = pool.nextJob := by
    intro other
    simp [CurlHandlePool.create]
  refine
    { sound with
      handlesNodup := ?_
      handlesOld := ?_
      mem_multi := ?_
      queued := ?_
      syncApart := ?_
      activatedOld := ?_
      fresh := ?_ }
  · exact nodup_append_comm.1
      (nodup_cons.2 ⟨notLive, sound.handlesNodup⟩)
  · intro other live
    rcases (mem_handles other).1 live with old | rfl
    · exact (sound.handlesOld other old).trans (Nat.lt_succ_self _)
    · exact Nat.lt_succ_self _
  · intro other
    rw [mem_handles]
    refine (sound.mem_multi other).trans ?_
    constructor
    · rintro ⟨live, flags⟩
      rw [kept other live]
      exact ⟨.inl live, flags⟩
    · rintro ⟨live | rfl, flags⟩
      · rw [kept other live] at flags
        exact ⟨live, flags⟩
      · rw [new] at flags
        cases flags.1
  · intro other inQueue
    obtain ⟨live, flags⟩ := sound.queued other inQueue
    rw [kept other live, mem_handles]
    exact ⟨.inl live, flags⟩
  · intro other live isSync
    rcases (mem_handles other).1 live with old | rfl
    · rw [kept other old] at isSync ⊢
      exact sound.syncApart other old isSync
    · rw [new]
  · exact fun other member => (sound.activatedOld other member).trans (Nat.lt_succ_self _)
  · intro other live notInMulti
    rcases (mem_handles other).1 live with old | rfl
    · rw [kept other old] at notInMulti
      exact sound.fresh other old notInMulti
    · exact fun member => absurd (sound.activatedOld _ member) (lt_irrefl _)

/-- A waiting job is put at the end of the queue. -/
theorem Sound.enqueue (sound : pool.Sound settings) (notQueued : job ∉ pool.queuedJobs)
    (live : job ∈ pool.sHandles) (isInMulti : (pool.job job).isInMulti = false)
    (hasHandle : (pool.job job).hasHandle = true) (delTimer : (pool.job job).delTimer = false)
    (notSync : (pool.job job).sync = false) :
    Sound settings { pool with queuedJobs := pool.queuedJobs ++ [job] } :=
  { sound with
    queueNodup := nodup_append_comm.1
      (nodup_cons.2 ⟨notQueued, sound.queueNodup⟩)
    queued := by
      intro other inQueue
      rcases mem_append.1 inQueue with old | new
      · exact sound.queued other old
      · rw [mem_singleton.1 new]
        exact ⟨live, isInMulti, hasHandle, delTimer, notSync⟩ }

theorem nextJob_not_queued (sound : pool.Sound settings) :
    pool.nextJob ∉ pool.queuedJobs := fun inQueue =>
  absurd (sound.handlesOld _ (sound.queued _ inQueue).1) (lt_irrefl _)

theorem Sound.startAsync (sound : pool.Sound settings) (setupJob : Bool) :
    (pool.startAsync settings setupJob).Sound settings := by
  have created := sound.create false
  have notQueued : pool.nextJob ∉ (pool.create false).2.queuedJobs := nextJob_not_queued sound
  have live : pool.nextJob ∈ (pool.create false).2.sHandles := by simp [CurlHandlePool.create]
  have new : (pool.create false).2.job pool.nextJob =
      ⟨false, false, true, false, false⟩ := Function.update_self _ _ _
  have enqueued := created.enqueue notQueued live
    (congrArg CurlJob.isInMulti new) (congrArg CurlJob.hasHandle new)
    (congrArg CurlJob.delTimer new) (congrArg CurlJob.sync new)
  unfold CurlHandlePool.startAsync
  simp only
  split_ifs with setupFails within
  · exact created.delayedDelete notQueued
  · exact enqueued
  · unfold startOrQueueJob
    split_ifs with room
    · exact created.startJob room notQueued live
        (congrArg CurlJob.isInMulti new) (congrArg CurlJob.hasHandle new)
        (congrArg CurlJob.sync new)
    · exact enqueued

/-! ## Cancelling and completing jobs -/

theorem Sound.cancelInPool (sound : pool.Sound settings) : (pool.cancelInPool job).Sound settings ∧
      job ∉ (pool.cancelInPool job).queuedJobs := by
  unfold CurlHandlePool.cancelInPool
  split_ifs with inQueue within
  · have gone : job ∉ pool.queuedJobs.erase job := sound.queueNodup.not_mem_erase
    exact ⟨(sound.dequeue erase_sublist).delayedDelete gone, gone⟩
  · exact ⟨sound, inQueue⟩
  · exact ⟨sound.delayedDelete inQueue, inQueue⟩

theorem Sound.cancel (sound : pool.Sound settings) : (pool.cancel job).Sound settings ∧
      job ∉ (pool.cancel job).queuedJobs := by
  obtain ⟨cancelled, notQueued⟩ :
      (pool.cancelInPool job).Sound settings ∧ job ∉ (pool.cancelInPool job).queuedJobs :=
    sound.cancelInPool
  exact ⟨cancelled.setCancelled notQueued, notQueued⟩

/-- A job in the multi handle is not queued. -/
theorem Sound.not_queued (sound : pool.Sound settings) (inMulti : job ∈ pool.multiHandle) :
    job ∉ pool.queuedJobs :=
  fun inQueue => sound.accounted.queueApart job inQueue inMulti

/-- The order of the multi handle does not matter. -/
theorem Sound.permMulti (sound : pool.Sound settings) {handles : List JobId}
    (permutation : handles.Perm pool.multiHandle) :
    Sound settings { pool with multiHandle := handles } :=
  { sound with
    multiNodup := permutation.nodup_iff.2 sound.multiNodup
    mem_multi := fun other => permutation.mem_iff.trans (sound.mem_multi other)
    count := by
      rw [sound.count, permutation.length_eq]
    activatedOnce := sound.activatedOnce.trans (permutation.symm.append_right _) }

theorem Sound.restartAsync (sound : pool.Sound settings) (inMulti : job ∈ pool.multiHandle) :
    (pool.restartAsync job).Sound settings := by
  have gone : job ∉ pool.multiHandle.erase job := sound.multiNodup.not_mem_erase
  have hasHandle := ((sound.mem_multi job).1 inMulti).2.2
  have restarted : pool.restartAsync job =
      { pool with multiHandle := pool.multiHandle.erase job ++ [job] } := by
    simp [CurlHandlePool.restartAsync, multiRemoveHandle, multiAddHandle, gone, hasHandle]
  rw [restarted]
  exact sound.permMulti (perm_append_comm.trans (perm_cons_erase inMulti).symm)

end Operations

/-- The end of the transfer restarts it in the multi handle. -/
def Completion.Restarts (settings : PoolSettings) (completion : Completion)
    (authCancelled : Bool) : Prop :=
  authCancelled = false ∧
    match completion with
    | .finished httpCode => httpCode = 401 ∧ settings.runningInBrowserServer = true
    | .failed timedOut httpResponseCode => httpResponseCode = 401 ∧ timedOut = true

section Completions

variable {settings : PoolSettings} {pool : CurlHandlePool} {job : JobId}

theorem complete_of_restarts {completion : Completion} {authCancelled : Bool}
    (restarts : Completion.Restarts settings completion authCancelled) (clientCancels : Bool) :
    pool.complete settings job completion authCancelled clientCancels =
      pool.restartAsync job := by
  obtain ⟨notCancelled, reason⟩ := restarts
  cases completion with
  | finished httpCode => simp [complete, finishedLoading, notCancelled, reason.1, reason.2]
  | failed timedOut httpResponseCode =>
    simp [complete, failedLoading, notCancelled, reason.1, reason.2]

theorem Sound.told (sound : pool.Sound settings) (notQueued : job ∉ pool.queuedJobs)
    (clientCancels : Bool) : (if clientCancels then pool.cancel job else pool).Sound settings ∧
      job ∉ (if clientCancels then pool.cancel job else pool).queuedJobs := by
  split_ifs
  · exact sound.cancel
  · exact ⟨sound, notQueued⟩

/-- Without a restart the end of a transfer leaves the accounts alone. -/
theorem Sound.complete_of_not_restarts (sound : pool.Sound settings)
    (notQueued : job ∉ pool.queuedJobs) {completion : Completion} {authCancelled : Bool}
    (ends : ¬Completion.Restarts settings completion authCancelled) (clientCancels : Bool) :
    (pool.complete settings job completion authCancelled clientCancels).Sound
      settings := by
  obtain ⟨told, toldNotQueued⟩ := sound.told notQueued clientCancels
  cases completion with
  | finished httpCode =>
    rw [complete, finishedLoading]
    by_cases refused : httpCode = 401 ∧ (!authCancelled) = true
    · by_cases inApplication : (!settings.runningInBrowserServer) = true
      · rw [if_pos refused, if_pos inApplication]
        exact told.cancelInPool.1
      · exact absurd ⟨by simpa using refused.2, refused.1,
          by simpa using inApplication⟩ ends
    · rw [if_neg refused]
      exact told.delayedDelete toldNotQueued
  | failed timedOut httpResponseCode =>
    rw [complete, failedLoading]
    by_cases refused : httpResponseCode = 401 ∧ (!authCancelled) = true ∧ timedOut = true
    · exact absurd ⟨by simpa using refused.2.1, refused.1, refused.2.2⟩ ends
    · rw [if_neg refused]
      exact told.delayedDelete toldNotQueued

theorem Sound.message (sound : pool.Sound settings) (inMulti : job ∈ pool.multiHandle)
    (completion : Completion) (authCancelled clientCancels : Bool) :
    (pool.message settings job completion authCancelled clientCancels).Sound
      settings := by
  have notQueued := sound.not_queued inMulti
  unfold CurlHandlePool.message
  split_ifs with cancelled
  · exact sound.delayedDelete notQueued
  · by_cases restarts : Completion.Restarts settings completion authCancelled
    · rw [complete_of_restarts restarts]
      exact sound.restartAsync inMulti
    · exact sound.complete_of_not_restarts notQueued restarts clientCancels

end Completions

/-! ## Deleting jobs -/

section Deletion

variable {settings : PoolSettings} {pool : CurlHandlePool} {job : JobId}

/-- A job that is neither in the multi handle nor queued may go. -/
theorem Sound.unwatch (sound : pool.Sound settings) (notInMulti : job ∉ pool.multiHandle)
    (notQueued : job ∉ pool.queuedJobs) :
    Sound settings { pool with sHandles := pool.sHandles.erase job } := by
  have keeps : ∀ other ∈ pool.sHandles.erase job, other ∈ pool.sHandles :=
    fun other => mem_of_mem_erase
  exact
    { sound with
      handlesNodup := sound.handlesNodup.erase job
      handlesOld := fun other live => sound.handlesOld other (keeps other live)
      mem_multi := by
        intro other
        rw [sound.mem_multi]
        by_cases same : other = job
        · rw [same]
          refine iff_of_false ?_ fun gone => sound.handlesNodup.not_mem_erase gone.1
          rw [← sound.mem_multi]
          exact notInMulti
        · rw [mem_erase_of_ne same]
      queued := by
        intro other inQueue
        obtain ⟨live, flags⟩ := sound.queued other inQueue
        refine ⟨(mem_erase_of_ne ?_).2 live, flags⟩
        rintro rfl
        exact notQueued inQueue
      syncApart := fun other live => sound.syncApart other (keeps other live)
      fresh := fun other live => sound.fresh other (keeps other live) }

/-- A job leaves the multi handle with its decrement; what is then known of
the multi handle and the counts. -/
theorem Sound.retire (sound : pool.Sound settings) (inMulti : job ∈ pool.multiHandle) :
    (pool.multiHandle.erase job).Nodup ∧ pool.activeJobs - 1 = (pool.multiHandle.erase job).length ∧
      pool.activeJobs - 1 ≤ max 0 settings.maxActiveConnections ∧
      pool.activated.Perm
        (pool.multiHandle.erase job ++ (pool.decremented ++ [job])) := by
  have length_erase := length_erase_of_mem inMulti
  have nonempty := length_pos_of_mem inMulti
  have count := sound.count
  have bound := sound.bound
  refine ⟨sound.multiNodup.erase job, by omega, by omega, ?_⟩
  refine sound.activatedOnce.trans ?_
  refine ((perm_cons_erase inMulti).append_right _).trans ?_
  rw [← append_assoc]
  exact (perm_append_singleton job _).symm

@[simp] theorem sHandles_startJob : (pool.startJob job).sHandles = pool.sHandles := by
  unfold CurlHandlePool.startJob multiAddHandle
  split_ifs <;> rfl

@[simp] theorem sHandles_startQueuedJobs :
    (pool.startQueuedJobs settings).sHandles = pool.sHandles := by
  unfold CurlHandlePool.startQueuedJobs
  generalize pool.queuedJobs = queue
  induction queue generalizing pool with
  | nil => rfl
  | cons job rest ih =>
    rw [startQueuedLoop]
    split_ifs
    · rw [ih, sHandles_startJob]
    · rfl

theorem Sound.multiRemoveHandle_eq_self (sound : pool.Sound settings) (dead : job ∉ pool.sHandles) :
    pool.multiRemoveHandle job = pool := by
  have notInMulti : job ∉ pool.multiHandle := fun inMulti =>
    dead (sound.accounted.multiLive job inMulti)
  rw [multiRemoveHandle, erase_of_not_mem notInMulti]

/-- A deleted job in the multi handle is removed and decremented. -/
theorem Sound.retireDeleted (sound : pool.Sound settings) (inMulti : job ∈ pool.multiHandle) :
    Sound settings
      { pool with
        sHandles := pool.sHandles.erase job
        multiHandle := pool.multiHandle.erase job
        activeJobs := pool.activeJobs - 1
        decremented := pool.decremented ++ [job] } := by
  have keeps : ∀ other ∈ pool.sHandles.erase job, other ∈ pool.sHandles :=
    fun other => mem_of_mem_erase
  have notQueued := sound.not_queued inMulti
  obtain ⟨multiNodup, count, bound, activatedOnce⟩ := sound.retire inMulti
  exact
    { sound with
      handlesNodup := sound.handlesNodup.erase job
      handlesOld := fun other live => sound.handlesOld other (keeps other live)
      multiNodup
      count
      bound
      activatedOnce
      mem_multi := by
        intro other
        by_cases same : other = job
        · rw [same]
          exact iff_of_false sound.multiNodup.not_mem_erase fun gone =>
            sound.handlesNodup.not_mem_erase gone.1
        · rw [mem_erase_of_ne same, mem_erase_of_ne same, sound.mem_multi]
      queued := by
        intro other inQueue
        obtain ⟨live, flags⟩ := sound.queued other inQueue
        refine ⟨(mem_erase_of_ne ?_).2 live, flags⟩
        rintro rfl
        exact notQueued inQueue
      syncApart := fun other live => sound.syncApart other (keeps other live)
      fresh := fun other live => sound.fresh other (keeps other live) }

/-- A job is deleted: inside `curl_multi_perform` it must not be in the multi
handle. -/
theorem Sound.deleteJob (sound : pool.Sound settings) (live : job ∈ pool.sHandles)
    (notQueued : job ∉ pool.queuedJobs)
    (outside : pool.withinMulti = true → job ∉ pool.multiHandle) :
    (pool.deleteJob settings job).Sound settings := by
  have dead : job ∉ pool.sHandles.erase job := sound.handlesNodup.not_mem_erase
  by_cases inMulti : job ∈ pool.multiHandle
  · have notWithin : ¬pool.withinMulti = true := fun within =>
      outside within inMulti
    obtain ⟨-, isInMulti, hasHandle⟩ := (sound.mem_multi job).1 inMulti
    have started := (sound.retireDeleted inMulti).startQueuedJobs
    unfold CurlHandlePool.deleteJob
    simp only [hasHandle, if_true, release, if_neg notWithin, isInMulti]
    have gone := multiRemoveHandle_eq_self started (by simpa using dead)
    exact (congrArg (Sound settings) gone).mpr started
  · have unwatched := sound.unwatch inMulti notQueued
    unfold CurlHandlePool.deleteJob
    simp only
    split_ifs with hasHandle
    · have notInMulti : ¬(pool.job job).isInMulti = true := fun isInMulti =>
        inMulti ((sound.mem_multi job).2 ⟨live, isInMulti, hasHandle⟩)
      have released : release settings { pool with sHandles := pool.sHandles.erase job }
            job = { pool with sHandles := pool.sHandles.erase job } := by
        unfold release
        simp only [if_neg notInMulti, ite_self]
      rw [released, multiRemoveHandle_eq_self unwatched dead]
      exact unwatched
    · exact unwatched

/-! ## Restarting the multi handle -/

/-- A cancelled job in the multi handle loses its handle and is decremented. -/
theorem Sound.retireCancelled (sound : pool.Sound settings) (inMulti : job ∈ pool.multiHandle) :
    Sound settings
      { pool with
        job := Function.update pool.job job
          { pool.job job with hasHandle := false, delTimer := true }
        multiHandle := pool.multiHandle.erase job
        activeJobs := pool.activeJobs - 1
        decremented := pool.decremented ++ [job] } := by
  have notQueued := sound.not_queued inMulti
  obtain ⟨multiNodup, count, bound, activatedOnce⟩ := sound.retire inMulti
  refine
    { sound with
      multiNodup
      count
      bound
      activatedOnce
      mem_multi := ?_
      queued := ?_
      syncApart := ?_
      fresh := ?_ }
  · intro other
    dsimp only
    by_cases same : other = job
    · rw [same]
      exact iff_of_false sound.multiNodup.not_mem_erase (by simp)
    · rw [mem_erase_of_ne same, Function.update_of_ne same, sound.mem_multi]
  · intro other inQueue
    have ne : other ≠ job := by
      rintro rfl
      exact notQueued inQueue
    dsimp only
    rw [Function.update_of_ne ne]
    exact sound.queued other inQueue
  · intro other live
    dsimp only
    by_cases same : other = job
    · rw [same] at live ⊢
      rw [Function.update_self]
      exact sound.syncApart job live
    · rw [Function.update_of_ne same]
      exact sound.syncApart other live
  · intro other live
    dsimp only
    by_cases same : other = job
    · rw [same] at live ⊢
      rw [Function.update_self]
      exact sound.fresh job live
    · rw [Function.update_of_ne same]
      exact sound.fresh other live

/-- The jobs that are in the old multi handle and not yet dealt with. -/
def remaining (pool : CurlHandlePool) (todo : List JobId) : List JobId :=
  todo.filter fun job => (pool.job job).isInMulti && (pool.job job).hasHandle

/-- The pool in the loop of `restart` as if the remaining handles were still
added. -/
def virtual (pool : CurlHandlePool) (todo : List JobId) : CurlHandlePool :=
  { pool with multiHandle := pool.multiHandle ++ pool.remaining todo }

theorem remaining_cons (todo : List JobId) : pool.remaining (job :: todo) =
      if (pool.job job).isInMulti && (pool.job job).hasHandle then
        job :: pool.remaining todo
      else
        pool.remaining todo := filter_cons

/-- A change to a job that is dealt with leaves the others remaining. -/
theorem remaining_of_update {next : CurlHandlePool} {todo : List JobId} (done : job ∉ todo)
    {record : CurlJob} (updated : next.job = Function.update pool.job job record) :
    next.remaining todo = pool.remaining todo := by
  apply filter_congr
  intro other member
  have ne : other ≠ job := by
    rintro rfl
    exact done member
  rw [updated, Function.update_of_ne ne]

theorem setInMulti_eq_self (isInMulti : (pool.job job).isInMulti = true) :
    pool.setInMulti job = pool := by
  have same : { pool.job job with isInMulti := true } = pool.job job := by rw [← isInMulti]
  rw [setInMulti, same, Function.update_eq_self]

/-- One round of the loop in `restart`. -/
theorem Sound.restartJob {todo : List JobId} (done : job ∉ todo)
    (sound : (pool.virtual (job :: todo)).Sound settings) :
    ((pool.restartJob job).virtual todo).Sound settings := by
  rw [virtual, remaining_cons] at sound
  cases isInMulti : (pool.job job).isInMulti with
  | false =>
    simp only [isInMulti, Bool.false_and, Bool.false_eq_true, if_false] at sound
    simp only [CurlHandlePool.restartJob, isInMulti, Bool.false_eq_true, if_false]
    exact sound
  | true =>
    have notQueued : job ∉ pool.queuedJobs := fun inQueue => by
      have waiting := (sound.queued job inQueue).2.1
      rw [isInMulti] at waiting
      cases waiting
    simp only [isInMulti, Bool.true_and] at sound
    cases hasHandle : (pool.job job).hasHandle with
    | false =>
      simp only [hasHandle, Bool.false_eq_true, if_false] at sound
      cases cancelled : (pool.job job).cancelled with
      | false =>
        have same : pool.restartJob job = pool := by
          simp only [CurlHandlePool.restartJob, isInMulti, cancelled, if_true, Bool.false_eq_true,
            if_false, multiAddHandle, hasHandle, true_or]
          exact setInMulti_eq_self isInMulti
        rw [same]
        exact sound
      | true =>
        have same : pool.restartJob job = pool.delayedDelete job := by
          simp only [CurlHandlePool.restartJob, isInMulti, cancelled,
            if_true, hasHandle, Bool.false_eq_true, if_false, cancelJob]
        rw [same, virtual, remaining_of_update done rfl]
        exact sound.delayedDelete notQueued
    | true =>
      simp only [hasHandle, if_true] at sound
      have notAdded : job ∉ pool.multiHandle := fun added =>
        disjoint_of_nodup_append sound.multiNodup added
          mem_cons_self
      cases cancelled : (pool.job job).cancelled with
      | false =>
        have same : pool.restartJob job =
            { pool with multiHandle := pool.multiHandle ++ [job] } := by
          simp only [CurlHandlePool.restartJob, isInMulti, cancelled, if_true, Bool.false_eq_true,
            if_false, multiAddHandle, hasHandle, Bool.true_eq_false, notAdded, or_self]
          exact setInMulti_eq_self isInMulti
        rw [same]
        exact sound.permMulti (by
          rw [append_assoc]
          exact .refl _)
      | true =>
        have retired := sound.retireCancelled
          (mem_append_right _ (.head _))
        have same : pool.restartJob job = { pool with
              job := Function.update pool.job job
                { pool.job job with hasHandle := false, delTimer := true }
              activeJobs := pool.activeJobs - 1
              decremented := pool.decremented ++ [job] } := by
          simp [CurlHandlePool.restartJob, isInMulti, cancelled,
            hasHandle, decrement, cancelJob, CurlHandlePool.delayedDelete]
        have left : (pool.multiHandle ++ job :: pool.remaining todo).erase
            job = pool.multiHandle ++ pool.remaining todo := by
          rw [erase_append_right _ notAdded, erase_cons_head]
        rw [left] at retired
        rw [same, virtual, remaining_of_update done rfl]
        exact retired

theorem sound_foldl_restartJob (todo : List JobId) {pool : CurlHandlePool} (nodup : todo.Nodup)
    (sound : (pool.virtual todo).Sound settings) :
    (todo.foldl CurlHandlePool.restartJob pool).Sound settings := by
  induction todo generalizing pool with
  | nil =>
    have none : pool.remaining [] = [] := rfl
    rw [virtual, none, append_nil] at sound
    exact sound
  | cons job todo ih =>
    obtain ⟨done, restNodup⟩ := nodup_cons.1 nodup
    exact ih restNodup (sound.restartJob done)

theorem Sound.restart (sound : pool.Sound settings) : (pool.restart settings).Sound settings := by
  have sameHandles : (pool.remaining pool.sHandles).Perm pool.multiHandle := by
    refine (perm_ext_iff_of_nodup (sound.handlesNodup.filter _)
      sound.multiNodup).2 fun job => ?_
    rw [sound.mem_multi, mem_filter, Bool.and_eq_true]
  apply Sound.startQueuedJobs
  exact sound_foldl_restartJob pool.sHandles sound.handlesNodup
    (sound.permMulti sameHandles)

end Deletion

/-! ## Runs -/

/-- The condition under which an event keeps the accounts: no synchronous load
is restarted, and no handle in the multi handle is deleted inside
`curl_multi_perform`. -/
def KeepsAccounts (settings : PoolSettings) (pool : CurlHandlePool) : Event → Prop
  | .startSync setupJob completion authCancelled _ =>
    setupJob = true → ¬Completion.Restarts settings completion authCancelled
  | .delTimer job =>
    (pool.job job).delTimer = true → pool.withinMulti = true → job ∉ pool.multiHandle
  | _ => True

section Runs

variable {settings : PoolSettings} {pool : CurlHandlePool}

theorem Sound.startSync_of_not_restarts (sound : pool.Sound settings) {setupJob : Bool}
    {completion : Completion} {authCancelled : Bool}
    (ends : setupJob = true → ¬Completion.Restarts settings completion authCancelled)
    (clientCancels : Bool) : (pool.startSync settings setupJob completion authCancelled
      clientCancels).Sound settings := by
  have created := sound.create true
  have notQueued : pool.nextJob ∉ (pool.create true).2.queuedJobs := nextJob_not_queued sound
  unfold CurlHandlePool.startSync
  split_ifs with setupFails
  · exact created.delayedDelete notQueued
  · exact created.complete_of_not_restarts notQueued
      (ends (by simpa using setupFails)) clientCancels

/-- A step that meets the condition keeps the invariant. -/
theorem Sound.step (sound : pool.Sound settings) {event : Event}
    (keeps : KeepsAccounts settings pool event) : (pool.step settings event).Sound settings := by
  cases event with
  | startAsync setupJob => exact sound.startAsync setupJob
  | cancel job =>
    simp only [CurlHandlePool.step]
    split_ifs
    · exact sound.cancel.1
    · exact sound
  | delTimer job =>
    simp only [CurlHandlePool.step]
    split_ifs with due
    · refine sound.deleteJob due.1 (fun inQueue => ?_) (keeps due.2)
      have waiting := (sound.queued job inQueue).2.2.2.1
      rw [due.2] at waiting
      cases waiting
    · exact sound
  | performBegin | performEnd => exact { sound with }
  | message job completion authCancelled clientCancels =>
    simp only [CurlHandlePool.step]
    split_ifs with reported
    · exact sound.message reported.1 completion authCancelled clientCancels
    · exact sound
  | dispatchEnd =>
    simp only [CurlHandlePool.step]
    split_ifs
    · exact sound
    · exact sound.startQueuedJobs
  | startSync setupJob completion authCancelled clientCancels =>
    exact sound.startSync_of_not_restarts keeps clientCancels
  | deleteSync job =>
    simp only [CurlHandlePool.step]
    split_ifs with owned
    · refine sound.deleteJob owned.1 (fun inQueue => ?_)
        fun _ inMulti => ?_
      · have notSync := (sound.queued job inQueue).2.2.2.2
        rw [owned.2] at notSync
        cases notSync
      · have isInMulti := ((sound.mem_multi job).1 inMulti).2.1
        rw [sound.syncApart job owned.1 owned.2] at isInMulti
        cases isInMulti
    · exact sound
  | restart =>
    simp only [CurlHandlePool.step]
    split_ifs
    · exact sound
    · exact sound.restart

/-- A step that does not meet the condition loses the count. -/
theorem Sound.keepsAccounts_of_accounted (sound : pool.Sound settings) {event : Event}
    (accounted : (pool.step settings event).Accounted settings) :
    KeepsAccounts settings pool event := by
  cases event with
  | startSync setupJob completion authCancelled clientCancels =>
    intro isSetUp restarts
    -- The handle is added to the multi handle but not counted.
    have notAdded : pool.nextJob ∉ pool.multiHandle := fun inMulti =>
      absurd (sound.handlesOld _ ((sound.mem_multi _).1 inMulti).1)
        (lt_irrefl _)
    have started : pool.step settings (.startSync setupJob completion authCancelled clientCancels) =
          (pool.create true).2.restartAsync pool.nextJob := by
      simp only [CurlHandlePool.step, CurlHandlePool.startSync, isSetUp, Bool.not_true,
        Bool.false_eq_true, if_false, complete_of_restarts restarts]
      rfl
    have multi : ((pool.create true).2.restartAsync
        pool.nextJob).multiHandle = pool.multiHandle ++ [pool.nextJob] := by
      simp [CurlHandlePool.restartAsync, multiRemoveHandle, multiAddHandle,
        CurlHandlePool.create, erase_of_not_mem notAdded, notAdded]
    have activeJobs : ((pool.create true).2.restartAsync
        pool.nextJob).activeJobs = pool.activeJobs := by
      unfold CurlHandlePool.restartAsync multiAddHandle
      split_ifs <;> rfl
    have count := accounted.count
    rw [started, multi, activeJobs, sound.count, length_append, length_singleton] at count
    omega
  | delTimer job =>
    intro delTimer within inMulti
    -- The handle leaves the multi handle without a decrement.
    obtain ⟨live, -, hasHandle⟩ := (sound.mem_multi job).1 inMulti
    have deleted : pool.step settings (.delTimer job) = { pool with
          sHandles := pool.sHandles.erase job
          multiHandle := pool.multiHandle.erase job } := by
      simp [CurlHandlePool.step, live, delTimer, CurlHandlePool.deleteJob,
        hasHandle, release, within, multiRemoveHandle]
    have count := accounted.count
    rw [deleted] at count
    rw [sound.count, length_erase_of_mem inMulti] at count
    have nonempty := length_pos_of_mem inMulti
    omega
  | _ => trivial

end Runs

/-- In a run of the pool the accounts are always in order exactly when no
event restarts a synchronous load or deletes an added handle inside
`curl_multi_perform`. -/
theorem accounted_run_iff (settings : PoolSettings) (events : List Event) :
    (∀ reached ∈ Runs.visited (step settings) start events, reached.Accounted settings) ↔
      Runs.StepsMeet (step settings) (KeepsAccounts settings) start events :=
  Runs.visited_iff_stepsMeet_of_invariant
    (fun _ sound => sound.accounted)
    (fun _ _ sound keeps => sound.step keeps)
    (fun _ _ sound accounted => sound.keepsAccounts_of_accounted accounted)
    events (sound_start settings)

/-- A synchronous load that ends with 401 in the browser server leaves a
handle in the multi handle that is not counted. -/
theorem uncounted_synchronous_load : ¬∀ (settings : PoolSettings) (events : List Event),
      ∀ reached ∈ Runs.visited (step settings) start events,
        reached.Accounted settings := by
  intro accounted
  have reached := accounted ⟨15, true⟩
    [.startSync true (.finished 401) false false] _
    (Runs.final_mem_visited _ _)
  exact absurd reached.count (by decide)

end CurlHandlePool
end Network
end PalmWebKit
