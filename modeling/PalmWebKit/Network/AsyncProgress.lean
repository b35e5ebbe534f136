import PalmWebKit.Network.AsyncDelivery

/-!
# Progress of the asynchronous loader

In a fair run without disturbances a job goes from the job queue to the
finished queue, from there into the hands of the callback, and is delivered to
its end.  For each of the three stretches a rank says how far it still is.
-/

namespace PalmWebKit
namespace Network
namespace AsyncLoader

open List

section Stretches

variable
  {env : LoaderPlatform}
  {pipeCapacity : Nat}
  {loader : AsyncLoader}
  {handle : HandleId}

/-! ## What the steps leave alone -/

theorem callbackStep_jobs : (loader.callbackStep env).jobQueue = loader.jobQueue ∧
      (loader.callbackStep env).worker = loader.worker ∧
      (loader.callbackStep env).mainToThread = loader.mainToThread := by
  unfold callbackStep
  split
  · split <;> exact ⟨rfl, rfl, rfl⟩
  · split <;> exact ⟨rfl, rfl, rfl⟩
  · split <;> exact ⟨rfl, rfl, rfl⟩
  · split
    · unfold oneLoadFinished
      split
      · exact ⟨rfl, rfl, rfl⟩
      · split <;> exact ⟨rfl, rfl, rfl⟩
    · exact ⟨rfl, rfl, rfl⟩

theorem wakeupChildThread_jobs (unblocked : loader.blocked = none)
    (hasRoom : loader.waking = true → loader.mainToThread < pipeCapacity) :
    (loader.wakeupChildThread pipeCapacity).jobQueue = loader.jobQueue ∧
      (loader.wakeupChildThread pipeCapacity).worker = loader.worker ∧
      (loader.wakeupChildThread pipeCapacity).mainToThread =
        loader.mainToThread + if loader.waking = true then 1 else 0 := by
  unfold wakeupChildThread
  by_cases isWaking : loader.waking = true
  · simp [isWaking, unblocked, hasRoom isWaking]
  · simp [isWaking]

theorem wakeupChildThread_finished :
    (loader.wakeupChildThread pipeCapacity).finishedQueue = loader.finishedQueue ∧
      (loader.wakeupChildThread pipeCapacity).main = loader.main ∧
      (loader.wakeupChildThread pipeCapacity).threadToMain = loader.threadToMain ∧
      (loader.wakeupChildThread pipeCapacity).hasClient = loader.hasClient ∧
      (loader.wakeupChildThread pipeCapacity).cancelled = loader.cancelled := by
  unfold wakeupChildThread
  split
  · split <;> exact ⟨rfl, rfl, rfl, rfl, rfl⟩
  · exact ⟨rfl, rfl, rfl, rfl, rfl⟩

theorem main_workerStep (file : Option LocalFile) (allocated : Bool) :
    (loader.workerStep pipeCapacity file allocated).main = loader.main := by
  unfold workerStep
  split
  · rfl
  · split
    · split <;> rfl
    · split <;> rfl
    · rfl
    · unfold wakeupMainThread
      split <;> rfl

/-- Where a handle stands in a queue. -/
def indexIn (handle : HandleId) (items : List AsyncLoaderItem) : Nat :=
  (items.map (·.handle)).idxOf handle

/-- Cancelling another handle moves nothing back. -/
theorem indexIn_filter_le {other : HandleId} (differ : handle ≠ other)
    (items : List AsyncLoaderItem) :
    indexIn handle (items.filter (·.handle ≠ other)) ≤ indexIn handle items := by
  induction items with
  | nil => exact Nat.le_refl _
  | cons item items ih =>
    simp only [indexIn, filter_cons, map_cons, idxOf_cons]
    by_cases isOther : item.handle = other
    · have notHandle : (item.handle == handle) = false := by
        simpa [isOther] using Ne.symm differ
      simp only [isOther, ne_eq, not_true_eq_false, decide_false]
      rw [isOther] at notHandle
      rw [notHandle]
      exact Nat.le_succ_of_le ih
    · simp only [isOther, ne_eq, not_false_eq_true, decide_true, if_true,
        map_cons, idxOf_cons]
      cases item.handle == handle
      · exact Nat.succ_le_succ ih
      · exact Nat.le_refl _

variable {items : List AsyncLoaderItem}

theorem indexIn_append (isMember : handle ∈ items.map (·.handle))
    (later : List AsyncLoaderItem) : indexIn handle (items ++ later) = indexIn handle items := by
  rw [indexIn, map_append, idxOf_append_of_mem isMember, indexIn]

theorem mem_handles_filter {other : HandleId} (differ : handle ≠ other)
    (isMember : handle ∈ items.map (·.handle)) :
    handle ∈ (items.filter (·.handle ≠ other)).map (·.handle) := by
  obtain ⟨item, itemMember, rfl⟩ := mem_map.1 isMember
  exact mem_map.2
    ⟨item, mem_filter.2 ⟨itemMember, by simpa using differ⟩, rfl⟩

/-! ## From the job queue to the finished queue -/

/-- The worker's steps until it looks into the job queue again. -/
def stepsToReady : WorkerStage → Nat
  | .ready => 0
  | .selecting => 1
  | .loading _ => 2
  | .loaded => 1

/-- The worker waits for a byte. -/
def Stalled (loader : AsyncLoader) : Prop := loader.worker = .selecting ∧ loader.mainToThread = 0

instance (loader : AsyncLoader) : Decidable loader.Stalled := inferInstanceAs (Decidable (_ ∧ _))

def Queued (handle : HandleId) (loader : AsyncLoader) : Prop :=
  handle ∈ loader.jobQueue.map (·.handle) ∨ handle ∈ inHand loader.worker

def Waiting (handle : HandleId) (loader : AsyncLoader) : Prop :=
  handle ∈ loader.finishedQueue.map (·.handle)

/-- Every job before the own one takes three steps of the worker. -/
def queuedRank (handle : HandleId) (loader : AsyncLoader) : Nat :=
  2 * (if handle ∈ inHand loader.worker then 1
    else stepsToReady loader.worker + 3 * indexIn handle loader.jobQueue + 2) +
  if loader.Stalled then 1 else 0

def queuedHelper (loader : AsyncLoader) : LoaderThread :=
  if loader.Stalled then .main else .worker

variable
  {next : AsyncLoader}
  {action : AsyncLoaderAction}

/-- An action that leaves worker and pipe alone and moves no job back. -/
theorem queued_progress_of_same (workerSame : next.worker = loader.worker)
    (bytesSame : next.mainToThread = loader.mainToThread) (isQueued : Queued handle next)
    (notBack : handle ∉ inHand loader.worker →
      indexIn handle next.jobQueue ≤ indexIn handle loader.jobQueue)
    (notServed : ¬ Serves loader.queuedHelper action) :
    Runs.Progress Serves (Queued handle) (Waiting handle) (queuedRank handle)
      queuedHelper loader action next := by
  have stalledSame : next.Stalled ↔ loader.Stalled := by
    rw [Stalled, Stalled, workerSame, bytesSame]
  have rankLe : queuedRank handle next ≤ queuedRank handle loader := by
    simp only [queuedRank, workerSame, stalledSame]
    split
    · exact Nat.le_refl _
    · have := notBack ‹_›
      omega
  right
  refine ⟨isQueued, ?_⟩
  rcases Nat.lt_or_eq_of_le rankLe with drops | same
  · exact .inl drops
  · exact .inr ⟨same, by simp only [queuedHelper, stalledSame], notServed⟩

/-- The byte for a queued job ends a stall, and starts none. -/
theorem queued_progress_of_wake (isQueued : Queued handle loader)
    (jobsSame : next.jobQueue = loader.jobQueue) (workerSame : next.worker = loader.worker)
    (bytes : next.mainToThread = loader.mainToThread + if loader.waking = true then 1 else 0)
    (served : Serves loader.queuedHelper action → loader.Stalled ∧ loader.waking = true) :
    Runs.Progress Serves (Queued handle) (Waiting handle) (queuedRank handle)
      queuedHelper loader action next := by
  have isQueuedNext : Queued handle next := by
    rw [Queued, jobsSame, workerSame]
    exact isQueued
  by_cases ends : loader.Stalled ∧ loader.waking = true
  · obtain ⟨stalled, isWaking⟩ := ends
    have notStalled : ¬ next.Stalled := by
      rw [Stalled, bytes, if_pos isWaking]
      exact fun both => Nat.succ_ne_zero _ both.2
    refine .inr ⟨isQueuedNext, .inl ?_⟩
    simp only [queuedRank, workerSame, jobsSame, if_pos stalled, if_neg notStalled]
    omega
  · have stalledSame : next.Stalled ↔ loader.Stalled := by
      rw [Stalled, workerSame, bytes]
      constructor
      · rintro ⟨isSelecting, empty⟩
        exact ⟨isSelecting, by omega⟩
      · rintro ⟨isSelecting, empty⟩
        refine ⟨isSelecting, ?_⟩
        rw [if_neg fun isWaking => ends ⟨⟨isSelecting, empty⟩, isWaking⟩, empty]
    refine .inr ⟨isQueuedNext, .inr ⟨?_, ?_, fun isServed => ends (served isServed)⟩⟩
    · simp only [queuedRank, workerSame, jobsSame, stalledSame]
    · simp only [queuedHelper, stalledSame]

theorem queued_progress_worker (sound : Sound env loader)
    (hasRoom : loader.worker = .loaded → loader.threadToMain < pipeCapacity)
    (isQueued : Queued handle loader) (file : Option LocalFile) (allocated : Bool) :
    Runs.Progress Serves (Queued handle) (Waiting handle) (queuedRank handle)
      queuedHelper loader (.worker file allocated)
      (loader.workerStep pipeCapacity file allocated) := by
  rw [workerStep, if_neg (by simp [sound.orderly.unblocked])]
  cases stage : loader.worker with
  | ready =>
    have isJob : handle ∈ loader.jobQueue.map (·.handle) := by
      simpa [Queued, stage, inHand] using isQueued
    cases jobs : loader.jobQueue with
    | nil => simp [jobs] at isJob
    | cons item items =>
      by_cases own : item.handle = handle
      · refine .inr ⟨.inr (by simp [inHand, own]), .inl ?_⟩
        simp only [queuedRank, Stalled, stage, inHand, own, stepsToReady, mem_singleton,
          not_mem_nil, reduceCtorEq, false_and, if_true, if_false]
        omega
      · have isLater : handle ∈ items.map (·.handle) := by
          rw [jobs, map_cons, mem_cons] at isJob
          exact isJob.resolve_left (Ne.symm own)
        refine .inr ⟨.inl isLater, .inl ?_⟩
        have notOwn : (item.handle == handle) = false := by simpa using own
        simp only [queuedRank, Stalled, stage, inHand, stepsToReady, jobs, indexIn, map_cons,
          idxOf_cons, notOwn, mem_singleton, not_mem_nil, reduceCtorEq, false_and,
          if_false, cond_false, if_neg (Ne.symm own)]
        omega
  | selecting =>
    have isJob : handle ∈ loader.jobQueue.map (·.handle) := by
      simpa [Queued, stage, inHand] using isQueued
    dsimp only
    split
    next someByte =>
      refine .inr ⟨.inl isJob, .inl ?_⟩
      simp only [queuedRank, Stalled, stage, inHand, stepsToReady, not_mem_nil, reduceCtorEq,
        false_and, true_and, if_false, Nat.ne_of_gt someByte]
      omega
    next noByte =>
      have stalled : loader.Stalled := ⟨stage, Nat.eq_zero_of_not_pos noByte⟩
      apply queued_progress_of_same rfl rfl isQueued fun _ => Nat.le_refl _
      simp [queuedHelper, stalled, Serves]
  | loading item =>
    by_cases own : item.handle = handle
    · left
      simp [Waiting, record, own]
    · have isJob : handle ∈ loader.jobQueue.map (·.handle) := by
        have notInHand : handle ≠ item.handle := Ne.symm own
        simpa [Queued, stage, inHand, notInHand] using isQueued
      refine .inr ⟨.inl isJob, .inl ?_⟩
      simp only [queuedRank, Stalled, stage, inHand, stepsToReady, record, mem_singleton,
        not_mem_nil, reduceCtorEq, false_and, if_false, if_neg (Ne.symm own)]
      omega
  | loaded =>
    have isJob : handle ∈ loader.jobQueue.map (·.handle) := by
      simpa [Queued, stage, inHand] using isQueued
    simp only [wakeupMainThread, if_pos (hasRoom stage)]
    refine .inr ⟨.inl isJob, .inl ?_⟩
    simp only [queuedRank, Stalled, stage, inHand, stepsToReady, record,
      not_mem_nil, reduceCtorEq, false_and, if_false]
    omega

/-- Every step brings a queued job nearer to the finished queue, as far as the
helpful thread is served. -/
theorem queued_progress (sound : Sound env loader)
    (undisturbed : Undisturbed pipeCapacity loader action) (isQueued : Queued handle loader)
    (kept : (loader.step env pipeCapacity action).cancelled handle = false) :
    Runs.Progress Serves (Queued handle) (Waiting handle) (queuedRank handle)
      queuedHelper loader action (loader.step env pipeCapacity action) := by
  have notServes : ∀ other : AsyncLoaderAction, other ≠ .main →
      (∀ file allocated, other ≠ .worker file allocated) →
        ¬ Serves loader.queuedHelper other := by
    intro other notMain notWorker isServed
    cases other <;> cases loader.queuedHelper <;> simp_all [Serves]
  cases action with
  | load path =>
    rw [step]
    split
    · refine queued_progress_of_same rfl rfl ?_ ?_ (notServes _ (by simp) (by simp))
      · rcases isQueued with isJob | isInHand
        · left
          rw [load, map_append]
          exact mem_append_left _ isJob
        · exact .inr isInHand
      · intro notInHand
        rw [load, indexIn_append (isQueued.resolve_right notInHand)]
    · exact queued_progress_of_same rfl rfl isQueued (fun _ => Nat.le_refl _)
        (notServes _ (by simp) (by simp))
  | cancel other =>
    rw [step] at kept ⊢
    split
    next runs =>
      rw [if_pos runs] at kept
      have differ : handle ≠ other := by
        rintro rfl
        simp [cancel, record] at kept
      refine queued_progress_of_same rfl rfl ?_ ?_ (notServes _ (by simp) (by simp))
      · exact isQueued.imp_left (mem_handles_filter differ)
      · exact fun _ => indexIn_filter_le differ _
    next =>
      exact queued_progress_of_same rfl rfl isQueued (fun _ => Nat.le_refl _)
        (notServes _ (by simp) (by simp))
  | clearClient other =>
    rw [step]
    split
    all_goals
      exact queued_progress_of_same rfl rfl isQueued (fun _ => Nat.le_refl _)
        (notServes _ (by simp) (by simp))
  | wakeChild =>
    obtain ⟨jobs, worker, bytes⟩ := wakeupChildThread_jobs sound.orderly.unblocked undisturbed
    exact queued_progress_of_wake isQueued jobs worker bytes
      fun isServed => absurd isServed (notServes _ (by simp) (by simp))
  | worker file allocated => exact queued_progress_worker sound undisturbed isQueued file allocated
  | main =>
    obtain ⟨jobs, worker, bytes⟩ := wakeupChildThread_jobs sound.orderly.unblocked undisturbed.1
    obtain ⟨jobsAfter, workerAfter, bytesAfter⟩ := @callbackStep_jobs env
      (loader.wakeupChildThread pipeCapacity)
    refine queued_progress_of_wake isQueued (jobsAfter.trans jobs)
      (workerAfter.trans worker) (bytesAfter.trans bytes) ?_
    intro isServed
    have stalled : loader.Stalled := by
      by_contra notStalled
      simp [queuedHelper, notStalled, Serves] at isServed
    refine ⟨stalled, ?_⟩
    have someJob : loader.jobQueue ≠ [] := by
      rcases isQueued with isJob | isInHand
      · rintro noJob
        simp [noJob] at isJob
      · simp [inHand, stalled.1] at isInHand
    refine (sound.jobBytes stalled.1 someJob).resolve_left ?_
    rw [stalled.2]
    exact Nat.lt_irrefl 0

/-! ## From the finished queue to the callback -/

/-- The callback's steps until it takes the next item. -/
def stepsToTake : MainStage → Nat
  | .idle => 2
  | .woken => 1
  | .delivering _ rest => rest.length + 3

/-- The main thread waits for a byte. -/
def Unwoken (loader : AsyncLoader) : Prop := loader.main = .idle ∧ loader.threadToMain = 0

instance (loader : AsyncLoader) : Decidable loader.Unwoken := inferInstanceAs (Decidable (_ ∧ _))

def Delivering (handle : HandleId) (loader : AsyncLoader) : Prop :=
  ∃ rest, loader.main = .delivering handle rest

/-- Every item before the own one takes at most six steps of the callback. -/
def waitingRank (handle : HandleId) (loader : AsyncLoader) : Nat :=
  2 * (stepsToTake loader.main + 6 * indexIn handle loader.finishedQueue) +
    if loader.Unwoken then 1 else 0

def waitingHelper (loader : AsyncLoader) : LoaderThread :=
  if loader.Unwoken then .worker else .main

/-- An action that leaves the callback and its pipe alone and moves no item
back. -/
theorem waiting_progress_of_same (mainSame : next.main = loader.main)
    (bytesSame : next.threadToMain = loader.threadToMain) (isWaiting : Waiting handle next)
    (notBack : indexIn handle next.finishedQueue ≤ indexIn handle loader.finishedQueue)
    (notServed : ¬ Serves loader.waitingHelper action) :
    Runs.Progress Serves (Waiting handle) (Delivering handle) (waitingRank handle)
      waitingHelper loader action next := by
  have unwokenSame : next.Unwoken ↔ loader.Unwoken := by rw [Unwoken, Unwoken, mainSame, bytesSame]
  have rankLe : waitingRank handle next ≤ waitingRank handle loader := by
    simp only [waitingRank, mainSame, unwokenSame]
    omega
  right
  refine ⟨isWaiting, ?_⟩
  rcases Nat.lt_or_eq_of_le rankLe with drops | same
  · exact .inl drops
  · exact .inr ⟨same, by simp only [waitingHelper, unwokenSame], notServed⟩

/-- A worker that has an item to announce wakes the main thread; any other step
of the worker adds at most an item at the end. -/
theorem waiting_progress_worker (sound : Sound env loader)
    (hasRoom : loader.worker = .loaded → loader.threadToMain < pipeCapacity)
    (isWaiting : Waiting handle loader) (file : Option LocalFile) (allocated : Bool) :
    Runs.Progress Serves (Waiting handle) (Delivering handle) (waitingRank handle)
      waitingHelper loader (.worker file allocated)
      (loader.workerStep pipeCapacity file allocated) := by
  have isLoaded_of_unwoken : loader.Unwoken → loader.worker = .loaded := by
    rintro ⟨isIdle, noByte⟩
    have bytes := sound.finishedBytes
    have someItem : 0 < loader.finishedQueue.length := by
      obtain ⟨item, isMember, -⟩ := mem_map.1 isWaiting
      exact length_pos_of_mem isMember
    rw [isIdle] at bytes
    cases stage : loader.worker with
    | loaded => rfl
    | ready | selecting | loading item =>
      rw [stage] at bytes
      simp only [MainStage.bytesRead, WorkerStage.bytesOwed] at bytes
      omega
  have notServed : loader.worker ≠ .loaded →
      ¬ Serves loader.waitingHelper (.worker file allocated) := by
    intro notLoaded
    have notUnwoken : ¬ loader.Unwoken := fun unwoken => notLoaded (isLoaded_of_unwoken unwoken)
    simp [waitingHelper, notUnwoken, Serves]
  rw [workerStep, if_neg (by simp [sound.orderly.unblocked])]
  cases stage : loader.worker with
  | ready =>
    have unserved := notServed (by simp [stage])
    cases loader.jobQueue with
    | nil | cons item items =>
      exact waiting_progress_of_same rfl rfl isWaiting (Nat.le_refl _) unserved
  | selecting =>
    have unserved := notServed (by simp [stage])
    dsimp only
    split <;> exact waiting_progress_of_same rfl rfl isWaiting (Nat.le_refl _) unserved
  | loading item =>
    refine waiting_progress_of_same rfl rfl ?_ ?_ (notServed (by simp [stage]))
    · simp only [Waiting, record, map_append]
      exact mem_append_left _ isWaiting
    · exact Nat.le_of_eq (indexIn_append isWaiting _)
  | loaded =>
    simp only [wakeupMainThread, if_pos (hasRoom stage)]
    have woken : ¬ ({ loader with
        threadToMain := loader.threadToMain + 1
        worker := .ready }.record .wokeMain).Unwoken :=
      fun both => Nat.succ_ne_zero _ both.2
    by_cases unwoken : loader.Unwoken
    · refine .inr ⟨isWaiting, .inl ?_⟩
      rw [waitingRank, waitingRank, if_pos unwoken, if_neg woken]
      exact Nat.lt_succ_self _
    · refine .inr ⟨isWaiting, .inr ⟨?_, ?_, ?_⟩⟩
      · rw [waitingRank, waitingRank, if_neg unwoken, if_neg woken]
        rfl
      · rw [waitingHelper, waitingHelper, if_neg unwoken, if_neg woken]
      · simp [waitingHelper, unwoken, Serves]

theorem length_result_le (item : AsyncLoaderItem) : (item.result env).length ≤ 4 := by
  unfold AsyncLoaderItem.result
  split <;> simp

/-- The callback takes the own item, or the one before it. -/
theorem waiting_progress_take (isWaiting : Waiting handle loader) (isWoken : loader.main = .woken)
    (hasClient : loader.hasClient handle = true) (notCancelled : loader.cancelled handle = false)
    (action : AsyncLoaderAction) :
    Runs.Progress Serves (Waiting handle) (Delivering handle) (waitingRank handle)
      waitingHelper loader action (loader.oneLoadFinished env) := by
  rw [oneLoadFinished]
  cases finished : loader.finishedQueue with
  | nil => simp [Waiting, finished] at isWaiting
  | cons item items =>
    by_cases own : item.handle = handle
    · left
      have calls : loader.callsFor env item = item.result env := by
        simp [callsFor, own, hasClient, notCancelled]
      obtain ⟨call, rest, resultEqual⟩ := exists_cons_of_ne_nil (@result_ne_nil env item)
      simp only [calls, resultEqual]
      exact ⟨rest, by rw [record, own]⟩
    · have isLater : handle ∈ items.map (·.handle) := by
        rw [Waiting, finished, map_cons, mem_cons] at isWaiting
        exact isWaiting.resolve_left (Ne.symm own)
      have index : indexIn handle loader.finishedQueue = indexIn handle items + 1 := by
        have notOwn : (item.handle == handle) = false := by simpa using own
        rw [finished]
        simp only [indexIn, map_cons, idxOf_cons, notOwn, cond_false]
      have rank : waitingRank handle loader = 14 + 12 * indexIn handle items := by
        simp only [waitingRank, isWoken, stepsToTake, index, Unwoken, reduceCtorEq,
          false_and, if_false]
        omega
      cases calls : loader.callsFor env item with
      | nil =>
        simp only [calls]
        refine .inr ⟨isLater, .inl ?_⟩
        simp only [waitingRank, stepsToTake]
        split <;> omega
      | cons call rest =>
        simp only [calls]
        refine .inr ⟨isLater, .inl ?_⟩
        have short := @length_result_le env item
        rw [(callsFor_eq_cons calls).1, length_cons] at short
        rw [rank]
        simp only [waitingRank, record, stepsToTake, Unwoken, reduceCtorEq, false_and, if_false]
        omega

theorem waiting_progress_callback (sound : Sound env loader)
    (isWaiting : Waiting handle loader) (hasClient : loader.hasClient handle = true)
    (notCancelled : loader.cancelled handle = false) :
    Runs.Progress Serves (Waiting handle) (Delivering handle) (waitingRank handle)
      waitingHelper loader .main (loader.callbackStep env) := by
  have unblocked := sound.orderly.unblocked
  unfold callbackStep
  cases stage : loader.main with
  | idle =>
    dsimp only
    split
    next someByte =>
      refine .inr ⟨isWaiting, .inl ?_⟩
      simp only [waitingRank, stage, stepsToTake, Unwoken, reduceCtorEq, false_and, if_false]
      split <;> omega
    next noByte =>
      have unwoken : loader.Unwoken :=
        ⟨stage, Nat.eq_zero_of_not_pos fun some => noByte ⟨unblocked, some⟩⟩
      apply waiting_progress_of_same rfl rfl isWaiting (Nat.le_refl _)
      simp [waitingHelper, unwoken, Serves]
  | woken =>
    rw [if_pos unblocked]
    exact waiting_progress_take isWaiting stage hasClient notCancelled _
  | delivering other rest =>
    cases rest with
    | nil =>
      rw [if_neg (by simp [unblocked])]
      refine .inr ⟨isWaiting, .inl ?_⟩
      simp only [waitingRank, stage, stepsToTake, Unwoken, length_nil,
        reduceCtorEq, false_and, if_false]
      split <;> omega
    | cons call rest =>
      dsimp only
      rw [if_neg (by simp [unblocked])]
      refine .inr ⟨isWaiting, .inl ?_⟩
      simp only [waitingRank, stage, stepsToTake, Unwoken, record, length_cons,
        reduceCtorEq, false_and, if_false]
      omega

/-- Every step brings a finished item nearer to the callback, as far as the
helpful thread is served. -/
theorem waiting_progress (sound : Sound env loader)
    (undisturbed : Undisturbed pipeCapacity loader action) (isWaiting : Waiting handle loader)
    (hasClient : loader.hasClient handle = true) (notCancelled : loader.cancelled handle = false)
    (kept : (loader.step env pipeCapacity action).cancelled handle = false) :
    Runs.Progress Serves (Waiting handle) (Delivering handle) (waitingRank handle)
      waitingHelper loader action (loader.step env pipeCapacity action) := by
  have notServes : ∀ other : AsyncLoaderAction, other ≠ .main →
      (∀ file allocated, other ≠ .worker file allocated) →
        ¬ Serves loader.waitingHelper other := by
    intro other notMain notWorker isServed
    cases other <;> cases loader.waitingHelper <;> simp_all [Serves]
  cases action with
  | load path | clearClient other =>
    rw [step]
    split
    all_goals
      exact waiting_progress_of_same rfl rfl isWaiting (Nat.le_refl _)
        (notServes _ (by simp) (by simp))
  | cancel other =>
    rw [step] at kept ⊢
    split
    next runs =>
      rw [if_pos runs] at kept
      have differ : handle ≠ other := by
        rintro rfl
        simp [cancel, record] at kept
      exact waiting_progress_of_same rfl rfl (mem_handles_filter differ isWaiting)
        (indexIn_filter_le differ _) (notServes _ (by simp) (by simp))
    next =>
      exact waiting_progress_of_same rfl rfl isWaiting (Nat.le_refl _)
        (notServes _ (by simp) (by simp))
  | wakeChild =>
    obtain ⟨finished, main, bytes, -, -⟩ := @wakeupChildThread_finished pipeCapacity loader
    refine waiting_progress_of_same main bytes ?_ ?_ (notServes _ (by simp) (by simp))
    · rw [Waiting, step, finished]
      exact isWaiting
    · rw [step, finished]
  | worker file allocated =>
    exact waiting_progress_worker sound undisturbed isWaiting file allocated
  | main =>
    obtain ⟨finished, main, bytes, clients, cancels⟩ :=
      @wakeupChildThread_finished pipeCapacity loader
    have progress := @waiting_progress_callback env _ handle
      (sound.wakeupChildThread undisturbed.1)
      (by rw [Waiting, finished]; exact isWaiting)
      (by rw [clients]; exact hasClient) (by rw [cancels]; exact notCancelled)
    -- rank and helper read nothing that the write to the other pipe changes
    have unwokenSame : (loader.wakeupChildThread pipeCapacity).Unwoken ↔
        loader.Unwoken := by
      rw [Unwoken, Unwoken, main, bytes]
    have rankSame : waitingRank handle (loader.wakeupChildThread pipeCapacity) =
        waitingRank handle loader := by
      simp only [waitingRank, unwokenSame, finished, main]
    have helperSame : (loader.wakeupChildThread pipeCapacity).waitingHelper =
        loader.waitingHelper := by
      simp only [waitingHelper, unwokenSame]
    rw [Runs.Progress, rankSame, helperSame] at progress
    exact progress

/-! ## From the first call to the last -/

/-- Calls are still to be made. -/
def Partway (handle : HandleId) (loader : AsyncLoader) : Prop :=
  ∃ call rest, loader.main = .delivering handle (call :: rest)

def callsLeft (loader : AsyncLoader) : Nat :=
  match loader.main with
  | .delivering _ rest => rest.length
  | _ => 0

theorem partway_progress_of_same (mainSame : next.main = loader.main)
    (isPartway : Partway handle loader) (notServed : ¬ Serves .main action) :
    Runs.Progress Serves (Partway handle) (fun loader => loader.main =
      .delivering handle []) callsLeft (fun _ => .main) loader action next := by
  right
  refine ⟨?_, .inr ⟨?_, rfl, notServed⟩⟩
  · rw [Partway, mainSame]
    exact isPartway
  · rw [callsLeft, callsLeft, mainSame]

/-- Every step of the callback makes one more call. -/
theorem partway_progress (sound : Sound env loader) (isPartway : Partway handle loader)
    (undisturbed : Undisturbed pipeCapacity loader action) :
    Runs.Progress Serves (Partway handle) (fun loader => loader.main =
      .delivering handle []) callsLeft (fun _ => .main) loader action
        (loader.step env pipeCapacity action) := by
  cases action with
  | load path | cancel other | clearClient other =>
    refine partway_progress_of_same ?_ isPartway (by simp [Serves])
    rw [step]
    split <;> rfl
  | wakeChild =>
    exact partway_progress_of_same wakeupChildThread_finished.2.1 isPartway
      (by simp [Serves])
  | worker file allocated =>
    exact partway_progress_of_same (main_workerStep file allocated) isPartway
      (by simp [Serves])
  | main =>
    obtain ⟨call, rest, stage⟩ := isPartway
    have woken := sound.wakeupChildThread undisturbed.1
    have stageWoken := (@wakeupChildThread_finished pipeCapacity loader).2.1.trans
      stage
    have after : (loader.step env pipeCapacity .main).main =
        .delivering handle rest := by
      rw [step, callbackStep, stageWoken]
      dsimp only
      rw [if_neg (by simp [woken.orderly.unblocked])]
      rfl
    cases rest with
    | nil => exact .inl after
    | cons next rest =>
      refine .inr ⟨⟨next, rest, after⟩, .inl ?_⟩
      simp only [callsLeft, after, stage, length_cons]
      omega

end Stretches

/-! ## Fair runs -/

/-- The states of an infinite run of the interleaving. -/
abbrev stateAt (env : LoaderPlatform) (pipeCapacity : Nat)
    (actions : Nat → AsyncLoaderAction) : Nat → AsyncLoader :=
  Runs.stateAt (step env pipeCapacity) start actions

section FairRuns

variable
  {env : LoaderPlatform}
  {pipeCapacity : Nat}
  {actions : Nat → AsyncLoaderAction}
  (fair : Runs.Fair Serves actions)
  (sound : ∀ count, Sound env (stateAt env pipeCapacity actions count))
  (undisturbed : ∀ count, Undisturbed pipeCapacity (stateAt env pipeCapacity actions count)
      (actions count))
  {handle : HandleId}
  {count : Nat}

include sound in
theorem delivered_of_ended
    (ended : (stateAt env pipeCapacity actions count).main = .delivering handle []) :
    Delivered env handle (stateAt env pipeCapacity actions count) := by
  obtain ⟨-, item, isFinished, equal, calls⟩ := (sound count).delivering _ _ ended
  exact ⟨item, isFinished, equal, by simpa using calls⟩

include fair sound undisturbed

theorem eventually_of_delivering
    (isDelivering : Delivering handle (stateAt env pipeCapacity actions count)) :
    ∃ later, Delivered env handle
      (stateAt env pipeCapacity actions later) := by
  obtain ⟨rest, stage⟩ := isDelivering
  cases rest with
  | nil => exact ⟨count, delivered_of_ended sound stage⟩
  | cons call rest =>
    obtain ⟨later, -, ended⟩ := Runs.eventually_of_progress fair
      (fun count isPartway => partway_progress (sound count) isPartway (undisturbed count))
      count ⟨call, rest, stage⟩
    exact ⟨later, delivered_of_ended sound ended⟩

variable
  (notCancelled : ∀ later, (stateAt env pipeCapacity actions later).cancelled handle = false)
  (hasClient : ∀ later, (stateAt env pipeCapacity actions later).hasClient handle = true)

include notCancelled hasClient

theorem eventually_of_waiting
    (isWaiting : Waiting handle (stateAt env pipeCapacity actions count)) :
    ∃ later, Delivered env handle
      (stateAt env pipeCapacity actions later) := by
  obtain ⟨later, -, isDelivering⟩ := Runs.eventually_of_progress fair
    (fun count isWaiting =>
      waiting_progress (sound count) (undisturbed count) isWaiting (hasClient count)
        (notCancelled count) (notCancelled (count + 1)))
    count isWaiting
  exact eventually_of_delivering fair sound undisturbed isDelivering

theorem eventually_of_queued
    (isQueued : Queued handle (stateAt env pipeCapacity actions count)) :
    ∃ later, Delivered env handle
      (stateAt env pipeCapacity actions later) := by
  obtain ⟨later, -, isWaiting⟩ := Runs.eventually_of_progress fair
    (fun count isQueued =>
      queued_progress (sound count) (undisturbed count) isQueued
        (notCancelled (count + 1)))
    count isQueued
  exact eventually_of_waiting fair sound undisturbed notCancelled hasClient isWaiting

/-- In a fair run without disturbances every job that keeps its client and is
not cancelled is delivered in the end. -/
theorem eventually_delivered
    (isLoaded : handle < (stateAt env pipeCapacity actions count).nextHandle) :
    ∃ later, Delivered env handle
      (stateAt env pipeCapacity actions later) := by
  rcases (sound count).accounted handle isLoaded (notCancelled count)
      (hasClient count) with isPending | isDelivering | delivered
  · rw [pending, mem_append, mem_append] at isPending
    rcases isPending with isWaiting | isInHand | isJob
    · exact eventually_of_waiting fair sound undisturbed notCancelled hasClient
        isWaiting
    · exact eventually_of_queued fair sound undisturbed notCancelled hasClient
        (.inr isInHand)
    · exact eventually_of_queued fair sound undisturbed notCancelled hasClient
        (.inl isJob)
  · exact eventually_of_delivering fair sound undisturbed isDelivering
  · exact ⟨count, delivered⟩

end FairRuns

/-! ## The runs of the loader -/

/-- In the end a job is delivered if it is neither cancelled nor loses its
client. -/
def DeliveredInTheEnd (env : LoaderPlatform) (states : Nat → AsyncLoader) : Prop :=
  ∀ handle count, handle < (states count).nextHandle →
    (∀ later, (states later).cancelled handle = false) →
    (∀ later, (states later).hasClient handle = true) →
      ∃ later, Delivered env handle (states later)

end AsyncLoader
end Network
end PalmWebKit
