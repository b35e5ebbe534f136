import PalmWebKit.Network.AsyncLoader
import PalmWebKit.Logic.FairRuns

/-!
# Delivery by the asynchronous loader

In every interleaving a job is delivered at most once, every finished job wakes
the main thread, and a job cancelled before its delivery is not delivered; in
every fair one each job that keeps its client and is not cancelled is delivered
in the end.
-/

namespace PalmWebKit
namespace Network

open List

/-- The bytes read for an item that is not yet taken from the queue. -/
def MainStage.bytesRead : MainStage → Nat
  | .woken => 1
  | _ => 0

/-- The bytes still to be written for an item in the queue. -/
def WorkerStage.bytesOwed : WorkerStage → Nat
  | .loaded => 1
  | _ => 0

namespace AsyncLoader

/-! ## What a run should look like -/

/-- The calls made for a handle, the first one first. -/
def callsOf (trace : List AsyncLoaderEvent) (handle : HandleId) : List ClientCall :=
  trace.filterMap fun
    | .called other call => if other = handle then some call else none
    | _ => none

/-- The wake-ups that finished jobs still lack. -/
def unwoken (trace : List AsyncLoaderEvent) : Int :=
  (trace.map fun
    | .finished _ => (1 : Int)
    | .wokeMain => -1
    | _ => 0).sum

/-- No first call for a handle comes after its cancellation. -/
def NoneAfterCancel (trace : List AsyncLoaderEvent) : Prop :=
  ∀ before handle call after, trace = before ++ .called handle call :: after →
      callsOf before handle = [] → .cancelled handle ∉ before

/-- What the loader promises of every state of a run: the calls for a handle
are the result of its job or the beginning of it, none are made to a job
cancelled before, every finished job woke the main thread (or is about to),
and no thread waits on a pipe. -/
structure Orderly (env : LoaderPlatform) (loader : AsyncLoader) : Prop where
  delivered_once : ∀ handle, callsOf loader.trace handle ≠ [] →
    ∃ item, .finished item ∈ loader.trace ∧ item.handle = handle ∧
      callsOf loader.trace handle <+: item.result env
  none_after_cancel : NoneAfterCancel loader.trace
  wakes : unwoken loader.trace = loader.worker.bytesOwed
  unblocked : loader.blocked = none

/-- The handle's job was finished and its result delivered as a whole. -/
def Delivered (env : LoaderPlatform) (handle : HandleId) (loader : AsyncLoader) : Prop :=
  ∃ item, .finished item ∈ loader.trace ∧ item.handle = handle ∧
    callsOf loader.trace handle = item.result env

/-- The actions that are the loader's own steps on a thread. -/
def Serves : LoaderThread → AsyncLoaderAction → Prop
  | .main, .main => True
  | .worker, .worker _ _ => True
  | _, _ => False

/-- A write meets room in its pipe, and a failed job that comes to its delivery
has not been cancelled, unless it has no client. -/
def Undisturbed (pipeCapacity : Nat) (loader : AsyncLoader) : AsyncLoaderAction → Prop
  | .wakeChild => loader.waking = true → loader.mainToThread < pipeCapacity
  | .main =>
    (loader.waking = true → loader.mainToThread < pipeCapacity) ∧
      (loader.main = .woken → ∀ item ∈ loader.finishedQueue.head?,
        item.failed = true → loader.hasClient item.handle = true →
          loader.cancelled item.handle = false)
  | .worker _ _ => loader.worker = .loaded → loader.threadToMain < pipeCapacity
  | _ => True

/-! ## The trace -/

variable (first second : List AsyncLoaderEvent)

@[simp] theorem callsOf_append (handle : HandleId) :
    callsOf (first ++ second) handle = callsOf first handle ++ callsOf second handle :=
  filterMap_append

@[simp] theorem callsOf_called (handle other : HandleId) (call : ClientCall) :
    callsOf [.called other call] handle = if other = handle then [call] else [] := by
  by_cases same : other = handle <;> simp [callsOf, same]

@[simp] theorem callsOf_cancelled (handle other : HandleId) :
    callsOf [.cancelled other] handle = [] := rfl

@[simp] theorem callsOf_clientCleared (handle other : HandleId) :
    callsOf [.clientCleared other] handle = [] := rfl

variable (handle : HandleId)

@[simp] theorem callsOf_finished (item : AsyncLoaderItem) :
    callsOf [.finished item] handle = [] := rfl

@[simp] theorem callsOf_wokeMain : callsOf [.wokeMain] handle = [] := rfl

@[simp] theorem unwoken_append : unwoken (first ++ second) = unwoken first + unwoken second := by
  simp [unwoken]

@[simp] theorem unwoken_called (call : ClientCall) : unwoken [.called handle call] = 0 := rfl

@[simp] theorem unwoken_cancelled : unwoken [.cancelled handle] = 0 := rfl

@[simp] theorem unwoken_clientCleared : unwoken [.clientCleared handle] = 0 := rfl

@[simp] theorem unwoken_finished (item : AsyncLoaderItem) : unwoken [.finished item] = 1 := rfl

@[simp] theorem unwoken_wokeMain : unwoken [.wokeMain] = -1 := rfl

/-- A trace grown by an event has to be looked at for this event only. -/
theorem noneAfterCancel_append_iff (trace : List AsyncLoaderEvent) (event : AsyncLoaderEvent) :
    NoneAfterCancel (trace ++ [event]) ↔ NoneAfterCancel trace ∧
        ∀ handle call, event = .called handle call →
          callsOf trace handle = [] → .cancelled handle ∉ trace := by
  constructor
  · intro orderly
    refine ⟨?_, ?_⟩
    · intro before handle call after split
      apply orderly before handle call (after ++ [event])
      rw [split, append_assoc, cons_append]
    · rintro handle call rfl
      exact orderly trace handle call [] rfl
  · rintro ⟨orderly, last⟩ before handle call after split
    rcases eq_nil_or_concat after with rfl | ⟨init, final, rfl⟩
    · obtain ⟨rfl, equal⟩ := append_inj' split rfl
      exact last handle call (List.cons.inj equal).1
    · rw [concat_eq_append, ← cons_append, ← append_assoc] at split
      obtain ⟨equal, -⟩ := append_inj' split rfl
      exact orderly before handle call init equal

/-! ## The invariant -/

/-- The handle of the job that the worker reads. -/
def inHand : WorkerStage → List HandleId
  | .loading item => [item.handle]
  | _ => []

/-- The handles of the jobs that are not yet delivered, the oldest first. -/
def pending (loader : AsyncLoader) : List HandleId :=
  loader.finishedQueue.map (·.handle) ++ (inHand loader.worker ++ loader.jobQueue.map (·.handle))

/-- The invariant of undisturbed runs. -/
structure Sound (env : LoaderPlatform) (loader : AsyncLoader) : Prop where
  orderly : Orderly env loader
  nodup : loader.pending.Nodup
  bounded : ∀ handle ∈ loader.pending, handle < loader.nextHandle
  uncalled : ∀ handle ∈ loader.pending, callsOf loader.trace handle = []
  fresh : ∀ handle, loader.nextHandle ≤ handle → callsOf loader.trace handle = []
  finished_mem : ∀ item ∈ loader.finishedQueue, .finished item ∈ loader.trace
  delivering : ∀ handle rest, loader.main = .delivering handle rest →
    callsOf loader.trace handle ≠ [] ∧
      ∃ item, .finished item ∈ loader.trace ∧ item.handle = handle ∧
        callsOf loader.trace handle ++ rest = item.result env
  cancelled_iff : ∀ handle, loader.cancelled handle = true ↔ .cancelled handle ∈ loader.trace
  /-- Every finished item has a byte, read or still to be written. -/
  finishedBytes : loader.finishedQueue.length ≤
    loader.threadToMain + loader.main.bytesRead + loader.worker.bytesOwed
  /-- A worker that waits although there are jobs will be woken. -/
  jobBytes : loader.worker = .selecting → loader.jobQueue ≠ [] →
    0 < loader.mainToThread ∨ loader.waking = true
  accounted : ∀ handle < loader.nextHandle, loader.cancelled handle = false →
    loader.hasClient handle = true →
      handle ∈ loader.pending ∨ (∃ rest, loader.main = .delivering handle rest) ∨
        Delivered env handle loader

section Steps

variable
  {env : LoaderPlatform}
  {pipeCapacity : Nat}
  {loader : AsyncLoader}

theorem sound_start : Sound env start where
  orderly :=
    { delivered_once := fun handle called => absurd rfl called
      none_after_cancel := by
        intro before handle call after split
        simp [start] at split
      wakes := rfl
      unblocked := rfl }
  nodup := .nil
  bounded := by simp [pending, start, inHand]
  uncalled := by simp [pending, start, inHand]
  fresh := fun _ _ => rfl
  finished_mem := by simp [start]
  delivering := by simp [start]
  cancelled_iff := by simp [start]
  finishedBytes := by simp [start]
  jobBytes := by simp [start]
  accounted := by simp [start]

variable {next : AsyncLoader}

theorem Orderly.of_trace (orderly : Orderly env loader) (traceSame : next.trace = loader.trace)
    (owedSame : next.worker.bytesOwed = loader.worker.bytesOwed)
    (blockedSame : next.blocked = loader.blocked) : Orderly env next where
  delivered_once := traceSame ▸ orderly.delivered_once
  none_after_cancel := traceSame ▸ orderly.none_after_cancel
  wakes := by rw [traceSame, orderly.wakes, owedSame]
  unblocked := blockedSame.trans orderly.unblocked

theorem Orderly.append_event (orderly : Orderly env loader) {event : AsyncLoaderEvent}
    (traceEqual : next.trace = loader.trace ++ [event])
    (noCall : ∀ handle, callsOf [event] handle = [])
    (owed : unwoken [event] + loader.worker.bytesOwed = next.worker.bytesOwed)
    (blockedSame : next.blocked = loader.blocked) : Orderly env next where
  delivered_once := by
    intro handle called
    simp only [traceEqual, callsOf_append, noCall, append_nil] at called ⊢
    obtain ⟨item, isFinished, equal, isStart⟩ := orderly.delivered_once handle called
    exact ⟨item, mem_append_left _ isFinished, equal, isStart⟩
  none_after_cancel := by
    rw [traceEqual, noneAfterCancel_append_iff]
    refine ⟨orderly.none_after_cancel, ?_⟩
    rintro handle call rfl
    exact absurd (noCall handle) (by simp)
  wakes := by rw [traceEqual, unwoken_append, orderly.wakes, Int.add_comm, owed]
  unblocked := blockedSame.trans orderly.unblocked

/-- A step that makes no call, with the event it records. -/
structure Quiet (env : LoaderPlatform) (loader next : AsyncLoader)
    (event : Option AsyncLoaderEvent) : Prop where
  trace : next.trace = loader.trace ++ event.toList
  noCall : ∀ handle, callsOf event.toList handle = []
  owed : unwoken event.toList + loader.worker.bytesOwed = next.worker.bytesOwed
  blocked : next.blocked = loader.blocked
  pending : next.pending.Sublist loader.pending
  nextHandle : next.nextHandle = loader.nextHandle
  finished : ∀ item ∈ next.finishedQueue, item ∈ loader.finishedQueue ∨ some (.finished item) = event
  delivering : ∀ handle rest, next.main = .delivering handle rest →
    loader.main = .delivering handle rest
  cancelled : ∀ handle, next.cancelled handle = true ↔
    loader.cancelled handle = true ∨ some (.cancelled handle) = event
  finishedBytes : next.finishedQueue.length ≤
    next.threadToMain + next.main.bytesRead + next.worker.bytesOwed
  jobBytes : next.worker = .selecting → next.jobQueue ≠ [] →
    0 < next.mainToThread ∨ next.waking = true
  accounted : ∀ handle < loader.nextHandle, next.cancelled handle = false →
    next.hasClient handle = true →
      handle ∈ next.pending ∨ (∃ rest, next.main = .delivering handle rest) ∨
        Delivered env handle loader

theorem Sound.quiet (sound : Sound env loader) {event : Option AsyncLoaderEvent}
    (step : Quiet env loader next event) : Sound env next := by
  have calls : ∀ handle, callsOf next.trace handle = callsOf loader.trace handle := by
    intro handle
    rw [step.trace, callsOf_append, step.noCall, append_nil]
  have mem_trace : ∀ other, other ∈ next.trace ↔ other ∈ loader.trace ∨ some other = event := by
    intro other
    rw [step.trace, mem_append, Option.mem_toList, @eq_comm _ event]
  exact
    { orderly := by
        cases event with
        | none =>
          exact sound.orderly.of_trace (by simpa using step.trace)
            (Int.ofNat_inj.1 (by simpa [unwoken] using step.owed.symm)) step.blocked
        | some event =>
          exact sound.orderly.append_event step.trace step.noCall step.owed step.blocked
      nodup := sound.nodup.sublist step.pending
      bounded := fun handle isPending =>
        step.nextHandle ▸ sound.bounded handle (step.pending.subset isPending)
      uncalled := fun handle isPending =>
        (calls handle).trans (sound.uncalled handle (step.pending.subset isPending))
      fresh := fun handle isFresh =>
        (calls handle).trans (sound.fresh handle (step.nextHandle ▸ isFresh))
      finished_mem := fun item isMember =>
        (mem_trace _).2 ((step.finished item isMember).imp_left (sound.finished_mem item))
      delivering := by
        intro handle rest isDelivering
        obtain ⟨called, item, isFinished, equal, result⟩ :=
          sound.delivering handle rest (step.delivering handle rest isDelivering)
        rw [calls]
        exact ⟨called, item, (mem_trace _).2 (.inl isFinished), equal, result⟩
      cancelled_iff := fun handle => by rw [mem_trace, step.cancelled, sound.cancelled_iff]
      finishedBytes := step.finishedBytes
      jobBytes := step.jobBytes
      accounted := by
        intro handle isOld notCancelled hasClient
        refine (step.accounted handle (step.nextHandle ▸ isOld) notCancelled hasClient).imp_right
          (Or.imp_right ?_)
        rintro ⟨item, isFinished, equal, result⟩
        exact ⟨item, (mem_trace _).2 (.inl isFinished), equal, (calls handle).trans result⟩ }

/-! ## Steps of the code on the main thread -/

theorem Sound.load (sound : Sound env loader) (path : WString) :
    Sound env (loader.load env path) := by
  have pendingEqual : (loader.load env path).pending =
      loader.pending ++ [loader.nextHandle] := by
    simp [pending, AsyncLoader.load, AsyncLoaderItem.new]
  refine
    { orderly := sound.orderly.of_trace rfl rfl rfl
      nodup := ?_, bounded := ?_, uncalled := ?_, fresh := ?_
      finished_mem := sound.finished_mem
      delivering := sound.delivering
      cancelled_iff := sound.cancelled_iff
      finishedBytes := sound.finishedBytes
      jobBytes := fun _ _ => .inr rfl
      accounted := ?_ }
  · rw [pendingEqual, nodup_append]
    refine ⟨sound.nodup, by simp, ?_⟩
    intro handle isPending new isNew
    rw [mem_singleton.1 isNew]
    exact Nat.ne_of_lt (sound.bounded handle isPending)
  · intro handle isPending
    rw [pendingEqual, mem_append, mem_singleton] at isPending
    rcases isPending with isOld | rfl
    · exact Nat.lt_succ_of_lt (sound.bounded handle isOld)
    · exact Nat.lt_succ_self _
  · intro handle isPending
    rw [pendingEqual, mem_append, mem_singleton] at isPending
    rcases isPending with isOld | rfl
    · exact sound.uncalled handle isOld
    · exact sound.fresh _ (Nat.le_refl _)
  · exact fun handle isFresh => sound.fresh handle (Nat.le_of_succ_le isFresh)
  · intro handle isOld notCancelled hasClient
    rw [pendingEqual, mem_append, mem_singleton]
    rcases Nat.lt_succ_iff_lt_or_eq.1 isOld with isOld | rfl
    · rcases sound.accounted handle isOld notCancelled hasClient with
        isPending | rest
      · exact .inl (.inl isPending)
      · exact .inr rest
    · exact .inl (.inr rfl)

/-- The jobs of other handles stay where they are. -/
theorem mem_pending_cancel_iff {handle other : HandleId} (differ : other ≠ handle) :
    other ∈ (loader.cancel handle).pending ↔ other ∈ loader.pending := by
  have kept : ∀ items : List AsyncLoaderItem,
      (∃ item ∈ items.filter (·.handle ≠ handle), item.handle = other) ↔
        ∃ item ∈ items, item.handle = other := by
    intro items
    constructor
    · rintro ⟨item, isKept, equal⟩
      exact ⟨item, (mem_filter.1 isKept).1, equal⟩
    · rintro ⟨item, isMember, rfl⟩
      exact ⟨item, mem_filter.2 ⟨isMember, by simpa using differ⟩, rfl⟩
  simp only [pending, cancel, record, mem_append, mem_map, kept]

theorem pending_cancel_sublist (handle : HandleId) :
    (loader.cancel handle).pending.Sublist loader.pending :=
  (filter_sublist.map _).append
    ((List.Sublist.refl _).append (filter_sublist.map _))

theorem Sound.cancel (sound : Sound env loader) (handle : HandleId) :
    Sound env (loader.cancel handle) := by
  refine @Sound.quiet _ _ _ sound (some (.cancelled handle))
    { trace := rfl
      noCall := fun _ => rfl
      owed := Int.zero_add _
      blocked := rfl
      pending := pending_cancel_sublist handle
      nextHandle := rfl
      finished := fun item isMember => .inl (mem_filter.1 isMember).1
      delivering := fun _ _ isDelivering => isDelivering
      cancelled := ?_
      finishedBytes := Nat.le_trans (length_filter_le _ _) sound.finishedBytes
      jobBytes := ?_
      accounted := ?_ }
  · intro other
    simp only [AsyncLoader.cancel, record, Option.some.injEq, AsyncLoaderEvent.cancelled.injEq,
      Function.update_apply]
    by_cases same : other = handle <;> simp [same]
  · intro isSelecting someJob
    refine sound.jobBytes isSelecting ?_
    rintro noJob
    simp [AsyncLoader.cancel, record, noJob] at someJob
  · intro other isOld notCancelled hasClient
    have differ : other ≠ handle := by
      rintro rfl
      simp [AsyncLoader.cancel, record] at notCancelled
    simp only [AsyncLoader.cancel, record, Function.update_of_ne differ]
      at notCancelled
    exact (sound.accounted other isOld notCancelled hasClient).imp_left
      (mem_pending_cancel_iff differ).2

theorem Sound.clearClient (sound : Sound env loader) (handle : HandleId) :
    Sound env (loader.clearClient handle) := by
  refine @Sound.quiet _ _ _ sound (some (.clientCleared handle))
    { trace := rfl
      noCall := fun _ => rfl
      owed := Int.zero_add _
      blocked := rfl
      pending := .refl _
      nextHandle := rfl
      finished := fun _ => .inl
      delivering := fun _ _ isDelivering => isDelivering
      cancelled := by simp [AsyncLoader.clearClient, record]
      finishedBytes := sound.finishedBytes
      jobBytes := sound.jobBytes
      accounted := ?_ }
  intro other isOld notCancelled hasClient
  refine sound.accounted other isOld notCancelled ?_
  simp only [AsyncLoader.clearClient, record, Function.update_apply] at hasClient
  split at hasClient
  · cases hasClient
  · exact hasClient

/-! ## Waking -/

theorem Sound.wakeupChildThread (sound : Sound env loader)
    (hasRoom : loader.waking = true → loader.mainToThread < pipeCapacity) :
    Sound env (loader.wakeupChildThread pipeCapacity) := by
  rw [AsyncLoader.wakeupChildThread]
  split
  next isWaking =>
    rw [if_pos (hasRoom isWaking.1)]
    exact
      { sound with
        orderly := sound.orderly.of_trace rfl rfl rfl
        jobBytes := fun _ _ => .inl (Nat.succ_pos _) }
  next => exact sound

/-! ## Steps of the worker -/

variable {item : AsyncLoaderItem}

/-- A step of the worker that leaves the pending jobs as they are. -/
theorem Sound.ofWorker (sound : Sound env loader) {event : Option AsyncLoaderEvent}
    (trace : next.trace = loader.trace ++ event.toList)
    (noCall : ∀ handle, callsOf event.toList handle = [])
    (notCancel : ∀ handle, some (.cancelled handle) ≠ event)
    (owed : unwoken event.toList + loader.worker.bytesOwed = next.worker.bytesOwed)
    (pendingSame : next.pending = loader.pending)
    (finished : ∀ item ∈ next.finishedQueue,
      item ∈ loader.finishedQueue ∨ some (.finished item) = event)
    (finishedBytes : next.finishedQueue.length ≤
      next.threadToMain + next.main.bytesRead + next.worker.bytesOwed)
    (jobBytes : next.worker = .selecting → next.jobQueue = [])
    (same : next.blocked = loader.blocked ∧ next.nextHandle = loader.nextHandle ∧
      next.main = loader.main ∧ next.cancelled = loader.cancelled ∧
        next.hasClient = loader.hasClient) : Sound env next := by
  obtain ⟨blocked, nextHandle, main, cancelled, hasClient⟩ := same
  refine sound.quiet
    { trace, noCall, owed, blocked, nextHandle, finished, finishedBytes
      pending := pendingSame ▸ .refl _
      delivering := fun _ _ isDelivering => main ▸ isDelivering
      cancelled := by simp [cancelled, notCancel]
      jobBytes := fun isSelecting someJob => absurd (jobBytes isSelecting) someJob
      accounted := ?_ }
  rw [cancelled, hasClient, pendingSame, main]
  exact sound.accounted

variable (sound : Sound env loader)
include sound

theorem Sound.takeJob (isReady : loader.worker = .ready) {items : List AsyncLoaderItem}
    (jobs : loader.jobQueue = item :: items) :
    Sound env { loader with jobQueue := items, worker := .loading item } := by
  refine @Sound.ofWorker _ _ _ sound none (append_nil _).symm (fun _ => rfl) nofun
    (by rw [isReady]; rfl) ?_ (fun _ => .inl) ?_ nofun ⟨rfl, rfl, rfl, rfl, rfl⟩
  · simp [pending, inHand, isReady, jobs]
  · simpa [isReady, WorkerStage.bytesOwed] using sound.finishedBytes

theorem Sound.startSelecting (isReady : loader.worker = .ready)
    (noJobs : loader.jobQueue = []) : Sound env { loader with worker := .selecting } := by
  refine @Sound.ofWorker _ _ _ sound none (append_nil _).symm (fun _ => rfl) nofun
    (by rw [isReady]; rfl) ?_ (fun _ => .inl) ?_ (fun _ => noJobs) ⟨rfl, rfl, rfl, rfl, rfl⟩
  · simp [pending, inHand, isReady]
  · simpa [isReady, WorkerStage.bytesOwed] using sound.finishedBytes

theorem Sound.endSelecting (isSelecting : loader.worker = .selecting) : Sound env
      { loader with mainToThread := loader.mainToThread - 1, worker := .ready } := by
  refine @Sound.ofWorker _ _ _ sound none (append_nil _).symm (fun _ => rfl) nofun
    (by rw [isSelecting]; rfl) ?_ (fun _ => .inl) ?_ nofun ⟨rfl, rfl, rfl, rfl, rfl⟩
  · simp [pending, inHand, isSelecting]
  · simpa [isSelecting, WorkerStage.bytesOwed] using sound.finishedBytes

theorem Sound.finishJob (isLoading : loader.worker = .loading item) {finished : AsyncLoaderItem}
    (sameHandle : finished.handle = item.handle) : Sound env
      ({ loader with
        finishedQueue := loader.finishedQueue ++ [finished]
        worker := .loaded }.record (.finished finished)) := by
  refine @Sound.ofWorker _ _ _ sound (some (.finished finished)) rfl (fun _ => rfl) nofun
    (by rw [isLoading]; rfl) ?_ ?_ ?_ nofun ⟨rfl, rfl, rfl, rfl, rfl⟩
  · simp [pending, inHand, record, isLoading, sameHandle]
  · intro other isMember
    simpa [record] using isMember
  · have bytes := sound.finishedBytes
    simp only [isLoading, record, length_append, length_singleton,
      WorkerStage.bytesOwed] at bytes ⊢
    omega

omit sound

theorem Sound.wakeupMainThread (sound : Sound env loader) (isLoaded : loader.worker = .loaded)
    (hasRoom : loader.threadToMain < pipeCapacity) :
    Sound env (loader.wakeupMainThread pipeCapacity) := by
  rw [AsyncLoader.wakeupMainThread, if_pos hasRoom]
  refine @Sound.ofWorker _ _ _ sound (some .wokeMain) rfl (fun _ => rfl) nofun
    (by rw [isLoaded]; rfl) ?_ (fun _ => .inl) ?_ nofun ⟨rfl, rfl, rfl, rfl, rfl⟩
  · simp [pending, inHand, record, isLoaded]
  · have bytes := sound.finishedBytes
    simp only [isLoaded, record, WorkerStage.bytesOwed] at bytes ⊢
    omega

theorem Sound.workerStep (sound : Sound env loader)
    (hasRoom : loader.worker = .loaded → loader.threadToMain < pipeCapacity)
    (file : Option LocalFile) (allocated : Bool) :
    Sound env (loader.workerStep pipeCapacity file allocated) := by
  rw [AsyncLoader.workerStep, if_neg (by simp [sound.orderly.unblocked])]
  cases workerEqual : loader.worker with
  | ready =>
    cases jobs : loader.jobQueue with
    | nil => simpa [jobs] using sound.startSelecting workerEqual jobs
    | cons item items => exact sound.takeJob workerEqual jobs
  | selecting =>
    dsimp only
    split
    · exact sound.endSelecting workerEqual
    · exact sound
  | loading item => exact sound.finishJob workerEqual (AsyncLoaderItem.handle_read _ _ _)
  | loaded => exact sound.wakeupMainThread workerEqual (hasRoom workerEqual)

/-! ## Steps of the callback -/

/-- A call that continues the result of a finished job, for a handle whose item
is no longer queued. -/
theorem Sound.makeCall (sound : Sound env loader) {handle : HandleId} {call : ClientCall}
    {rest : List ClientCall} {items : List AsyncLoaderItem}
    (isSublist : items.Sublist loader.finishedQueue)
    (othersKept : ∀ item ∈ loader.finishedQueue, item.handle ≠ handle → item ∈ items)
    (notPending : handle ∉ ({ loader with finishedQueue := items } : AsyncLoader).pending)
    (bytes : items.length ≤ loader.threadToMain + loader.worker.bytesOwed)
    (continues : ∃ item, .finished item ∈ loader.trace ∧ item.handle = handle ∧
      callsOf loader.trace handle ++ call :: rest = item.result env)
    (notCancelled : callsOf loader.trace handle = [] → .cancelled handle ∉ loader.trace)
    (isOld : handle < loader.nextHandle)
    (alone : ∀ other rest, loader.main = .delivering other rest → other = handle) : Sound env
      ({ loader with
        finishedQueue := items
        main := .delivering handle rest }.record (.called handle call)) := by
  have pendingSublist : ({ loader with finishedQueue := items } : AsyncLoader).pending.Sublist
        loader.pending := (isSublist.map _).append (.refl _)
  have callsSame : ∀ other, other ≠ handle → callsOf (loader.trace ++ [.called handle call]) other =
        callsOf loader.trace other := by
    intro other differ
    simp [Ne.symm differ]
  obtain ⟨item, isFinished, equal, calls⟩ := continues
  refine
    { orderly := ?_, nodup := sound.nodup.sublist pendingSublist
      bounded := fun other isPending => sound.bounded other (pendingSublist.subset isPending)
      uncalled := ?_, fresh := ?_, finished_mem := ?_, delivering := ?_
      cancelled_iff := ?_, finishedBytes := ?_, jobBytes := sound.jobBytes
      accounted := ?_ }
  · refine ⟨?_, ?_, ?_, sound.orderly.unblocked⟩
    · intro other called
      by_cases same : other = handle
      · subst same
        refine ⟨item, mem_append_left _ isFinished, equal, rest, ?_⟩
        simpa [record] using calls
      · rw [record, callsSame other same] at called ⊢
        obtain ⟨otherItem, otherFinished, otherEqual, isStart⟩ :=
          sound.orderly.delivered_once other called
        exact ⟨otherItem, mem_append_left _ otherFinished, otherEqual, isStart⟩
    · refine (noneAfterCancel_append_iff _ _).2
        ⟨sound.orderly.none_after_cancel, ?_⟩
      intro other otherCall eventEqual
      obtain ⟨rfl, rfl⟩ := AsyncLoaderEvent.called.inj eventEqual
      exact notCancelled
    · simpa [record] using sound.orderly.wakes
  · intro other isPending
    have differ : other ≠ handle := by
      rintro rfl
      exact notPending isPending
    rw [record, callsSame other differ]
    exact sound.uncalled other (pendingSublist.subset isPending)
  · intro other isFresh
    rw [record, callsSame other (Nat.ne_of_gt (Nat.lt_of_lt_of_le isOld isFresh))]
    exact sound.fresh other isFresh
  · intro other isMember
    exact mem_append_left _ (sound.finished_mem other (isSublist.subset isMember))
  · intro other otherRest isDelivering
    obtain ⟨rfl, rfl⟩ := MainStage.delivering.inj isDelivering
    refine ⟨by simp [record], item, mem_append_left _ isFinished, equal, ?_⟩
    simpa [record] using calls
  · intro other
    simpa [record] using sound.cancelled_iff other
  · simpa [record, MainStage.bytesRead] using bytes
  · intro other otherOld otherKept hasClient
    by_cases same : other = handle
    · exact .inr (.inl ⟨rest, by rw [same, record]⟩)
    rcases sound.accounted other otherOld otherKept hasClient with
      isPending | ⟨otherRest, isDelivering⟩ | ⟨otherItem, otherFinished, otherEqual, otherCalls⟩
    · left
      simp only [pending, mem_append, mem_map] at isPending ⊢
      rcases isPending with ⟨otherItem, isMember, rfl⟩ | later
      · exact .inl ⟨otherItem, othersKept otherItem isMember same, rfl⟩
      · exact .inr later
    · exact absurd (alone other otherRest isDelivering) same
    · refine .inr (.inr ⟨otherItem, mem_append_left _ otherFinished, otherEqual, ?_⟩)
      rw [record, callsSame other same, otherCalls]

/-- The main thread leaves a stage for another one without a call. -/
theorem Sound.setMain (sound : Sound env loader) {items : List AsyncLoaderItem}
    {threadToMain : Nat} {stage : MainStage} (isSublist : items.Sublist loader.finishedQueue)
    (bytes : items.length ≤ threadToMain + stage.bytesRead + loader.worker.bytesOwed)
    (notDelivering : ∀ handle rest, stage ≠ .delivering handle rest)
    (accounted : ∀ handle < loader.nextHandle, loader.cancelled handle = false →
      loader.hasClient handle = true →
        handle ∈ ({ loader with finishedQueue := items } : AsyncLoader).pending ∨
          Delivered env handle loader) : Sound env
      { loader with
        finishedQueue := items
        threadToMain := threadToMain
        main := stage } := by
  have pendingSublist : ({ loader with finishedQueue := items } : AsyncLoader).pending.Sublist
        loader.pending := (isSublist.map _).append (.refl _)
  exact @Sound.quiet _ _ _ sound none
    { trace := (append_nil _).symm
      noCall := fun _ => rfl
      owed := Int.zero_add _
      blocked := rfl
      pending := pendingSublist
      nextHandle := rfl
      finished := fun _ isMember => .inl (isSublist.subset isMember)
      delivering := fun handle rest isDelivering => absurd isDelivering (notDelivering handle rest)
      cancelled := by simp
      finishedBytes := bytes
      jobBytes := sound.jobBytes
      accounted := fun handle isOld notCancelled hasClient =>
        (accounted handle isOld notCancelled hasClient).imp_right .inr }

theorem result_ne_nil (item : AsyncLoaderItem) : item.result env ≠ [] := by
  unfold AsyncLoaderItem.result
  split <;> simp

/-- Calls are made only through a client, and for a file that was read only to
a job that is not cancelled. -/
theorem callsFor_eq_cons {call : ClientCall} {rest : List ClientCall}
    (calls : loader.callsFor env item = call :: rest) :
    item.result env = call :: rest ∧ loader.hasClient item.handle = true ∧
      (item.failed = false → loader.cancelled item.handle = false) := by
  unfold callsFor at calls
  split at calls
  next hasClient =>
    split at calls
    next failed => exact ⟨calls, hasClient, by simp [failed]⟩
    next notFailed =>
      split at calls
      · cases calls
      next notCancelled => exact ⟨calls, hasClient, fun _ => by simpa using notCancelled⟩
  next => cases calls

theorem callsFor_eq_nil (calls : loader.callsFor env item = [])
    (hasClient : loader.hasClient item.handle = true) : loader.cancelled item.handle = true := by
  rw [callsFor, if_pos hasClient] at calls
  split at calls
  · exact absurd calls (result_ne_nil item)
  split at calls
  · assumption
  · exact absurd calls (result_ne_nil item)

theorem Sound.oneLoadFinished (sound : Sound env loader) (isWoken : loader.main = .woken)
    (harmless : ∀ item ∈ loader.finishedQueue.head?, item.failed = true →
      loader.hasClient item.handle = true → loader.cancelled item.handle = false) :
    Sound env (loader.oneLoadFinished env) := by
  have bytes := sound.finishedBytes
  rw [AsyncLoader.oneLoadFinished]
  cases finished : loader.finishedQueue with
  | nil =>
    have idle := @Sound.setMain _ _ sound _ loader.threadToMain .idle
      (.refl _) (by simp [finished]) (by simp) ?_
    · simpa only [finished] using idle
    · intro handle isOld notCancelled hasClient
      rcases sound.accounted handle isOld notCancelled hasClient with
        isPending | ⟨rest, isDelivering⟩ | delivered
      · exact .inl isPending
      · simp [isWoken] at isDelivering
      · exact .inr delivered
  | cons item items =>
    have isSublist : items.Sublist loader.finishedQueue := by
      rw [finished]
      exact sublist_cons_self _ _
    rw [finished, isWoken] at bytes
    simp only [length_cons, MainStage.bytesRead] at bytes
    have pendingEqual : loader.pending = item.handle ::
        ({ loader with finishedQueue := items } : AsyncLoader).pending := by
      simp [pending, finished]
    cases calls : loader.callsFor env item with
    | nil =>
      simp only [calls]
      refine @Sound.setMain _ _ sound _ loader.threadToMain .idle isSublist
        (by omega) (by simp) ?_
      intro handle isOld notCancelled hasClient
      rcases sound.accounted handle isOld notCancelled hasClient with
        isPending | ⟨rest, isDelivering⟩ | delivered
      · rw [pendingEqual, mem_cons] at isPending
        rcases isPending with rfl | isPending
        · rw [callsFor_eq_nil calls hasClient] at notCancelled
          cases notCancelled
        · exact .inl isPending
      · simp [isWoken] at isDelivering
      · exact .inr delivered
    | cons call rest =>
      simp only [calls]
      obtain ⟨resultEqual, hasClient, readKept⟩ := callsFor_eq_cons calls
      have isPending : item.handle ∈ loader.pending := by simp [pendingEqual]
      have notCancelled : loader.cancelled item.handle = false := by
        cases failed : item.failed with
        | false => exact readKept failed
        | true => exact harmless item (by simp [finished]) failed hasClient
      apply sound.makeCall isSublist
      · intro other isMember differ
        rw [finished, mem_cons] at isMember
        rcases isMember with rfl | isMember
        · exact absurd rfl differ
        · exact isMember
      · exact (nodup_cons.1 (pendingEqual ▸ sound.nodup)).1
      · omega
      · refine ⟨item, sound.finished_mem item (by simp [finished]), rfl, ?_⟩
        rw [sound.uncalled item.handle isPending, nil_append, resultEqual]
      · intro _ isCancelled
        rw [(sound.cancelled_iff item.handle).2 isCancelled] at notCancelled
        cases notCancelled
      · exact sound.bounded item.handle isPending
      · intro other otherRest isDelivering
        simp [isWoken] at isDelivering

theorem Sound.callbackStep (sound : Sound env loader)
    (harmless : loader.main = .woken → ∀ item ∈ loader.finishedQueue.head?,
      item.failed = true → loader.hasClient item.handle = true →
        loader.cancelled item.handle = false) : Sound env (loader.callbackStep env) := by
  have bytes := sound.finishedBytes
  have unblocked := sound.orderly.unblocked
  unfold AsyncLoader.callbackStep
  cases stage : loader.main with
  | idle =>
    dsimp only
    split
    next someByte =>
      rw [stage] at bytes
      refine @Sound.setMain _ _ sound loader.finishedQueue
        (loader.threadToMain - 1) .woken
        (.refl _) ?_ (by simp) ?_
      · simp only [MainStage.bytesRead] at bytes ⊢
        omega
      · intro handle isOld notCancelled hasClient
        rcases sound.accounted handle isOld notCancelled hasClient with
          isPending | ⟨rest, isDelivering⟩ | delivered
        · exact .inl isPending
        · simp [stage] at isDelivering
        · exact .inr delivered
    next => exact sound
  | woken =>
    rw [if_pos unblocked]
    exact sound.oneLoadFinished stage (harmless stage)
  | delivering handle rest =>
    obtain ⟨called, item, isFinished, equal, calls⟩ := sound.delivering handle rest stage
    rw [stage] at bytes
    cases rest with
    | nil =>
      rw [if_neg (by simp [unblocked])]
      refine @Sound.setMain _ _ sound loader.finishedQueue loader.threadToMain
        .idle (.refl _) bytes (by simp) ?_
      intro other isOld notCancelled hasClient
      rcases sound.accounted other isOld notCancelled hasClient with
        isPending | ⟨otherRest, isDelivering⟩ | delivered
      · exact .inl isPending
      · obtain ⟨rfl, -⟩ := MainStage.delivering.inj (stage.symm.trans isDelivering)
        exact .inr ⟨item, isFinished, equal, by simpa using calls⟩
      · exact .inr delivered
    | cons call rest =>
      dsimp only
      rw [if_neg (by simp [unblocked])]
      refine @Sound.makeCall _ _ sound _ _ _ loader.finishedQueue
        (.refl _) (fun _ isMember _ => isMember) ?_ bytes
        ⟨item, isFinished, equal, calls⟩ (fun noCall => absurd noCall called) ?_ ?_
      · exact fun isPending => called (sound.uncalled handle isPending)
      · by_contra isFresh
        exact called (sound.fresh handle (Nat.le_of_not_lt isFresh))
      · intro other otherRest isDelivering
        exact (MainStage.delivering.inj (stage.symm.trans isDelivering)).1.symm

theorem Sound.step (sound : Sound env loader) {action : AsyncLoaderAction}
    (undisturbed : Undisturbed pipeCapacity loader action) :
    Sound env (loader.step env pipeCapacity action) := by
  cases action with
  | load path =>
    rw [AsyncLoader.step]
    split
    · exact sound.load path
    · exact sound
  | cancel handle =>
    rw [AsyncLoader.step]
    split
    · exact sound.cancel handle
    · exact sound
  | clearClient handle =>
    rw [AsyncLoader.step]
    split
    · exact sound.clearClient handle
    · exact sound
  | wakeChild => exact sound.wakeupChildThread undisturbed
  | worker file allocated => exact sound.workerStep undisturbed file allocated
  | main =>
    apply (sound.wakeupChildThread undisturbed.1).callbackStep
    rw [AsyncLoader.wakeupChildThread]
    split
    · rw [if_pos (undisturbed.1 (by simp [*]))]
      exact undisturbed.2
    · exact undisturbed.2

/-! ## What an orderly step shows -/

theorem hasRoom_of_unblocked (sound : Sound env loader)
    (unblocked : (loader.wakeupChildThread pipeCapacity).blocked = none)
    (isWaking : loader.waking = true) : loader.mainToThread < pipeCapacity := by
  by_contra full
  rw [AsyncLoader.wakeupChildThread, if_pos ⟨isWaking, sound.orderly.unblocked⟩,
    if_neg full] at unblocked
  cases unblocked

/-- The callback does not help a thread that waits on a pipe. -/
theorem blocked_callbackStep : (loader.callbackStep env).blocked = loader.blocked := by
  unfold AsyncLoader.callbackStep
  split
  · split <;> rfl
  · split <;> rfl
  · split <;> rfl
  · split
    · unfold AsyncLoader.oneLoadFinished
      split
      · rfl
      · split <;> rfl
    · rfl

/-- A failed job that is delivered after its cancellation breaks the order. -/
theorem notCancelled_of_orderly (sound : Sound env loader) (isWoken : loader.main = .woken)
    (orderly : Orderly env (loader.callbackStep env))
    (isNext : item ∈ loader.finishedQueue.head?) (failed : item.failed = true)
    (hasClient : loader.hasClient item.handle = true) : loader.cancelled item.handle = false := by
  cases isCancelled : loader.cancelled item.handle with
  | false => rfl
  | true =>
    exfalso
    obtain ⟨items, finished⟩ : ∃ items, loader.finishedQueue = item :: items := by
      cases finished : loader.finishedQueue with
      | nil => simp [finished] at isNext
      | cons head items =>
        simp only [finished, head?_cons, Option.mem_some_iff] at isNext
        exact ⟨items, by rw [isNext]⟩
    have calls : loader.callsFor env item = item.result env := by
      rw [callsFor, if_pos hasClient, if_pos failed]
    obtain ⟨call, rest, resultEqual⟩ := exists_cons_of_ne_nil (@result_ne_nil env item)
    have traceEqual : (loader.callbackStep env).trace =
        loader.trace ++ [.called item.handle call] := by
      unfold AsyncLoader.callbackStep
      simp only [isWoken, sound.orderly.unblocked, if_true]
      rw [AsyncLoader.oneLoadFinished, finished]
      simp only [calls, resultEqual]
      rfl
    have noneAfter := orderly.none_after_cancel
    rw [traceEqual, noneAfterCancel_append_iff] at noneAfter
    refine noneAfter.2 item.handle call rfl ?_
      ((sound.cancelled_iff item.handle).1 isCancelled)
    exact sound.uncalled item.handle (by simp [pending, finished])

theorem Sound.undisturbed_of_orderly (sound : Sound env loader) {action : AsyncLoaderAction}
    (orderly : Orderly env (loader.step env pipeCapacity action)) :
    Undisturbed pipeCapacity loader action := by
  cases action with
  | load path | cancel handle | clearClient handle => trivial
  | wakeChild => exact hasRoom_of_unblocked sound orderly.unblocked
  | worker file allocated =>
    intro isLoaded
    by_contra full
    have unblocked := orderly.unblocked
    rw [AsyncLoader.step, AsyncLoader.workerStep,
      if_neg (by simp [sound.orderly.unblocked])] at unblocked
    simp only [isLoaded, AsyncLoader.wakeupMainThread, if_neg full] at unblocked
    cases unblocked
  | main =>
    have unblocked := orderly.unblocked
    rw [AsyncLoader.step, blocked_callbackStep] at unblocked
    have hasRoom := hasRoom_of_unblocked sound unblocked
    refine ⟨hasRoom, ?_⟩
    intro isWoken item isNext failed hasClient
    have woken := sound.wakeupChildThread hasRoom
    have same : (loader.wakeupChildThread pipeCapacity).main = loader.main ∧
        (loader.wakeupChildThread pipeCapacity).finishedQueue = loader.finishedQueue ∧
        (loader.wakeupChildThread pipeCapacity).hasClient = loader.hasClient ∧
        (loader.wakeupChildThread pipeCapacity).cancelled = loader.cancelled := by
      rw [AsyncLoader.wakeupChildThread]
      split
      · split <;> exact ⟨rfl, rfl, rfl, rfl⟩
      · exact ⟨rfl, rfl, rfl, rfl⟩
    obtain ⟨mainSame, finishedSame, clientSame, cancelledSame⟩ := same
    rw [← cancelledSame]
    exact notCancelled_of_orderly woken (mainSame.trans isWoken) orderly
      (finishedSame ▸ isNext) failed (clientSame ▸ hasClient)

end Steps

end AsyncLoader
end Network
end PalmWebKit
