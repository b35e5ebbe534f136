import PalmWebKit.Network.DirectLoader

/-!
# The asynchronous loader

`AsyncLoader` loads local files on a worker thread.  Jobs go to the thread and
back through two queues under a mutex, and each side wakes the other with a
byte written to a pipe.  The steps of both threads are interleaved here at the
points where they take the mutex.
-/

namespace PalmWebKit
namespace Network

/-- A job, with the handle it is for; a handle is loaded once. -/
structure AsyncLoaderItem where
  path : WString
  filePath : WString
  handle : HandleId
  buffer : StdString
  bufferSize : Nat
  failed : Bool
  deriving DecidableEq, Repr

inductive LoaderThread
  | main
  | worker
  deriving DecidableEq, Repr

/-- Where the worker thread stands. -/
inductive WorkerStage
  /-- About to look into the job queue. -/
  | ready
  /-- In `select` on the pipe. -/
  | selecting
  | loading (item : AsyncLoaderItem)
  /-- The job is in the finished queue, the main thread is not yet woken. -/
  | loaded
  deriving DecidableEq, Repr

/-- Where the main thread stands. -/
inductive MainStage
  /-- In the main loop, or in code that it runs. -/
  | idle
  /-- The callback has read its byte. -/
  | woken
  /-- In a call to the client, with the calls that follow. -/
  | delivering (handle : HandleId) (rest : List ClientCall)
  deriving DecidableEq, Repr

/-- What is recorded of a run. -/
inductive AsyncLoaderEvent
  | cancelled (handle : HandleId)
  | clientCleared (handle : HandleId)
  | finished (item : AsyncLoaderItem)
  | wokeMain
  | called (handle : HandleId) (call : ClientCall)
  deriving DecidableEq, Repr

structure AsyncLoader where
  jobQueue : List AsyncLoaderItem
  finishedQueue : List AsyncLoaderItem
  /-- The bytes in the pipes. -/
  mainToThread : Nat
  threadToMain : Nat
  worker : WorkerStage
  main : MainStage
  /-- A job was queued and the byte for it is not yet written. -/
  waking : Bool
  /-- The thread that waits, with the mutex, to write into a full pipe. -/
  blocked : Option LoaderThread
  /-- `m_cancelled` of the handles. -/
  cancelled : HandleId → Bool
  hasClient : HandleId → Bool
  nextHandle : HandleId
  trace : List AsyncLoaderEvent

/-- A step of the interleaving.  `main` and `worker` are the next step of the
loader's own code on a thread; the file is as `load` finds it, with whether its
buffer could be allocated. -/
inductive AsyncLoaderAction
  | load (path : WString)
  | cancel (handle : HandleId)
  | clearClient (handle : HandleId)
  /-- `wakeupChildThread`, the second half of a load. -/
  | wakeChild
  | main
  | worker (file : Option LocalFile) (allocated : Bool)
  deriving DecidableEq, Repr

namespace AsyncLoaderItem

variable (env : LoaderPlatform)

/-- The path of the file for a `file:` URL. -/
def filePathOf (path : WString) : WString :=
  let filePath := if WString.startsWith path (WString.lit "file://") then path.drop 7 else path
  let filePath :=
    match WString.find filePath 63 with
    | none => filePath
    | some queryOffset => if 0 < queryOffset then WString.left filePath queryOffset else filePath
  env.decodeURLEscapeSequences filePath

def new (path : WString) (handle : HandleId) : AsyncLoaderItem where
  path := path
  filePath := filePathOf env path
  handle := handle
  buffer := []
  bufferSize := 0
  failed := false

/-- `AsyncLoader::load` of the item on the worker thread. -/
def read (item : AsyncLoaderItem) (file : Option LocalFile) (allocated : Bool) : AsyncLoaderItem :=
  match file with
  | none => { item with failed := true }
  | some file =>
    match file.size with
    | none => { item with failed := true }
    | some size =>
      if allocated ∧ 0 ≤ size ∧ size ≤ file.readable.length then
        { item with
          bufferSize := size.toNat
          buffer := file.readable.take size.toNat }
      else
        { item with bufferSize := size.toNat, failed := true }

@[simp] theorem handle_read (item : AsyncLoaderItem) (file : Option LocalFile) (allocated : Bool) :
    (item.read file allocated).handle = item.handle := by
  unfold read
  split
  · rfl
  · split
    · rfl
    · split <;> rfl

def response (item : AsyncLoaderItem) : ResourceResponse :=
  let mimeType := env.getMIMETypeForPath item.filePath
  { url := env.string item.path
    httpStatusCode := 200
    suggestedFilename := item.path
    mimeType := mimeType
    textEncodingName :=
      if mimeType = WString.lit "text/html" ∨ mimeType = WString.lit "text/ascii" then
        WString.lit "UTF-8"
      else []
    expectedContentLength := item.bufferSize }

def error (item : AsyncLoaderItem) : ResourceError where
  domain := item.path
  errorCode := 404
  failingURL := item.path
  localizedDescription := WString.lit "File not found"

/-- The calls that deliver a finished job. -/
def result (item : AsyncLoaderItem) : List ClientCall :=
  if item.failed then
    [.didReceiveResponse (DirectLoader.notFoundResponse env item.path), .didFail item.error]
  else
    [.willSendRequest, .didReceiveResponse (item.response env),
      .didReceiveData item.buffer 0, .didFinishLoading]

end AsyncLoaderItem

namespace AsyncLoader

def start : AsyncLoader where
  jobQueue := []
  finishedQueue := []
  mainToThread := 0
  threadToMain := 0
  worker := .ready
  main := .idle
  waking := false
  blocked := none
  cancelled := fun _ => false
  hasClient := fun _ => true
  nextHandle := 0
  trace := []

def record (loader : AsyncLoader) (event : AsyncLoaderEvent) : AsyncLoader :=
  { loader with trace := loader.trace ++ [event] }

/-- Code outside the loader runs on the main thread: it is not in the callback
before its first call, nor between the two halves of a load, nor waiting. -/
def RunsCode (loader : AsyncLoader) : Prop :=
  loader.blocked = none ∧ loader.waking = false ∧ loader.main ≠ .woken

instance (loader : AsyncLoader) : Decidable loader.RunsCode := inferInstanceAs (Decidable (_ ∧ _))

variable (env : LoaderPlatform) (pipeCapacity : Nat)

/-- `load` for a new request, up to the waking of the thread. -/
def load (loader : AsyncLoader) (path : WString) : AsyncLoader :=
  { loader with
    jobQueue := loader.jobQueue ++ [AsyncLoaderItem.new env path loader.nextHandle]
    waking := true
    nextHandle := loader.nextHandle + 1 }

/-- `ResourceHandle::cancel` of a request: the flag is set and the handle's
items leave both queues. -/
def cancel (loader : AsyncLoader) (handle : HandleId) : AsyncLoader :=
  { loader with
    cancelled := Function.update loader.cancelled handle true
    jobQueue := loader.jobQueue.filter (·.handle ≠ handle)
    finishedQueue := loader.finishedQueue.filter (·.handle ≠ handle) }.record
      (.cancelled handle)

def clearClient (loader : AsyncLoader) (handle : HandleId) : AsyncLoader :=
  { loader with hasClient := Function.update loader.hasClient handle false }.record
    (.clientCleared handle)

/-- A `write` to a full pipe waits, and the mutex with it. -/
def wakeupChildThread (loader : AsyncLoader) : AsyncLoader :=
  if loader.waking ∧ loader.blocked = none then
    if loader.mainToThread < pipeCapacity then
      { loader with mainToThread := loader.mainToThread + 1, waking := false }
    else
      { loader with blocked := some .main }
  else loader

def wakeupMainThread (loader : AsyncLoader) : AsyncLoader :=
  if loader.threadToMain < pipeCapacity then
    { loader with threadToMain := loader.threadToMain + 1, worker := .ready }.record
      .wokeMain
  else
    { loader with blocked := some .worker }

/-- A step of `threadFunction`. -/
def workerStep (loader : AsyncLoader) (file : Option LocalFile) (allocated : Bool) : AsyncLoader :=
  if loader.blocked ≠ none then loader
  else
    match loader.worker with
    | .ready =>
      match loader.jobQueue with
      | [] => { loader with worker := .selecting }
      | item :: items => { loader with jobQueue := items, worker := .loading item }
    | .selecting =>
      if 0 < loader.mainToThread then
        { loader with mainToThread := loader.mainToThread - 1, worker := .ready }
      else loader
    | .loading item =>
      { loader with
        finishedQueue := loader.finishedQueue ++ [item.read file allocated]
        worker := .loaded }.record (.finished (item.read file allocated))
    | .loaded => loader.wakeupMainThread pipeCapacity

/-- The calls that `oneLoadFinished` makes for an item.  Only those for a file
that was read ask whether the request was cancelled. -/
def callsFor (loader : AsyncLoader) (item : AsyncLoaderItem) : List ClientCall :=
  if loader.hasClient item.handle then
    if item.failed then item.result env
    else if loader.cancelled item.handle then []
    else item.result env
  else []

/-- `oneLoadFinished`, up to its first call. -/
def oneLoadFinished (loader : AsyncLoader) : AsyncLoader :=
  match loader.finishedQueue with
  | [] => { loader with main := .idle }
  | item :: items =>
    match loader.callsFor env item with
    | [] => { loader with finishedQueue := items, main := .idle }
    | call :: rest =>
      { loader with
        finishedQueue := items
        main := .delivering item.handle rest }.record (.called item.handle call)

/-- A step of the callback on the main thread. -/
def callbackStep (loader : AsyncLoader) : AsyncLoader :=
  match loader.main with
  | .delivering handle (call :: rest) =>
    if loader.blocked = some .main then loader
    else
      { loader with main := .delivering handle rest }.record (.called handle call)
  | .delivering _ [] =>
    if loader.blocked = some .main then loader else { loader with main := .idle }
  | .idle =>
    if loader.blocked = none ∧ 0 < loader.threadToMain then
      { loader with threadToMain := loader.threadToMain - 1, main := .woken }
    else loader
  | .woken => if loader.blocked = none then loader.oneLoadFinished env else loader

def step (loader : AsyncLoader) : AsyncLoaderAction → AsyncLoader
  | .load path => if loader.RunsCode then loader.load env path else loader
  | .cancel handle =>
    if loader.RunsCode ∧ handle < loader.nextHandle then loader.cancel handle
    else loader
  | .clearClient handle =>
    if loader.RunsCode ∧ handle < loader.nextHandle then loader.clearClient handle
    else loader
  | .wakeChild => loader.wakeupChildThread pipeCapacity
  | .main => (loader.wakeupChildThread pipeCapacity).callbackStep env
  | .worker file allocated => loader.workerStep pipeCapacity file allocated

end AsyncLoader
end Network
end PalmWebKit
