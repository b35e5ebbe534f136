import PalmWebKit.Network.DeliveryProtocol
import PalmWebKit.Logic.Runs

/-!
# The direct loader

`DirectLoader` serves `data:` URLs and local files from a queue.  The calls to
clients are recorded in a trace, and what a client does inside a call is taken
from a given list of reactions.
-/

namespace PalmWebKit
namespace Network

/-- A resource handle. -/
abbrev HandleId := Nat

structure DirectLoaderQueuedItem where
  path : WString
  handle : HandleId
  deriving DecidableEq, Repr

/-- A file as it is found when it is read. -/
structure LocalFile where
  /-- `st_size`, `none` when `fstat` fails. -/
  size : Option Int
  /-- The bytes that `fread` gives until it fails or the file ends. -/
  readable : StdString
  deriving DecidableEq, Repr

/-- The functions of the platform that the loader uses. -/
structure LoaderPlatform where
  /-- Whether the protocol of the parsed URL is `data`. -/
  protocolIsData : WString → Bool
  /-- The path of the parsed URL. -/
  path : WString → WString
  /-- The text of the parsed URL. -/
  string : WString → WString
  extractMIMETypeFromMediaType : WString → WString
  extractCharsetFromMediaType : WString → WString
  decodeURLEscapeSequences : WString → WString
  /-- Decoding with the text encoding of a character set. -/
  decodeURLEscapeSequencesWith : WString → WString → WString
  /-- `base64Decode` of the Latin-1 bytes of a text. -/
  base64Decode : WString → StdString
  getMIMETypeForPath : WString → WString

/-- What a client does inside a call. -/
inductive ClientAction
  | cancel (handle : HandleId)
  | clearClient (handle : HandleId)
  | load (path : WString)
  deriving DecidableEq, Repr

/-- The reactions of the clients to the calls, in the order of the calls. -/
abbrev Reactions := Nat → List ClientAction

structure DirectLoader where
  queue : List DirectLoaderQueuedItem
  timerActive : Bool
  /-- `m_cancelled` of the handles. -/
  cancelled : HandleId → Bool
  hasClient : HandleId → Bool
  /-- The handle of the next request. -/
  nextHandle : HandleId
  /-- The number of calls made so far. -/
  calls : Nat
  trace : List (HandleId × DeliveryEvent)

namespace DirectLoader

def start : DirectLoader where
  queue := []
  timerActive := false
  cancelled := fun _ => false
  hasClient := fun _ => true
  nextHandle := 0
  calls := 0
  trace := []

def record (loader : DirectLoader) (handle : HandleId) (event : DeliveryEvent) : DirectLoader :=
  { loader with trace := loader.trace ++ [(handle, event)] }

/-! ## Queue and cancel -/

/-- `load` for a new request. -/
def load (loader : DirectLoader) (path : WString) : DirectLoader :=
  { loader with
    queue := loader.queue ++ [⟨path, loader.nextHandle⟩]
    timerActive := true
    nextHandle := loader.nextHandle + 1 }

/-- `DirectLoader::cancel`: the items of a handle leave the queue. -/
def cancelQueued (loader : DirectLoader) (handle : HandleId) : DirectLoader :=
  if ∃ item ∈ loader.queue, item.handle = handle then
    { loader with
      queue := loader.queue.filter fun item => item.handle ≠ handle }.record
        handle .release
  else
    loader

def setCancelled (loader : DirectLoader) (handle : HandleId) : DirectLoader :=
  { loader with cancelled := Function.update loader.cancelled handle true }.record
    handle .cancel

/-- `ResourceHandle::cancel` of a request. -/
def cancel (loader : DirectLoader) (handle : HandleId) : DirectLoader :=
  if handle < loader.nextHandle then
    (loader.setCancelled handle).cancelQueued handle
  else
    loader

/-- `ResourceHandle::setClient(0)` for a request. -/
def clearClient (loader : DirectLoader) (handle : HandleId) : DirectLoader :=
  if handle < loader.nextHandle then
    { loader with hasClient := Function.update loader.hasClient handle false }.record
      handle .clearClient
  else
    loader

def act (loader : DirectLoader) : ClientAction → DirectLoader
  | .cancel handle => loader.cancel handle
  | .clearClient handle => loader.clearClient handle
  | .load path => loader.load path

/-- A call to the client of a handle and what it does there.  A call through a
null client is recorded like any other. -/
def call (reactions : Reactions) (loader : DirectLoader) (handle : HandleId)
    (clientCall : ClientCall) : DirectLoader :=
  (reactions loader.calls).foldl act
    { loader.record handle (.call clientCall) with calls := loader.calls + 1 }

/-- Calls to the client of a handle, whatever it does in them. -/
def deliver (reactions : Reactions)
    (handle : HandleId) : DirectLoader → List ClientCall → DirectLoader
  | loader, [] => loader
  | loader, clientCall :: clientCalls =>
    deliver reactions handle (loader.call reactions handle clientCall) clientCalls

/-- Calls behind a `willSendRequest`, made unless the request was cancelled. -/
def deliverUnlessCancelled (reactions : Reactions) (handle : HandleId) (loader : DirectLoader)
    (clientCalls : List ClientCall) : DirectLoader :=
  let redirected := loader.call reactions handle .willSendRequest
  if redirected.cancelled handle then redirected
  else redirected.deliver reactions handle clientCalls

/-! ## `data:` URLs -/

/-- The parts of a `data:` URL that has a comma. -/
structure DataUrl where
  mediaType : WString
  base64 : Bool
  data : WString
  deriving DecidableEq, Repr

def base64Suffix : WString := WString.lit ";base64"

/-- The media type and the data at a comma. -/
def splitDataUrl (url : WString) (index : Nat) : DataUrl :=
  let mediaType := WString.substring url 5 (index - 5)
  let data := url.drop (index + 1)
  let base64 := WString.endsWith (WString.lower mediaType) base64Suffix
  let mediaType := if base64 then WString.left mediaType (mediaType.length - 7) else mediaType
  let mediaType := if mediaType = [] then WString.lit "text/plain;charset=US-ASCII" else mediaType
  ⟨mediaType, base64, data⟩

/-- The bytes of UTF-16 units in memory. -/
def utf16Bytes (text : WString) : StdString :=
  text.flatMap fun unit => [UInt8.ofNat unit.toNat, UInt8.ofNat (unit.toNat / 256)]

/-- The response to a `data:` URL, before its encoding and length are set. -/
def dataResponse (env : LoaderPlatform) (url : WString)
    (parts : DataUrl) : ResourceResponse where
  url := env.string url
  httpStatusCode := 200
  suggestedFilename := url
  mimeType := env.extractMIMETypeFromMediaType parts.mediaType
  textEncodingName := []
  expectedContentLength := 0

/-- `processDataUrl`, which does nothing without a comma. -/
def processDataUrl (env : LoaderPlatform) (reactions : Reactions) (loader : DirectLoader)
    (item : DirectLoaderQueuedItem) : DirectLoader :=
  match WString.find item.path 44 with
  | none => loader
  | some index =>
    let parts := splitDataUrl item.path index
    let charset := env.extractCharsetFromMediaType parts.mediaType
    let response := dataResponse env item.path parts
    if parts.base64 then
      let data := env.decodeURLEscapeSequences parts.data
      let response := { response with textEncodingName := charset }
      let responded := loader.call reactions item.handle (.didReceiveResponse response)
      let out := env.base64Decode data
      let response := { response with expectedContentLength := out.length }
      deliverUnlessCancelled reactions item.handle responded
        [.didReceiveResponse response, .didReceiveData out out.length, .didFinishLoading]
    else
      let data := env.decodeURLEscapeSequencesWith charset parts.data
      let response := { response with textEncodingName := WString.lit "UTF-16" }
      loader.deliver reactions item.handle
        (.didReceiveResponse response ::
          (if 0 < data.length then [.didReceiveData (utf16Bytes data) 0] else []) ++
            [.didFinishLoading])

/-! ## Local files -/

def kMaxFileSizeToLoad : Int := 10 * 1024 * 1024

/-- The contents of a file that can be read, `none` when loading it fails. -/
def readLocalFile : Option LocalFile → Option StdString
  | none => none
  | some file =>
    match file.size with
    | none => none
    | some size =>
      if size < kMaxFileSizeToLoad ∧ 0 < size ∧ size ≤ file.readable.length then
        some (file.readable.take size.toNat)
      else
        none

/-- The response to a file that was read. -/
def fileResponse (env : LoaderPlatform) (url : WString)
    (data : StdString) : ResourceResponse :=
  let path := env.path url
  let mimeType := env.getMIMETypeForPath path
  { url := env.string url
    httpStatusCode := 200
    suggestedFilename := path
    mimeType := mimeType
    textEncodingName :=
      if mimeType = WString.lit "text/html" ∨ mimeType = WString.lit "text/ascii" then
        WString.lit "UTF-8"
      else []
    expectedContentLength := data.length }

/-- The response to a file that could not be read. -/
def notFoundResponse (env : LoaderPlatform) (url : WString) : ResourceResponse where
  url := env.string url
  httpStatusCode := 404
  suggestedFilename := []
  mimeType := []
  textEncodingName := []
  expectedContentLength := 0

def notFoundError (env : LoaderPlatform) (url : WString) : ResourceError where
  domain := env.string url
  errorCode := 404
  failingURL := env.string url
  localizedDescription := WString.lit "File not found"

def processLocalFile (env : LoaderPlatform) (reactions : Reactions)
    (files : WString → Option LocalFile) (loader : DirectLoader)
    (item : DirectLoaderQueuedItem) : DirectLoader :=
  if !loader.hasClient item.handle then loader
  else
    match readLocalFile (files (env.path item.path)) with
    | some data =>
      deliverUnlessCancelled reactions item.handle loader
        [.didReceiveResponse (fileResponse env item.path data),
          .didReceiveData data 0, .didFinishLoading]
    | none =>
      loader.deliver reactions item.handle
        [.didReceiveResponse (notFoundResponse env item.path),
          .didFail (notFoundError env item.path)]

/-! ## The queue -/

/-- What a firing of the timer finds: whether the system is suspending when an
item is reached, and the files. -/
structure Surroundings where
  isSystemSuspending : HandleId → Bool
  files : WString → Option LocalFile

/-- The processing of an item that is not deferred or cancelled. -/
def processItem (env : LoaderPlatform) (reactions : Reactions)
    (files : WString → Option LocalFile) (loader : DirectLoader)
    (item : DirectLoaderQueuedItem) : DirectLoader :=
  if env.protocolIsData item.path then
    loader.processDataUrl env reactions item
  else
    loader.processLocalFile env reactions files item

/-- One turn of the loop of `serviceQueueTimerFired`. -/
def serviceItem (env : LoaderPlatform) (reactions : Reactions) (surroundings : Surroundings)
    (loader : DirectLoader) (item : DirectLoaderQueuedItem) : DirectLoader :=
  if surroundings.isSystemSuspending item.handle then
    { loader with queue := loader.queue ++ [item] }
  else if loader.cancelled item.handle then
    loader.record item.handle .release
  else
    (loader.processItem env reactions surroundings.files item).record
      item.handle .release

/-- `serviceQueueTimerFired` of the one-shot timer. -/
def serviceQueueTimerFired (env : LoaderPlatform) (reactions : Reactions)
    (surroundings : Surroundings) (loader : DirectLoader) : DirectLoader :=
  let items := loader.queue
  let serviced := Runs.final (serviceItem env reactions surroundings)
    { loader with queue := [], timerActive := false } items
  { serviced with
    timerActive := serviced.timerActive || !serviced.queue.isEmpty }

/-- What happens to the loader from outside its own calls. -/
inductive Operation
  | act (action : ClientAction)
  | timerFired (surroundings : Surroundings)

/-- One operation; the timer fires only when it is active. -/
def step (env : LoaderPlatform) (reactions : Reactions)
    (loader : DirectLoader) : Operation → DirectLoader
  | .act action => loader.act action
  | .timerFired surroundings =>
    if loader.timerActive then
      loader.serviceQueueTimerFired env reactions surroundings
    else
      loader

end DirectLoader

end Network
end PalmWebKit
