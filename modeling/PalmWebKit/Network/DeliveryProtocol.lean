import PalmWebKit.Logic.KeyedMonitor
import PalmWebKit.Text.CodeUnits
import PalmWebKit.Text.StdString

/-!
# The delivery protocol of a resource handle

What the client of a request may see: one response, then data, then the end of
the load, and nothing once the request is cancelled or the client is gone.  A
loader may let go of a request when its load has ended or it is cancelled.
-/

namespace PalmWebKit
namespace Network

/-- The fields of a `ResourceResponse` that the direct loader sets. -/
structure ResourceResponse where
  url : WString
  httpStatusCode : Nat
  suggestedFilename : WString
  mimeType : WString
  textEncodingName : WString
  expectedContentLength : Nat
  deriving DecidableEq, Repr

structure ResourceError where
  domain : WString
  errorCode : Nat
  failingURL : WString
  localizedDescription : WString
  deriving DecidableEq, Repr

/-- A call to the client of a handle. -/
inductive ClientCall
  | willSendRequest
  | didReceiveResponse (response : ResourceResponse)
  | didReceiveData (data : StdString) (lengthReceived : Nat)
  | didFinishLoading
  | didFail (error : ResourceError)
  deriving DecidableEq, Repr

/-- What happens to a request. -/
inductive DeliveryEvent
  | call (call : ClientCall)
  /-- `ResourceHandle::cancel` -/
  | cancel
  /-- The handle loses its client. -/
  | clearClient
  /-- The loader lets go of the request. -/
  | release
  deriving DecidableEq, Repr

inductive DeliveryPhase
  | awaiting
  | receiving
  | ended
  /-- Cancelled, or without a client. -/
  | gone
  deriving DecidableEq, Repr

namespace DeliveryPhase

/-- The events that the protocol allows. -/
def next : DeliveryPhase → DeliveryEvent → Option DeliveryPhase
  | _, .cancel => some gone
  | _, .clearClient => some gone
  | awaiting, .call .willSendRequest => some awaiting
  | awaiting, .call (.didReceiveResponse _) => some receiving
  | receiving, .call .willSendRequest => some receiving
  | receiving, .call (.didReceiveData _ _) => some receiving
  | receiving, .call .didFinishLoading => some ended
  | receiving, .call (.didFail _) => some ended
  | ended, .release => some ended
  | gone, .release => some gone
  | _, _ => none

@[simp] theorem next_cancel (phase : DeliveryPhase) : phase.next .cancel = some gone := by
  cases phase <;> rfl

@[simp] theorem next_clearClient (phase : DeliveryPhase) : phase.next .clearClient = some gone := by
  cases phase <;> rfl

@[simp] theorem next_gone_call (call : ClientCall) : gone.next (.call call) = none := by
  cases call <;> rfl

end DeliveryPhase

/-- The phase of a handle after a trace. -/
abbrev phaseAt {Handle : Type} [DecidableEq Handle] (trace : List (Handle × DeliveryEvent))
    (handle : Handle) : Option DeliveryPhase :=
  KeyedMonitor.phaseAt DeliveryPhase.next .awaiting trace handle

/-- A call that ends a load. -/
def ClientCall.IsEnd : ClientCall → Prop
  | .didFinishLoading => True
  | .didFail _ => True
  | _ => False

end Network
end PalmWebKit
