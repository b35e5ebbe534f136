import PalmWebKit.Logic.Runs

/-!
# Socket streams

The data callback of a socket reads until a read is short.  What `recv`
returns is given by the environment; the client may close the stream while
bytes are delivered to it.  What a client does in `didClose`, it may as well do
right behind it: the socket and the handle are marked as gone before the call.
-/

namespace PalmWebKit
namespace Network

/-- `SocketStreamState` -/
inductive SocketStreamState
  | connecting
  | opened
  | closing
  | closed
  deriving DecidableEq, Repr

/-- The arguments of a call of `didReceiveData`: what `recv` has put into the
buffer, and the length. -/
structure DataCall where
  data : List UInt8
  length : Int
  deriving DecidableEq, Repr

/-- What can be seen from outside. -/
structure SocketRecord where
  /-- The bytes that `recv` has returned. -/
  received : List UInt8 := []
  /-- The calls of `didReceiveData`. -/
  deliveries : List DataCall := []
  /-- The number of calls of `didClose`. -/
  closes : Nat := 0
  /-- `recv` has returned zero. -/
  ended : Bool := false
  deriving DecidableEq, Repr

inductive SocketMode
  | running
  /-- The data callback waits in `recv`. -/
  | blocked
  /-- A null pointer has been dereferenced. -/
  | crashed
  deriving DecidableEq, Repr

/-- A handle with its private part, as long as both live. -/
structure SocketStream where
  /-- `m_socket` is not -1. -/
  hasSocket : Bool
  /-- `m_streamHandle` of the private part is not null. -/
  hasStreamHandle : Bool
  hasClient : Bool
  /-- The sources have not been destroyed. -/
  dataSource : Bool
  hupSource : Bool
  state : SocketStreamState
  bufferedAmount : Nat
  record : SocketRecord
  mode : SocketMode
  deriving DecidableEq, Repr

/-- What a client calls. -/
inductive SocketClientCall
  | close
  | disconnect
  /-- The bytes and what `::send` returns for them. -/
  | send (length : Nat) (sent : Int)
  deriving DecidableEq, Repr

/-- The bytes of one read: at least one, and they fit the buffer. -/
structure ReadChunk where
  bytes : List UInt8
  nonempty : bytes ≠ []
  fits : bytes.length ≤ 2048
  deriving DecidableEq, Repr

/-- A result of `recv`. -/
inductive RecvResult
  | data (chunk : ReadChunk)
  | endOfStream
  | failure (sz : Int) (negative : sz < 0)
  deriving DecidableEq, Repr

namespace RecvResult

def sz : RecvResult → Int
  | .data chunk => chunk.bytes.length
  | .endOfStream => 0
  | .failure sz _ => sz

def bytes : RecvResult → List UInt8
  | .data chunk => chunk.bytes
  | .endOfStream => []
  | .failure _ _ => []

/-- `recv` on the descriptor -1. -/
def badDescriptor : RecvResult := .failure (-1) (by decide)

end RecvResult

def kReadChunkSize : Int := 2048

/-- A sum of two `int`s. -/
def addInt (total sz : Int) : Int := (total + sz).bmod (2 ^ 32)

/-- The largest amount that is buffered. -/
def socketBufferSize : Nat := 100 * 1024 * 1024

/-- The private part and the handle both know whom to call. -/
def SocketStream.HasListener (stream : SocketStream) : Bool :=
  stream.hasStreamHandle && stream.hasClient

namespace SocketStreamHandlePrivate

def disconnect (stream : SocketStream) : SocketStream :=
  if !stream.hasSocket then stream
  else
    let stream := { stream with dataSource := false, hupSource := false, hasSocket := false }
    if stream.HasListener then
      { stream with
        record := { stream.record with closes := stream.record.closes + 1 }
        hasClient := false }
    else stream

def connectCallback (stream : SocketStream) : SocketStream :=
  if stream.HasListener then { stream with state := .opened } else stream

/-- The callback returns false: its source is destroyed. -/
def socketDisconnect (stream : SocketStream) : SocketStream :=
  let stream :=
    if stream.HasListener then
      { stream with
        hasStreamHandle := false
        state := .closed
        record := { stream.record with closes := stream.record.closes + 1 } }
    else stream
  { stream with hupSource := false }

end SocketStreamHandlePrivate

namespace SocketStreamHandleBase

def disconnect (stream : SocketStream) : SocketStream :=
  { SocketStreamHandlePrivate.disconnect stream with state := .closed }

def close (stream : SocketStream) : SocketStream :=
  if stream.state = .closed then stream
  else
    let stream := { stream with state := .closing }
    if stream.bufferedAmount ≠ 0 then stream else disconnect stream

def send (stream : SocketStream) (length : Nat) (sent : Int) : SocketStream :=
  if stream.state = .connecting ∨ stream.state = .closing then stream
  else if stream.bufferedAmount ≠ 0 then
    if stream.bufferedAmount + length > socketBufferSize then stream
    else { stream with bufferedAmount := stream.bufferedAmount + length }
  else
    let bytesWritten := if stream.state = .opened then if stream.hasSocket then sent else 0 else 0
    if bytesWritten < 0 then stream
    else if stream.bufferedAmount + length - bytesWritten > socketBufferSize then
      stream
    else if bytesWritten < length then
      { stream with
        bufferedAmount := stream.bufferedAmount + (length - bytesWritten).toNat }
    else stream

end SocketStreamHandleBase

namespace SocketStream

/-- A call of the client. -/
def call (stream : SocketStream) : SocketClientCall → SocketStream
  | .close => SocketStreamHandleBase.close stream
  | .disconnect => SocketStreamHandleBase.disconnect stream
  | .send length sent => SocketStreamHandleBase.send stream length sent

/-- `recv` has returned. -/
def recv (stream : SocketStream) (result : RecvResult) : SocketStream :=
  { stream with
    record :=
      { stream.record with
        received := stream.record.received ++ result.bytes
        ended := stream.record.ended || result.sz == 0 } }

/-- `didReceiveData`, in which the client makes its calls. -/
def didReceiveData (stream : SocketStream) (delivery : DataCall)
    (calls : List SocketClientCall) : SocketStream :=
  calls.foldl call
    { stream with
      record :=
        { stream.record with
          deliveries := stream.record.deliveries ++ [delivery] } }

end SocketStream

/-- How the loop of the data callback is left. -/
inductive ReadOutcome
  | finished (stream : SocketStream) (readTotal : Int)
  | blocked (stream : SocketStream)
  | crashed (stream : SocketStream)
  deriving DecidableEq, Repr

namespace SocketStreamHandlePrivate

/-- One turn of the loop: what `recv` returns, and what the client calls when
it is delivered. -/
def takeResult (next : SocketStream → Int → ReadOutcome) (stream : SocketStream) (readTotal : Int)
    (result : RecvResult) (calls : List SocketClientCall) : ReadOutcome :=
  let stream := stream.recv result
  if result.sz = 0 then .finished stream readTotal
  else if !stream.HasListener then .crashed stream
  else
    let stream := stream.didReceiveData ⟨result.bytes, result.sz⟩ calls
    let readTotal := addInt readTotal result.sz
    if result.sz < kReadChunkSize then .finished stream readTotal
    else next stream readTotal

/-- The loop over the results of `recv`.  It waits when there are no more. -/
def readLoop : List (RecvResult × List SocketClientCall) → SocketStream → Int → ReadOutcome
  | [], stream, readTotal =>
    if stream.hasSocket then .blocked stream
    else
      takeResult (fun stream _ => .blocked stream) stream readTotal
        .badDescriptor []
  | (result, calls) :: results, stream, readTotal =>
    takeResult (readLoop results) stream readTotal
      (if stream.hasSocket then result else .badDescriptor) calls

def socketDataCallback (stream : SocketStream)
    (results : List (RecvResult × List SocketClientCall)) : SocketStream :=
  if !stream.hasSocket then stream
  else if stream.HasListener then
    match readLoop results stream 0 with
    | .finished stream readTotal =>
      if readTotal = 0 then { disconnect stream with dataSource := false }
      else stream
    | .blocked stream => { stream with mode := .blocked }
    | .crashed stream => { stream with mode := .crashed }
  else stream

end SocketStreamHandlePrivate

/-! ## Runs -/

inductive SocketEvent
  | connected
  | readable (results : List (RecvResult × List SocketClientCall))
  | hangUp
  | client (call : SocketClientCall)
  deriving DecidableEq, Repr

namespace SocketStream

/-- The stream that `connect` has made. -/
def start : SocketStream where
  hasSocket := true
  hasStreamHandle := true
  hasClient := true
  dataSource := true
  hupSource := true
  state := .connecting
  bufferedAmount := 0
  record := {}
  mode := .running

def step (stream : SocketStream) (event : SocketEvent) : SocketStream :=
  if stream.mode = .running then
    match event with
    | .connected => SocketStreamHandlePrivate.connectCallback stream
    | .readable results =>
      if stream.dataSource then
        SocketStreamHandlePrivate.socketDataCallback stream results
      else stream
    | .hangUp =>
      if stream.hupSource then
        SocketStreamHandlePrivate.socketDisconnect stream
      else stream
    | .client call => stream.call call
  else stream

/-- The client has received what the socket has, in pieces that fit the buffer,
and it has heard of the end once. -/
structure DeliversFaithfully (stream : SocketStream) : Prop where
  delivered : stream.record.deliveries.flatMap DataCall.data = stream.record.received
  lengths : ∀ delivery ∈ stream.record.deliveries, delivery.length = delivery.data.length ∧
      0 < delivery.length ∧ delivery.length ≤ kReadChunkSize
  closes_le : stream.record.closes ≤ 1
  ended : stream.record.ended → stream.record.closes = 1
  alive : stream.mode ≠ .crashed

end SocketStream

theorem ReadChunk.sz_ne_zero (chunk : ReadChunk) : (RecvResult.data chunk).sz ≠ 0 := by
  have positive := List.length_pos_iff.2 chunk.nonempty
  exact Int.natCast_ne_zero.2 (Nat.ne_of_gt positive)

/-- The condition on the results of one callback: none is negative, the end of
the stream comes before any bytes, and the client leaves the stream open while
a full buffer is delivered. -/
def ReadsWell : List (RecvResult × List SocketClientCall) → SocketStream → Int → Prop
  | [], _, _ => True
  | (.failure _ _, _) :: _, _, _ => False
  | (.endOfStream, _) :: _, _, readTotal => readTotal = 0
  | (.data chunk, calls) :: results, stream, readTotal =>
    let sz : Int := chunk.bytes.length
    let stream := (stream.recv (.data chunk)).didReceiveData ⟨chunk.bytes, sz⟩ calls
    sz < kReadChunkSize ∨ stream.hasSocket ∧ ReadsWell results stream (addInt readTotal sz)

namespace SocketStream

/-- The condition for an event: a data callback that reads, reads well. -/
def EventReadsWell (stream : SocketStream) : SocketEvent → Prop
  | .readable results =>
    stream.mode = .running → stream.dataSource → stream.hasSocket →
      stream.HasListener → ReadsWell results stream 0
  | _ => True

/-- What the steps keep: while there is a listener the socket is open and has
neither ended nor been closed, and afterwards it has been closed once. -/
structure Sound (stream : SocketStream) : Prop where
  attached : stream.dataSource ∨ stream.hupSource → stream.hasSocket
  connected : stream.HasListener → stream.hasSocket
  closes : stream.record.closes = if stream.HasListener then 0 else 1
  ended : stream.record.ended → stream.HasListener = false
  delivered : stream.record.deliveries.flatMap DataCall.data = stream.record.received
  lengths : ∀ delivery ∈ stream.record.deliveries, delivery.length = delivery.data.length ∧
      0 < delivery.length ∧ delivery.length ≤ kReadChunkSize
  alive : stream.mode ≠ .crashed

theorem sound_start : start.Sound where
  attached := by decide
  connected := by decide
  closes := rfl
  ended := by decide
  delivered := rfl
  lengths := by simp [start]
  alive := by decide

namespace Sound

variable
  {stream : SocketStream}

variable (sound : stream.Sound)
include sound

theorem deliversFaithfully : stream.DeliversFaithfully where
  delivered := sound.delivered
  lengths := sound.lengths
  closes_le := by
    rw [sound.closes]
    split_ifs <;> decide
  ended := by
    intro ended
    rw [sound.closes, sound.ended ended]
    rfl
  alive := sound.alive

/-- The state and the send buffer do not matter. -/
theorem update (state : SocketStreamState) (amount : Nat) :
    SocketStream.Sound
      { stream with state := state, bufferedAmount := amount } :=
  ⟨sound.attached, sound.connected, sound.closes, sound.ended, sound.delivered,
    sound.lengths, sound.alive⟩

/-- A source may be destroyed. -/
theorem detach {data hup : Bool} (dataKept : data → stream.dataSource)
    (hupKept : hup → stream.hupSource) :
    SocketStream.Sound { stream with dataSource := data, hupSource := hup } where
  attached := fun kept => sound.attached (kept.imp dataKept hupKept)
  connected := sound.connected
  closes := sound.closes
  ended := sound.ended
  delivered := sound.delivered
  lengths := sound.lengths
  alive := sound.alive

/-- An open socket is closed, and the listener hears of it, also when `recv`
has just come to the end of the stream. -/
theorem disconnect_open (opened : stream.hasSocket = true) (ended : Bool) :
    SocketStream.Sound (SocketStreamHandlePrivate.disconnect
      { stream with record := { stream.record with ended := ended } }) := by
  have closes := sound.closes
  unfold SocketStreamHandlePrivate.disconnect
  dsimp only
  rw [opened, Bool.not_true, if_neg Bool.false_ne_true]
  split_ifs with listening
  · have listened : stream.HasListener := listening
    rw [if_pos listened] at closes
    exact {
      attached := by simp
      connected := by simp [HasListener]
      closes := by simp [HasListener, closes]
      ended := by simp [HasListener]
      delivered := sound.delivered
      lengths := sound.lengths
      alive := sound.alive }
  · have alone : stream.HasListener = false := eq_false_of_ne_true listening
    exact {
      attached := by simp
      connected := fun listens => absurd listens listening
      closes := sound.closes
      ended := fun _ => alone
      delivered := sound.delivered
      lengths := sound.lengths
      alive := sound.alive }

theorem privateDisconnect :
    (SocketStreamHandlePrivate.disconnect stream).Sound := by
  cases opened : stream.hasSocket with
  | true => exact sound.disconnect_open opened stream.record.ended
  | false =>
    rw [SocketStreamHandlePrivate.disconnect, opened]
    exact sound

end Sound

section Calls

variable
  {stream : SocketStream}

theorem hasSocket_disconnect : (SocketStreamHandlePrivate.disconnect stream).hasSocket = false := by
  unfold SocketStreamHandlePrivate.disconnect
  dsimp only
  split_ifs with closed
  · exact Bool.not_eq_true _ ▸ (by simpa using closed)
  · rfl
  · rfl

theorem deliveries_disconnect : (SocketStreamHandlePrivate.disconnect stream).record.deliveries =
      stream.record.deliveries := by
  unfold SocketStreamHandlePrivate.disconnect
  dsimp only
  split_ifs <;> rfl

theorem disconnect_state (state : SocketStreamState) :
    SocketStreamHandlePrivate.disconnect { stream with state := state } =
      { SocketStreamHandlePrivate.disconnect stream with state := state } := by
  obtain ⟨hasSocket, hasStreamHandle, hasClient, _, _, _, _, _, _⟩ := stream
  cases hasSocket <;> cases hasStreamHandle <;> cases hasClient <;> rfl

/-- A call changes the state and the send buffer, or closes the socket. -/
theorem call_cases (call : SocketClientCall) :
    (∃ state amount, stream.call call = { stream with state := state, bufferedAmount := amount }) ∨
      stream.call call =
        { SocketStreamHandlePrivate.disconnect stream with state := .closed } := by
  have asBefore : ∃ state amount,
      stream = { stream with state := state, bufferedAmount := amount } :=
    ⟨stream.state, stream.bufferedAmount, rfl⟩
  cases call with
  | disconnect => exact .inr rfl
  | close =>
    rw [SocketStream.call, SocketStreamHandleBase.close]
    dsimp only
    split_ifs
    · exact .inl asBefore
    · exact .inl ⟨.closing, stream.bufferedAmount, rfl⟩
    · rw [SocketStreamHandleBase.disconnect, disconnect_state]
      exact .inr rfl
  | send length sent =>
    refine .inl ?_
    rw [SocketStream.call, SocketStreamHandleBase.send]
    dsimp only
    split_ifs
    all_goals first
      | exact asBefore
      | exact ⟨stream.state, _, rfl⟩

theorem deliveries_call (call : SocketClientCall) :
    (stream.call call).record.deliveries = stream.record.deliveries := by
  rcases call_cases call with ⟨state, amount, changed⟩ | closed
  · rw [changed]
  · rw [closed]
    exact deliveries_disconnect

theorem Sound.call (sound : stream.Sound) (call : SocketClientCall) : (stream.call call).Sound := by
  rcases call_cases call with ⟨state, amount, changed⟩ | closed
  · rw [changed]
    exact sound.update state amount
  · rw [closed]
    exact sound.privateDisconnect.update .closed _

/-- Behind a call the socket is closed, or open with the listener it had. -/
theorem listener_call (call : SocketClientCall)
    (listening : stream.hasSocket → stream.HasListener) :
    (stream.call call).hasSocket → (stream.call call).HasListener := by
  rcases call_cases call with ⟨state, amount, changed⟩ | closed
  · rw [changed]
    exact listening
  · rw [closed]
    intro opened
    exact absurd opened (ne_true_of_eq_false hasSocket_disconnect)

end Calls

section Foldl

variable
  {stream : SocketStream}

theorem Sound.foldl_call (sound : stream.Sound) (calls : List SocketClientCall) :
    (calls.foldl SocketStream.call stream).Sound := by
  induction calls generalizing stream with
  | nil => exact sound
  | cons call calls ih => exact ih (sound.call call)

theorem deliveries_foldl_call (calls : List SocketClientCall) :
    (calls.foldl SocketStream.call stream).record.deliveries =
      stream.record.deliveries := by
  induction calls generalizing stream with
  | nil => rfl
  | cons call calls ih => exact ih.trans (deliveries_call call)

theorem listener_foldl_call (calls : List SocketClientCall)
    (listening : stream.hasSocket → stream.HasListener) :
    (calls.foldl SocketStream.call stream).hasSocket →
      (calls.foldl SocketStream.call stream).HasListener := by
  induction calls generalizing stream with
  | nil => exact listening
  | cons call calls ih => exact ih (listener_call call listening)

end Foldl

/-! ## The loop -/

section Loop

variable
  {stream : SocketStream}

/-- A chunk is delivered as it was read. -/
theorem Sound.chunk (sound : stream.Sound) (chunk : ReadChunk) (calls : List SocketClientCall) :
    ((stream.recv (.data chunk)).didReceiveData
      ⟨chunk.bytes, chunk.bytes.length⟩ calls).Sound := by
  have positive : 0 < chunk.bytes.length := List.length_pos_iff.2 chunk.nonempty
  have fits := chunk.fits
  have nonzero : ((RecvResult.data chunk).sz == 0) = false := beq_eq_false_iff_ne.2 chunk.sz_ne_zero
  refine Sound.foldl_call ?_ calls
  exact {
    attached := sound.attached
    connected := sound.connected
    closes := sound.closes
    ended := by
      simp only [recv, nonzero, Bool.or_false]
      exact sound.ended
    delivered := by
      simp [recv, RecvResult.bytes, sound.delivered]
    lengths := by
      intro delivery member
      rcases List.mem_append.1 member with member | member
      · exact sound.lengths delivery member
      · obtain rfl := List.mem_singleton.1 member
        refine ⟨rfl, ?_, ?_⟩
        · exact Int.natCast_pos.2 positive
        · exact Int.ofNat_le.2 fits
    alive := sound.alive }

theorem takeResult_of_listening {result : RecvResult} (next : SocketStream → Int → ReadOutcome)
    (readTotal : Int) (calls : List SocketClientCall) (nonzero : result.sz ≠ 0)
    (listening : stream.HasListener) :
    SocketStreamHandlePrivate.takeResult next stream readTotal result calls =
      let stream := (stream.recv result).didReceiveData
        ⟨result.bytes, result.sz⟩ calls
      let readTotal := addInt readTotal result.sz
      if result.sz < kReadChunkSize then .finished stream readTotal
      else next stream readTotal := by
  have listeningStill : (stream.recv result).HasListener = true := listening
  rw [SocketStreamHandlePrivate.takeResult]
  rw [if_neg nonzero, listeningStill, Bool.not_true, if_neg Bool.false_ne_true]

/-- What the loop comes to when everything is read well. -/
inductive OutcomeSound : ReadOutcome → Prop
  | finished
      {stream : SocketStream}
      {readTotal : Int}
      (sound : stream.Sound) : OutcomeSound (.finished stream readTotal)
  | ended
      {stream : SocketStream}
      (closed : (SocketStreamHandlePrivate.disconnect stream).Sound) :
        OutcomeSound (.finished stream 0)
  | blocked
      {stream : SocketStream}
      (sound : stream.Sound) : OutcomeSound (.blocked stream)

theorem readLoop_sound (results : List (RecvResult × List SocketClientCall)) (readTotal : Int)
    (sound : stream.Sound) (listening : stream.HasListener)
    (readsWell : ReadsWell results stream readTotal) : OutcomeSound
      (SocketStreamHandlePrivate.readLoop results stream readTotal) := by
  induction results generalizing stream readTotal with
  | nil =>
    rw [SocketStreamHandlePrivate.readLoop, if_pos (sound.connected listening)]
    exact .blocked sound
  | cons head results ih =>
    obtain ⟨result, calls⟩ := head
    have opened := sound.connected listening
    rw [SocketStreamHandlePrivate.readLoop, if_pos opened]
    cases result with
    | failure sz negative => exact absurd readsWell id
    | endOfStream =>
      obtain rfl : readTotal = 0 := readsWell
      have closed := sound.disconnect_open opened true
      refine .ended ?_
      simpa [recv, RecvResult.bytes, RecvResult.sz] using closed
    | data chunk =>
      have delivered := sound.chunk chunk calls
      rw [takeResult_of_listening _ _ calls chunk.sz_ne_zero listening]
      split_ifs with short
      · exact .finished delivered
      · obtain ⟨openedStill, others⟩ := readsWell.resolve_left short
        refine ih _ delivered ?_ others
        exact listener_foldl_call calls (fun _ => listening) openedStill

/-- What the loop comes to otherwise. -/
inductive OutcomeUnfaithful : ReadOutcome → Prop
  | negative
      {stream : SocketStream}
      {readTotal : Int}
      {delivery : DataCall}
      (member : delivery ∈ stream.record.deliveries)
      (negative : delivery.length < 0) : OutcomeUnfaithful (.finished stream readTotal)
  | unheard
      {stream : SocketStream}
      {readTotal : Int}
      (nonzero : readTotal ≠ 0)
      (ended : stream.record.ended)
      (closes : stream.record.closes = 0) : OutcomeUnfaithful (.finished stream readTotal)
  | crashed
      {stream : SocketStream} : OutcomeUnfaithful (.crashed stream)

/-- Without a listener nothing more is read. -/
theorem readLoop_of_closed (results : List (RecvResult × List SocketClientCall)) (readTotal : Int)
    (sound : stream.Sound) (closed : ¬stream.hasSocket) : OutcomeUnfaithful
      (SocketStreamHandlePrivate.readLoop results stream readTotal) := by
  have alone : stream.HasListener = false :=
    eq_false_of_ne_true fun listening => closed (sound.connected listening)
  have crashes : ∀ next calls, OutcomeUnfaithful (SocketStreamHandlePrivate.takeResult next stream
        readTotal .badDescriptor calls) := by
    intro next calls
    have nonzero : RecvResult.badDescriptor.sz ≠ 0 := by decide
    have aloneStill : (stream.recv .badDescriptor).HasListener = false := alone
    rw [SocketStreamHandlePrivate.takeResult]
    rw [aloneStill, Bool.not_false]
    exact .crashed
  cases results with
  | nil =>
    rw [SocketStreamHandlePrivate.readLoop, if_neg closed]
    exact crashes _ []
  | cons head results =>
    obtain ⟨result, calls⟩ := head
    rw [SocketStreamHandlePrivate.readLoop, if_neg closed]
    exact crashes _ calls

theorem readLoop_unfaithful (results : List (RecvResult × List SocketClientCall)) (readTotal : Int)
    (sound : stream.Sound) (listening : stream.HasListener)
    (readsBadly : ¬ReadsWell results stream readTotal) : OutcomeUnfaithful
      (SocketStreamHandlePrivate.readLoop results stream readTotal) := by
  induction results generalizing stream readTotal with
  | nil => exact absurd trivial readsBadly
  | cons head results ih =>
    obtain ⟨result, calls⟩ := head
    have opened := sound.connected listening
    rw [SocketStreamHandlePrivate.readLoop, if_pos opened]
    cases result with
    | failure sz negative =>
      have nonzero : (RecvResult.failure sz negative).sz ≠ 0 := Int.ne_of_lt negative
      have short : (RecvResult.failure sz negative).sz < kReadChunkSize :=
        Int.lt_trans negative (by decide)
      rw [takeResult_of_listening _ _ calls nonzero listening]
      rw [if_pos short]
      have member : (⟨[], sz⟩ : DataCall) ∈
          ((stream.recv (.failure sz negative)).didReceiveData ⟨[], sz⟩
            calls).record.deliveries := by
        rw [didReceiveData, deliveries_foldl_call]
        exact List.mem_append_right _ (List.mem_singleton_self _)
      exact .negative member negative
    | endOfStream =>
      have closes := sound.closes
      rw [if_pos listening] at closes
      refine .unheard readsBadly ?_ closes
      simp [recv, RecvResult.sz]
    | data chunk =>
      have delivered := sound.chunk chunk calls
      have ⟨notShort, others⟩ := not_or.1 readsBadly
      have full : ¬(RecvResult.data chunk).sz < kReadChunkSize := notShort
      rw [takeResult_of_listening _ _ calls chunk.sz_ne_zero listening]
      rw [if_neg full]
      by_cases openedStill : ((stream.recv (.data chunk)).didReceiveData
            ⟨chunk.bytes, chunk.bytes.length⟩ calls).hasSocket
      · refine ih _ delivered ?_
          fun readsWell => others ⟨openedStill, readsWell⟩
        exact listener_foldl_call calls (fun _ => listening) openedStill
      · exact readLoop_of_closed results _ delivered openedStill

end Loop

/-! ## Steps -/

section Steps

variable
  {stream : SocketStream}

theorem Sound.blocked (sound : stream.Sound) :
    SocketStream.Sound { stream with mode := .blocked } :=
  ⟨sound.attached, sound.connected, sound.closes, sound.ended, sound.delivered,
    sound.lengths, by simp⟩

theorem Sound.socketDataCallback (sound : stream.Sound) (listening : stream.HasListener)
    {results : List (RecvResult × List SocketClientCall)} (readsWell : ReadsWell results stream 0) :
    (SocketStreamHandlePrivate.socketDataCallback stream results).Sound := by
  have outcome := readLoop_sound results 0 sound listening readsWell
  rw [SocketStreamHandlePrivate.socketDataCallback, sound.connected listening, Bool.not_true, if_neg
    Bool.false_ne_true, if_pos listening]
  generalize SocketStreamHandlePrivate.readLoop results stream 0 = left
    at outcome
  cases outcome with
  | finished sound =>
    dsimp only
    split_ifs
    · exact sound.privateDisconnect.detach (fun kept => by cases kept) id
    · exact sound
  | ended closed => exact closed.detach (fun kept => by cases kept) id
  | blocked sound => exact sound.blocked

theorem Sound.not_faithful_socketDataCallback (sound : stream.Sound)
    (listening : stream.HasListener) {results : List (RecvResult × List SocketClientCall)}
    (readsBadly : ¬ReadsWell results stream 0) :
    ¬(SocketStreamHandlePrivate.socketDataCallback stream
      results).DeliversFaithfully := by
  have outcome := readLoop_unfaithful results 0 sound listening readsBadly
  rw [SocketStreamHandlePrivate.socketDataCallback, sound.connected listening, Bool.not_true, if_neg
    Bool.false_ne_true, if_pos listening]
  generalize SocketStreamHandlePrivate.readLoop results stream 0 = left
    at outcome
  intro faithful
  cases outcome with
  | @negative left readTotal delivery member negative =>
    dsimp only at faithful
    have positive : 0 < delivery.length := by
      split_ifs at faithful
      · refine (faithful.lengths delivery ?_).2.1
        rw [deliveries_disconnect]
        exact member
      · exact (faithful.lengths delivery member).2.1
    exact Int.lt_irrefl _ (Int.lt_trans negative positive)
  | unheard nonzero ended closes =>
    dsimp only at faithful
    rw [if_neg nonzero] at faithful
    have closed := faithful.ended ended
    omega
  | crashed => exact faithful.alive rfl

theorem Sound.connectCallback (sound : stream.Sound) :
    (SocketStreamHandlePrivate.connectCallback stream).Sound := by
  rw [SocketStreamHandlePrivate.connectCallback]
  split_ifs
  · exact sound.update .opened stream.bufferedAmount
  · exact sound

theorem Sound.socketDisconnect (sound : stream.Sound) :
    (SocketStreamHandlePrivate.socketDisconnect stream).Sound := by
  have closes := sound.closes
  rw [SocketStreamHandlePrivate.socketDisconnect]
  split_ifs with listening
  · rw [if_pos listening] at closes
    exact {
      attached := fun kept => sound.attached (kept.imp id (by simp))
      connected := by simp [HasListener]
      closes := by simp [HasListener, closes]
      ended := by simp [HasListener]
      delivered := sound.delivered
      lengths := sound.lengths
      alive := sound.alive }
  · exact sound.detach id (by simp)

/-- A step that reads well keeps what it is to keep. -/
theorem Sound.step (sound : stream.Sound) {event : SocketEvent}
    (readsWell : stream.EventReadsWell event) : (stream.step event).Sound := by
  rw [SocketStream.step.eq_def]
  by_cases running : stream.mode = .running
  · rw [if_pos running]
    cases event with
    | connected => exact sound.connectCallback
    | client call => exact sound.call call
    | hangUp =>
      dsimp only
      split_ifs
      · exact sound.socketDisconnect
      · exact sound
    | readable results =>
      dsimp only
      split_ifs with attached
      · have opened := sound.attached (.inl attached)
        by_cases listening : stream.HasListener
        · exact sound.socketDataCallback listening
            (readsWell running attached opened listening)
        · rw [SocketStreamHandlePrivate.socketDataCallback, if_neg listening, ite_self]
          exact sound
      · exact sound
  · rw [if_neg running]
    exact sound

theorem Sound.readsWell_of_faithful (sound : stream.Sound) {event : SocketEvent}
    (faithful : (stream.step event).DeliversFaithfully) : stream.EventReadsWell event := by
  cases event with
  | connected | client call | hangUp => trivial
  | readable results =>
    intro running attached opened listening
    by_contra readsBadly
    rw [SocketStream.step, if_pos running, if_pos attached] at faithful
    exact sound.not_faithful_socketDataCallback listening readsBadly faithful

end Steps

/-- In every run the client receives the bytes of the socket, and hears of its
end once, exactly when every data callback reads well. -/
theorem deliversFaithfully_run_iff (events : List SocketEvent) :
    (∀ reached ∈ Runs.visited step start events, reached.DeliversFaithfully) ↔
      Runs.StepsMeet step EventReadsWell start events :=
  Runs.visited_iff_stepsMeet_of_invariant
    (fun _ sound => sound.deliversFaithfully)
    (fun _ _ sound readsWell => sound.step readsWell)
    (fun _ _ sound faithful => sound.readsWell_of_faithful faithful)
    events sound_start

/-- An error is delivered as a length. -/
theorem failure_delivered :
    ¬∀ events : List SocketEvent, ∀ reached ∈ Runs.visited step start events,
        reached.DeliversFaithfully := by
  intro faithful
  have reached := faithful [.readable [(.badDescriptor, [])]] _
    (Runs.final_mem_visited _ _)
  have delivered := reached.lengths ⟨[], -1⟩ (by decide)
  exact absurd delivered.2.1 (by decide)

end SocketStream

end Network
end PalmWebKit
