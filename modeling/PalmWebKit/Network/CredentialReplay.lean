import PalmWebKit.Logic.Runs
import PalmWebKit.Network.AuthenticationHandler

/-!
# Replay of rejected credentials

A request that is answered with 401 is sent again as long as its handler is not
cancelled: in the browser server when the response is complete, and anywhere
when the transfer times out.  Beside the job a monitor keeps the credentials
that the server has rejected since the client was last asked, and notes when a
restarted request carries one of them.
-/

namespace PalmWebKit
namespace Network

open List StdString WString AuthChallenge

/-- How a transfer ends. -/
inductive Ending
  /-- `finishedLoading` -/
  | finished
  /-- `failedLoading` with `CURLE_OPERATION_TIMEDOUT` -/
  | timedOut
  /-- `failedLoading` with another error -/
  | failed
  deriving DecidableEq, Repr

/-- A final response to a request, and what happens until its transfer ends. -/
structure Round where
  httpCode : Nat
  /-- The value of a `WWW-Authenticate` header, the last if there are more. -/
  field : Option WString
  client : Option AuthClient
  /-- What the client replies after `didReceiveAuthenticationChallenge` has
  returned. -/
  replies : List UserReply
  completion : Ending

/-- The parts of a curl handle and its job that authentication concerns. -/
structure AuthJob where
  transfer : AuthTransfer
  /-- The `WWW-Authenticate` field of `m_response`, which is kept from one
  response to the next. -/
  authenticateField : WString
  ended : Bool

namespace AuthJob

/-- A job after `setupJob` with the headers of its request. -/
def started (url : KURL) (cache : CredentialsCache) (lines : List StdString)
    (username password : WString) : AuthJob where
  transfer :=
    ({ handler := {}
       cache := cache
       customHeaders := lines.map .line
       shown := [] } : AuthTransfer).addCredentials url username password
  authenticateField := []
  ended := false

/-- `receivedHeader` for the headers of a final response.  Nothing is looked
at without a client. -/
def receivedHeader (job : AuthJob) (context : AuthContext) (round : Round) : AuthJob :=
  match round.client with
  | none => job
  | some client =>
    let field := round.field.getD job.authenticateField
    let stored := { job with authenticateField := field }
    if round.httpCode = 401 then
      { stored with
        transfer := (job.transfer.handleChallenge context (some client) field).1 }
    else
      stored

def receivedReplies (job : AuthJob) (replies : List UserReply) : AuthJob :=
  { job with
    transfer := replies.foldl AuthTransfer.receivedReply job.transfer }

end AuthJob

/-- `finishedLoading` and `failedLoading` restart a job that is not cancelled
after such a response. -/
def Round.restarts (context : AuthContext) (round : Round) : Bool :=
  round.httpCode == 401 &&
    match round.completion with
    | .finished => context.runningInBrowserServer
    | .timedOut => true
    | .failed => false

/-- The value of the stale parameter of a Digest challenge is true. -/
def isStale (field : WString) : Bool :=
  match schemeOf (skipSpaces (ofCString (latin1 field))) with
  | .digest str =>
    match (digestParams str).stale with
    | some value => tolower value == bytes "true"
    | none => false
  | _ => false

/-- The response says that the credentials are good and only the nonce is
old. -/
def Round.isStale (round : Round) : Bool :=
  match round.field with
  | some field => Network.isStale field
  | none => false

/-- A job with its monitor. -/
structure AuthSession where
  job : AuthJob
  /-- What the server has rejected since the client was last asked. -/
  rejected : List SentCredentials
  /-- A restarted request carried rejected credentials. -/
  replayed : Bool

inductive AuthEvent
  | response (round : Round)
  /-- A reply of the client while a request is under way. -/
  | reply (reply : UserReply)
  /-- Other requests leave the shared cache like this. -/
  | otherRequests (cache : CredentialsCache)
  /-- The job is cancelled. -/
  | cancel

namespace AuthSession

/-- The credentials rejected so far, with those of the request under way when
the response is not stale. -/
def rejectedBy (session : AuthSession) (round : Round) : List SentCredentials :=
  if round.isStale then session.rejected
  else session.rejected ++ carried session.job.transfer.customHeaders

/-- A final response, the replies until the transfer ends, and the restart or
the end of the job. -/
def respond (session : AuthSession) (context : AuthContext) (round : Round) : AuthSession :=
  let received := session.job.receivedHeader context round
  let wasAsked := received.transfer.shown.length ≠ session.job.transfer.shown.length
  let rejected := if wasAsked then [] else session.rejectedBy round
  let replied := received.receivedReplies round.replies
  if round.restarts context && !replied.transfer.handler.cancelled then
    { job := replied
      rejected := rejected
      replayed :=
        session.replayed ||
          (carried replied.transfer.customHeaders).any (· ∈ rejected) }
  else
    { session with job := { replied with ended := true } }

def step (context : AuthContext) (session : AuthSession) (event : AuthEvent) : AuthSession :=
  if session.job.ended then session
  else
    match event with
    | .response round => session.respond context round
    | .reply reply => { session with job := session.job.receivedReplies [reply] }
    | .otherRequests cache =>
      { session with
        job :=
          { session.job with
            transfer := { session.job.transfer with cache := cache } } }
    | .cancel => { session with job := { session.job with ended := true } }

def start (job : AuthJob) : AuthSession where
  job := job
  rejected := []
  replayed := false

end AuthSession

/-- Whether the handler is cancelled once the replies have come in. -/
def cancelledAfter : List UserReply → Bool → Bool
  | [], cancelled => cancelled
  | .credential _ _ :: later, _ => cancelledAfter later false
  | .cancellation :: later, _ => cancelledAfter later true

namespace AuthSession

/-- What the job makes of a 401 response.  Without a client it is not looked
at. -/
def decide (session : AuthSession) (context : AuthContext) (round : Round) : Decision :=
  let transfer := session.job.transfer
  match round.client with
  | none => .keeps transfer.handler.cancelled
  | some _ =>
    decideField transfer context
      (round.field.getD session.job.authenticateField)

/-- Headers that go out once more carry nothing that the response rejects. -/
def StaysFresh (round : Round) (headers : List CustomHeader) : Prop :=
  round.isStale = true ∨ carried headers = []

/-- What the code has to decide for the next request to carry nothing
rejected. -/
def Fresh (session : AuthSession) (round : Round) : Decision → Prop
  | .keeps cancelled =>
    cancelledAfter round.replies cancelled = false →
      StaysFresh round session.job.transfer.customHeaders
  | .negotiates =>
    cancelledAfter round.replies false = false → StaysFresh round session.job.transfer.otherHeaders
  | .sends credentials =>
    cancelledAfter round.replies false = false →
      StaysFresh round session.job.transfer.otherHeaders ∧ credentials ∉ session.rejectedBy round
  | .asks => True

/-- The condition for an event: a response after which the job is restarted
leads to fresh credentials. -/
def SendsFresh (context : AuthContext) (session : AuthSession) : AuthEvent → Prop
  | .response round =>
    session.job.ended = false → round.restarts context = true →
      session.Fresh round (session.decide context round)
  | _ => True

/-- Nothing rejected was sent again, and nothing rejected is under way. -/
structure Unreplayed (session : AuthSession) : Prop where
  replayed : session.replayed = false
  underWay : session.job.ended = false → ∀ credentials ∈ carried session.job.transfer.customHeaders,
      credentials ∉ session.rejected

section Steps

theorem foldl_receivedReply_customHeaders (replies : List UserReply) (transfer : AuthTransfer) :
    (replies.foldl AuthTransfer.receivedReply transfer).customHeaders =
      transfer.customHeaders := by
  induction replies generalizing transfer with
  | nil => rfl
  | cons reply later ih => rw [foldl_cons, ih, transfer.receivedReply_customHeaders]

theorem foldl_receivedReply_cancelled (replies : List UserReply) (transfer : AuthTransfer) :
    (replies.foldl AuthTransfer.receivedReply transfer).handler.cancelled =
      cancelledAfter replies transfer.handler.cancelled := by
  induction replies generalizing transfer with
  | nil => rfl
  | cons reply later ih =>
    rw [foldl_cons, ih]
    cases reply <;> rfl

variable
  {context : AuthContext}
  {session : AuthSession}
  {round : Round}

/-- The job after the headers of a 401 response is as decided. -/
theorem follows_receivedHeader (unauthorized : round.httpCode = 401) :
    (session.decide context round).Follows session.job.transfer
      (session.job.receivedHeader context round).transfer := by
  unfold decide AuthJob.receivedHeader
  cases round.client with
  | none => exact ⟨rfl, rfl, rfl⟩
  | some client =>
    dsimp only
    rw [if_pos unauthorized]
    exact follows_handleChallenge _

theorem httpCode_of_restarts (restarts : round.restarts context = true) : round.httpCode = 401 := by
  rw [Round.restarts, Bool.and_eq_true] at restarts
  exact eq_of_beq restarts.1

theorem carried_subset {some all : List CustomHeader} (subset : some ⊆ all) :
    carried some ⊆ carried all := by
  intro credentials member
  obtain ⟨header, present, carries⟩ := mem_filterMap.1 member
  exact mem_filterMap.2 ⟨header, subset present, carries⟩

/-- Headers of the request under way carry nothing rejected by the response
exactly when the response is stale or they carry nothing. -/
theorem notMem_rejectedBy_iff (unreplayed : session.Unreplayed) (live : session.job.ended = false)
    {headers : List CustomHeader} (subset : headers ⊆ session.job.transfer.customHeaders) :
    (∀ credentials ∈ carried headers, credentials ∉ session.rejectedBy round) ↔
      StaysFresh round headers := by
  unfold rejectedBy StaysFresh
  by_cases stale : round.isStale = true
  · rw [if_pos stale]
    refine iff_of_true ?_ (.inl stale)
    exact fun credentials member =>
      unreplayed.underWay live credentials (carried_subset subset member)
  · rw [if_neg stale]
    constructor
    · intro apart
      refine .inr (eq_nil_iff_forall_not_mem.2 ?_)
      intro credentials member
      exact apart credentials member
        (mem_append_right _ (carried_subset subset member))
    · rintro (isStale | nothing)
      · exact absurd isStale stale
      · rw [nothing]
        simp

/-- The replayed flag after a response that leads to a restart. -/
theorem respond_of_restarts (restarts : round.restarts context = true)
    (going : cancelledAfter round.replies
      (session.job.receivedHeader context round).transfer.handler.cancelled = false) :
    (session.respond context round).replayed = (session.replayed ||
        (carried (session.job.receivedHeader context round).transfer.customHeaders).any
            (· ∈ (session.respond context round).rejected)) := by
  have notCancelled := going
  rw [← foldl_receivedReply_cancelled] at notCancelled
  simp only [respond, AuthJob.receivedReplies, restarts, notCancelled,
    Bool.not_false, Bool.and_true, if_true, foldl_receivedReply_customHeaders]

theorem respond_rejected (restarts : round.restarts context = true)
    (going : cancelledAfter round.replies
      (session.job.receivedHeader context round).transfer.handler.cancelled = false) :
    (session.respond context round).rejected =
      if (session.job.receivedHeader context round).transfer.shown.length ≠
          session.job.transfer.shown.length then []
      else session.rejectedBy round := by
  have notCancelled := going
  rw [← foldl_receivedReply_cancelled] at notCancelled
  simp only [respond, AuthJob.receivedReplies, restarts, notCancelled,
    Bool.not_false, Bool.and_true, if_true]

/-- A response that does not lead to a restart ends the job. -/
theorem respond_of_ends
    (ends : round.restarts context = false ∨ cancelledAfter round.replies
      (session.job.receivedHeader context round).transfer.handler.cancelled = true) :
    (session.respond context round).replayed = session.replayed ∧
      (session.respond context round).job.ended = true := by
  rw [← foldl_receivedReply_cancelled] at ends
  have ended : (round.restarts context &&
      !((session.job.receivedHeader context round).receivedReplies
        round.replies).transfer.handler.cancelled) = false := by
    rcases ends with ends | ends
    · simp [ends]
    · simp [AuthJob.receivedReplies, ends]
  simp only [respond, ended, Bool.false_eq_true, if_false, and_self]

/-- Whether a restarted request carries rejected credentials. -/
theorem respond_replayed_iff (unreplayed : session.Unreplayed)
    (restarts : round.restarts context = true)
    (going : cancelledAfter round.replies
      (session.job.receivedHeader context round).transfer.handler.cancelled = false) :
    (session.respond context round).replayed = false ↔
      ∀ credentials ∈ carried (session.job.receivedHeader context round).transfer.customHeaders,
        credentials ∉ (session.respond context round).rejected := by
  rw [respond_of_restarts restarts going, unreplayed.replayed, Bool.false_or, any_eq_false]
  simp only [decide_eq_true_eq]

/-- A response is followed by no replay exactly when the decision on it is
fresh. -/
theorem respond_iff (unreplayed : session.Unreplayed) (live : session.job.ended = false) :
    (session.respond context round).replayed = false ↔ (round.restarts context = true →
        session.Fresh round (session.decide context round)) := by
  by_cases restarts : round.restarts context = true
  case neg =>
    rw [Bool.not_eq_true] at restarts
    rw [(respond_of_ends (Or.inl restarts)).1]
    exact iff_of_true unreplayed.replayed (by simp [restarts])
  rw [forall_prop_of_true restarts]
  have follows : (session.decide context round).Follows session.job.transfer
      (session.job.receivedHeader context round).transfer :=
    follows_receivedHeader (httpCode_of_restarts restarts)
  cases cancelled : cancelledAfter round.replies
      (session.job.receivedHeader context round).transfer.handler.cancelled with
  | true =>
    rw [(respond_of_ends (Or.inr cancelled)).1]
    refine iff_of_true unreplayed.replayed ?_
    cases decision : session.decide context round with
    | keeps before | negotiates | sends credentials =>
      rw [decision] at follows
      rw [follows.2.2] at cancelled
      intro going
      rw [cancelled] at going
      cases going
    | asks => trivial
  | false =>
    rw [respond_replayed_iff unreplayed restarts cancelled, respond_rejected restarts cancelled]
    cases decision : session.decide context round with
    | keeps before =>
      rw [decision] at follows
      obtain ⟨headers, shown, after⟩ := follows
      rw [after] at cancelled
      rw [headers, if_neg (not_not.2 shown), notMem_rejectedBy_iff unreplayed live (List.Subset.refl
        _), Fresh, forall_prop_of_true cancelled]
    | negotiates =>
      rw [decision] at follows
      obtain ⟨headers, shown, after⟩ := follows
      rw [after] at cancelled
      have nothingNew : carried (session.job.transfer.otherHeaders ++
          [.ntlmNegotiate]) = carried session.job.transfer.otherHeaders := by
        simp [carried, CustomHeader.credentials]
      rw [headers, if_neg (not_not.2 shown), nothingNew, notMem_rejectedBy_iff unreplayed live
          session.job.transfer.otherHeaders_subset, Fresh,
        forall_prop_of_true cancelled]
    | sends credentials =>
      rw [decision] at follows
      obtain ⟨⟨authHeader, carries, headers⟩, shown, after⟩ := follows
      rw [after] at cancelled
      have added : carried (session.job.transfer.otherHeaders ++ [authHeader]) =
            carried session.job.transfer.otherHeaders ++ [credentials] := by
        simp [carried, carries]
      rw [headers, if_neg (not_not.2 shown), added, Fresh, forall_prop_of_true cancelled,
        ← notMem_rejectedBy_iff unreplayed live
          session.job.transfer.otherHeaders_subset]
      simp only [mem_append, mem_singleton, or_imp, forall_and, forall_eq]
    | asks =>
      rw [decision] at follows
      have asked : (session.job.receivedHeader context round).transfer.shown.length ≠
            session.job.transfer.shown.length := by
        rw [follows]
        omega
      rw [if_pos asked]
      exact iff_of_true (fun _ _ => not_mem_nil) trivial

/-- A restarted request carries nothing rejected unless the flag is set. -/
theorem unreplayed_respond (unreplayed : session.Unreplayed)
    (notReplayed : (session.respond context round).replayed = false) :
    (session.respond context round).Unreplayed := by
  refine ⟨notReplayed, fun live => ?_⟩
  by_cases goes : round.restarts context = true ∧ cancelledAfter round.replies
      (session.job.receivedHeader context round).transfer.handler.cancelled = false
  · rw [respond_replayed_iff unreplayed goes.1 goes.2] at notReplayed
    have headers : (session.respond context round).job.transfer.customHeaders =
        (session.job.receivedHeader context round).transfer.customHeaders := by
      unfold respond
      dsimp only
      split_ifs <;> exact foldl_receivedReply_customHeaders _ _
    rw [headers]
    exact notReplayed
  · rw [not_and_or, Bool.not_eq_true, Bool.not_eq_false] at goes
    have ended := (respond_of_ends goes).2
    rw [ended] at live
    cases live

end Steps

/-- An event is followed by no replay exactly when it sends fresh
credentials. -/
theorem step_replayed_iff {context : AuthContext} {session : AuthSession}
    (unreplayed : session.Unreplayed) (event : AuthEvent) :
    (session.step context event).replayed = false ↔
      SendsFresh context session event := by
  unfold step
  cases ended : session.job.ended with
  | true =>
    refine iff_of_true unreplayed.replayed ?_
    cases event with
    | response round => simp [SendsFresh, ended]
    | _ => trivial
  | false =>
    cases event with
    | response round =>
      rw [SendsFresh, forall_prop_of_true ended]
      exact respond_iff unreplayed ended
    | reply | otherRequests | cancel => exact iff_of_true unreplayed.replayed trivial

/-- An event that leaves the flag alone keeps the invariant. -/
theorem unreplayed_step {context : AuthContext} {session : AuthSession}
    (unreplayed : session.Unreplayed) (event : AuthEvent)
    (notReplayed : (session.step context event).replayed = false) :
    (session.step context event).Unreplayed := by
  unfold step at notReplayed ⊢
  by_cases ended : session.job.ended = true
  · rw [if_pos ended]
    exact unreplayed
  · rw [if_neg ended] at notReplayed ⊢
    cases event with
    | response round => exact unreplayed_respond unreplayed notReplayed
    | reply reply =>
      refine ⟨notReplayed, fun live => ?_⟩
      dsimp only [AuthJob.receivedReplies]
      rw [foldl_receivedReply_customHeaders]
      exact unreplayed.underWay live
    | otherRequests => exact ⟨notReplayed, unreplayed.underWay⟩
    | cancel => exact ⟨notReplayed, fun live => Bool.noConfusion live⟩

theorem unreplayed_start (job : AuthJob) : (start job).Unreplayed where
  replayed := rfl
  underWay := fun _ _ _ => not_mem_nil

end AuthSession

end Network
end PalmWebKit
