import PalmWebKit.Logic.Runs
import PalmWebKit.Network.HostMatch

/-!
# Certificate exceptions

OpenSSL calls `sslVerificationCallback` for every certificate it looks at.  A
certificate that fails is shown to the client, whose answer is kept in two
flags of the handle.  The flags outlive the connection: after a redirect the
same handle connects to another host and they still decide.
-/

namespace PalmWebKit
namespace Network

open StdString

/-- The error code of a verification context. -/
inductive VerifyError
  /-- `X509_V_OK` -/
  | ok
  /-- `X509_V_ERR_UNABLE_TO_GET_CRL` -/
  | unableToGetCrl
  /-- `X509_V_ERR_CRL_HAS_EXPIRED` -/
  | crlHasExpired
  /-- `X509_V_ERR_CERT_REVOKED` -/
  | certRevoked
  | other (code : Nat)
  deriving DecidableEq, Repr

/-- The settings that the callback reads. -/
structure SslSettings where
  sslStrictNameChecking : Bool
  tempSSLCertLocationPath : StdString
  deriving DecidableEq, Repr

/-- What the client is shown of a certificate that fails. -/
structure SSLValidationInfo where
  certFileAndPath : StdString
  userMsgString : StdString
  commonName : StdString
  hostName : StdString
  signingCA : StdString
  validationFailReason : VerifyError
  deriving DecidableEq, Repr

/-- `AcceptDecision_Reject`; every other decision accepts. -/
def acceptDecisionReject : Int := 0

/-- What the client does when it is shown a certificate. -/
structure Answer where
  /-- The accept decision, of the user or of the stored exceptions. -/
  decision : Int
  /-- The handle is cancelled meanwhile. -/
  cancels : Bool
  deriving DecidableEq, Repr

/-- What the callback is called with, and what it meets. -/
structure Presentation where
  isPreverifiedOk : Bool
  sslErr : VerifyError
  cert : Option Certificate
  /-- `fopen` of the file for the certificate succeeds. -/
  fileOpens : Bool
  client : SSLValidationInfo → Answer

/-- The fields of a `CurlHandle` and its job that verification depends on. -/
structure SslHandle where
  cancelled : Bool
  hasClient : Bool
  /-- The host of `firstRequest().url()`. -/
  host : StdString
  sslVerificationComplete : Bool
  sslShouldAccept : Bool
  /-- `CURLOPT_SSL_VERIFYPEER` -/
  verifyPeer : Bool
  deriving DecidableEq, Repr

/-- What a callback returns and does besides changing the handle. -/
structure Verdict where
  certOk : Bool
  /-- The error it leaves in the context. -/
  error : VerifyError
  /-- What the client was shown, and its answer. -/
  shown : Option (SSLValidationInfo × Answer)
  deriving DecidableEq, Repr

def commonNameStr (cert : Certificate) : StdString :=
  let front := cert.commonNames.headD []
  if front.isEmpty then bytes "_unknown_" else front

/-- What the client is shown. -/
def sslInfo (settings : SslSettings) (cert : Certificate) (currentHostName : StdString)
    (sslErr : VerifyError) : SSLValidationInfo where
  certFileAndPath := settings.tempSSLCertLocationPath ++ commonNameStr cert ++ bytes ".pem"
  userMsgString := bytes "Certificate could not be automatically verified"
  commonName := commonNameStr cert
  hostName := currentHostName
  signingCA := []
  validationFailReason := sslErr

/-- The callback refuses and restores the error. -/
def certInvalid (presented : Presentation) : Verdict where
  certOk := false
  error := presented.sslErr
  shown := none

/-- The callback accepts; the error is cleared. -/
def certAccepted : Verdict where
  certOk := true
  error := .ok
  shown := none

/-- The second half of the callback: the certificate is looked at and, if it
fails, shown to the client. -/
def examineCertificate (settings : SslSettings) (handle : SslHandle)
    (presented : Presentation) : Verdict × SslHandle :=
  match presented.cert with
  | none => (certInvalid presented, handle)
  | some cert =>
    let nameMatched := isCertValidForUrl settings.sslStrictNameChecking cert handle.host
    if !presented.isPreverifiedOk || !nameMatched then
      if !presented.fileOpens then (certInvalid presented, handle)
      else
        let info := sslInfo settings cert handle.host presented.sslErr
        let answer := presented.client info
        let shown := some (info, answer)
        if answer.decision = acceptDecisionReject then
          ({ certInvalid presented with shown }, { handle with
              cancelled := answer.cancels
              sslVerificationComplete := true
              sslShouldAccept := false })
        else
          ({ certAccepted with shown }, { handle with
              cancelled := answer.cancels
              sslVerificationComplete := true
              sslShouldAccept := true
              verifyPeer := false })
    else
      (certAccepted, handle)

def sslVerificationCallback (settings : SslSettings) (handle : SslHandle)
    (presented : Presentation) : Verdict × SslHandle :=
  if handle.cancelled then (certInvalid presented, handle)
  else if !handle.hasClient then (certInvalid presented, handle)
  else if presented.sslErr = .unableToGetCrl then (certAccepted, handle)
  else if presented.sslErr = .crlHasExpired then (certAccepted, handle)
  else if presented.sslErr = .certRevoked then (certInvalid presented, handle)
  else if handle.sslVerificationComplete then
    if handle.sslShouldAccept then
      (certAccepted, { handle with verifyPeer := false })
    else
      (certInvalid presented, handle)
  else
    examineCertificate settings handle presented

/-- The part of `receivedHeader` that handles a redirect, at the end of the
headers.  `location` is the host of the new URL, `none` without a location.
`willSendRequest` may cancel the handle. -/
def receivedRedirect (handle : SslHandle) (httpCode : Nat) (location : Option StdString)
    (cancels : Bool) : SslHandle :=
  if handle.cancelled then handle
  else if !handle.hasClient then handle
  else if 300 ≤ httpCode ∧ httpCode < 400 then
    match location with
    | none => handle
    | some newHost =>
      let handle := { handle with verifyPeer := true, cancelled := cancels }
      if handle.cancelled then handle else { handle with host := newHost }
  else
    handle

/-! ## Runs of a handle -/

/-- What happens to a handle. -/
inductive SslEvent
  | verify (presented : Presentation)
  | headersEnd
      (httpCode : Nat) (location : Option StdString) (cancels : Bool)
  | cancel
  | clientGone

/-- The certificate fails for the host: apart from the two tolerated errors it
is not verified, or it is not for the host. -/
def Presentation.fails (presented : Presentation) (settings : SslSettings)
    (host : StdString) : Bool :=
  presented.sslErr ≠ .unableToGetCrl && presented.sslErr ≠ .crlHasExpired &&
    !(presented.isPreverifiedOk && presented.cert.any fun cert =>
      isCertValidForUrl settings.sslStrictNameChecking cert host)

/-- A handle with the history that the claim on exceptions is about. -/
structure SslRun where
  handle : SslHandle
  /-- The hosts for which the client accepted a certificate. -/
  acceptedFor : List StdString
  /-- The hosts whose failing certificate was accepted. -/
  trusted : List StdString
  deriving DecidableEq, Repr

namespace SslRun

def acceptedAnswer (verdict : Verdict) : Bool :=
  verdict.shown.any fun shown => shown.2.decision ≠ acceptDecisionReject

def step (settings : SslSettings) (run : SslRun) : SslEvent → SslRun
  | .verify presented =>
    let host := run.handle.host
    let (verdict, handle) := sslVerificationCallback settings run.handle presented
    { handle
      acceptedFor :=
        if acceptedAnswer verdict then host :: run.acceptedFor
        else run.acceptedFor
      trusted :=
        if verdict.certOk && presented.fails settings host then
          host :: run.trusted
        else run.trusted }
  | .headersEnd httpCode location cancels =>
    { run with
      handle := receivedRedirect run.handle httpCode location cancels }
  | .cancel => { run with handle := { run.handle with cancelled := true } }
  | .clientGone => { run with handle := { run.handle with hasClient := false } }

/-- A new handle for a host.  `m_sslShouldAccept` is not initialized. -/
def start (host : StdString) (sslShouldAccept : Bool) : SslRun where
  handle :=
    { cancelled := false
      hasClient := true
      host
      sslVerificationComplete := false
      sslShouldAccept
      verifyPeer := true }
  acceptedFor := []
  trusted := []

/-- A failing certificate is accepted only from hosts for which the client
accepted one. -/
def ExceptionsPerHost (run : SslRun) : Prop := ∀ host ∈ run.trusted, host ∈ run.acceptedFor

end SslRun

/-- The callback answers from an earlier acceptance. -/
def Reuses (handle : SslHandle) (presented : Presentation) : Prop :=
  handle.cancelled = false ∧ handle.hasClient = true ∧
    handle.sslVerificationComplete = true ∧ handle.sslShouldAccept = true ∧
      presented.sslErr ≠ .certRevoked

section Callback

variable
  {settings : SslSettings} {handle : SslHandle} {presented : Presentation}

theorem not_tolerated_of_fails {host : StdString} (fails : presented.fails settings host = true) :
    presented.sslErr ≠ .unableToGetCrl ∧ presented.sslErr ≠ .crlHasExpired := by
  simp only [Presentation.fails, Bool.and_eq_true, decide_eq_true_eq] at fails
  exact fails.1

variable (fails : presented.fails settings handle.host = true)
include fails

/-- A reused answer accepts a failing certificate without a question. -/
theorem callback_of_reuses (reuses : Reuses handle presented) :
    (sslVerificationCallback settings handle presented).1 = certAccepted := by
  obtain ⟨notCancelled, hasClient, complete, shouldAccept, notRevoked⟩ := reuses
  obtain ⟨crlFound, crlCurrent⟩ := not_tolerated_of_fails fails
  simp [sslVerificationCallback, notCancelled, hasClient, complete,
    shouldAccept, notRevoked, crlFound, crlCurrent]

/-- Without a reused answer a failing certificate is refused or looked at. -/
theorem callback_of_not_reuses (fresh : ¬Reuses handle presented) :
    (sslVerificationCallback settings handle presented).1.certOk = false ∨
      sslVerificationCallback settings handle presented =
        examineCertificate settings handle presented := by
  obtain ⟨crlFound, crlCurrent⟩ := not_tolerated_of_fails fails
  unfold sslVerificationCallback
  split_ifs with cancelled noClient revoked complete shouldAccept
  · exact .inl rfl
  · exact .inl rfl
  · exact .inl rfl
  · exact absurd ⟨by simpa using cancelled, by simpa using noClient, complete,
      shouldAccept, revoked⟩ fresh
  · exact .inl rfl
  · exact .inr rfl

/-- A failing certificate that is looked at is accepted only by the client. -/
theorem acceptedAnswer_of_examined
    (isOk : (examineCertificate settings handle presented).1.certOk = true) : SslRun.acceptedAnswer
      (examineCertificate settings handle presented).1 = true := by
  unfold examineCertificate at isOk ⊢
  cases isCert : presented.cert with
  | none =>
    rw [isCert] at isOk
    cases isOk
  | some cert =>
    have notMatched : (!presented.isPreverifiedOk ||
        !isCertValidForUrl settings.sslStrictNameChecking cert
          handle.host) = true := by
      simp only [Presentation.fails, isCert, Option.any_some, Bool.and_eq_true] at fails
      rw [← Bool.not_and]
      exact fails.2
    simp only [isCert, notMatched, if_true] at isOk ⊢
    split_ifs at isOk ⊢ with closed rejected
    · cases isOk
    · cases isOk
    · simpa [SslRun.acceptedAnswer] using rejected

end Callback

namespace SslRun

/-- An answer is reused for a failing certificate only at a host for which the
client accepted one. -/
def ReusesForSameHost (settings : SslSettings) (run : SslRun) : SslEvent → Prop
  | .verify presented =>
    Reuses run.handle presented → presented.fails settings run.handle.host = true →
        run.handle.host ∈ run.acceptedFor
  | _ => True

/-- From a state with exceptions for accepted hosts only, an event keeps it so
exactly when it reuses no answer for another host. -/
theorem exceptionsPerHost_step_iff {settings : SslSettings} {run : SslRun}
    (perHost : run.ExceptionsPerHost) (event : SslEvent) :
    (run.step settings event).ExceptionsPerHost ↔
      run.ReusesForSameHost settings event := by
  cases event with
  | headersEnd httpCode location cancels | cancel | clientGone => exact iff_of_true perHost trivial
  | verify presented =>
    have keptHost : ∀ host ∈ run.trusted, host ∈ run.handle.host :: run.acceptedFor :=
      fun host member => .tail _ (perHost host member)
    simp only [ExceptionsPerHost, step, ReusesForSameHost]
    cases fails : presented.fails settings run.handle.host with
    | false =>
      simp only [Bool.and_false, Bool.false_eq_true, if_false,
        IsEmpty.forall_iff, implies_true, iff_true]
      intro host member
      split_ifs
      · exact keptHost host member
      · exact perHost host member
    | true =>
      simp only [Bool.and_true, forall_const]
      by_cases reuses : Reuses run.handle presented
      · rw [callback_of_reuses fails reuses]
        simp only [certAccepted, acceptedAnswer, Option.any_none,
          Bool.false_eq_true, if_false, if_true, reuses, forall_const]
        rw [List.forall_mem_cons]
        exact and_iff_left perHost
      · simp only [reuses, IsEmpty.forall_iff, iff_true]
        intro host member
        split_ifs at member with isOk
        · have accepted : acceptedAnswer (sslVerificationCallback settings
              run.handle presented).1 = true := by
            rcases callback_of_not_reuses fails reuses with
              refused | examined
            · rw [refused] at isOk
              cases isOk
            · rw [examined] at isOk ⊢
              exact acceptedAnswer_of_examined fails isOk
          rw [if_pos accepted]
          rcases List.mem_cons.1 member with rfl | old
          · exact .head _
          · exact keptHost host old
        · split_ifs
          · exact keptHost host member
          · exact perHost host member

/-- In a run of a handle failing certificates are accepted only from hosts for
which the client accepted one exactly when no event reuses an answer for
another host. -/
theorem exceptionsPerHost_run_iff (settings : SslSettings) (host : StdString)
    (sslShouldAccept : Bool) (events : List SslEvent) : (∀ reached ∈
        Runs.visited (step settings) (start host sslShouldAccept) events,
      reached.ExceptionsPerHost) ↔
      Runs.StepsMeet (step settings) (ReusesForSameHost settings)
        (start host sslShouldAccept) events :=
  Runs.visited_iff_stepsMeet
    (fun _ _ (_ : True) => trivial)
    (fun _ event _ perHost => exceptionsPerHost_step_iff perHost event)
    events trivial (by simp [ExceptionsPerHost, start])

/-- A self-signed certificate without names. -/
def selfSigned (decision : Int) : Presentation where
  isPreverifiedOk := false
  sslErr := .other 18
  cert := some { commonNames := [], altNames := [] }
  fileOpens := true
  client := fun _ => { decision, cancels := false }

/-- The user accepts the certificate of `a.org`, which redirects to `b.org`:
a failing certificate of `b.org` that the user would reject is accepted. -/
theorem accepted_after_redirect :
    ¬∀ (settings : SslSettings) (host : StdString) (sslShouldAccept : Bool)
      (events : List SslEvent),
      ∀ reached ∈
          Runs.visited (step settings) (start host sslShouldAccept) events,
        reached.ExceptionsPerHost := by
  intro perHost
  have reached := perHost ⟨false, []⟩ (bytes "a.org") false
    [.verify (selfSigned 2), .headersEnd 302 (some (bytes "b.org")) false,
      .verify (selfSigned acceptDecisionReject)]
    _ (Runs.final_mem_visited _ _)
  exact absurd (reached (bytes "b.org") (by decide)) (by decide)

end SslRun

end Network
end PalmWebKit
