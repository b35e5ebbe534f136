import PalmWebKit.Network.AuthChallenge
import PalmWebKit.Network.CredentialsCache

/-!
# The authentication handler

Every curl handle has an `AuthenticationHandler`, which answers the 401
responses to its request.  The three schemes read their challenges differently
and then go the same way: forget the entry that was tried, look for another
entry of the realm, fall back on a user name and password at hand or ask the
client, and replace the `Authorization` header among the custom headers.
-/

namespace PalmWebKit
namespace Network

open StdString WString AuthChallenge

inductive NtlmState
  | none
  | type1
  | type3
  deriving DecidableEq, Repr

/-- The members of `ProtectionSpaceServerType` that the handler names. -/
inductive ServerType
  | http
  | https
  deriving DecidableEq, Repr

/-- What the client is shown of a challenge. -/
structure ProtectionSpace where
  host : WString
  port : Nat
  serverType : ServerType
  realm : WString
  authenticationScheme : AuthenticationScheme
  deriving DecidableEq, Repr

/-- What the client does about a challenge. -/
inductive UserReply
  /-- `receivedCredential` -/
  | credential (user password : WString)
  /-- `receivedCancellation` -/
  | cancellation
  deriving DecidableEq, Repr

/-- A client is what it replies before `didReceiveAuthenticationChallenge`
returns, if it does. -/
abbrev AuthClient := ProtectionSpace → Option UserReply

/-- A header of the list `m_customHeaders`.  A generated one is kept as the
entry it was generated from, its text depends on nothing else that the handler
looks at. -/
inductive CustomHeader
  /-- A header of the request itself. -/
  | line (text : StdString)
  /-- `genBasicResponse` -/
  | basicResponse (entry : CredentialEntry)
  /-- `genDigestResponse` -/
  | digestResponse (entry : CredentialEntry)
  /-- `genNtlmResponse` in the state `NtlmStateType1` -/
  | ntlmNegotiate
  /-- `genNtlmResponse` in the state `NtlmStateType3` -/
  | ntlmResponse (entry : CredentialEntry)
  deriving DecidableEq, Repr

/-- `strncasecmp` with `Authorization`; all generated headers begin so. -/
def CustomHeader.isAuthorization : CustomHeader → Bool
  | .line text => hasKeyword (bytes "Authorization") text
  | .basicResponse _ => true
  | .digestResponse _ => true
  | .ntlmNegotiate => true
  | .ntlmResponse _ => true

/-- A user name and password as sent for a scheme and realm. -/
structure SentCredentials where
  scheme : AuthenticationScheme
  realm : WString
  user : WString
  password : WString
  deriving DecidableEq, Repr

namespace SentCredentials

/-- The credentials of an entry sent with a scheme. -/
def ofEntry (scheme : AuthenticationScheme) (entry : CredentialEntry) : SentCredentials :=
  ⟨scheme, entry.realm, entry.user, entry.password⟩

end SentCredentials

/-- The user name and password that a header carries. -/
def CustomHeader.credentials : CustomHeader → Option SentCredentials
  | .line _ => none
  | .basicResponse entry => some (.ofEntry .basic entry)
  | .digestResponse entry => some (.ofEntry .digest entry)
  | .ntlmNegotiate => none
  | .ntlmResponse entry => some (.ofEntry .ntlm entry)

def carried (headers : List CustomHeader) : List SentCredentials :=
  headers.filterMap CustomHeader.credentials

/-- A challenge that was read and wants a user name and password. -/
inductive Demand
  | basic (realm : StdString)
  | digest (realm nonce algorithm qop opaqueValue : StdString)
  | ntlm (flags : UInt32) (nonce : StdString)
  deriving DecidableEq, Repr

/-- The members of the handler. -/
structure AuthenticationHandler where
  cancelled : Bool := false
  realmBasedAuthHeaderAdded : Bool := false
  pathBasedAuthHeaderAdded : Bool := false
  authHeaderAdded : Bool := false
  user : WString := []
  password : WString := []
  ntlmState : NtlmState := .none
  deriving DecidableEq, Repr

/-- What the handler is given and does not change. -/
structure AuthContext where
  /-- `CURLINFO_EFFECTIVE_URL` -/
  url : KURL
  runningInBrowserServer : Bool
  /-- The buffer that `base64Decode` leaves, also when it fails. -/
  base64Decode : StdString → StdString

/-- What the handler changes. -/
structure AuthTransfer where
  handler : AuthenticationHandler
  cache : CredentialsCache
  customHeaders : List CustomHeader
  /-- The challenges that the client was shown. -/
  shown : List ProtectionSpace

namespace Demand

def scheme : Demand → AuthenticationScheme
  | .basic _ => .basic
  | .digest .. => .digest
  | .ntlm .. => .ntlm

/-- The realm of a challenge; NTLM has the host for it. -/
def realm (url : KURL) : Demand → WString
  | .basic realm => ofLatin1 realm
  | .digest realm .. => ofLatin1 realm
  | .ntlm .. => url.host

/-- The realm that the cache is searched for. -/
def cachedRealm (url : KURL) : Demand → WString
  | .basic realm => ofLatin1 realm
  | .digest realm .. => ofLatin1 realm
  | .ntlm .. => ofLatin1 (ofCString (latin1 url.host))

/-- The user name and password at hand are used without asking.  Only Basic
looks whether a header was tried already. -/
def usesOwn (handler : AuthenticationHandler) : Demand → Bool
  | .basic _ =>
    let retrying := handler.realmBasedAuthHeaderAdded || handler.pathBasedAuthHeaderAdded
    !handler.user.isEmpty && !retrying
  | .digest .. => !handler.user.isEmpty
  | .ntlm .. => !handler.user.isEmpty

/-- What is set in an entry from the cache before it is sent. -/
def renew (entry : CredentialEntry) : Demand → CredentialEntry
  | .basic _ => entry
  | .digest .. => entry
  | .ntlm flags nonce => { entry with ntlmFlags := flags, ntlmNonce := nonce }

/-- The fields of the scheme in a new entry. -/
def complete (entry : CredentialEntry) : Demand → CredentialEntry
  | .basic _ => entry
  | .digest _ nonce algorithm qop opaqueValue =>
    { entry with
      digestNonce := ofLatin1 nonce
      digestAlgorithm := ofLatin1 algorithm
      digestQop := ofLatin1 qop
      digestOpaque := ofLatin1 opaqueValue }
  | .ntlm flags nonce => { entry with ntlmFlags := flags, ntlmNonce := nonce }

def respond (entry : CredentialEntry) : Demand → CustomHeader
  | .basic _ => .basicResponse entry
  | .digest .. => .digestResponse entry
  | .ntlm .. => .ntlmResponse entry

/-- What the client is shown. -/
def protectionSpace (url : KURL) (demand : Demand) : ProtectionSpace where
  host := url.host
  port := url.port
  serverType := if url.protocol = lit "https" then .https else .http
  realm := demand.realm url
  authenticationScheme := demand.scheme

end Demand

/-- `getUrlDirectory`: the path up to its last slash. -/
def urlDirectory (url : KURL) : WString :=
  if url.path = [slash] then url.path
  else
    match reverseFind url.path slash with
    | none => []
    | some 0 => [slash]
    | some position => left url.path (position + 1)

namespace AuthTransfer

def removeAuthHeader (transfer : AuthTransfer) : AuthTransfer :=
  if !transfer.handler.authHeaderAdded then transfer
  else
    { transfer with
      customHeaders := transfer.customHeaders.eraseP CustomHeader.isAuthorization
      handler :=
        { transfer.handler with
          realmBasedAuthHeaderAdded := false
          pathBasedAuthHeaderAdded := false
          authHeaderAdded := false } }

def addAuthHeader (transfer : AuthTransfer) (authHeader : CustomHeader) : AuthTransfer :=
  { transfer with
    customHeaders := transfer.customHeaders ++ [authHeader]
    handler := { transfer.handler with authHeaderAdded := true } }

/-- Replace the header and note what it was based on. -/
def sendAuthHeader (transfer : AuthTransfer) (authHeader : CustomHeader)
    (pathBased realmBased : Bool) : AuthTransfer :=
  let added := transfer.removeAuthHeader.addAuthHeader authHeader
  { added with
    handler :=
      { added.handler with
        pathBasedAuthHeaderAdded := pathBased
        realmBasedAuthHeaderAdded := realmBased } }

def receivedUserCredentials (transfer : AuthTransfer) (user password : WString) : AuthTransfer :=
  { transfer with
    handler :=
      { transfer.handler with
        cancelled := false
        user := user
        password := password } }

def receivedUserCancellation (transfer : AuthTransfer) : AuthTransfer :=
  { transfer with handler := { transfer.handler with cancelled := true } }

def receivedReply (transfer : AuthTransfer) : UserReply → AuthTransfer
  | .credential user password => transfer.receivedUserCredentials user password
  | .cancellation => transfer.receivedUserCancellation

def addCredentials (transfer : AuthTransfer) (url : KURL)
    (username password : WString) : AuthTransfer :=
  let fresh :=
    { transfer with
      handler := { transfer.handler with user := username, password := password } }
  let removed := fresh.removeAuthHeader
  match removed.cache.getForPath
      url.protocol url.host (shortPort url.port) url.path with
  | none => removed
  | some entry =>
    let send := fun authHeader =>
      let added := removed.addAuthHeader authHeader
      { added with
        handler :=
          { added.handler with
            pathBasedAuthHeaderAdded := true
            realmBasedAuthHeaderAdded := false } }
    match entry.scheme with
    | .basic => send (.basicResponse entry)
    | .digest => send (.digestResponse entry)
    | .ntlm => removed

/-- The cache without the entry that was tried already. -/
def cacheWithoutTried (transfer : AuthTransfer) (url : KURL) (realm : WString) : CredentialsCache :=
  if transfer.handler.realmBasedAuthHeaderAdded then
    transfer.cache.remove
      url.protocol url.host (shortPort url.port) [] realm
  else if transfer.handler.pathBasedAuthHeaderAdded then
    transfer.cache.remove
      url.protocol url.host (shortPort url.port) url.path []
  else
    transfer.cache

/-- Show a challenge to the client; without one the handler is cancelled. -/
def askClient (transfer : AuthTransfer) (client : Option AuthClient)
    (space : ProtectionSpace) : AuthTransfer :=
  match client with
  | none => { transfer with handler := { transfer.handler with cancelled := true } }
  | some reply =>
    let shown := { transfer with shown := transfer.shown ++ [space] }
    match reply space with
    | none => shown
    | some answer => shown.receivedReply answer

/-- The entry for the user name and password at hand. -/
def newEntry (transfer : AuthTransfer) (url : KURL) (demand : Demand) : CredentialEntry :=
  demand.complete
    { scheme := demand.scheme
      protocol := url.protocol
      host := url.host
      port := shortPort url.port
      path := urlDirectory url
      realm := demand.realm url
      user := transfer.handler.user
      password := transfer.handler.password }

/-- The end of a handler: unless it was cancelled, cache the credentials and
send them. -/
def sendNewEntry (transfer : AuthTransfer) (context : AuthContext)
    (demand : Demand) : AuthTransfer × Bool :=
  if transfer.handler.cancelled then (transfer, false)
  else
    let entry := transfer.newEntry context.url demand
    let cached :=
      if context.runningInBrowserServer then
        { transfer with cache := transfer.cache.add entry }
      else
        transfer
    (cached.sendAuthHeader (demand.respond entry) true false, true)

/-- What the handlers of the three schemes do once the challenge is read. -/
def answerDemand (transfer : AuthTransfer) (context : AuthContext) (client : Option AuthClient)
    (demand : Demand) : AuthTransfer × Bool :=
  let url := context.url
  let forgotten :=
    { transfer with
      cache := transfer.cacheWithoutTried url (demand.realm url) }
  match forgotten.cache.getForRealm
      url.protocol url.host (shortPort url.port) (demand.cachedRealm url) with
  | some entry =>
    let authHeader := demand.respond (demand.renew entry)
    (forgotten.sendAuthHeader authHeader false true, true)
  | none =>
    let ready :=
      if demand.usesOwn transfer.handler then forgotten
      else forgotten.askClient client (demand.protectionSpace url)
    ready.sendNewEntry context demand

def handleBasicChallenge (transfer : AuthTransfer) (context : AuthContext)
    (client : Option AuthClient) (str : StdString) : AuthTransfer × Bool :=
  match basicRealm str with
  | none => (transfer, false)
  | some realm => transfer.answerDemand context client (.basic realm)

def handleDigestChallenge (transfer : AuthTransfer) (context : AuthContext)
    (client : Option AuthClient) (str : StdString) : AuthTransfer × Bool :=
  let params := digestParams str
  match params.realm, params.nonce with
  | some realm, some nonce =>
    let algorithm := params.algorithm.getD (bytes "MD5")
    let qop := params.qop.getD []
    let opaqueValue := params.opaqueValue.getD []
    transfer.answerDemand context client
      (.digest realm nonce algorithm qop opaqueValue)
  | _, _ => (transfer, false)

def setNtlmState (transfer : AuthTransfer) (state : NtlmState) : AuthTransfer :=
  { transfer with handler := { transfer.handler with ntlmState := state } }

def handleNtlmChallenge (transfer : AuthTransfer) (context : AuthContext)
    (client : Option AuthClient) (str : StdString) : AuthTransfer × Bool :=
  match ntlmToken str with
  | none =>
    ((transfer.setNtlmState .type1).sendAuthHeader .ntlmNegotiate false false, true)
  | some token =>
    let negotiated := transfer.setNtlmState .type3
    match ntlmType2 (context.base64Decode token) with
    | none => (negotiated, false)
    | some (flags, nonce) => negotiated.answerDemand context client (.ntlm flags nonce)

/-- `handleChallenge` on the value of the `WWW-Authenticate` header. -/
def handleChallenge (transfer : AuthTransfer) (context : AuthContext) (client : Option AuthClient)
    (field : WString) : AuthTransfer × Bool :=
  match skipSpaces (ofCString (latin1 field)) with
  | [] => (transfer.receivedUserCancellation, false)
  | byte :: rest =>
    let (handled, success) :=
      match schemeOf (byte :: rest) with
      | .basic str => transfer.handleBasicChallenge context client str
      | .digest str => transfer.handleDigestChallenge context client str
      | .ntlm str => transfer.handleNtlmChallenge context client str
      | .unsupported => (transfer, false)
    ({ handled with handler := { handled.handler with cancelled := !success } }, success)

/-- The headers that stay when the `Authorization` header is replaced. -/
def otherHeaders (transfer : AuthTransfer) : List CustomHeader :=
  if transfer.handler.authHeaderAdded then
    transfer.customHeaders.eraseP CustomHeader.isAuthorization
  else
    transfer.customHeaders

section Headers

variable (transfer : AuthTransfer)

theorem removeAuthHeader_customHeaders :
    transfer.removeAuthHeader.customHeaders = transfer.otherHeaders := by
  unfold removeAuthHeader otherHeaders
  cases transfer.handler.authHeaderAdded <;> rfl

theorem removeAuthHeader_shown : transfer.removeAuthHeader.shown = transfer.shown := by
  unfold removeAuthHeader
  split_ifs <;> rfl

theorem otherHeaders_subset : transfer.otherHeaders ⊆ transfer.customHeaders := by
  unfold otherHeaders
  split_ifs
  · exact List.eraseP_subset
  · exact List.Subset.refl _

variable
  (authHeader : CustomHeader)
  (pathBased realmBased : Bool)

@[simp] theorem sendAuthHeader_customHeaders :
    (transfer.sendAuthHeader authHeader pathBased realmBased).customHeaders =
      transfer.otherHeaders ++ [authHeader] := by
  rw [← removeAuthHeader_customHeaders]
  rfl

@[simp] theorem sendAuthHeader_shown :
    (transfer.sendAuthHeader authHeader pathBased realmBased).shown = transfer.shown :=
  transfer.removeAuthHeader_shown

theorem receivedReply_customHeaders (reply : UserReply) :
    (transfer.receivedReply reply).customHeaders = transfer.customHeaders := by
  cases reply <;> rfl

theorem receivedReply_shown (reply : UserReply) :
    (transfer.receivedReply reply).shown = transfer.shown := by
  cases reply <;> rfl

end Headers

end AuthTransfer

/-- What the handlers make of the text of a challenge. -/
inductive Reading
  /-- Empty, of another scheme, incomplete or corrupt. -/
  | unread
  /-- An NTLM challenge without a message. -/
  | negotiate
  | demand (demand : Demand)
  deriving DecidableEq, Repr

/-- How the value of a `WWW-Authenticate` header is read. -/
def reading (context : AuthContext) (field : WString) : Reading :=
  match skipSpaces (ofCString (latin1 field)) with
  | [] => .unread
  | byte :: rest =>
    match schemeOf (byte :: rest) with
    | .basic str =>
      match basicRealm str with
      | none => .unread
      | some realm => .demand (.basic realm)
    | .digest str =>
      let params := digestParams str
      match params.realm, params.nonce with
      | some realm, some nonce =>
        .demand (.digest realm nonce
          (params.algorithm.getD (bytes "MD5"))
          (params.qop.getD []) (params.opaqueValue.getD []))
      | _, _ => .unread
    | .ntlm str =>
      match ntlmToken str with
      | none => .negotiate
      | some token =>
        match ntlmType2 (context.base64Decode token) with
        | none => .unread
        | some (flags, nonce) => .demand (.ntlm flags nonce)
    | .unsupported => .unread

/-- What a 401 response leads to, as far as the next request is concerned. -/
inductive Decision
  /-- The headers stay as they are. -/
  | keeps (cancelled : Bool)
  /-- An NTLM negotiation replaces the `Authorization` header. -/
  | negotiates
  /-- An entry is sent without asking. -/
  | sends (credentials : SentCredentials)
  /-- The client is asked. -/
  | asks
  deriving DecidableEq, Repr

/-- What a demand leads to when there is a client. -/
def decideDemand (transfer : AuthTransfer) (context : AuthContext) (demand : Demand) : Decision :=
  let url := context.url
  let remaining := transfer.cacheWithoutTried url (demand.realm url)
  match remaining.getForRealm
      url.protocol url.host (shortPort url.port) (demand.cachedRealm url) with
  | some entry => .sends (.ofEntry demand.scheme entry)
  | none =>
    if demand.usesOwn transfer.handler then
      if transfer.handler.cancelled then .keeps true
      else
        .sends ⟨demand.scheme, demand.realm url, transfer.handler.user, transfer.handler.password⟩
    else
      .asks

/-- What the handler decides on a 401 response to a job with a client. -/
def decideField (transfer : AuthTransfer) (context : AuthContext) (field : WString) : Decision :=
  match reading context field with
  | .unread => .keeps true
  | .negotiate => .negotiates
  | .demand demand => decideDemand transfer context demand

/-- The handler's state after a decision. -/
def Decision.Follows (before after : AuthTransfer) : Decision → Prop
  | .keeps cancelled =>
    after.customHeaders = before.customHeaders ∧ after.shown.length = before.shown.length ∧
        after.handler.cancelled = cancelled
  | .negotiates =>
    after.customHeaders = before.otherHeaders ++ [.ntlmNegotiate] ∧
      after.shown.length = before.shown.length ∧ after.handler.cancelled = false
  | .sends credentials =>
    (∃ authHeader : CustomHeader, authHeader.credentials = some credentials ∧
        after.customHeaders = before.otherHeaders ++ [authHeader]) ∧
      after.shown.length = before.shown.length ∧ after.handler.cancelled = false
  | .asks => after.shown.length = before.shown.length + 1

section Decisions

variable
  {transfer : AuthTransfer}
  {context : AuthContext}
  {client : AuthClient}

variable (demand : Demand)

theorem Demand.credentials_respond (entry : CredentialEntry) : (demand.respond entry).credentials =
      some (.ofEntry demand.scheme entry) := by
  cases demand <;> rfl

theorem Demand.ofEntry_renew (scheme : AuthenticationScheme)
    (entry : CredentialEntry) : SentCredentials.ofEntry scheme (demand.renew entry) =
      .ofEntry scheme entry := by
  cases demand <;> rfl

theorem Demand.ofEntry_complete (scheme : AuthenticationScheme)
    (entry : CredentialEntry) : SentCredentials.ofEntry scheme (demand.complete entry) =
      .ofEntry scheme entry := by
  cases demand <;> rfl

/-- `handleChallenge` sets the flag from the success of the handler. -/
def withSuccess (handled : AuthTransfer × Bool) : AuthTransfer :=
  { handled.1 with
    handler := { handled.1.handler with cancelled := !handled.2 } }

theorem length_shown_askClient (space : ProtectionSpace) :
    (transfer.askClient (some client) space).shown.length =
      transfer.shown.length + 1 := by
  unfold AuthTransfer.askClient
  dsimp only
  split
  · simp
  · rw [AuthTransfer.receivedReply_shown]
    simp

/-- The end of a handler keeps what the client was shown. -/
theorem shown_sendNewEntry : (transfer.sendNewEntry context demand).1.shown = transfer.shown := by
  unfold AuthTransfer.sendNewEntry
  split_ifs <;> simp

/-- A handler that is not cancelled sends the user name and password at
hand. -/
theorem sendNewEntry_of_not_cancelled (demand : Demand)
    (going : transfer.handler.cancelled = false) : ∃ authHeader : CustomHeader,
      authHeader.credentials = some ⟨demand.scheme, demand.realm context.url,
          transfer.handler.user, transfer.handler.password⟩ ∧
        (transfer.sendNewEntry context demand).1.customHeaders =
          transfer.otherHeaders ++ [authHeader] ∧
        (transfer.sendNewEntry context demand).2 = true := by
  refine ⟨demand.respond (transfer.newEntry context.url demand), ?_, ?_, ?_⟩
  · rw [demand.credentials_respond, AuthTransfer.newEntry, demand.ofEntry_complete]
    rfl
  · simp only [AuthTransfer.sendNewEntry, going, Bool.false_eq_true, if_false,
      AuthTransfer.sendAuthHeader_customHeaders]
    split_ifs <;> rfl
  · simp [AuthTransfer.sendNewEntry, going]

theorem follows_answerDemand (demand : Demand) :
    (decideDemand transfer context demand).Follows transfer
      (withSuccess (transfer.answerDemand context (some client) demand)) := by
  unfold decideDemand AuthTransfer.answerDemand
  dsimp only
  split
  case h_1 entry found =>
    refine ⟨⟨_, ?_, AuthTransfer.sendAuthHeader_customHeaders _ _ false true⟩, ?_, rfl⟩
    · rw [demand.credentials_respond, demand.ofEntry_renew]
    · rw [withSuccess, AuthTransfer.sendAuthHeader_shown]
  case h_2 =>
    by_cases own : demand.usesOwn transfer.handler = true
    · rw [if_pos own, if_pos own]
      by_cases cancelled : transfer.handler.cancelled = true
      · rw [if_pos cancelled, AuthTransfer.sendNewEntry, if_pos cancelled]
        exact ⟨rfl, rfl, rfl⟩
      · rw [if_neg cancelled]
        rw [Bool.not_eq_true] at cancelled
        obtain ⟨authHeader, carries, headers, success⟩ :=
          @sendNewEntry_of_not_cancelled
            { transfer with
              cache := transfer.cacheWithoutTried context.url
                (demand.realm context.url) } context demand cancelled
        refine ⟨⟨authHeader, carries, headers⟩, ?_, ?_⟩
        · exact congrArg List.length (shown_sendNewEntry demand)
        · simp only [withSuccess, success, Bool.not_true]
    · rw [if_neg own, if_neg own, Decision.Follows, withSuccess]
      rw [shown_sendNewEntry, length_shown_askClient]

/-- What the handler does with a 401 response is what it decides. -/
theorem follows_handleChallenge (field : WString) :
    (decideField transfer context field).Follows transfer
      (transfer.handleChallenge context (some client) field).1 := by
  unfold decideField reading AuthTransfer.handleChallenge
  cases skipSpaces (ofCString (latin1 field)) with
  | nil => exact ⟨rfl, rfl, rfl⟩
  | cons byte rest =>
    dsimp only
    cases schemeOf (byte :: rest) with
    | unsupported => exact ⟨rfl, rfl, rfl⟩
    | basic str =>
      dsimp only [AuthTransfer.handleBasicChallenge]
      cases basicRealm str with
      | none => exact ⟨rfl, rfl, rfl⟩
      | some realm => exact follows_answerDemand _
    | digest str =>
      dsimp only [AuthTransfer.handleDigestChallenge]
      cases (digestParams str).realm with
      | none => exact ⟨rfl, rfl, rfl⟩
      | some realm =>
        cases (digestParams str).nonce with
        | none => exact ⟨rfl, rfl, rfl⟩
        | some nonce => exact follows_answerDemand _
    | ntlm str =>
      dsimp only [AuthTransfer.handleNtlmChallenge]
      cases ntlmToken str with
      | none =>
        refine ⟨AuthTransfer.sendAuthHeader_customHeaders _ _ false false, ?_, rfl⟩
        rw [AuthTransfer.sendAuthHeader_shown]
        rfl
      | some token =>
        dsimp only
        cases ntlmType2 (context.base64Decode token) with
        | none => exact ⟨rfl, rfl, rfl⟩
        | some message =>
          have follows := @follows_answerDemand
            (transfer.setNtlmState .type3) context client
            (.ntlm message.1 message.2)
          exact follows

end Decisions

end Network
end PalmWebKit
