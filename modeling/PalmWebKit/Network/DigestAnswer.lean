import PalmWebKit.Network.DigestResponse

/-!
# The answer to a Digest challenge

The header that `handleDigestChallenge` adds is generated from an entry: the
first one in the cache with the realm of the challenge, as it was stored, or a
new one with the parameters that were read.  An algorithm or a quality of
protection that was not recognised has been replaced by then.
-/

namespace PalmWebKit
namespace Network
namespace Digest

open StdString WString AuthChallenge

/-! ## The parameters of a challenge as they stand -/

/-- A turn of the loop of `handleDigestChallenge` that keeps the algorithm and
the quality of protection as they stand. -/
def statedParam (params : DigestParams) (str : StdString) : Option (DigestParams × StdString) :=
  (digestParam params str).map fun (collected, later) =>
    let text := str.dropWhile fun byte => AuthChallenge.isASCIISpace byte || byte == comma
    if hasKeyword (StdString.bytes "algorithm=") text then
      ({ params with algorithm := some (unquoted (text.drop 10)).1 }, later)
    else if hasKeyword (StdString.bytes "qop=\"") text then
      ({ params with qop := some (quoted (text.drop 5)).1 }, later)
    else (collected, later)

def statedParamsFrom : Nat → DigestParams → StdString → DigestParams
  | 0, params, _ => params
  | turns + 1, params, str =>
    match statedParam params str with
    | none => params
    | some (collected, later) => statedParamsFrom turns collected later

def statedParams (str : StdString) : DigestParams := statedParamsFrom (str.length + 1) {} str

/-- What the handler makes of the parameters. -/
def recognised (params : DigestParams) : DigestParams :=
  { params with
    algorithm := params.algorithm.map knownAlgorithm
    qop := params.qop.bind knownQop }

/-- A keyword is at the front of a text only if its first byte is. -/
theorem head_of_hasKeyword {first : UInt8} {keyword text : StdString}
    (has : hasKeyword (first :: keyword) text = true) :
    text.head?.map toLowerByte = some (toLowerByte first) := by
  cases text with
  | nil => cases beq_iff_eq.1 has
  | cons byte text =>
    have heads := congrArg List.head? (beq_iff_eq.1 has)
    exact heads

/-- Texts do not begin with two keywords. -/
theorem not_hasKeyword {first second : UInt8} {keyword other text : StdString}
    (has : hasKeyword (first :: keyword) text = true)
    (differs : toLowerByte first ≠ toLowerByte second) :
    ¬hasKeyword (second :: other) text = true := by
  intro hasOther
  exact differs (Option.some_inj.1
    ((head_of_hasKeyword has).symm.trans (head_of_hasKeyword hasOther)))

theorem not_algorithm_not_qop {first : UInt8} {keyword text : StdString}
    (has : hasKeyword (first :: keyword) text = true) (notA : toLowerByte first ≠ toLowerByte 97)
    (notQ : toLowerByte first ≠ toLowerByte 113) :
    ¬hasKeyword (StdString.bytes "algorithm=") text = true ∧
      ¬hasKeyword (StdString.bytes "qop=\"") text = true :=
  ⟨not_hasKeyword has notA, not_hasKeyword has notQ⟩

/-- A turn reads what the handler reads, before it is recognised. -/
theorem digestParam_recognised (params : DigestParams) (str : StdString) :
    digestParam (recognised params) str =
      (statedParam params str).map fun (collected, later) => (recognised collected, later) := by
  unfold statedParam digestParam
  cases str.dropWhile fun byte => AuthChallenge.isASCIISpace byte || byte == comma with
  | nil => rfl
  | cons byte rest =>
    by_cases isRealm : hasKeyword (StdString.bytes "realm=\"") (byte :: rest) = true
    · obtain ⟨notAlgorithm, notQop⟩ := not_algorithm_not_qop isRealm (by decide) (by decide)
      simp only [if_pos isRealm, if_neg notAlgorithm, if_neg notQop, Option.map_some]
      rfl
    by_cases isDomain : hasKeyword (StdString.bytes "domain=\"") (byte :: rest) = true
    · obtain ⟨notAlgorithm, notQop⟩ := not_algorithm_not_qop isDomain (by decide) (by decide)
      simp only [if_neg isRealm, if_pos isDomain, if_neg notAlgorithm, if_neg notQop,
        Option.map_some]
      rfl
    by_cases isNonce : hasKeyword (StdString.bytes "nonce=\"") (byte :: rest) = true
    · obtain ⟨notAlgorithm, notQop⟩ := not_algorithm_not_qop isNonce (by decide) (by decide)
      simp only [if_neg isRealm, if_neg isDomain, if_pos isNonce, if_neg notAlgorithm,
        if_neg notQop, Option.map_some]
      rfl
    by_cases isOpaque : hasKeyword (StdString.bytes "opaque=\"") (byte :: rest) = true
    · obtain ⟨notAlgorithm, notQop⟩ := not_algorithm_not_qop isOpaque (by decide) (by decide)
      simp only [if_neg isRealm, if_neg isDomain, if_neg isNonce, if_pos isOpaque,
        if_neg notAlgorithm, if_neg notQop, Option.map_some]
      rfl
    by_cases isStale : hasKeyword (StdString.bytes "stale=") (byte :: rest) = true
    · obtain ⟨notAlgorithm, notQop⟩ := not_algorithm_not_qop isStale (by decide) (by decide)
      simp only [if_neg isRealm, if_neg isDomain, if_neg isNonce, if_neg isOpaque,
        if_pos isStale, if_neg notAlgorithm, if_neg notQop, Option.map_some]
      rfl
    simp only [if_neg isRealm, if_neg isDomain, if_neg isNonce, if_neg isOpaque, if_neg isStale]
    by_cases isAlgorithm : hasKeyword (StdString.bytes "algorithm=") (byte :: rest) = true
    · simp only [if_pos isAlgorithm, Option.map_some]
      rfl
    by_cases isQop : hasKeyword (StdString.bytes "qop=\"") (byte :: rest) = true
    · simp only [if_neg isAlgorithm, if_pos isQop, Option.map_some]
      rfl
    simp only [if_neg isAlgorithm, if_neg isQop]
    cases skipWord (byte :: rest) with
    | nil | cons => rfl

theorem digestParamsFrom_recognised (turns : Nat) (params : DigestParams) (str : StdString) :
    digestParamsFrom turns (recognised params) str =
      recognised (statedParamsFrom turns params str) := by
  induction turns generalizing params str with
  | zero => rfl
  | succ turns ih =>
    rw [digestParamsFrom, statedParamsFrom, digestParam_recognised]
    cases statedParam params str with
    | none => rfl
    | some result => exact ih result.1 result.2

/-- The handler works with the recognised parameters. -/
theorem digestParams_eq (str : StdString) :
    digestParams str = recognised (statedParams str) := digestParamsFrom_recognised _ {} str

/-! ## The entry that is sent -/

section Sent

variable
  (transfer : AuthTransfer) (context : AuthContext) (client : Option AuthClient)

/-- The challenge as the handler takes it up. -/
def demandOf (params : DigestParams) : Option Demand :=
  match params.realm, params.nonce with
  | some realm, some nonce =>
    some (.digest realm nonce (((params.algorithm.map knownAlgorithm).getD
      (StdString.bytes "MD5"))) ((params.qop.bind knownQop).getD [])
      (params.opaqueValue.getD []))
  | _, _ => none

/-- The first entry of the realm that is left in the cache. -/
def cachedEntry (demand : Demand) : Option CredentialEntry :=
  (transfer.cacheWithoutTried context.url (demand.realm context.url)).getForRealm
    context.url.protocol context.url.host (shortPort context.url.port)
    (demand.cachedRealm context.url)

/-- The handler with a user name and password, or cancelled. -/
def prepared (demand : Demand) : AuthTransfer :=
  let forgotten :=
    { transfer with
      cache := transfer.cacheWithoutTried context.url (demand.realm context.url) }
  if demand.usesOwn transfer.handler then forgotten
  else forgotten.askClient client (demand.protectionSpace context.url)

/-- The entry that the header is generated from. -/
def sentEntry (params : DigestParams) : Option CredentialEntry := do
  let demand ← demandOf params
  match cachedEntry transfer context demand with
  | some entry => some entry
  | none =>
    if (prepared transfer context client demand).handler.cancelled then none
    else some ((prepared transfer context client demand).newEntry context.url demand)

/-- The handler added the header of an entry, behind all others. -/
def Sends (str : StdString) (entry : CredentialEntry) : Prop :=
  (transfer.handleDigestChallenge context client str).2 = true ∧
    (transfer.handleDigestChallenge context client str).1.customHeaders.getLast? =
      some (.digestResponse entry)

theorem getLast?_sendAuthHeader (sender : AuthTransfer) (entry : CredentialEntry)
    (path realm : Bool) :
    (sender.sendAuthHeader (.digestResponse entry) path realm).customHeaders.getLast? =
      some (.digestResponse entry) := by
  rw [AuthTransfer.sendAuthHeader_customHeaders, List.getLast?_append]
  rfl

theorem sends_answerDemand (realm nonce algorithm qop opaqueValue : StdString)
    (entry : CredentialEntry) :
    let demand : Demand := .digest realm nonce algorithm qop opaqueValue
    ((transfer.answerDemand context client demand).2 = true ∧
        (transfer.answerDemand context client demand).1.customHeaders.getLast? =
          some (.digestResponse entry)) ↔
      (match cachedEntry transfer context demand with
        | some cached => some cached
        | none =>
          if (prepared transfer context client demand).handler.cancelled then none
          else some ((prepared transfer context client demand).newEntry context.url demand)) =
        some entry := by
  intro demand
  unfold AuthTransfer.answerDemand cachedEntry
  dsimp only
  cases (transfer.cacheWithoutTried context.url (demand.realm context.url)).getForRealm
      context.url.protocol context.url.host (shortPort context.url.port)
      (demand.cachedRealm context.url) with
  | some cached =>
    dsimp only [demand, Demand.respond, Demand.renew]
    rw [getLast?_sendAuthHeader, Option.some_inj, Option.some_inj]
    exact ⟨fun sent => CustomHeader.digestResponse.inj sent.2, fun same => ⟨rfl, by rw [same]⟩⟩
  | none =>
    change ((prepared transfer context client demand).sendNewEntry context demand).2 = true ∧
      ((prepared transfer context client demand).sendNewEntry context
        demand).1.customHeaders.getLast? = _ ↔ _
    unfold AuthTransfer.sendNewEntry
    by_cases cancelled : (prepared transfer context client demand).handler.cancelled = true
    · rw [if_pos cancelled]
      rw [if_pos cancelled]
      exact ⟨fun sent => absurd sent.1 Bool.false_ne_true, nofun⟩
    · rw [if_neg cancelled]
      dsimp only [Demand.respond]
      rw [if_neg cancelled, getLast?_sendAuthHeader, Option.some_inj, Option.some_inj]
      exact ⟨fun sent => CustomHeader.digestResponse.inj sent.2,
        fun same => ⟨rfl, by rw [same]⟩⟩

theorem sends_iff (str : StdString) (entry : CredentialEntry) :
    Sends transfer context client str entry ↔
      sentEntry transfer context client (statedParams str) = some entry := by
  rw [Sends, AuthTransfer.handleDigestChallenge, digestParams_eq, sentEntry, demandOf, recognised]
  cases (statedParams str).realm with
  | none => exact ⟨fun sent => absurd sent.1 Bool.false_ne_true, nofun⟩
  | some realm =>
    cases (statedParams str).nonce with
    | none => exact ⟨fun sent => absurd sent.1 Bool.false_ne_true, nofun⟩
    | some nonce => exact sends_answerDemand transfer context client _ _ _ _ _ entry

end Sent

/-! ## What the answer should carry -/

/-- The qualities of protection that a challenge offers. -/
def alternatives (qop : StdString) : List StdString :=
  ((qop.splitOn comma).map fun text =>
    ((skipSpaces text).reverse.dropWhile AuthChallenge.isASCIISpace).reverse).filter (!·.isEmpty)

/-- One of the offered qualities of protection, or none if there are none. -/
def OffersQop (qop : StdString) (chosen : WString) : Prop :=
  if alternatives qop = [] then chosen = []
  else chosen ∈ (alternatives qop).map ofLatin1

/-- The algorithm of a challenge, in whatever case. -/
def NamesAlgorithm (algorithm : Option StdString) (named : WString) : Prop :=
  ∃ value, named = ofLatin1 value ∧
    equalIgnoringCase value (algorithm.getD (StdString.bytes "MD5")) = true

/-- The header generated from an entry carries the parameters of the
challenge, and the response that RFC 2617 defines. -/
structure Answers (request : Request) (url : KURL) (params : DigestParams)
    (entry : CredentialEntry) : Prop where
  realm : (digestAuthorization request url entry).realm = ofLatin1 (params.realm.getD [])
  nonce : (digestAuthorization request url entry).nonce = ofLatin1 (params.nonce.getD [])
  opaqueValue : (digestAuthorization request url entry).opaqueValue =
    ofLatin1 (params.opaqueValue.getD [])
  algorithm : NamesAlgorithm params.algorithm (digestAuthorization request url entry).algorithm
  qop : OffersQop (params.qop.getD []) (digestAuthorization request url entry).qop
  response : rfcResponse request (digestAuthorization request url entry) entry.password =
    some (digestAuthorization request url entry).response

/-- The header that is added for a challenge, if one is, answers it. -/
def DigestAnswered (request : Request) (transfer : AuthTransfer) (context : AuthContext)
    (client : Option AuthClient) (str : StdString) : Prop :=
  ∀ entry, Sends transfer context client str entry →
    Answers request context.url (statedParams str) entry

/-! ## When it does -/

/-- A stored entry has the parameters of the challenge, and the hash is plain
MD5 without one of the body. -/
structure Fits (params : DigestParams) (entry : CredentialEntry) : Prop where
  nonce : entry.digestNonce = ofLatin1 (params.nonce.getD [])
  opaqueValue : entry.digestOpaque = ofLatin1 (params.opaqueValue.getD [])
  algorithm : NamesAlgorithm params.algorithm entry.digestAlgorithm
  qop : OffersQop (params.qop.getD []) entry.digestQop
  md5 : equalIgnoringCase (cString entry.digestAlgorithm) (StdString.bytes "md5") = true
  auth : (cString entry.digestQop).isEmpty = true ∨
    equalIgnoringCase (cString entry.digestQop) (StdString.bytes "auth") = true

/-- The challenge asks for MD5, and for `auth` alone or for nothing. -/
def Plain (params : DigestParams) : Prop :=
  equalIgnoringCase (params.algorithm.getD (StdString.bytes "MD5")) (StdString.bytes "md5") = true ∧
    (params.qop = some (StdString.bytes "auth") ∨ alternatives (params.qop.getD []) = [])

/-- No header is added, or the entry in the cache fits, or there is none and
the challenge is plain. -/
def Answerable (transfer : AuthTransfer) (context : AuthContext) (client : Option AuthClient)
    (params : DigestParams) : Prop :=
  ∀ demand, demandOf params = some demand →
    match cachedEntry transfer context demand with
    | some entry => Fits params entry
    | none => (prepared transfer context client demand).handler.cancelled = true ∨ Plain params

section Answers

variable {request : Request} {url : KURL} {params : DigestParams} {entry : CredentialEntry}

/-- An entry of the realm answers the challenge exactly when it fits. -/
theorem answers_iff_fits (apart : TellsApart request url entry)
    (sameRealm : entry.realm = ofLatin1 (params.realm.getD [])) :
    Answers request url params entry ↔ Fits params entry := by
  constructor
  · intro answers
    obtain ⟨md5, auth⟩ := (rfcResponse_eq_some_iff request url entry apart).1 answers.response
    exact ⟨answers.nonce, answers.opaqueValue, answers.algorithm, answers.qop, md5, auth⟩
  · intro fits
    exact ⟨sameRealm, fits.nonce, fits.opaqueValue, fits.algorithm, fits.qop,
      (rfcResponse_eq_some_iff request url entry apart).2 ⟨fits.md5, fits.auth⟩⟩

theorem ofLatin1_injective : Function.Injective ofLatin1 :=
  Function.LeftInverse.injective lowBytes_ofLatin1

/-- A new entry names the algorithm of the challenge as plain MD5 exactly when
it is MD5. -/
theorem names_md5_iff (algorithm : Option StdString) :
    (NamesAlgorithm algorithm (ofLatin1 ((algorithm.map knownAlgorithm).getD
        (StdString.bytes "MD5"))) ∧
      equalIgnoringCase (cString (ofLatin1 ((algorithm.map knownAlgorithm).getD
        (StdString.bytes "MD5")))) (StdString.bytes "md5") = true) ↔
      equalIgnoringCase (algorithm.getD (StdString.bytes "MD5")) (StdString.bytes "md5") = true := by
  have isMd5 : equalIgnoringCase (StdString.bytes "MD5") (StdString.bytes "md5") = true := by decide
  have names (value : StdString) (known : ofLatin1 value = ofLatin1 (StdString.bytes "MD5") ) :
      value = StdString.bytes "MD5" := ofLatin1_injective known
  cases algorithm with
  | none => exact ⟨fun _ => isMd5, fun _ => ⟨⟨StdString.bytes "MD5", rfl, by decide⟩, by decide⟩⟩
  | some stated =>
    rw [Option.map_some]
    by_cases session : stated = StdString.bytes "MD5-sess"
    · have isKnown : knownAlgorithm stated = StdString.bytes "MD5-sess" := by
        rw [session]
        decide
      rw [session]
      exact ⟨fun named => absurd named.2 (by decide), fun plain => absurd plain (by decide)⟩
    · have isKnown : knownAlgorithm stated = StdString.bytes "MD5" := by
        rw [knownAlgorithm]
        split_ifs with unknown
        · rfl
        · by_contra other
          exact unknown ⟨other, session⟩
      rw [isKnown]
      constructor
      · rintro ⟨⟨value, isValue, same⟩, -⟩
        cases names value isValue.symm
        exact beq_iff_eq.2 ((beq_iff_eq.1 same).symm.trans (beq_iff_eq.1 isMd5))
      · intro plain
        refine ⟨⟨StdString.bytes "MD5", rfl, ?_⟩, by decide⟩
        exact beq_iff_eq.2 ((beq_iff_eq.1 isMd5).trans (beq_iff_eq.1 plain).symm)

/-- A new entry takes up an offer without a hash of the body exactly when the
challenge has `auth` alone or nothing. -/
theorem offers_auth_iff (qop : Option StdString) :
    (OffersQop (qop.getD []) (ofLatin1 ((qop.bind knownQop).getD [])) ∧
      ((cString (ofLatin1 ((qop.bind knownQop).getD []))).isEmpty = true ∨
        equalIgnoringCase (cString (ofLatin1 ((qop.bind knownQop).getD [])))
          (StdString.bytes "auth") = true)) ↔
      qop = some (StdString.bytes "auth") ∨ alternatives (qop.getD []) = [] := by
  by_cases isAuth : qop = some (StdString.bytes "auth")
  · rw [isAuth]
    exact ⟨fun _ => .inl rfl, fun _ => by unfold OffersQop; decide⟩
  · by_cases isBody : qop = some (StdString.bytes "auth-int")
    · rw [isBody]
      refine ⟨fun taken => ?_, fun plain => ?_⟩
      · rcases taken.2 with none | auth
        · exact absurd none (by decide)
        · exact absurd auth (by decide)
      · rcases plain with auth | none
        · exact absurd auth (by decide)
        · exact absurd none (by decide)
    · have dropped : (qop.bind knownQop).getD [] = [] := by
        cases qop with
        | none => rfl
        | some stated =>
          rw [Option.bind_some, knownQop, if_pos]
          · rfl
          · exact ⟨fun same => isAuth (by rw [same]), fun same => isBody (by rw [same])⟩
      rw [dropped]
      constructor
      · rintro ⟨offered, -⟩
        right
        by_contra some
        rw [OffersQop, if_neg some] at offered
        obtain ⟨chosen, isOffered, isNil⟩ := List.mem_map.1 offered
        have nonempty := (List.mem_filter.1 isOffered).2
        rw [ofLatin1_injective isNil] at nonempty
        cases nonempty
      · rintro (auth | none)
        · exact absurd auth isAuth
        · refine ⟨?_, .inl rfl⟩
          rw [OffersQop, if_pos none]
          rfl

/-- A new entry fits exactly when the challenge is plain. -/
theorem fits_iff_plain {nonce : StdString} (isNonce : params.nonce = some nonce)
    (newNonce : entry.digestNonce = ofLatin1 nonce)
    (newOpaque : entry.digestOpaque = ofLatin1 (params.opaqueValue.getD []))
    (newAlgorithm : entry.digestAlgorithm =
      ofLatin1 ((params.algorithm.map knownAlgorithm).getD (StdString.bytes "MD5")))
    (newQop : entry.digestQop = ofLatin1 ((params.qop.bind knownQop).getD [])) :
    Fits params entry ↔ Plain params := by
  rw [Plain, ← names_md5_iff, ← offers_auth_iff, ← newAlgorithm, ← newQop]
  constructor
  · intro fits
    exact ⟨⟨fits.algorithm, fits.md5⟩, fits.qop, fits.auth⟩
  · rintro ⟨⟨algorithm, md5⟩, qop, auth⟩
    exact ⟨by rw [newNonce, isNonce, Option.getD_some], newOpaque, algorithm, qop, md5, auth⟩

end Answers

/-- The header answers the challenge exactly when the entry it is generated
from fits. -/
theorem digestAnswered_iff {request : Request} {transfer : AuthTransfer} {context : AuthContext}
    {client : Option AuthClient} {str : StdString}
    (apart : ∀ entry, sentEntry transfer context client (statedParams str) = some entry →
      TellsApart request context.url entry) : DigestAnswered request transfer context client str ↔
      Answerable transfer context client (statedParams str) := by
  have answered : DigestAnswered request transfer context client str ↔
      ∀ entry, sentEntry transfer context client (statedParams str) = some entry →
        Answers request context.url (statedParams str) entry :=
    forall_congr' fun entry => imp_congr (sends_iff transfer context client str entry) Iff.rfl
  rw [answered]
  generalize statedParams str = params at apart
  unfold Answerable sentEntry at *
  cases isDemand : demandOf params with
  | none => exact ⟨nofun, nofun⟩
  | some demand =>
    rw [isDemand] at apart
    simp only [Option.bind_eq_bind, Option.bind_some, Option.some_inj, forall_eq'] at apart ⊢
    obtain ⟨realm, nonce, isRealm, isNonce, rfl⟩ : ∃ realm nonce, params.realm = some realm ∧
        params.nonce = some nonce ∧ demand = .digest realm nonce
          ((params.algorithm.map knownAlgorithm).getD (StdString.bytes "MD5"))
          ((params.qop.bind knownQop).getD []) (params.opaqueValue.getD []) := by
      unfold demandOf at isDemand
      split at isDemand
      · next realm nonce isRealm isNonce => exact ⟨realm, nonce, isRealm, isNonce,
          (Option.some_inj.1 isDemand).symm⟩
      · cases isDemand
    generalize isCached : cachedEntry transfer context _ = cached at apart ⊢
    cases cached with
    | some entry =>
      have sameRealm : entry.realm = ofLatin1 (params.realm.getD []) := by
        rw [isRealm]
        exact CredentialsCache.realm_of_getForRealm isCached
      have fits := answers_iff_fits (apart entry rfl) sameRealm
      exact ⟨fun answers => fits.1 (answers entry rfl),
        fun isFit other same => Option.some_inj.1 same ▸ fits.2 isFit⟩
    | none =>
      dsimp only at apart ⊢
      split_ifs at apart ⊢ with cancelled
      · exact ⟨fun _ => .inl cancelled, nofun⟩
      · have sameRealm : ∀ sender : AuthTransfer, (sender.newEntry context.url (.digest realm
            nonce ((params.algorithm.map knownAlgorithm).getD (StdString.bytes "MD5"))
            ((params.qop.bind knownQop).getD []) (params.opaqueValue.getD []))).realm =
            ofLatin1 (params.realm.getD []) := by
          intro sender
          rw [isRealm]
          rfl
        have fits := answers_iff_fits (apart _ rfl) (sameRealm _)
        have plain := fits.trans (fits_iff_plain isNonce rfl rfl rfl rfl)
        refine ⟨fun answers => .inr (plain.1 (answers _ rfl)), ?_⟩
        rintro (isCancelled | isPlain) other same
        · exact absurd isCancelled cancelled
        · exact Option.some_inj.1 same ▸ plain.2 isPlain

/-- MD5 on the three texts of one response. -/
def md5OfExample (text : StdString) : HashValue :=
  if text = StdString.bytes "u:r:p" then
    ⟨[68, 173, 210, 43, 111, 49, 121, 183, 81, 234, 253, 104, 238, 55, 15, 125], rfl⟩
  else if text = StdString.bytes "GET:/" then
    ⟨[113, 153, 140, 100, 174, 163, 122, 231, 112, 32, 196, 156, 0, 247, 63, 168], rfl⟩
  else if text = StdString.bytes
      "44add22b6f3179b751eafd68ee370f7d:n:71998c64aea37ae77020c49c00f73fa8" then
    ⟨[242, 49, 33, 202, 151, 20, 60, 107, 53, 141, 166, 32, 34, 12, 131, 180], rfl⟩
  else ⟨List.replicate 16 0, rfl⟩

def exampleRequest : Request where
  md5 := md5OfExample
  random := 0
  httpMethod := lit "GET"
  entityBody := []

def exampleContext : AuthContext where
  url := { protocol := lit "http", host := lit "a", port := 80, path := lit "/" }
  runningInBrowserServer := true
  base64Decode text := text

/-- A handler with a user name and password, and a cache. -/
def exampleTransfer (cache : CredentialsCache) : AuthTransfer where
  handler := { user := lit "u", password := lit "p" }
  cache := cache
  customHeaders := []
  shown := []

def exampleChallenge : StdString := StdString.bytes " realm=\"r\", nonce=\"n\""

example : (digestAuthorization exampleRequest exampleContext.url
      ((exampleTransfer fun _ => []).newEntry exampleContext.url
        (.digest (StdString.bytes "r") (StdString.bytes "n") (StdString.bytes "MD5") [] []))).response =
      StdString.bytes "f23121ca97143c6b358da620220c83b4" := by
  decide +kernel

/-- The theorem on an empty cache. -/
theorem digestAnswered_iff_emptyCache :
    DigestAnswered exampleRequest (exampleTransfer fun _ => []) exampleContext none
        exampleChallenge ↔
      Answerable (exampleTransfer fun _ => []) exampleContext none
        (statedParams exampleChallenge) := by
  refine digestAnswered_iff fun entry sent => ?_
  have isNew : sentEntry (exampleTransfer fun _ => []) exampleContext none
      (statedParams exampleChallenge) =
      some ((exampleTransfer fun _ => []).newEntry exampleContext.url
        (.digest (StdString.bytes "r") (StdString.bytes "n") (StdString.bytes "MD5") [] [])) := by
    decide +kernel
  cases isNew.symm.trans sent
  exact tellsApart_of_plain _ _ _ (by decide +kernel) (by decide +kernel)

/-- An entry of an earlier challenge of the realm. -/
def staleEntry : CredentialEntry where
  scheme := .digest
  protocol := lit "http"
  host := lit "a"
  port := 80
  path := lit "/x/"
  realm := lit "r"
  user := lit "u"
  password := lit "p"
  digestNonce := lit "m"
  digestAlgorithm := lit "MD5"

/-- The nonce of an earlier challenge is sent again. -/
theorem stale_nonce_sent :
    ¬DigestAnswered exampleRequest (exampleTransfer (CredentialsCache.add (fun _ => []) staleEntry))
      exampleContext none exampleChallenge := by
  intro answered
  have isStale : sentEntry (exampleTransfer (CredentialsCache.add (fun _ => []) staleEntry))
      exampleContext none (statedParams exampleChallenge) = some staleEntry := by
    decide +kernel
  have answers := answered staleEntry ((sends_iff _ _ _ _ _).2 isStale)
  exact absurd answers.nonce (by decide +kernel)

end Digest
end Network
end PalmWebKit
