import PalmWebKit.Network.AuthenticationHandler

/-!
# The response of Digest

`genDigestResponse` writes the fields of an entry into an `Authorization`
header and hashes them.  Two of the texts it hashes are not those of RFC 2617:
for `MD5-sess` the first hash is taken as it is and not in hexadecimal digits,
and for `auth-int` the hash of the body is a block of zeroes.
-/

namespace PalmWebKit
namespace Network
namespace Digest

open List StdString WString

/-- `HASH` -/
structure HashValue where
  bytes : StdString
  length_eq : bytes.length = 16

/-- The hash function, the next random number, and the request. -/
structure Request where
  md5 : StdString → HashValue
  random : Nat
  httpMethod : WString
  entityBody : StdString

/-- The C string of the Latin-1 bytes of a string. -/
def cString (text : WString) : StdString := ofCString (latin1 text)

/-- A hexadecimal digit of `DigestCvtHex`. -/
def hexDigit (nibble : UInt8) : UInt8 :=
  if nibble ≤ 9 then nibble + 48 else nibble + 97 - 10

def hexDigits (byte : UInt8) : StdString :=
  [hexDigit ((byte >>> 4) &&& 0xf), hexDigit (byte &&& 0xf)]

/-- `DigestCvtHex` -/
def digestCvtHex (bin : HashValue) : StdString := bin.bytes.flatMap hexDigits

/-- `strcasecmp` finds no difference. -/
def equalIgnoringCase (first second : StdString) : Bool := tolower first == tolower second

/-- Two texts with a colon between them. -/
def joined (first second : StdString) : StdString := first ++ StdString.bytes ":" ++ second

/-- The text of `MD5-sess`. -/
def sessionText (first nonce cnonce : StdString) : StdString := joined first (joined nonce cnonce)

/-- What is hashed between the two hashes. -/
def middleText (nonce nonceCount cnonce qop : StdString) : StdString :=
  if qop.isEmpty then joined [] (joined nonce [])
  else joined [] (joined nonce (joined nonceCount (joined cnonce (joined qop []))))

section Hashes

variable (md5 : StdString → HashValue)

/-- `DigestCalcHA1` -/
def digestCalcHA1 (alg user realm password nonce cnonce : StdString) : StdString :=
  let HA1 := md5 (joined user (joined realm password))
  if equalIgnoringCase alg (StdString.bytes "md5-sess") then
    digestCvtHex (md5 (sessionText HA1.bytes nonce cnonce))
  else digestCvtHex HA1

/-- `DigestCalcResponse` -/
def digestCalcResponse
    (HA1 nonce nonceCount cnonce qop method digestUri HEntity : StdString) : StdString :=
  let HA2 :=
    if equalIgnoringCase qop (StdString.bytes "auth-int") then
      md5 (joined (joined method digestUri) HEntity)
    else md5 (joined method digestUri)
  digestCvtHex (md5 (HA1 ++ middleText nonce nonceCount cnonce qop ++ digestCvtHex HA2))

end Hashes

/-- The fields of the header; an empty `opaque` or `qop` is left out. -/
structure DigestAuthorization where
  username : WString
  realm : WString
  uri : WString
  nonce : WString
  algorithm : WString
  opaqueValue : WString
  qop : WString
  cnonce : StdString
  nonceCount : StdString
  response : StdString

/-- The text of the header. -/
def DigestAuthorization.text (header : DigestAuthorization) : WString :=
  lit "Authorization: Digest " ++ lit "username=\"" ++ header.username ++ lit "\", " ++
    lit "realm=\"" ++ header.realm ++ lit "\", " ++
    lit "uri=" ++ header.uri ++ lit ", " ++
    lit "nonce=\"" ++ header.nonce ++ lit "\"" ++
    lit ", algorithm=" ++ header.algorithm ++
    (if header.opaqueValue.isEmpty then []
      else lit ", opaque=\"" ++ header.opaqueValue ++ lit "\"") ++
    (if header.qop.isEmpty then []
      else
        lit ", qop=" ++ header.qop ++ lit ", cnonce=\"" ++ ofLatin1 header.cnonce ++ lit "\"" ++
          lit ", nc=" ++ ofLatin1 header.nonceCount) ++
    lit ", response=\"" ++ ofLatin1 header.response ++ lit "\""

section Generate

variable (request : Request) (url : KURL) (entry : CredentialEntry)

/-- `cnonce` -/
def clientNonce : StdString :=
  if entry.digestQop.isEmpty then [] else StdString.bytes (toString request.random)

/-- `nonceCount` -/
def nonceCount : StdString :=
  if entry.digestQop.isEmpty then [] else StdString.bytes "00000001"

/-- The fields that `genDigestResponse` writes. -/
def digestAuthorization : DigestAuthorization :=
  let cnonce := clientNonce request entry
  let nonceCount := nonceCount entry
  let HA1 := digestCalcHA1 request.md5 (cString entry.digestAlgorithm) (cString entry.user)
    (cString entry.realm) (cString entry.password) (cString entry.digestNonce) cnonce
  -- `HA2`, which was set to the empty string
  let HEntity := List.replicate 32 0
  { username := entry.user
    realm := entry.realm
    uri := url.path
    nonce := entry.digestNonce
    algorithm := entry.digestAlgorithm
    opaqueValue := entry.digestOpaque
    qop := entry.digestQop
    cnonce := cnonce
    nonceCount := nonceCount
    response := digestCalcResponse request.md5 HA1 (cString entry.digestNonce) nonceCount cnonce
      (cString entry.digestQop) (cString request.httpMethod) (cString url.path) HEntity }

def genDigestResponse : WString := (digestAuthorization request url entry).text

end Generate

/-! ## RFC 2617 -/

section Rfc2617

variable (request : Request) (header : DigestAuthorization) (password : WString)

/-- `H(A1)` -/
def hashedA1 : Option StdString :=
  let H := fun text => digestCvtHex (request.md5 text)
  let secret := joined (cString header.username) (joined (cString header.realm) (cString password))
  if equalIgnoringCase (cString header.algorithm) (StdString.bytes "md5") then
    some (H secret)
  else if equalIgnoringCase (cString header.algorithm) (StdString.bytes "md5-sess") then
    some (H (sessionText (H secret) (cString header.nonce) header.cnonce))
  else none

/-- `H(A2)` -/
def hashedA2 : Option StdString :=
  let H := fun text => digestCvtHex (request.md5 text)
  let target := joined (cString request.httpMethod) (cString header.uri)
  if (cString header.qop).isEmpty || equalIgnoringCase (cString header.qop) (StdString.bytes "auth")
    then some (H target)
  else if equalIgnoringCase (cString header.qop) (StdString.bytes "auth-int") then
    some (H (joined target (H request.entityBody)))
  else none

/-- `request-digest`, for the algorithms and qualities that RFC 2617 defines. -/
def rfcResponse : Option StdString := do
  let A1 ← hashedA1 request header password
  let A2 ← hashedA2 request header
  return digestCvtHex (request.md5 (A1 ++ middleText (cString header.nonce) header.nonceCount
    header.cnonce (cString header.qop) ++ A2))

end Rfc2617

/-! ## Texts and their hashes -/

theorem length_digestCvtHex (bin : HashValue) : (digestCvtHex bin).length = 32 := by
  have general (bytes : StdString) : (bytes.flatMap hexDigits).length = 2 * bytes.length := by
    induction bytes with
    | nil => rfl
    | cons byte bytes ih =>
      rw [flatMap_cons, length_append, length_cons,
        hexDigits, length_cons, length_singleton]
      omega
  rw [digestCvtHex, general, bin.length_eq]

/-- The value of a hexadecimal digit. -/
def digitValue (digit : UInt8) : UInt8 :=
  if digit ≤ 57 then digit - 48 else digit - 97 + 10

theorem hexDigits_injective : Function.Injective hexDigits := by
  have readBack : ∀ byte : Fin 256, ((hexDigits (UInt8.ofNat byte)).map digitValue).foldl
      (fun value digit => value * 16 + digit) 0 = UInt8.ofNat byte := by
    decide +kernel
  intro first second same
  have isFirst := readBack ⟨first.toNat, first.toNat_lt⟩
  have isSecond := readBack ⟨second.toNat, second.toNat_lt⟩
  simp only [UInt8.ofNat_toNat] at isFirst isSecond
  rw [← isFirst, same, isSecond]

theorem zero_notMem_hexDigits (byte : UInt8) : 0 ∉ hexDigits byte := by
  have nonzero : ∀ byte : Fin 256, 0 ∉ hexDigits (UInt8.ofNat byte) := by decide +kernel
  have isNonzero := nonzero ⟨byte.toNat, byte.toNat_lt⟩
  simp only [UInt8.ofNat_toNat] at isNonzero
  exact isNonzero

theorem digestCvtHex_injective {first second : HashValue}
    (same : digestCvtHex first = digestCvtHex second) : first = second := by
  have general (left right : StdString)
      (same : left.flatMap hexDigits = right.flatMap hexDigits)
      (length : left.length = right.length) : left = right := by
    induction left generalizing right with
    | nil => exact (length_eq_zero_iff.1 length.symm).symm
    | cons byte left ih =>
      cases right with
      | nil => cases length
      | cons other right =>
        obtain ⟨sameDigits, sameRest⟩ := append_inj same rfl
        rw [hexDigits_injective sameDigits, ih right sameRest (Nat.succ.inj length)]
  obtain ⟨left, leftLength⟩ := first
  obtain ⟨right, rightLength⟩ := second
  cases general left right same (leftLength.trans rightLength.symm)
  rfl

theorem zero_notMem_digestCvtHex (bin : HashValue) : 0 ∉ digestCvtHex bin := by
  intro member
  obtain ⟨byte, -, isDigit⟩ := mem_flatMap.1 member
  exact zero_notMem_hexDigits byte isDigit

/-! ## When the response is the one of RFC 2617 -/

section Response

variable (request : Request) (url : KURL) (entry : CredentialEntry)

/-- `unq(username):unq(realm):passwd` -/
def secretText : StdString :=
  joined (cString entry.user) (joined (cString entry.realm) (cString entry.password))

/-- `Method:digest-uri` -/
def targetText : StdString := joined (cString request.httpMethod) (cString url.path)

/-- The texts that `DigestCalcHA1` and RFC 2617 hash last. -/
def textsA1 : StdString × StdString :=
  if equalIgnoringCase (cString entry.digestAlgorithm) (StdString.bytes "md5-sess") then
    let first := request.md5 (secretText entry)
    (sessionText first.bytes (cString entry.digestNonce) (clientNonce request entry),
      sessionText (digestCvtHex first) (cString entry.digestNonce) (clientNonce request entry))
  else (secretText entry, secretText entry)

/-- The texts of `A2`. -/
def textsA2 : StdString × StdString :=
  if equalIgnoringCase (cString entry.digestQop) (StdString.bytes "auth-int") then
    (joined (targetText request url) (List.replicate 32 0),
      joined (targetText request url) (digestCvtHex (request.md5 request.entityBody)))
  else (targetText request url, targetText request url)

/-- The last text, from the two hashes. -/
def finalText (first second : StdString) : StdString :=
  digestCvtHex (request.md5 first) ++
    middleText (cString entry.digestNonce) (nonceCount entry) (clientNonce request entry)
      (cString entry.digestQop) ++
    digestCvtHex (request.md5 second)

/-- The hash function tells the texts of this response from those of RFC 2617. -/
structure TellsApart : Prop where
  texts1 : request.md5 (textsA1 request entry).1 = request.md5 (textsA1 request entry).2 →
    (textsA1 request entry).1 = (textsA1 request entry).2
  texts2 : request.md5 (textsA2 request url entry).1 = request.md5 (textsA2 request url entry).2 →
    (textsA2 request url entry).1 = (textsA2 request url entry).2
  final : request.md5 (finalText request entry (textsA1 request entry).1
        (textsA2 request url entry).1) =
      request.md5 (finalText request entry (textsA1 request entry).2
        (textsA2 request url entry).2) →
    finalText request entry (textsA1 request entry).1 (textsA2 request url entry).1 =
      finalText request entry (textsA1 request entry).2 (textsA2 request url entry).2

theorem response_eq : (digestAuthorization request url entry).response =
      digestCvtHex (request.md5 (finalText request entry (textsA1 request entry).1
        (textsA2 request url entry).1)) := by
  have isA1 : digestCalcHA1 request.md5 (cString entry.digestAlgorithm) (cString entry.user)
      (cString entry.realm) (cString entry.password) (cString entry.digestNonce)
      (clientNonce request entry) = digestCvtHex (request.md5 (textsA1 request entry).1) := by
    rw [digestCalcHA1, textsA1]
    split_ifs <;> rfl
  rw [digestAuthorization, digestCalcResponse]
  rw [isA1, textsA2]
  split_ifs <;> rfl

/-- The algorithm and the quality of protection are ones of RFC 2617. -/
def KnownToRfc : Prop :=
  (equalIgnoringCase (cString entry.digestAlgorithm) (StdString.bytes "md5") = true ∨
      equalIgnoringCase (cString entry.digestAlgorithm) (StdString.bytes "md5-sess") = true) ∧
    ((cString entry.digestQop).isEmpty = true ∨
      equalIgnoringCase (cString entry.digestQop) (StdString.bytes "auth") = true ∨
      equalIgnoringCase (cString entry.digestQop) (StdString.bytes "auth-int") = true)

theorem equalIgnoringCase_unique {text first second : StdString}
    (isFirst : equalIgnoringCase text first = true)
    (isSecond : equalIgnoringCase text second = true) :
    tolower first = tolower second := (beq_iff_eq.1 isFirst).symm.trans (beq_iff_eq.1 isSecond)

theorem hashedA1_eq_some_iff (hash : StdString) :
    hashedA1 request (digestAuthorization request url entry) entry.password = some hash ↔
      (equalIgnoringCase (cString entry.digestAlgorithm) (StdString.bytes "md5") = true ∨
        equalIgnoringCase (cString entry.digestAlgorithm) (StdString.bytes "md5-sess") = true) ∧
        hash = digestCvtHex (request.md5 (textsA1 request entry).2) := by
  have header : hashedA1 request (digestAuthorization request url entry) entry.password =
      if equalIgnoringCase (cString entry.digestAlgorithm) (StdString.bytes "md5") then
        some (digestCvtHex (request.md5 (secretText entry)))
      else if equalIgnoringCase (cString entry.digestAlgorithm) (StdString.bytes "md5-sess") then
        some (digestCvtHex (request.md5 (sessionText (digestCvtHex (request.md5 (secretText entry)))
          (cString entry.digestNonce) (clientNonce request entry))))
      else none := rfl
  rw [header, textsA1]
  by_cases plain : equalIgnoringCase (cString entry.digestAlgorithm) (StdString.bytes "md5") = true
  · have notSession : ¬equalIgnoringCase (cString entry.digestAlgorithm)
        (StdString.bytes "md5-sess") = true :=
      fun session => absurd (equalIgnoringCase_unique plain session) (by decide)
    rw [if_pos plain, if_neg notSession, Option.some_inj]
    exact ⟨fun same => ⟨.inl plain, same.symm⟩, fun same => same.2.symm⟩
  · rw [if_neg plain]
    by_cases session : equalIgnoringCase (cString entry.digestAlgorithm)
        (StdString.bytes "md5-sess") = true
    · rw [if_pos session, if_pos session, Option.some_inj]
      exact ⟨fun same => ⟨.inr session, same.symm⟩, fun same => same.2.symm⟩
    · rw [if_neg session]
      exact ⟨nofun, fun known => absurd known.1 (not_or.2 ⟨plain, session⟩)⟩

theorem hashedA2_eq_some_iff (hash : StdString) :
    hashedA2 request (digestAuthorization request url entry) = some hash ↔
      ((cString entry.digestQop).isEmpty = true ∨
        equalIgnoringCase (cString entry.digestQop) (StdString.bytes "auth") = true ∨
        equalIgnoringCase (cString entry.digestQop) (StdString.bytes "auth-int") = true) ∧
        hash = digestCvtHex (request.md5 (textsA2 request url entry).2) := by
  have header : hashedA2 request (digestAuthorization request url entry) =
      if (cString entry.digestQop).isEmpty ||
          equalIgnoringCase (cString entry.digestQop) (StdString.bytes "auth") then
        some (digestCvtHex (request.md5 (targetText request url)))
      else if equalIgnoringCase (cString entry.digestQop) (StdString.bytes "auth-int") then
        some (digestCvtHex (request.md5 (joined (targetText request url)
          (digestCvtHex (request.md5 request.entityBody)))))
      else none := rfl
  rw [header, textsA2]
  simp only [Bool.or_eq_true]
  by_cases plain : (cString entry.digestQop).isEmpty = true ∨
      equalIgnoringCase (cString entry.digestQop) (StdString.bytes "auth") = true
  · have notBody : ¬equalIgnoringCase (cString entry.digestQop)
        (StdString.bytes "auth-int") = true := by
      intro body
      rcases plain with none | auth
      · rw [isEmpty_iff.1 none] at body
        exact absurd body (by decide)
      · exact absurd (equalIgnoringCase_unique auth body) (by decide)
    rw [if_pos plain, if_neg notBody, Option.some_inj]
    exact ⟨fun same => ⟨plain.imp_right .inl, same.symm⟩, fun same => same.2.symm⟩
  · rw [if_neg plain]
    by_cases body : equalIgnoringCase (cString entry.digestQop)
        (StdString.bytes "auth-int") = true
    · rw [if_pos body, if_pos body, Option.some_inj]
      exact ⟨fun same => ⟨.inr (.inr body), same.symm⟩, fun same => same.2.symm⟩
    · rw [if_neg body]
      refine ⟨nofun, fun known => ?_⟩
      rcases known.1 with none | auth | isBody
      · exact absurd (.inl none) plain
      · exact absurd (.inr auth) plain
      · exact absurd isBody body

theorem rfcResponse_eq_some_iff_texts :
    rfcResponse request (digestAuthorization request url entry) entry.password =
        some (digestAuthorization request url entry).response ↔
      KnownToRfc entry ∧
        digestCvtHex (request.md5 (finalText request entry (textsA1 request entry).2
            (textsA2 request url entry).2)) =
          digestCvtHex (request.md5 (finalText request entry (textsA1 request entry).1
            (textsA2 request url entry).1)) := by
  rw [response_eq]
  constructor
  · intro isSome
    obtain ⟨A1, isA1, rest⟩ := Option.bind_eq_some_iff.1 isSome
    obtain ⟨A2, isA2, isResponse⟩ := Option.bind_eq_some_iff.1 rest
    obtain ⟨algorithm, rfl⟩ := (hashedA1_eq_some_iff request url entry A1).1 isA1
    obtain ⟨quality, rfl⟩ := (hashedA2_eq_some_iff request url entry A2).1 isA2
    exact ⟨⟨algorithm, quality⟩, Option.some_inj.1 isResponse⟩
  · rintro ⟨⟨algorithm, quality⟩, same⟩
    have isA1 := (hashedA1_eq_some_iff request url entry _).2 ⟨algorithm, rfl⟩
    have isA2 := (hashedA2_eq_some_iff request url entry _).2 ⟨quality, rfl⟩
    exact Option.bind_eq_some_iff.2
      ⟨_, isA1, Option.bind_eq_some_iff.2 ⟨_, isA2, congrArg some same⟩⟩

/-- Equal last texts come from equal texts. -/
theorem texts_eq_of_finalText (apart : TellsApart request url entry)
    (same : finalText request entry (textsA1 request entry).1 (textsA2 request url entry).1 =
      finalText request entry (textsA1 request entry).2 (textsA2 request url entry).2) :
    (textsA1 request entry).1 = (textsA1 request entry).2 ∧
      (textsA2 request url entry).1 = (textsA2 request url entry).2 := by
  rw [finalText, finalText, append_assoc, append_assoc] at same
  obtain ⟨same1, sameRest⟩ := append_inj same
    ((length_digestCvtHex _).trans (length_digestCvtHex _).symm)
  have same2 := append_cancel_left sameRest
  exact ⟨apart.texts1 (digestCvtHex_injective same1), apart.texts2 (digestCvtHex_injective same2)⟩

/-- The texts of `A1` agree unless the algorithm is `MD5-sess`. -/
theorem textsA1_eq_iff : (textsA1 request entry).1 = (textsA1 request entry).2 ↔
      ¬equalIgnoringCase (cString entry.digestAlgorithm) (StdString.bytes "md5-sess") = true := by
  rw [textsA1]
  by_cases session : equalIgnoringCase (cString entry.digestAlgorithm)
      (StdString.bytes "md5-sess") = true
  · rw [if_pos session]
    refine ⟨fun same => ?_, fun other => absurd session other⟩
    have lengths := congrArg List.length same
    simp only [sessionText, joined, length_append, length_digestCvtHex, HashValue.length_eq]
      at lengths
    omega
  · rw [if_neg session]
    exact ⟨fun _ => session, fun _ => rfl⟩

/-- The texts of `A2` agree unless the body is to be hashed. -/
theorem textsA2_eq_iff : (textsA2 request url entry).1 = (textsA2 request url entry).2 ↔
      ¬equalIgnoringCase (cString entry.digestQop) (StdString.bytes "auth-int") = true := by
  rw [textsA2]
  by_cases body : equalIgnoringCase (cString entry.digestQop) (StdString.bytes "auth-int") = true
  · rw [if_pos body]
    refine ⟨fun same => ?_, fun other => absurd body other⟩
    have zeroes := append_cancel_left same
    have member : (0 : UInt8) ∈ List.replicate 32 (0 : UInt8) := by decide
    rw [zeroes] at member
    exact absurd member (zero_notMem_digestCvtHex _)
  · rw [if_neg body]
    exact ⟨fun _ => body, fun _ => rfl⟩

/-- The response is the one of RFC 2617 exactly for plain `MD5` without a
hash of the body. -/
theorem rfcResponse_eq_some_iff (apart : TellsApart request url entry) :
    rfcResponse request (digestAuthorization request url entry) entry.password =
        some (digestAuthorization request url entry).response ↔
      equalIgnoringCase (cString entry.digestAlgorithm) (StdString.bytes "md5") = true ∧
        ((cString entry.digestQop).isEmpty = true ∨
          equalIgnoringCase (cString entry.digestQop) (StdString.bytes "auth") = true) := by
  rw [rfcResponse_eq_some_iff_texts]
  constructor
  · rintro ⟨⟨algorithm, quality⟩, same⟩
    obtain ⟨same1, same2⟩ := texts_eq_of_finalText request url entry apart
      (apart.final (digestCvtHex_injective same).symm)
    have notSession := (textsA1_eq_iff request entry).1 same1
    have notBody := (textsA2_eq_iff request url entry).1 same2
    refine ⟨algorithm.resolve_right notSession, ?_⟩
    rcases quality with none | auth | body
    · exact .inl none
    · exact .inr auth
    · exact absurd body notBody
  · rintro ⟨algorithm, quality⟩
    have same1 := (textsA1_eq_iff request entry).2 fun session =>
      absurd (equalIgnoringCase_unique algorithm session) (by decide)
    have same2 := (textsA2_eq_iff request url entry).2 fun body => by
      rcases quality with none | auth
      · rw [isEmpty_iff.1 none] at body
        exact absurd body (by decide)
      · exact absurd (equalIgnoringCase_unique auth body) (by decide)
    refine ⟨⟨.inl algorithm, quality.imp_right .inl⟩, ?_⟩
    rw [same1, same2]

/-- Equal texts need not be told apart. -/
theorem tellsApart_of_plain
    (notSession : ¬equalIgnoringCase (cString entry.digestAlgorithm)
      (StdString.bytes "md5-sess") = true)
    (notBody : ¬equalIgnoringCase (cString entry.digestQop) (StdString.bytes "auth-int") = true) :
    TellsApart request url entry := by
  have same1 := (textsA1_eq_iff request entry).2 notSession
  have same2 := (textsA2_eq_iff request url entry).2 notBody
  exact ⟨fun _ => same1, fun _ => same2, fun _ => by rw [same1, same2]⟩

end Response

end Digest
end Network
end PalmWebKit
