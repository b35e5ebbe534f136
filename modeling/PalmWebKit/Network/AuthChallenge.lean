import PalmWebKit.Text.Utf8

/-!
# Authentication challenges

The value of a `WWW-Authenticate` header is scanned as a C string.  Each scheme
has its own loop: Basic looks for a realm, Digest collects its parameters, and
NTLM takes one token.  The loops are bounded by the length of the text, which
every turn shortens.
-/

namespace PalmWebKit
namespace Network

open StdString

namespace AuthChallenge

/-- `'"'` -/
def quote : UInt8 := 34

/-- `','` -/
def comma : UInt8 := 44

def isASCIISpace (byte : UInt8) : Bool :=
  byte ≤ 32 && (byte == 32 || (byte ≤ 13 && 9 ≤ byte))

/-- `strncasecmp` of a keyword at the front of a text finds no difference. -/
def hasKeyword (keyword text : StdString) : Bool :=
  tolower (text.take keyword.length) == tolower keyword

def skipSpaces (text : StdString) : StdString := text.dropWhile isASCIISpace

/-- The rest of a text behind the word at its front. -/
def skipWord (text : StdString) : StdString := text.dropWhile (!isASCIISpace ·)

/-- The value up to the end quote, and the text behind it. -/
def quoted (text : StdString) : StdString × StdString :=
  (text.takeWhile (· ≠ quote), (text.dropWhile (· ≠ quote)).drop 1)

/-- The value up to a space or a comma, and the text behind that. -/
def unquoted (text : StdString) : StdString × StdString :=
  let inside := fun byte => !isASCIISpace byte && byte != comma
  (text.takeWhile inside, (text.dropWhile inside).drop 1)

/-- The loop of `handleBasicChallenge`: the quoted realm, if there is one. -/
def basicRealmFrom : Nat → StdString → Option StdString
  | 0, _ => none
  | turns + 1, str =>
    match skipSpaces str with
    | [] => none
    | byte :: rest =>
      let text := byte :: rest
      if hasKeyword (bytes "realm=\"") text then
        if quote ∈ text.drop 7 then some (quoted (text.drop 7)).1 else none
      else
        -- an unknown auth-param
        match skipWord text with
        | [] => none
        | later => basicRealmFrom turns later

def basicRealm (str : StdString) : Option StdString := basicRealmFrom (str.length + 1) str

/-- The parameters that `handleDigestChallenge` collects; `none` is a null
`CString`. -/
structure DigestParams where
  realm : Option StdString := none
  domain : Option StdString := none
  nonce : Option StdString := none
  opaqueValue : Option StdString := none
  stale : Option StdString := none
  algorithm : Option StdString := none
  qop : Option StdString := none
  deriving DecidableEq, Repr

/-- An unrecognized algorithm is taken for MD5. -/
def knownAlgorithm (algorithm : StdString) : StdString :=
  if algorithm ≠ bytes "MD5" ∧ algorithm ≠ bytes "MD5-sess" then bytes "MD5"
  else algorithm

/-- An unrecognized qop is dropped. -/
def knownQop (qop : StdString) : Option StdString :=
  if qop ≠ bytes "auth" ∧ qop ≠ bytes "auth-int" then none else some qop

/-- One turn of the loop of `handleDigestChallenge`: the parameters and the
rest of the text, or `none` when the loop ends. -/
def digestParam (params : DigestParams) (str : StdString) : Option (DigestParams × StdString) :=
  match str.dropWhile fun byte => isASCIISpace byte || byte == comma with
  | [] => none
  | byte :: rest =>
    let text := byte :: rest
    if hasKeyword (bytes "realm=\"") text then
      let (value, later) := quoted (text.drop 7)
      some ({ params with realm := some value }, later)
    else if hasKeyword (bytes "domain=\"") text then
      let (value, later) := quoted (text.drop 8)
      some ({ params with domain := some value }, later)
    else if hasKeyword (bytes "nonce=\"") text then
      let (value, later) := quoted (text.drop 7)
      some ({ params with nonce := some value }, later)
    else if hasKeyword (bytes "opaque=\"") text then
      let (value, later) := quoted (text.drop 8)
      some ({ params with opaqueValue := some value }, later)
    else if hasKeyword (bytes "stale=") text then
      let (value, later) := unquoted (text.drop 6)
      some ({ params with stale := some value }, later)
    else if hasKeyword (bytes "algorithm=") text then
      let (value, later) := unquoted (text.drop 10)
      some ({ params with algorithm := some (knownAlgorithm value) }, later)
    else if hasKeyword (bytes "qop=\"") text then
      let (value, later) := quoted (text.drop 5)
      some ({ params with qop := knownQop value }, later)
    else
      -- an unknown token
      match skipWord text with
      | [] => none
      | later => some (params, later)

def digestParamsFrom : Nat → DigestParams → StdString → DigestParams
  | 0, params, _ => params
  | turns + 1, params, str =>
    match digestParam params str with
    | none => params
    | some (collected, later) => digestParamsFrom turns collected later

def digestParams (str : StdString) : DigestParams := digestParamsFrom (str.length + 1) {} str

/-- The token behind `NTLM`; a Type 1 challenge has none. -/
def ntlmToken (str : StdString) : Option StdString :=
  match skipSpaces str with
  | [] => none
  | byte :: rest => some ((byte :: rest).takeWhile (!isASCIISpace ·))

/-- `NTLMSSP_SIGNATURE` with its NUL. -/
def ntlmSignature : StdString :=
  bytes "NTLMSSP" ++ [0]

/-- The flags and the nonce of a decoded Type 2 message, unless it is
corrupt. -/
def ntlmType2 (message : StdString) : Option (UInt32 × StdString) :=
  if message.length < 32 ∨ message.take 8 ≠ ntlmSignature ∨
      (message.drop 8).take 4 ≠ [2, 0, 0, 0] then
    none
  else
    -- the flags are copied in the byte order of the device
    let flags := ((message.drop 20).take 4).foldr
      (fun byte flags => flags * 256 + byte.toNat) 0
    some (UInt32.ofNat flags, (message.drop 24).take 8)

/-- The schemes that `handleChallenge` tells apart, each with the text behind
its name. -/
inductive Scheme
  | basic (str : StdString)
  | digest (str : StdString)
  | ntlm (str : StdString)
  | unsupported
  deriving DecidableEq, Repr

/-- The dispatch of `handleChallenge` on a text without leading space. -/
def schemeOf (text : StdString) : Scheme :=
  if hasKeyword (bytes "Basic") text then .basic (text.drop 5)
  else if hasKeyword (bytes "Digest") text then .digest (text.drop 6)
  else if hasKeyword (bytes "NTLM") text then .ntlm (text.drop 4)
  else .unsupported

section Turns

end Turns

example : basicRealm (bytes " charset=x  Realm=\"a b\"") = some (bytes "a b") := by
  decide

end AuthChallenge
end Network
end PalmWebKit
