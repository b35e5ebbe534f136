import PalmWebKit.Text.CodeUnits

/-!
# The credentials cache

The curl handle pool keeps the credentials that requests were answered with,
in one list for each protocol, host and port.  A list is searched from its
front, by the directory of an entry for a new request and by the realm of an
entry for a challenge.
-/

namespace PalmWebKit
namespace Network

open WString

/-- The members of `ProtectionSpaceAuthenticationScheme` that are answered. -/
inductive AuthenticationScheme
  /-- `ProtectionSpaceAuthenticationSchemeHTTPBasic` -/
  | basic
  /-- `ProtectionSpaceAuthenticationSchemeHTTPDigest` -/
  | digest
  /-- `ProtectionSpaceAuthenticationSchemeNTLM` -/
  | ntlm
  deriving DecidableEq, Repr

/-- `CredentialEntry`.  The fields of a scheme are left at their defaults in
the entries of the others. -/
structure CredentialEntry where
  scheme : AuthenticationScheme
  protocol : WString
  host : WString
  port : Int16
  path : WString
  realm : WString
  user : WString
  password : WString
  digestNonce : WString := []
  digestQop : WString := []
  digestAlgorithm : WString := []
  digestOpaque : WString := []
  ntlmFlags : UInt32 := 0
  ntlmNonce : List UInt8 := []
  deriving DecidableEq, Repr

/-- The `short` that a port number is passed as. -/
def shortPort (port : Nat) : Int16 := (UInt16.ofNat port).toInt16

/-- The key of the list for a protocol, host and port. -/
def cacheKey (protocol host : WString) (port : Int16) : WString :=
  protocol ++ lit "\\" ++ host ++ lit "\\" ++ lit (toString port.toInt)

/-- The lists of the cache by their keys; a key without a list has the empty
list. -/
abbrev CredentialsCache := WString → List CredentialEntry

namespace CredentialsCache

/-- The first entry whose directory the path begins with. -/
def getForPath (cache : CredentialsCache) (protocol host : WString) (port : Int16)
    (path : WString) : Option CredentialEntry :=
  (cache (cacheKey protocol host port)).find? fun entry => startsWith path entry.path

/-- The first entry of the realm, whatever its scheme. -/
def getForRealm (cache : CredentialsCache) (protocol host : WString) (port : Int16)
    (realm : WString) : Option CredentialEntry :=
  (cache (cacheKey protocol host port)).find? fun entry => realm == entry.realm

/-- Put an entry in the place of the first one with its scheme, directory and
realm, or behind all others. -/
def insertEntry (entry : CredentialEntry) : List CredentialEntry → List CredentialEntry
  | [] => [entry]
  | present :: rest =>
    if present.scheme == entry.scheme && present.path == entry.path &&
        present.realm == entry.realm then
      entry :: rest
    else
      present :: insertEntry entry rest

def add (cache : CredentialsCache) (entry : CredentialEntry) : CredentialsCache :=
  let key := cacheKey entry.protocol entry.host entry.port
  Function.update cache key (insertEntry entry (cache key))

/-- Take out the first entry whose directory the path begins with or, without
a path, the first entry of the realm. -/
def remove (cache : CredentialsCache) (protocol host : WString) (port : Int16)
    (path realm : WString) : CredentialsCache :=
  let key := cacheKey protocol host port
  if !path.isEmpty then
    Function.update cache key ((cache key).eraseP fun entry => startsWith path entry.path)
  else if !realm.isEmpty then
    Function.update cache key ((cache key).eraseP fun entry => realm == entry.realm)
  else
    cache

section Rules

variable
  {cache : CredentialsCache}
  {protocol host : WString}
  {port : Int16}
  {realm : WString}
  {entry : CredentialEntry}

theorem realm_of_getForRealm (found : cache.getForRealm protocol host port realm = some entry) :
    entry.realm = realm := by
  have accepted := List.find?_some found
  exact (eq_of_beq accepted).symm

end Rules

end CredentialsCache

end Network
end PalmWebKit
