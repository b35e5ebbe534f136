import PalmWebKit.Csp.SourceList

/-!
# The grammar of source expressions

What the comments of the parser call a source, and when one of them matches a URL.  The
grammar is stated over the parts that spell a text; how the parser finds the parts does not
enter.
-/

namespace PalmWebKit
namespace Csp

/-- `ALPHA *( ALPHA / DIGIT / "+" / "-" / "." )` -/
def IsScheme (text : WString) : Prop :=
  ∃ first rest, text = first :: rest ∧ isASCIIAlpha first = true ∧
    ∀ unit ∈ rest, isSchemeContinuationCharacter unit = true

/-- `1*host-char *( "." 1*host-char )` -/
inductive IsHostName : WString → Prop
  | label
      (text : WString)
      (nonempty : text ≠ [])
      (characters : ∀ unit ∈ text, isHostCharacter unit = true) : IsHostName text
  | dotted
      (text rest : WString)
      (nonempty : text ≠ [])
      (characters : ∀ unit ∈ text, isHostCharacter unit = true)
      (isName : IsHostName rest) : IsHostName (text ++ WString.dot :: rest)

/-- `"*"` -/
def anyHost : WString := [star]

/-- A host name behind `"*."`. -/
def subdomainsOf (name : WString) : WString := star :: WString.dot :: name

/-- `[ "*." ] 1*host-char *( "." 1*host-char ) / "*"` -/
def IsHost (text : WString) : Prop :=
  text = anyHost ∨ IsHostName text ∨ ∃ name, text = subdomainsOf name ∧ IsHostName name

/-- `1*DIGIT` -/
def IsNumber (text : WString) : Prop := text ≠ [] ∧ ∀ unit ∈ text, WString.isASCIIDigit unit = true

/-- `1*DIGIT / "*"`, behind the colon. -/
def IsPort (text : WString) : Prop := text = [star] ∨ IsNumber text

/-- A path is absent or starts with a slash. -/
def IsPath (text : WString) : Prop := text = [] ∨ text.head? = some WString.slash

/-- The number that digits denote. -/
def portNumber (text : WString) : Nat :=
  text.foldl (fun value unit => 10 * value + (unit.toNat - 48)) 0

/-- The parts that spell a source; a path that is absent is empty. -/
inductive SourcePieces
  | schemeOnly (scheme : WString)
  | emptyAuthority (scheme : WString)
  | hostSource (scheme : Option WString) (host : WString) (port : Option WString)
      (path : WString)
  deriving DecidableEq, Repr

namespace SourcePieces

/-- `"://"` behind a scheme. -/
def schemeText : Option WString → WString
  | none => []
  | some scheme => scheme ++ [colon, WString.slash, WString.slash]

/-- `":"` in front of a port. -/
def portText : Option WString → WString
  | none => []
  | some port => colon :: port

def text : SourcePieces → WString
  | schemeOnly scheme => scheme ++ [colon]
  | emptyAuthority scheme => schemeText (some scheme)
  | hostSource scheme host port path => schemeText scheme ++ (host ++ (portText port ++ path))

/-- `scheme ":" / ( [ scheme "://" ] host [ port ] [ path ] )` -/
def Valid : SourcePieces → Prop
  | schemeOnly scheme => IsScheme scheme
  | emptyAuthority _ => False
  | hostSource scheme host port path =>
    (∀ text ∈ scheme, IsScheme text) ∧ IsHost host ∧ (∀ text ∈ port, IsPort text) ∧ IsPath path

end SourcePieces

section Matching

variable (env : Environment)

/-- The host is equal, up to case, or a strict subdomain. -/
def HostMatches (host urlHost : WString) : Prop :=
  host = anyHost ∨ (∃ name, host = subdomainsOf name ∧
      endsWithIgnoringCase env urlHost (WString.dot :: name) = true) ∨
    (IsHostName host ∧ equalIgnoringCase env urlHost host = true)

/-- The port is equal, with the default of the scheme where there is none. -/
def PortMatches (scheme : WString) (port : Option WString) (urlPort : Nat) : Prop :=
  match port with
  | none => urlPort = 0 ∨ urlPort = defaultPort env scheme
  | some text =>
    text = [star] ∨ urlPort = portNumber text ∨
      (urlPort = 0 ∧ portNumber text = defaultPort env scheme)

/-- The path is equal, or a prefix when it ends in a slash; a query or a fragment in the
source is ignored, and escape sequences are decoded. -/
def PathMatches (path urlPath : WString) : Prop :=
  path = [] ∨
    if WString.endsWith (parsePath path) [WString.slash] then
      parsePath path <+: Text.decodeURLEscapeSequences urlPath
    else Text.decodeURLEscapeSequences urlPath = parsePath path

/-- A source that is spelled by parts matches a URL. -/
def SourcePieces.Matches (url : KURL) : SourcePieces → Prop
  | schemeOnly scheme => equalIgnoringCase env url.protocol scheme = true
  | emptyAuthority _ => False
  | hostSource scheme host port path =>
    equalIgnoringCase env url.protocol (scheme.getD env.protocol) = true ∧
      HostMatches env host url.host ∧ PortMatches env (scheme.getD env.protocol) port url.port ∧
          PathMatches path url.path

/-- The URL has the scheme, the host and the port of the origin. -/
def SelfMatches (url : KURL) : Prop :=
  equalIgnoringCase env url.protocol env.protocol = true ∧
    equalIgnoringCase env url.host env.host = true ∧ (url.port = env.port ∨ (url.port = 0 ∧ env.port
        = defaultPort env env.protocol) ∨ (env.port = 0 ∧ url.port = defaultPort env env.protocol))

/-- Whether a text is a keyword, up to case. -/
def isKeyword (keyword : String) (text : WString) : Bool :=
  equalIgnoringCase env (WString.lit keyword) text

/-- A source expression that is valid under the grammar matches a URL: `*` matches every
URL, `'self'` the origin, the other keywords none. -/
def ExpressionMatches (url : KURL) (text : WString) : Prop :=
  if text = anyHost then True
  else if isKeyword env "'self'" text then SelfMatches env url
  else if isKeyword env "'unsafe-inline'" text ∨ isKeyword env "'unsafe-eval'" text then False
  else
    ∃ pieces : SourcePieces, pieces.text = text ∧ pieces.Valid ∧ pieces.Matches env url

end Matching

end Csp
end PalmWebKit
