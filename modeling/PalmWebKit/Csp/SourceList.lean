import PalmWebKit.Text.EscapeSequences

/-!
# Source lists

`CSPSourceList`: how the value of a directive is read, and how its sources are matched
against a URL.
-/

namespace PalmWebKit
namespace Csp

/-- What a policy reads of its context: the origin and the URL of the context, Unicode
case folding, what lies in memory behind a literal, the URL inside a `blob` or `filesystem`
URL, the schemes that bypass every policy, and whether the newer directives are compiled
in. -/
structure Environment where
  protocol : WString
  host : WString
  port : Nat
  url : KURL
  foldCase : UChar → UChar
  behindLiteral : Nat → UChar
  effectiveURL : KURL → KURL
  schemeShouldBypass : WString → Bool
  cspNext : Bool

def isASCIIAlpha (unit : UChar) : Bool := (65 ≤ unit && unit ≤ 90) || (97 ≤ unit && unit ≤ 122)

def isASCIIAlphanumeric (unit : UChar) : Bool := isASCIIAlpha unit || WString.isASCIIDigit unit

def isPathComponentCharacter (unit : UChar) : Bool := unit ≠ 63 && unit ≠ 35

def isHostCharacter (unit : UChar) : Bool := isASCIIAlphanumeric unit || unit = WString.dash

def isSchemeContinuationCharacter (unit : UChar) : Bool :=
  isASCIIAlphanumeric unit || unit = 43 || unit = WString.dash || unit = WString.dot

def colon : UChar := 58

def star : UChar := 42

def isNotColonOrSlash (unit : UChar) : Bool := unit ≠ colon && unit ≠ WString.slash

section Sources

variable (env : Environment)

def equalIgnoringCase (first second : WString) : Bool :=
  first.map env.foldCase = second.map env.foldCase

/-- A position of a literal, its terminator included, and of the memory behind it. -/
def memoryAt (literal : String) (position : Nat) : UChar :=
  (WString.lit literal ++ [0]).getD position (env.behindLiteral position)

/-- `equalIgnoringCase` of a literal and characters with their number: it compares as many
characters as there are, wherever the literal ends. -/
def equalsLiteral (literal : String) : Nat → WString → Bool
  | _, [] => true
  | position, unit :: rest =>
    env.foldCase unit = env.foldCase (memoryAt env literal position) &&
      equalsLiteral literal (position + 1) rest

/-- `startsWith` without regard to case. -/
def startsWithIgnoringCase (text start : WString) : Bool :=
  WString.startsWith (text.map env.foldCase) (start.map env.foldCase)

/-- `endsWith` without regard to case. -/
def endsWithIgnoringCase (text ending : WString) : Bool :=
  WString.endsWith (text.map env.foldCase) (ending.map env.foldCase)

/-- The default ports, zero for another scheme. -/
def defaultPort (protocol : WString) : Nat :=
  if equalIgnoringCase env protocol (WString.lit "http") then 80
  else if equalIgnoringCase env protocol (WString.lit "https") then 443
  else if equalIgnoringCase env protocol (WString.lit "ftp") then 21
  else if equalIgnoringCase env protocol (WString.lit "ftps") then 990
  else 0

/-- `isDefaultPortForProtocol`, whose port is an `unsigned short`. -/
def isDefaultPortForProtocol (port : Nat) (protocol : WString) : Bool :=
  if protocol = [] then false
  else defaultPort env protocol = port % 2 ^ 16

structure CSPSource where
  scheme : WString
  host : WString
  port : Nat
  path : WString
  hostHasWildcard : Bool
  portHasWildcard : Bool
  deriving DecidableEq, Repr

namespace CSPSource

variable (source : CSPSource) (url : KURL)

def schemeMatches : Bool := equalIgnoringCase env url.protocol source.scheme

def hostMatches : Bool :=
  equalIgnoringCase env url.host source.host ||
    (source.hostHasWildcard && endsWithIgnoringCase env url.host (WString.dot :: source.host))

def pathMatches : Bool :=
  if source.path = [] then true
  else
    let path := Text.decodeURLEscapeSequences url.path
    if WString.endsWith source.path [WString.slash] then
      startsWithIgnoringCase env path source.path
    else path = source.path

def portMatches : Bool :=
  if source.portHasWildcard then true
  else if url.port = source.port then true
  else if url.port = 0 then
    isDefaultPortForProtocol env source.port source.scheme
  else if source.port = 0 then
    isDefaultPortForProtocol env url.port source.scheme
  else false

def isSchemeOnly : Bool := source.host = []

/-- `CSPSource::matches` -/
def isMatch : Bool :=
  if !source.schemeMatches env url then false
  else if source.isSchemeOnly then true
  else
    source.hostMatches env url && source.portMatches env url &&
      source.pathMatches env url

end CSPSource

end Sources

section Parsing

/-- The parts that `parseSource` leaves, empty where it leaves none. -/
structure SourceParts where
  scheme : WString
  host : WString
  port : Nat
  path : WString
  hostHasWildcard : Bool
  portHasWildcard : Bool
  deriving DecidableEq, Repr

/-- What a source expression adds to the list. -/
inductive SourceExpression
  | star
  | self
  | unsafeInline
  | unsafeEval
  | parts (parts : SourceParts)
  deriving DecidableEq, Repr

def parseScheme : WString → Option WString
  | [] => none
  | first :: rest =>
    if isASCIIAlpha first ∧ rest.dropWhile isSchemeContinuationCharacter = [] then
      some (first :: rest)
    else none

/-- The loop of `parseHost`, inside a label or at the start of one. -/
def readLabels : Bool → WString → Bool
  | _, [] => true
  | false, unit :: rest => if isHostCharacter unit then readLabels true rest else false
  | true, unit :: rest =>
    if isHostCharacter unit then readLabels true rest
    else if unit = WString.dot then readLabels false rest
    else false

/-- The host and whether it has a wildcard. -/
def parseHost (text : WString) : Option (WString × Bool) :=
  match text with
  | [] => none
  | first :: rest =>
    if first = star then
      match rest with
      | [] => some ([], true)
      | second :: host =>
        if second ≠ WString.dot then none
        else if readLabels false host then some (host, true) else none
    else if readLabels false text then some (text, false)
    else none

/-- The digits of `toIntegralType<int>` in base ten. -/
def charactersToIntStrict : Nat → WString → Option Nat
  | value, [] => some value
  | value, unit :: rest =>
    let digitValue := unit.toNat - 48
    let integralMax := 2 ^ 31 - 1
    if value > integralMax / 10 ∨
        (value = integralMax / 10 ∧ digitValue > integralMax % 10) then none
    else charactersToIntStrict (10 * value + digitValue) rest

/-- The port behind the colon and whether it is a wildcard. -/
def parsePort (text : WString) : Option (Nat × Bool) :=
  if text = [] then none
  else if text = [star] then some (0, true)
  else if text.dropWhile WString.isASCIIDigit ≠ [] then none
  else (charactersToIntStrict 0 text).map fun port => (port, false)

def parsePath (text : WString) : WString :=
  Text.decodeURLEscapeSequences (text.takeWhile isPathComponentCharacter)

/-- The end of `parseSource`: a host with its port and path. -/
def parseHostPortPath (scheme hostText rest : WString) : Option SourceParts :=
  let portText :=
    if rest.head? = some colon then
      some (rest.tail.takeWhile (· ≠ WString.slash))
    else none
  let pathText := if rest.head? = some colon then rest.dropWhile (· ≠ WString.slash) else rest
  if pathText ≠ [] ∧ hostText = [] ∧ portText = none then none
  else
    match parseHost hostText, (portText.map parsePort).getD (some (0, false)) with
    | some (host, hostHasWildcard), some (port, portHasWildcard) =>
      some
        { scheme, host, port, hostHasWildcard, portHasWildcard
          path := if pathText ≠ [] then parsePath pathText else [] }
    | _, _ => none

/-- `parseSource` behind its tests for keywords. -/
def parseSourceParts (text : WString) : Option SourceParts :=
  let before := text.takeWhile isNotColonOrSlash
  match text.dropWhile isNotColonOrSlash with
  | [] =>
    (parseHost before).map fun (host, hostHasWildcard) =>
      { scheme := [], host, port := 0, path := [], hostHasWildcard
        portHasWildcard := false }
  | unit :: behind =>
    if unit = WString.slash then
      match parseHost before with
      | none => none
      | some (host, hostHasWildcard) =>
        let path := parsePath (unit :: behind)
        -- parsePath does not move the position, which is still at the slash.
        if unit :: behind ≠ [] then none
        else
          some
            { scheme := [], host, port := 0, path, hostHasWildcard
              portHasWildcard := false }
    else
      match behind with
      | [] =>
        (parseScheme before).map fun scheme =>
          { scheme, host := [], port := 0, path := [], hostHasWildcard := false
            portHasWildcard := false }
      | first :: others =>
        if first = WString.slash then
          match parseScheme before, others with
          | some scheme, second :: authority =>
            if second ≠ WString.slash then none
            else if authority = [] then
              some
                { scheme, host := [], port := 0, path := [], hostHasWildcard := false
                  portHasWildcard := false }
            else
              parseHostPortPath scheme (authority.takeWhile isNotColonOrSlash)
                (authority.dropWhile isNotColonOrSlash)
          | _, _ => none
        else parseHostPortPath [] before (unit :: behind)

variable (env : Environment)

/-- `CSPSourceList::parseSource` -/
def parseSource (text : WString) : Option SourceExpression :=
  if text = [] then none
  else if text = [star] then some .star
  else if equalsLiteral env "'self'" 0 text then some .self
  else if equalsLiteral env "'unsafe-inline'" 0 text then some .unsafeInline
  else if equalsLiteral env "'unsafe-eval'" 0 text then some .unsafeEval
  else (parseSourceParts text).map .parts

structure CSPSourceList where
  list : List CSPSource
  allowStar : Bool
  allowInline : Bool
  allowEval : Bool
  deriving DecidableEq, Repr

namespace CSPSourceList

def empty : CSPSourceList :=
  { list := [], allowStar := false, allowInline := false, allowEval := false }

/-- What one source expression does to the list. -/
def addSource (sources : CSPSourceList) (text : WString) : CSPSourceList :=
  match parseSource env text with
  | none => sources
  | some .star => { sources with allowStar := true }
  | some .self =>
    let self : CSPSource :=
      { scheme := env.protocol, host := env.host, port := env.port
        path := [], hostHasWildcard := false, portHasWildcard := false }
    { sources with list := sources.list ++ [self] }
  | some .unsafeInline => { sources with allowInline := true }
  | some .unsafeEval => { sources with allowEval := true }
  | some (.parts parts) =>
    if parts.scheme = [] ∧ parts.host = [] then sources
    else
      let source : CSPSource :=
        { scheme := if parts.scheme = [] then env.protocol else parts.scheme
          host := parts.host, port := parts.port, path := parts.path
          hostHasWildcard := parts.hostHasWildcard
          portHasWildcard := parts.portHasWildcard }
      { sources with list := sources.list ++ [source] }

/-- The texts between white space. -/
def sourceTexts (value : WString) : List WString :=
  (value.splitOnP WString.isASCIISpace).filter (· ≠ [])

/-- `CSPSourceList::parse` -/
def parse (value : WString) : CSPSourceList :=
  match sourceTexts value with
  | [] => empty
  | first :: others =>
    if equalsLiteral env "'none'" 0 first then empty
    else (first :: others).foldl (addSource env) empty

/-- `CSPSourceList::matches` -/
def isMatch (sources : CSPSourceList) (url : KURL) : Bool :=
  if sources.allowStar then true
  else
    let effectiveURL := env.effectiveURL url
    sources.list.any fun source => source.isMatch env effectiveURL

end CSPSourceList

end Parsing

end Csp
end PalmWebKit
