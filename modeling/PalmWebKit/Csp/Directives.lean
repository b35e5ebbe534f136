import PalmWebKit.Csp.SourceList

/-!
# Directive lists

`CSPDirectiveList`: the policy in one header, as it is parsed and as it decides.  What it
reports is left out, and so are `report-uri` and `sandbox`, which no decision reads.
-/

namespace PalmWebKit
namespace Csp

/-- A URL as a decision receives it: its text and its components. -/
structure RequestURL where
  string : WString
  url : KURL
  deriving DecidableEq, Repr

namespace RequestURL

def isEmpty (url : RequestURL) : Bool := url.string = []

def isBlankURL (url : RequestURL) : Bool := url.url.protocol = WString.lit "about"

end RequestURL

/-- How a header is delivered: whether it is only reported, and whether its experimental
directives count. -/
inductive HeaderType
  | reportStableDirectives
  | enforceStableDirectives
  | reportAllDirectives
  | enforceAllDirectives
  deriving DecidableEq, Repr

inductive ReportingStatus
  | sendReport
  | suppressReport
  deriving DecidableEq, Repr

def isDirectiveNameCharacter (unit : UChar) : Bool :=
  isASCIIAlphanumeric unit || unit = WString.dash

def isDirectiveValueCharacter (unit : UChar) : Bool :=
  WString.isASCIISpace unit || (0x21 ≤ unit && unit ≤ 0x7e)

def comma : UChar := 44

def isNonceCharacter (unit : UChar) : Bool :=
  (0x21 ≤ unit && unit ≤ 0x7e) && unit ≠ comma && unit ≠ WString.semicolon

def isMediaTypeCharacter (unit : UChar) : Bool := !WString.isASCIISpace unit && unit ≠ WString.slash

/-- The texts that a loop over a delimiter visits: one behind the last delimiter only when
it is not empty. -/
def delimitedTexts (delimiter : UChar) (text : WString) : List WString :=
  let texts := text.splitOnP (· = delimiter)
  if texts.getLast? = some [] then texts.dropLast else texts

section Directives

variable (env : Environment)

def directiveText (name value : WString) : WString := name ++ [32] ++ value

structure NonceDirective where
  text : WString
  scriptNonce : WString
  deriving DecidableEq, Repr

namespace NonceDirective

/-- `NonceDirective::parse` -/
def parse (value : WString) : WString :=
  let trimmed := value.dropWhile WString.isASCIISpace
  let behind := trimmed.dropWhile isNonceCharacter
  if behind.dropWhile WString.isASCIISpace = [] then trimmed.takeWhile isNonceCharacter
  else []

def create (name value : WString) : NonceDirective :=
  { text := directiveText name value, scriptNonce := parse value }

def allows (directive : NonceDirective) (nonce : WString) : Bool :=
  directive.scriptNonce ≠ [] && WString.stripWhiteSpace nonce = directive.scriptNonce

end NonceDirective

structure MediaListDirective where
  text : WString
  pluginTypes : List WString
  deriving DecidableEq, Repr

namespace MediaListDirective

/-- Two runs of media type characters around a slash. -/
def isMediaType (text : WString) : Bool :=
  text.takeWhile isMediaTypeCharacter ≠ [] &&
    match text.dropWhile isMediaTypeCharacter with
    | [] => false
    | unit :: rest => unit = WString.slash && rest ≠ [] && rest.all isMediaTypeCharacter

/-- `MediaListDirective::parse` -/
def parse (value : WString) : List WString := (CSPSourceList.sourceTexts value).filter isMediaType

def create (name value : WString) : MediaListDirective :=
  { text := directiveText name value, pluginTypes := parse value }

def allows (directive : MediaListDirective) (type : WString) : Bool :=
  directive.pluginTypes.contains type

end MediaListDirective

structure SourceListDirective where
  text : WString
  sourceList : CSPSourceList
  deriving DecidableEq, Repr

namespace SourceListDirective

def create (name value : WString) : SourceListDirective :=
  { text := directiveText name value, sourceList := CSPSourceList.parse env value }

def allows (directive : SourceListDirective) (url : RequestURL) : Bool :=
  directive.sourceList.isMatch env (if url.isEmpty then env.url else url.url)

def allowInline (directive : SourceListDirective) : Bool := directive.sourceList.allowInline

def allowEval (directive : SourceListDirective) : Bool := directive.sourceList.allowEval

end SourceListDirective

end Directives

structure CSPDirectiveList where
  header : WString
  headerType : HeaderType
  experimental : Bool
  reportOnly : Bool
  pluginTypes : Option MediaListDirective
  scriptNonce : Option NonceDirective
  connectSrc : Option SourceListDirective
  defaultSrc : Option SourceListDirective
  fontSrc : Option SourceListDirective
  formAction : Option SourceListDirective
  frameSrc : Option SourceListDirective
  imgSrc : Option SourceListDirective
  mediaSrc : Option SourceListDirective
  objectSrc : Option SourceListDirective
  scriptSrc : Option SourceListDirective
  styleSrc : Option SourceListDirective
  evalDisabledErrorMessage : WString
  deriving DecidableEq, Repr

namespace CSPDirectiveList

section Parsing

variable (env : Environment)

/-- The constructor, before a header is parsed. -/
def new (type : HeaderType) : CSPDirectiveList :=
  { header := [], headerType := type
    experimental := type = .reportAllDirectives || type = .enforceAllDirectives
    reportOnly := type = .reportStableDirectives || type = .reportAllDirectives
    pluginTypes := none, scriptNonce := none, connectSrc := none, defaultSrc := none
    fontSrc := none, formAction := none, frameSrc := none, imgSrc := none, mediaSrc := none
    objectSrc := none, scriptSrc := none, styleSrc := none, evalDisabledErrorMessage := [] }

/-- The name and the value of a directive. -/
def parseDirective (text : WString) : Option (WString × WString) :=
  let trimmed := text.dropWhile WString.isASCIISpace
  let name := trimmed.takeWhile isDirectiveNameCharacter
  if name = [] then none
  else
    match trimmed.dropWhile isDirectiveNameCharacter with
    | [] => some (name, [])
    | unit :: rest =>
      if WString.isASCIISpace unit then
        let value := rest.dropWhile WString.isASCIISpace
        if value.all isDirectiveValueCharacter then some (name, value) else none
      else none

/-- A directive that is there already stays. -/
def setCSPDirective {Directive : Type} (create : WString → WString → Directive)
    (name value : WString) : Option Directive → Option Directive
  | some directive => some directive
  | none => some (create name value)

def addDirective (directives : CSPDirectiveList) (name value : WString) : CSPDirectiveList :=
  let equal (literal : String) := equalIgnoringCase env name (WString.lit literal)
  let set := setCSPDirective (SourceListDirective.create env) name value
  if equal "default-src" then { directives with defaultSrc := set directives.defaultSrc }
  else if equal "script-src" then { directives with scriptSrc := set directives.scriptSrc }
  else if equal "object-src" then { directives with objectSrc := set directives.objectSrc }
  else if equal "frame-src" then { directives with frameSrc := set directives.frameSrc }
  else if equal "img-src" then { directives with imgSrc := set directives.imgSrc }
  else if equal "style-src" then { directives with styleSrc := set directives.styleSrc }
  else if equal "font-src" then { directives with fontSrc := set directives.fontSrc }
  else if equal "media-src" then { directives with mediaSrc := set directives.mediaSrc }
  else if equal "connect-src" then { directives with connectSrc := set directives.connectSrc }
  else if equal "sandbox" then directives
  else if equal "report-uri" then directives
  else if env.cspNext && directives.experimental then
    if equal "form-action" then { directives with formAction := set directives.formAction }
    else if equal "plugin-types" then
      { directives with
        pluginTypes := setCSPDirective MediaListDirective.create name value directives.pluginTypes }
    else if equal "script-nonce" then
      { directives with
        scriptNonce := setCSPDirective NonceDirective.create name value directives.scriptNonce }
    else directives
  else directives

/-- `CSPDirectiveList::parse` -/
def parse (directives : CSPDirectiveList) (policy : WString) : CSPDirectiveList :=
  (delimitedTexts WString.semicolon policy).foldl
    (fun directives text =>
      match parseDirective text with
      | none => directives
      | some (name, value) => directives.addDirective env name value)
    { directives with header := policy }

end Parsing

section Checks

variable (env : Environment) (directives : CSPDirectiveList)

def checkEval (directive : Option SourceListDirective) : Bool :=
  directive.all SourceListDirective.allowEval

def checkInline (directive : Option SourceListDirective) : Bool :=
  directive.all SourceListDirective.allowInline

def checkNonce (directive : Option NonceDirective) (nonce : WString) : Bool :=
  directive.all (·.allows nonce)

def checkSource (directive : Option SourceListDirective) (url : RequestURL) : Bool :=
  directive.all (·.allows env url)

def checkMediaType (directive : Option MediaListDirective) (type typeAttribute : WString) : Bool :=
  match directive with
  | none => true
  | some directive =>
    if typeAttribute = [] ∨ WString.stripWhiteSpace typeAttribute ≠ type then false
    else directive.allows type

def operativeDirective (directive : Option SourceListDirective) : Option SourceListDirective :=
  directive.or directives.defaultSrc

def denyIfEnforcingPolicy : Bool := directives.reportOnly

def checkEvalAndReportViolation (directive : Option SourceListDirective) : Bool :=
  if checkEval directive then true else if !directives.reportOnly then false else true

def checkNonceAndReportViolation (directive : Option NonceDirective) (nonce : WString) : Bool :=
  if checkNonce directive nonce then true else directives.denyIfEnforcingPolicy

def checkMediaTypeAndReportViolation (directive : Option MediaListDirective)
    (type typeAttribute : WString) : Bool :=
  if checkMediaType directive type typeAttribute then true
  else directives.denyIfEnforcingPolicy

def checkInlineAndReportViolation (directive : Option SourceListDirective) : Bool :=
  if checkInline directive then true else if !directives.reportOnly then false else true

def checkSourceAndReportViolation (directive : Option SourceListDirective)
    (url : RequestURL) : Bool :=
  if checkSource env directive url then true else directives.denyIfEnforcingPolicy

end Checks

section Parsing

variable (env : Environment)

/-- What `create` keeps to say when a script is not evaluated. -/
def evalMessage (directive : SourceListDirective) : WString :=
  WString.lit
      ("Refused to evaluate a string as JavaScript because 'unsafe-eval' is not an allowed " ++
        "source of script in the following Content Security Policy directive: \"") ++
    directive.text ++ WString.lit "\".\n"

/-- `CSPDirectiveList::create` -/
def create (header : WString) (type : HeaderType) : CSPDirectiveList :=
  let directives := (new type).parse env header
  match directives.operativeDirective directives.scriptSrc with
  | none => directives
  | some directive =>
    if checkEval (some directive) then directives
    else { directives with evalDisabledErrorMessage := evalMessage directive }

end Parsing

section Decisions

variable (env : Environment) (directives : CSPDirectiveList)

def allowJavaScriptURLs : ReportingStatus → Bool
  | .sendReport =>
    directives.checkInlineAndReportViolation
        (directives.operativeDirective directives.scriptSrc) &&
      directives.checkNonceAndReportViolation directives.scriptNonce []
  | .suppressReport =>
    checkInline (directives.operativeDirective directives.scriptSrc) &&
      checkNonce directives.scriptNonce []

def allowInlineEventHandlers : ReportingStatus → Bool
  | .sendReport =>
    directives.checkInlineAndReportViolation
        (directives.operativeDirective directives.scriptSrc) &&
      directives.checkNonceAndReportViolation directives.scriptNonce []
  | .suppressReport =>
    checkInline (directives.operativeDirective directives.scriptSrc) &&
      checkNonce directives.scriptNonce []

def allowInlineScript : ReportingStatus → Bool
  | .sendReport =>
    directives.checkInlineAndReportViolation
      (directives.operativeDirective directives.scriptSrc)
  | .suppressReport => checkInline (directives.operativeDirective directives.scriptSrc)

def allowInlineStyle : ReportingStatus → Bool
  | .sendReport =>
    directives.checkInlineAndReportViolation
      (directives.operativeDirective directives.styleSrc)
  | .suppressReport => checkInline (directives.operativeDirective directives.styleSrc)

def allowEval : ReportingStatus → Bool
  | .sendReport =>
    directives.checkEvalAndReportViolation
      (directives.operativeDirective directives.scriptSrc)
  | .suppressReport => checkEval (directives.operativeDirective directives.scriptSrc)

/-- The one decision that always reports. -/
def allowScriptNonce (nonce : WString) : Bool :=
  directives.checkNonceAndReportViolation directives.scriptNonce nonce

def allowPluginType (type typeAttribute : WString) : ReportingStatus → Bool
  | .sendReport =>
    directives.checkMediaTypeAndReportViolation directives.pluginTypes type typeAttribute
  | .suppressReport => checkMediaType directives.pluginTypes type typeAttribute

/-- The decisions on a URL, by the directive that they ask. -/
def allowFromSource (directive : Option SourceListDirective)
    (url : RequestURL) : ReportingStatus → Bool
  | .sendReport => directives.checkSourceAndReportViolation env directive url
  | .suppressReport => checkSource env directive url

def allowScriptFromSource (url : RequestURL) : ReportingStatus → Bool :=
  directives.allowFromSource env
    (directives.operativeDirective directives.scriptSrc) url

def allowObjectFromSource (url : RequestURL) (reportingStatus : ReportingStatus) : Bool :=
  if url.isBlankURL then true
  else
    directives.allowFromSource env
      (directives.operativeDirective directives.objectSrc) url reportingStatus

def allowChildFrameFromSource (url : RequestURL) (reportingStatus : ReportingStatus) : Bool :=
  if url.isBlankURL then true
  else
    directives.allowFromSource env
      (directives.operativeDirective directives.frameSrc) url reportingStatus

def allowImageFromSource (url : RequestURL) : ReportingStatus → Bool :=
  directives.allowFromSource env (directives.operativeDirective directives.imgSrc) url

def allowStyleFromSource (url : RequestURL) : ReportingStatus → Bool :=
  directives.allowFromSource env
    (directives.operativeDirective directives.styleSrc) url

def allowFontFromSource (url : RequestURL) : ReportingStatus → Bool :=
  directives.allowFromSource env
    (directives.operativeDirective directives.fontSrc) url

def allowMediaFromSource (url : RequestURL) : ReportingStatus → Bool :=
  directives.allowFromSource env
    (directives.operativeDirective directives.mediaSrc) url

def allowConnectToSource (url : RequestURL) : ReportingStatus → Bool :=
  directives.allowFromSource env
    (directives.operativeDirective directives.connectSrc) url

/-- The directive for forms has no default. -/
def allowFormAction (url : RequestURL) : ReportingStatus → Bool :=
  directives.allowFromSource env directives.formAction url

end Decisions

end CSPDirectiveList

end Csp
end PalmWebKit
