import PalmWebKit.Csp.Directives

/-!
# Content security policies

`ContentSecurityPolicy`: the policies of all headers of a context, and the decisions that
every one of them must allow.
-/

namespace PalmWebKit
namespace Csp

/-- The policies of a context, and the message with which it has disabled `eval`. -/
structure ContentSecurityPolicy where
  overrideInlineStyleAllowed : Bool
  policies : List CSPDirectiveList
  evalDisabled : Option WString
  deriving DecidableEq, Repr

namespace ContentSecurityPolicy

def isAllowedByAll (policies : List CSPDirectiveList)
    (allowed : CSPDirectiveList → ReportingStatus → Bool)
    (reportingStatus : ReportingStatus) : Bool :=
  policies.all fun policy => allowed policy reportingStatus

section Decisions

variable (env : Environment) (policy : ContentSecurityPolicy)

def isAllowedByAllWithURL (policies : List CSPDirectiveList)
    (allowFromURL : CSPDirectiveList → RequestURL → ReportingStatus → Bool) (url : RequestURL)
    (reportingStatus : ReportingStatus) : Bool :=
  if env.schemeShouldBypass url.url.protocol then true
  else isAllowedByAll policies (fun policy => allowFromURL policy url) reportingStatus

def allowJavaScriptURLs : ReportingStatus → Bool :=
  isAllowedByAll policy.policies CSPDirectiveList.allowJavaScriptURLs

def allowInlineEventHandlers : ReportingStatus → Bool :=
  isAllowedByAll policy.policies CSPDirectiveList.allowInlineEventHandlers

def allowInlineScript : ReportingStatus → Bool :=
  isAllowedByAll policy.policies CSPDirectiveList.allowInlineScript

def allowInlineStyle (reportingStatus : ReportingStatus) : Bool :=
  if policy.overrideInlineStyleAllowed then true
  else isAllowedByAll policy.policies CSPDirectiveList.allowInlineStyle reportingStatus

def allowEval : ReportingStatus → Bool := isAllowedByAll policy.policies CSPDirectiveList.allowEval

/-- The message of the first policy that does not allow `eval`. -/
def evalDisabledErrorMessage : WString :=
  match policy.policies.find? fun policy => !policy.allowEval .suppressReport with
  | some policy => policy.evalDisabledErrorMessage
  | none => []

def allowScriptNonce (nonce : WString) : Bool := policy.policies.all (·.allowScriptNonce nonce)

def allowPluginType (type typeAttribute : WString) : ReportingStatus → Bool :=
  isAllowedByAll policy.policies (·.allowPluginType type typeAttribute)

def allowScriptFromSource : RequestURL → ReportingStatus → Bool :=
  isAllowedByAllWithURL env policy.policies (·.allowScriptFromSource env)

def allowObjectFromSource : RequestURL → ReportingStatus → Bool :=
  isAllowedByAllWithURL env policy.policies (·.allowObjectFromSource env)

def allowChildFrameFromSource : RequestURL → ReportingStatus → Bool :=
  isAllowedByAllWithURL env policy.policies (·.allowChildFrameFromSource env)

def allowImageFromSource : RequestURL → ReportingStatus → Bool :=
  isAllowedByAllWithURL env policy.policies (·.allowImageFromSource env)

def allowStyleFromSource : RequestURL → ReportingStatus → Bool :=
  isAllowedByAllWithURL env policy.policies (·.allowStyleFromSource env)

def allowFontFromSource : RequestURL → ReportingStatus → Bool :=
  isAllowedByAllWithURL env policy.policies (·.allowFontFromSource env)

def allowMediaFromSource : RequestURL → ReportingStatus → Bool :=
  isAllowedByAllWithURL env policy.policies (·.allowMediaFromSource env)

def allowConnectToSource : RequestURL → ReportingStatus → Bool :=
  isAllowedByAllWithURL env policy.policies (·.allowConnectToSource env)

def allowFormAction : RequestURL → ReportingStatus → Bool :=
  isAllowedByAllWithURL env policy.policies (·.allowFormAction env)

/-- The policies that one header adds. -/
def headerPolicies (header : WString) (type : HeaderType) : List CSPDirectiveList :=
  (delimitedTexts comma header).map fun text => CSPDirectiveList.create env text type

def didReceiveHeader (header : WString) (type : HeaderType) : ContentSecurityPolicy :=
  let policy :=
    { policy with policies := policy.policies ++ headerPolicies env header type }
  if policy.allowEval .suppressReport then policy
  else { policy with evalDisabled := some policy.evalDisabledErrorMessage }

end Decisions

def setOverrideAllowInlineStyle (policy : ContentSecurityPolicy)
    (value : Bool) : ContentSecurityPolicy :=
  { policy with overrideInlineStyleAllowed := value }

def empty : ContentSecurityPolicy :=
  { overrideInlineStyleAllowed := false, policies := [], evalDisabled := none }

end ContentSecurityPolicy

/-- A decision that a policy is asked for. -/
inductive Request
  | javaScriptURLs
  | inlineEventHandlers
  | inlineScript
  | inlineStyle
  | eval
  | scriptNonce (nonce : WString)
  | pluginType (type typeAttribute : WString)
  | scriptFromSource (url : RequestURL)
  | objectFromSource (url : RequestURL)
  | childFrameFromSource (url : RequestURL)
  | imageFromSource (url : RequestURL)
  | styleFromSource (url : RequestURL)
  | fontFromSource (url : RequestURL)
  | mediaFromSource (url : RequestURL)
  | connectToSource (url : RequestURL)
  | formAction (url : RequestURL)
  deriving DecidableEq, Repr

namespace ContentSecurityPolicy

/-- The decision of the `allow` function that a request names. -/
def allows (env : Environment)
    (policy : ContentSecurityPolicy) : Request → ReportingStatus → Bool
  | .javaScriptURLs => policy.allowJavaScriptURLs
  | .inlineEventHandlers => policy.allowInlineEventHandlers
  | .inlineScript => policy.allowInlineScript
  | .inlineStyle => policy.allowInlineStyle
  | .eval => policy.allowEval
  | .scriptNonce nonce => fun _ => policy.allowScriptNonce nonce
  | .pluginType type typeAttribute => policy.allowPluginType type typeAttribute
  | .scriptFromSource url => policy.allowScriptFromSource env url
  | .objectFromSource url => policy.allowObjectFromSource env url
  | .childFrameFromSource url => policy.allowChildFrameFromSource env url
  | .imageFromSource url => policy.allowImageFromSource env url
  | .styleFromSource url => policy.allowStyleFromSource env url
  | .fontFromSource url => policy.allowFontFromSource env url
  | .mediaFromSource url => policy.allowMediaFromSource env url
  | .connectToSource url => policy.allowConnectToSource env url
  | .formAction url => policy.allowFormAction env url

end ContentSecurityPolicy

/-- A header as it is received. -/
structure Header where
  type : HeaderType
  text : WString
  deriving DecidableEq, Repr

namespace Header

def reportOnly (header : Header) : Bool :=
  header.type = .reportStableDirectives || header.type = .reportAllDirectives

end Header

namespace ContentSecurityPolicy

/-- The policy of a context after its headers. -/
def received (env : Environment) (overrideInlineStyleAllowed : Bool)
    (headers : List Header) : ContentSecurityPolicy :=
  headers.foldl
    (fun policy header => policy.didReceiveHeader env header.text header.type)
    (empty.setOverrideAllowInlineStyle overrideInlineStyleAllowed)

end ContentSecurityPolicy

end Csp
end PalmWebKit
