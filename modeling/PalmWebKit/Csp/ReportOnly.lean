import PalmWebKit.Csp.ContentSecurityPolicy

/-!
# Report-only policies

What the report-only policies of a context change.  A decision that reports passes over
them; one that does not, and with it the one that disables `eval`, asks them like the
enforced ones.
-/

namespace PalmWebKit
namespace Csp

open List

namespace Request

/-- Whether a decision takes the path that reports. -/
def isReported : Request → ReportingStatus → Bool
  | .scriptNonce _, _ => true
  | _, reportingStatus => reportingStatus = .sendReport

/-- The URL of a decision on a URL. -/
def url? : Request → Option RequestURL
  | .scriptFromSource url => some url
  | .objectFromSource url => some url
  | .childFrameFromSource url => some url
  | .imageFromSource url => some url
  | .styleFromSource url => some url
  | .fontFromSource url => some url
  | .mediaFromSource url => some url
  | .connectToSource url => some url
  | .formAction url => some url
  | _ => none

/-- Whether a decision asks no policy at all. -/
def asksNoPolicy (env : Environment) (overrideInlineStyleAllowed : Bool)
    (request : Request) : Bool :=
  (request = .inlineStyle && overrideInlineStyleAllowed) ||
    request.url?.any fun url => env.schemeShouldBypass url.url.protocol

end Request

namespace CSPDirectiveList

variable (env : Environment) (directives : CSPDirectiveList)

/-- Whether the directives of a policy admit a request. -/
def admits : Request → Bool
  | .javaScriptURLs =>
    checkInline (directives.operativeDirective directives.scriptSrc) &&
      checkNonce directives.scriptNonce []
  | .inlineEventHandlers =>
    checkInline (directives.operativeDirective directives.scriptSrc) &&
      checkNonce directives.scriptNonce []
  | .inlineScript => checkInline (directives.operativeDirective directives.scriptSrc)
  | .inlineStyle => checkInline (directives.operativeDirective directives.styleSrc)
  | .eval => checkEval (directives.operativeDirective directives.scriptSrc)
  | .scriptNonce nonce => checkNonce directives.scriptNonce nonce
  | .pluginType type typeAttribute => checkMediaType directives.pluginTypes type typeAttribute
  | .scriptFromSource url =>
    checkSource env (directives.operativeDirective directives.scriptSrc) url
  | .objectFromSource url =>
    url.isBlankURL ||
      checkSource env (directives.operativeDirective directives.objectSrc) url
  | .childFrameFromSource url =>
    url.isBlankURL ||
      checkSource env (directives.operativeDirective directives.frameSrc) url
  | .imageFromSource url =>
    checkSource env (directives.operativeDirective directives.imgSrc) url
  | .styleFromSource url =>
    checkSource env (directives.operativeDirective directives.styleSrc) url
  | .fontFromSource url =>
    checkSource env (directives.operativeDirective directives.fontSrc) url
  | .mediaFromSource url =>
    checkSource env (directives.operativeDirective directives.mediaSrc) url
  | .connectToSource url =>
    checkSource env (directives.operativeDirective directives.connectSrc) url
  | .formAction url => checkSource env directives.formAction url

/-- Whether a policy lets a request through: its directives admit it, or the policy is
report-only and the decision reports. -/
def letsThrough (request : Request) (reportingStatus : ReportingStatus) : Bool :=
  directives.admits env request ||
    (directives.reportOnly && request.isReported reportingStatus)

theorem addDirective_reportOnly (name value : WString) :
    (directives.addDirective env name value).reportOnly = directives.reportOnly := by
  simp only [addDirective, apply_ite CSPDirectiveList.reportOnly, ite_self]

theorem parse_reportOnly (policy : WString) :
    (directives.parse env policy).reportOnly = directives.reportOnly := by
  unfold parse
  refine foldlRecOn _ _ (motive := fun parsed : CSPDirectiveList =>
    parsed.reportOnly = directives.reportOnly) rfl ?_
  intro parsed kept text _
  cases parseDirective text with
  | none => exact kept
  | some directive => exact (addDirective_reportOnly env parsed _ _).trans kept

theorem create_reportOnly (header : WString) (type : HeaderType) :
    (create env header type).reportOnly =
      (Header.mk type header).reportOnly := by
  have parsed := parse_reportOnly env (new type) header
  unfold create
  dsimp only
  split
  · exact parsed
  · split <;> exact parsed

section Checks

variable (directive : Option SourceListDirective)

@[simp] theorem checkEvalAndReportViolation_eq : directives.checkEvalAndReportViolation directive =
      (checkEval directive || directives.reportOnly) := by
  unfold checkEvalAndReportViolation
  cases checkEval directive <;> cases directives.reportOnly <;> rfl

@[simp] theorem checkInlineAndReportViolation_eq :
    directives.checkInlineAndReportViolation directive =
      (checkInline directive || directives.reportOnly) := by
  unfold checkInlineAndReportViolation
  cases checkInline directive <;> cases directives.reportOnly <;> rfl

@[simp] theorem checkNonceAndReportViolation_eq (directive : Option NonceDirective)
    (nonce : WString) : directives.checkNonceAndReportViolation directive nonce =
      (checkNonce directive nonce || directives.reportOnly) := by
  unfold checkNonceAndReportViolation
  cases checkNonce directive nonce <;> rfl

@[simp] theorem checkMediaTypeAndReportViolation_eq (directive : Option MediaListDirective)
    (type typeAttribute : WString) :
    directives.checkMediaTypeAndReportViolation directive type typeAttribute =
      (checkMediaType directive type typeAttribute || directives.reportOnly) := by
  unfold checkMediaTypeAndReportViolation
  cases checkMediaType directive type typeAttribute <;> rfl

@[simp] theorem checkSourceAndReportViolation_eq (url : RequestURL) :
    directives.checkSourceAndReportViolation env directive url =
      (checkSource env directive url || directives.reportOnly) := by
  unfold checkSourceAndReportViolation
  cases checkSource env directive url <;> rfl

/-- A decision on a URL consults its directive, and the report-only flag when it reports. -/
theorem allowFromSource_eq (url : RequestURL) (reportingStatus : ReportingStatus) :
    directives.allowFromSource env directive url reportingStatus = (checkSource env directive url ||
        (directives.reportOnly && reportingStatus = .sendReport)) := by
  cases reportingStatus with
  | sendReport | suppressReport => simp [allowFromSource]

end Checks

end CSPDirectiveList

namespace ContentSecurityPolicy

variable (env : Environment)

section Decisions

variable (policy : ContentSecurityPolicy) (request : Request) (reportingStatus : ReportingStatus)

variable (allowed : CSPDirectiveList → ReportingStatus → Bool)

theorem isAllowedByAll_eq (policies : List CSPDirectiveList)
    (lets : ∀ policy, allowed policy reportingStatus =
      policy.letsThrough env request reportingStatus) :
    isAllowedByAll policies allowed reportingStatus =
      policies.all (·.letsThrough env request reportingStatus) := by
  unfold isAllowedByAll
  rw [funext lets]

variable (allowFromURL : CSPDirectiveList → RequestURL → ReportingStatus → Bool)

theorem isAllowedByAllWithURL_eq (policies : List CSPDirectiveList) (url : RequestURL)
    (lets : ∀ policy, allowFromURL policy url reportingStatus =
      policy.letsThrough env request reportingStatus) :
    isAllowedByAllWithURL env policies allowFromURL url reportingStatus =
      (env.schemeShouldBypass url.url.protocol ||
        policies.all (·.letsThrough env request reportingStatus)) := by
  unfold isAllowedByAllWithURL
  rw [isAllowedByAll_eq env request reportingStatus _ policies lets]
  cases env.schemeShouldBypass url.url.protocol <;> rfl

/-- A decision on a URL that goes to one directive of each policy. -/
theorem allowsFromURL_eq (url : RequestURL) (namesURL : request.url? = some url)
    (lets : ∀ policy, allowFromURL policy url reportingStatus =
      policy.letsThrough env request reportingStatus) :
    isAllowedByAllWithURL env policy.policies allowFromURL url reportingStatus =
      (request.asksNoPolicy env policy.overrideInlineStyleAllowed ||
        policy.policies.all (·.letsThrough env request reportingStatus)) := by
  have notInlineStyle : request ≠ .inlineStyle := by
    rintro rfl
    cases namesURL
  rw [isAllowedByAllWithURL_eq env request reportingStatus _ _ url lets]
  simp [Request.asksNoPolicy, namesURL, notInlineStyle]

/-- A decision on anything but a URL or inline style. -/
theorem allowsByAll_eq (notInlineStyle : request ≠ .inlineStyle) (namesNoURL : request.url? = none)
    (lets : ∀ policy, allowed policy reportingStatus =
      policy.letsThrough env request reportingStatus) :
    isAllowedByAll policy.policies allowed reportingStatus =
      (request.asksNoPolicy env policy.overrideInlineStyleAllowed ||
        policy.policies.all (·.letsThrough env request reportingStatus)) := by
  rw [isAllowedByAll_eq env request reportingStatus _ _ lets]
  simp [Request.asksNoPolicy, namesNoURL, notInlineStyle]

/-- Every decision asks every policy, unless it asks none. -/
theorem allows_eq : policy.allows env request reportingStatus =
      (request.asksNoPolicy env policy.overrideInlineStyleAllowed ||
        policy.policies.all (·.letsThrough env request reportingStatus)) := by
  cases request with
  | javaScriptURLs =>
    refine allowsByAll_eq env policy _ _ _ (by simp) rfl fun policy => ?_
    cases reportingStatus <;>
      simp [CSPDirectiveList.allowJavaScriptURLs, CSPDirectiveList.letsThrough,
        CSPDirectiveList.admits, Request.isReported, Bool.or_and_distrib_right]
  | inlineEventHandlers =>
    refine allowsByAll_eq env policy _ _ _ (by simp) rfl fun policy => ?_
    cases reportingStatus <;>
      simp [CSPDirectiveList.allowInlineEventHandlers, CSPDirectiveList.letsThrough,
        CSPDirectiveList.admits, Request.isReported, Bool.or_and_distrib_right]
  | inlineScript =>
    refine allowsByAll_eq env policy _ _ _ (by simp) rfl fun policy => ?_
    cases reportingStatus <;>
      simp [CSPDirectiveList.allowInlineScript, CSPDirectiveList.letsThrough,
        CSPDirectiveList.admits, Request.isReported]
  | inlineStyle =>
    have lets := isAllowedByAll_eq env .inlineStyle reportingStatus
      CSPDirectiveList.allowInlineStyle policy.policies fun policy => by
        cases reportingStatus <;>
          simp [CSPDirectiveList.allowInlineStyle, CSPDirectiveList.letsThrough,
            CSPDirectiveList.admits, Request.isReported]
    simp only [allows, allowInlineStyle, lets, Request.asksNoPolicy, Request.url?]
    cases policy.overrideInlineStyleAllowed <;> simp
  | eval =>
    refine allowsByAll_eq env policy _ _ _ (by simp) rfl fun policy => ?_
    cases reportingStatus <;>
      simp [CSPDirectiveList.allowEval, CSPDirectiveList.letsThrough,
        CSPDirectiveList.admits, Request.isReported]
  | scriptNonce nonce =>
    refine allowsByAll_eq env policy _ _
      (fun policy _ => policy.allowScriptNonce nonce) (by simp) rfl fun policy => ?_
    simp [CSPDirectiveList.allowScriptNonce, CSPDirectiveList.letsThrough,
      CSPDirectiveList.admits, Request.isReported]
  | pluginType type typeAttribute =>
    refine allowsByAll_eq env policy _ _ _ (by simp) rfl fun policy => ?_
    cases reportingStatus <;>
      simp [CSPDirectiveList.allowPluginType, CSPDirectiveList.letsThrough,
        CSPDirectiveList.admits, Request.isReported]
  | scriptFromSource url | imageFromSource url | styleFromSource url | fontFromSource url
  | mediaFromSource url | connectToSource url | formAction url =>
    exact allowsFromURL_eq env policy _ _ _ url rfl fun policy =>
      policy.allowFromSource_eq env _ url reportingStatus
  | objectFromSource url =>
    refine allowsFromURL_eq env policy _ _ _ url rfl fun policy => ?_
    simp only [CSPDirectiveList.allowObjectFromSource, CSPDirectiveList.letsThrough,
      CSPDirectiveList.admits, CSPDirectiveList.allowFromSource_eq, Request.isReported]
    cases url.isBlankURL <;> simp
  | childFrameFromSource url =>
    refine allowsFromURL_eq env policy _ _ _ url rfl fun policy => ?_
    simp only [CSPDirectiveList.allowChildFrameFromSource, CSPDirectiveList.letsThrough,
      CSPDirectiveList.admits, CSPDirectiveList.allowFromSource_eq, Request.isReported]
    cases url.isBlankURL <;> simp

/-- Unreported, `eval` is allowed when the directives of every policy admit it. -/
theorem allowEval_suppressReport : policy.allowEval .suppressReport =
      policy.policies.all (·.admits env .eval) := by
  rfl

end Decisions

section Headers

variable (override : Bool)

/-- What the headers so far have left. -/
structure Collected (headers : List Header) (policy : ContentSecurityPolicy) : Prop where
  overrideKept : policy.overrideInlineStyleAllowed = override
  policies : policy.policies =
    headers.flatMap fun header => headerPolicies env header.text header.type
  evalDisabled : policy.evalDisabled.isSome = !policy.policies.all (·.admits env .eval)

theorem Collected.didReceiveHeader {headers : List Header} {policy : ContentSecurityPolicy}
    (collected : Collected env override headers policy) (header : Header) :
    Collected env override (headers ++ [header])
      (policy.didReceiveHeader env header.text header.type) := by
  have policies : policy.policies ++ headerPolicies env header.text header.type =
      (headers ++ [header]).flatMap fun header =>
        headerPolicies env header.text header.type := by
    simp [collected.policies]
  have evalDisabled := collected.evalDisabled
  unfold ContentSecurityPolicy.didReceiveHeader
  simp only [allowEval_suppressReport env]
  split
  · rename_i allowed
    refine { overrideKept := collected.overrideKept, policies := policies, evalDisabled := ?_ }
    have admittedBefore : policy.policies.all (·.admits env .eval) = true := by
      rw [all_append, Bool.and_eq_true] at allowed
      exact allowed.1
    rw [evalDisabled, admittedBefore, allowed]
  · rename_i denied
    refine { overrideKept := collected.overrideKept, policies := policies, evalDisabled := ?_ }
    rw [Bool.eq_false_of_not_eq_true denied]
    rfl

theorem collected_received (headers : List Header) :
    Collected env override headers (received env override headers) := by
  suffices extended : ∀ (before : List Header) (policy : ContentSecurityPolicy),
      Collected env override before policy → Collected env override (before ++ headers)
          (headers.foldl
            (fun policy header => policy.didReceiveHeader env header.text header.type)
            policy) from
    extended [] _ { overrideKept := rfl, policies := rfl, evalDisabled := rfl }
  induction headers with
  | nil => exact fun before policy collected => by simpa using collected
  | cons header headers ih =>
    intro before policy collected
    simpa using ih (before ++ [header]) _
      (collected.didReceiveHeader env override header)

/-- Removing the report-only headers removes the report-only policies. -/
theorem received_enforced_policies (headers : List Header) :
    (received env override (headers.filter (!·.reportOnly))).policies =
      (received env override headers).policies.filter (!·.reportOnly) := by
  rw [(collected_received env override _).policies, (collected_received env override _).policies]
  induction headers with
  | nil => rfl
  | cons header headers ih =>
    have sameKind : ∀ policy ∈ headerPolicies env header.text header.type,
        policy.reportOnly = header.reportOnly := by
      intro policy policyMember
      obtain ⟨text, -, rfl⟩ := mem_map.1 policyMember
      exact CSPDirectiveList.create_reportOnly env text header.type
    rw [flatMap_cons, filter_append, ← ih]
    cases kind : header.reportOnly with
    | true =>
      have none : (headerPolicies env header.text header.type).filter
          (!·.reportOnly) = [] := by
        rw [filter_eq_nil_iff]
        intro policy policyMember
        simp [sameKind policy policyMember, kind]
      rw [none]
      simp [kind]
    | false =>
      have all : (headerPolicies env header.text header.type).filter
          (!·.reportOnly) = headerPolicies env header.text header.type := by
        rw [filter_eq_self]
        intro policy policyMember
        simp [sameKind policy policyMember, kind]
      rw [all]
      simp [kind]

end Headers

section Agreement

variable (override : Bool) (headers : List Header)
variable (request : Request) (reportingStatus : ReportingStatus)

/-- Report-only policies never block: the decision on a request, and whether `eval` is
disabled, are as without them, and an enforced policy that denies the request on its own
makes the decision a denial. -/
structure ReportOnlyNeverBlocks : Prop where
  sameDecision : (received env override headers).allows env request reportingStatus =
      (received env override (headers.filter (!·.reportOnly))).allows env
        request reportingStatus
  sameEval : (received env override headers).evalDisabled.isSome =
      (received env override (headers.filter (!·.reportOnly))).evalDisabled.isSome
  enforcedDenies : ∀ policy ∈ (received env override headers).policies, policy.reportOnly = false →
        ({ received env override headers with policies := [policy] } :
            ContentSecurityPolicy).allows env request reportingStatus = false →
          (received env override headers).allows env request
            reportingStatus = false

/-- A request that the directives of a report-only policy do not admit is not admitted by
those of an enforced policy either. -/
def RejectionEnforced : Prop :=
  ∀ reporting ∈ (received env override headers).policies,
    reporting.reportOnly = true → reporting.admits env request = false →
      ∃ enforced ∈ (received env override headers).policies,
        enforced.reportOnly = false ∧ enforced.admits env request = false

/-- An enforced policy that denies a request denies it for the context. -/
theorem denies_of_enforced (policy : ContentSecurityPolicy) (directives : CSPDirectiveList)
    (directivesMember : directives ∈ policy.policies)
    (denies : ({ policy with policies := [directives] } : ContentSecurityPolicy).allows
      env request reportingStatus = false) : policy.allows env request reportingStatus = false := by
  rw [allows_eq] at denies ⊢
  rw [Bool.or_eq_false_iff] at denies ⊢
  refine ⟨denies.1, ?_⟩
  rw [all_eq_false]
  refine ⟨directives, directivesMember, ?_⟩
  simpa using denies.2

/-- Over the policies of a context, dropping the report-only ones keeps the verdict of the
directives exactly when an enforced policy rejects what a report-only one rejects. -/
theorem all_admits_filter_iff :
    (received env override headers).policies.all (·.admits env request) =
        ((received env override headers).policies.filter (!·.reportOnly)).all
          (·.admits env request) ↔
      RejectionEnforced env override headers request := by
  unfold RejectionEnforced
  generalize (received env override headers).policies = policies
  constructor
  · intro equal reporting reportingMember _ rejects
    have denied : policies.all (·.admits env request) = false :=
      all_eq_false.2 ⟨reporting, reportingMember, by simp [rejects]⟩
    rw [equal, all_eq_false] at denied
    obtain ⟨enforced, enforcedMember, enforcedRejects⟩ := denied
    rw [mem_filter] at enforcedMember
    exact ⟨enforced, enforcedMember.1, by simpa using enforcedMember.2,
      by simpa using enforcedRejects⟩
  · intro enforcedToo
    cases verdict : (policies.filter (!·.reportOnly)).all (·.admits env request) with
    | false =>
      obtain ⟨enforced, enforcedMember, rejects⟩ := all_eq_false.1 verdict
      exact all_eq_false.2 ⟨enforced, (mem_filter.1 enforcedMember).1, rejects⟩
    | true =>
      rw [all_eq_true] at verdict ⊢
      have enforcedAdmits : ∀ enforced ∈ policies, enforced.reportOnly = false →
          enforced.admits env request = true := fun enforced enforcedMember kind =>
        verdict enforced (mem_filter.2 ⟨enforcedMember, by simp [kind]⟩)
      intro directives directivesMember
      by_contra rejects
      rw [Bool.not_eq_true] at rejects
      cases kind : directives.reportOnly with
      | false => simp [enforcedAdmits directives directivesMember kind] at rejects
      | true =>
        obtain ⟨enforced, enforcedMember, enforcedKind, enforcedRejects⟩ :=
          enforcedToo directives directivesMember kind rejects
        simp [enforcedAdmits enforced enforcedMember enforcedKind] at enforcedRejects

/-- A decision that reports passes over the report-only policies. -/
theorem all_letsThrough_of_reported (policies : List CSPDirectiveList)
    (reported : request.isReported reportingStatus = true) :
    policies.all (·.letsThrough env request reportingStatus) = (policies.filter (!·.reportOnly)).all
        (·.letsThrough env request reportingStatus) := by
  induction policies with
  | nil => rfl
  | cons directives policies ih =>
    rw [all_cons, ih]
    cases kind : directives.reportOnly with
    | false => simp [kind]
    | true => simp [CSPDirectiveList.letsThrough, kind, reported]

/-- A decision that does not report asks the directives alone. -/
theorem letsThrough_of_unreported (unreported : request.isReported reportingStatus = false) :
    (fun directives : CSPDirectiveList =>
        directives.letsThrough env request reportingStatus) =
      (·.admits env request) := by
  funext directives
  simp [CSPDirectiveList.letsThrough, unreported]

theorem sameDecision_iff : (received env override headers).allows env request reportingStatus =
        (received env override (headers.filter (!·.reportOnly))).allows env
          request reportingStatus ↔
      request.isReported reportingStatus = true ∨ request.asksNoPolicy env override = true ∨
          RejectionEnforced env override headers request := by
  rw [allows_eq, allows_eq, received_enforced_policies, (collected_received env override
    _).overrideKept, (collected_received env override _).overrideKept]
  cases asked : request.asksNoPolicy env override with
  | true => simp
  | false =>
    cases reported : request.isReported reportingStatus with
    | true =>
      simp [all_letsThrough_of_reported env request reportingStatus
        (received env override headers).policies reported]
    | false =>
      rw [letsThrough_of_unreported env request reportingStatus reported]
      simpa using all_admits_filter_iff env override headers request

theorem sameEval_iff : (received env override headers).evalDisabled.isSome =
        (received env override (headers.filter (!·.reportOnly))).evalDisabled.isSome ↔
      RejectionEnforced env override headers .eval := by
  rw [(collected_received env override _).evalDisabled, (collected_received env override
    _).evalDisabled, received_enforced_policies, ← all_admits_filter_iff, Bool.not_inj_iff]

end Agreement

end ContentSecurityPolicy

end Csp
end PalmWebKit
