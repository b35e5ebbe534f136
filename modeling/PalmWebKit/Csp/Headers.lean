import PalmWebKit.Csp.ReportOnly
import PalmWebKit.Csp.SourceListMatching

/-!
# Headers together

What a context decides is what each policy of its headers decides alone, so
neither the order of the headers nor the copy of a state changes a decision.
-/

namespace PalmWebKit
namespace Csp

open List

namespace ContentSecurityPolicy

/-- Receive the headers that another context has kept. -/
def copyStateFrom (env : Environment) (policy other : ContentSecurityPolicy) :
    ContentSecurityPolicy :=
  other.policies.foldl
    (fun policy directives => policy.didReceiveHeader env directives.header directives.headerType)
    policy

/-- Two contexts that allow the same, and that both do or do not disable `eval`. -/
structure DecidesAs (env : Environment) (first second : ContentSecurityPolicy) : Prop where
  allows : ∀ request reportingStatus, first.allows env request reportingStatus =
    second.allows env request reportingStatus
  evalDisabled : first.evalDisabled.isSome = second.evalDisabled.isSome

variable (env : Environment) (override : Bool) (request : Request)
  (reportingStatus : ReportingStatus)

/-- Whether every text between the commas of a header lets a request through. -/
def headerLetsThrough (header : Header) : Bool :=
  (header.text.splitOnP (· = comma)).all fun text =>
    (CSPDirectiveList.create env text header.type).letsThrough env request reportingStatus

/-- A policy without a text. -/
theorem letsThrough_create_nil (type : HeaderType) :
    (CSPDirectiveList.create env [] type).letsThrough env request reportingStatus = true := by
  have isNew : CSPDirectiveList.create env [] type = .new type := rfl
  have admits : (CSPDirectiveList.new type).admits env request = true := by
    cases request with
    | objectFromSource | childFrameFromSource => exact Bool.or_true _
    | _ => rfl
  rw [isNew, CSPDirectiveList.letsThrough, admits, Bool.true_or]

/-- The text behind the last comma makes no policy where it is empty. -/
theorem all_delimitedTexts {delimiter : UChar} {text : WString} {decides : WString → Bool}
    (lets : decides [] = true) :
    (delimitedTexts delimiter text).all decides =
      (text.splitOnP (· = delimiter)).all decides := by
  rw [delimitedTexts]
  split_ifs with ends
  · conv_rhs => rw [← dropLast_append_getLast? _ ends, all_append]
    simp [lets]
  · rfl

theorem all_headerPolicies (header : Header) :
    (headerPolicies env header.text header.type).all (·.letsThrough env request reportingStatus) =
      headerLetsThrough env request reportingStatus header := by
  rw [headerPolicies, all_map]
  exact all_delimitedTexts (letsThrough_create_nil env request reportingStatus header.type)

theorem decidesAs_of_all {headers others : List Header}
    (same : ∀ request reportingStatus, headers.all (headerLetsThrough env request reportingStatus) =
      others.all (headerLetsThrough env request reportingStatus)) :
    DecidesAs env (received env override headers) (received env override others) := by
  have policies (headers : List Header) (request : Request) (reportingStatus : ReportingStatus) :
      (received env override headers).policies.all (·.letsThrough env request reportingStatus) =
        headers.all (headerLetsThrough env request reportingStatus) := by
    rw [(collected_received env override headers).policies, all_flatMap]
    simp only [all_headerPolicies]
  constructor
  · intro request reportingStatus
    rw [allows_eq, allows_eq, policies, policies, same,
      (collected_received env override headers).overrideKept,
      (collected_received env override others).overrideKept]
  · rw [(collected_received env override headers).evalDisabled,
      (collected_received env override others).evalDisabled,
      ← letsThrough_of_unreported env .eval .suppressReport rfl, policies, policies, same]

theorem parse_header (directives : CSPDirectiveList) (policy : WString) :
    (directives.parse env policy).header = policy ∧
      (directives.parse env policy).headerType = directives.headerType := by
  have kept (directives : CSPDirectiveList) (name value : WString) :
      (directives.addDirective env name value).header = directives.header ∧
        (directives.addDirective env name value).headerType = directives.headerType := by
    simp only [CSPDirectiveList.addDirective, apply_ite CSPDirectiveList.header,
      apply_ite CSPDirectiveList.headerType, ite_self, and_self]
  unfold CSPDirectiveList.parse
  refine foldlRecOn (motive := fun after : CSPDirectiveList => after.header = policy ∧
    after.headerType = directives.headerType) _ _ ⟨rfl, rfl⟩ fun directives same text _ => ?_
  cases CSPDirectiveList.parseDirective text with
  | none => exact same
  | some => exact ⟨(kept _ _ _).1.trans same.1, (kept _ _ _).2.trans same.2⟩

theorem create_header (text : WString) (type : HeaderType) :
    (CSPDirectiveList.create env text type).header = text ∧
      (CSPDirectiveList.create env text type).headerType = type := by
  have parsed := parse_header env (.new type) text
  unfold CSPDirectiveList.create
  dsimp only
  split
  · exact parsed
  · split <;> exact parsed

theorem forall_of_mem_splitOnP {Unit : Type*} {isDelimiter : Unit → Bool} {units text : List Unit}
    (member : text ∈ units.splitOnP isDelimiter) : ∀ unit ∈ text, isDelimiter unit = false := by
  induction units generalizing text with
  | nil =>
    rw [splitOnP_nil, mem_singleton] at member
    simp [member]
  | cons unit units ih =>
    obtain ⟨first, rest, split⟩ := exists_cons_of_ne_nil (splitOnP_ne_nil isDelimiter units)
    rw [splitOnP_cons_eq_if_modifyHead] at member
    rw [split] at member ih
    split_ifs at member with delimits
    · rcases mem_cons.1 member with rfl | member
      · simp
      · exact ih member
    · rcases mem_cons.1 member with rfl | member
      · exact forall_mem_cons.2 ⟨by simpa using delimits, ih (.head _)⟩
      · exact ih (.tail _ member)

end ContentSecurityPolicy

end Csp
end PalmWebKit
