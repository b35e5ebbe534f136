import PalmWebKit.Css.Selector

/-!
# Recursive selector checking

`SelectorChecker::checkSelector`.  The tests of attributes and pseudo classes are a
parameter that may look at the whole context.
-/

namespace PalmWebKit
namespace Css

inductive SelectorMatch
  | selectorMatches
  | selectorFailsLocally
  | selectorFailsAllSiblings
  | selectorFailsCompletely
  deriving DecidableEq

inductive VisitedMatchType
  | visitedMatchDisabled
  | visitedMatchEnabled
  deriving DecidableEq

/-- `SelectorChecker::Mode` -/
inductive Mode
  | resolvingStyle
  | collectingRules
  | queryingRules
  | sharingRules
  deriving DecidableEq

/-- The node that a scope is: an element, or the root of a tree of elements. -/
inductive ScopeNode
  | element (place : Element)
  | root (treeScope : Option (Element × Nat))
  deriving DecidableEq

def ScopeNode.treeScope : ScopeNode → Option (Element × Nat)
  | .element place => place.treeScope
  | .root treeScope => treeScope

/-- `SelectorCheckingContext` without its selector.  Of the styles only their presence
is read. -/
structure SelectorCheckingContext where
  element : Element
  scope : Option ScopeNode
  visitedMatchType : VisitedMatchType
  pseudoStyle : PseudoId
  hasElementStyle : Bool
  hasElementParentStyle : Bool
  isSubSelector : Bool
  hasScrollbarPseudo : Bool
  hasSelectionPseudo : Bool
  deriving DecidableEq

/-- The constructor of `SelectorCheckingContext`. -/
def SelectorCheckingContext.create (element : Element)
    (visitedMatchType : VisitedMatchType) : SelectorCheckingContext :=
  { element, scope := none, visitedMatchType, pseudoStyle := .noPseudo
    hasElementStyle := false, hasElementParentStyle := false, isSubSelector := false
    hasScrollbarPseudo := false, hasSelectionPseudo := false }

/-- What a check reads besides the selector: the document, the mode, whether a
scrollbar is styled, and the tests of attributes and pseudo classes. -/
structure SelectorChecker where
  document : Document
  mode : Mode
  scrollbarForStyleResolve : Bool
  otherTest : SelectorPart → SelectorCheckingContext → Bool

namespace SelectorChecker

variable (checker : SelectorChecker)

/-- `SelectorChecker::checkOneSelector` -/
def checkOneSelector (part : SelectorPart) (context : SelectorCheckingContext) : Bool :=
  if ¬ tagMatches checker.document context.element part then false
  else
    match part.matchKind with
    | .classMatch => checkClassValue checker.document context.element part.value
    | .id => checkIDValue checker.document context.element part.value
    | .none => true
    | _ => checker.otherTest part context

/-- The tests of a pseudo element, which leave the pseudo id of the whole selector, or
nothing when they fail. -/
def checkPseudoElement (part : SelectorPart) (context : SelectorCheckingContext)
    (dynamicPseudo : PseudoId) : Option PseudoId :=
  if part.matchKind ≠ .pseudoElement then some dynamicPseudo
  else if part.isCustomPseudoElement then
    match (checker.document context.element).shadowRoot with
    | none => none
    | some root =>
      if (checker.document context.element).shadowPseudoId ≠ part.value then none
      else if part.pseudoType = .webKitCustomElement ∧ root ≠ .userAgentShadowRoot then none
      else some dynamicPseudo
  else if (!context.hasElementStyle && checker.mode = .resolvingStyle) ||
      checker.mode = .queryingRules then none
  else
    let id := pseudoId part.pseudoType
    if id ≠ .noPseudo ∧ checker.mode ≠ .sharingRules then some id else some dynamicPseudo

/-- The context of the next part at another element. -/
def nextContext (part : SelectorPart) (context : SelectorCheckingContext)
    (element : Element) : SelectorCheckingContext :=
  { context with
    element
    visitedMatchType :=
      if ¬ context.isSubSelector ∧ ((checker.document context.element).isLink ∨
            part.relation ≠ .descendant ∧ part.relation ≠ .child)
      then .visitedMatchDisabled
      else context.visitedMatchType
    pseudoStyle := .noPseudo
    isSubSelector := false
    hasElementStyle := false
    hasElementParentStyle := false }

/-- The context of the next part at the same element. -/
def subSelectorContext (context : SelectorCheckingContext)
    (dynamicPseudo : PseudoId) : SelectorCheckingContext :=
  { context with
    hasScrollbarPseudo :=
      checker.scrollbarForStyleResolve || dynamicPseudo = .scrollbarCorner ||
        dynamicPseudo = .resizer
    hasSelectionPseudo := dynamicPseudo = .selection
    isSubSelector := true }

/-- A pseudo element is not followed by anything but what is allowed there. -/
def isInvalidAfterPseudo (context : SelectorCheckingContext) (dynamicPseudo : PseudoId)
    (next : SelectorPart) : Bool :=
  let nextContext := checker.subSelectorContext context dynamicPseudo
  (context.hasElementStyle || checker.mode = .collectingRules || checker.mode = .queryingRules) &&
    dynamicPseudo ≠ .noPseudo && !nextContext.hasSelectionPseudo &&
    !(nextContext.hasScrollbarPseudo && next.matchKind = .pseudoClass)

/-- The loop of the descendant combinator. -/
def checkAncestors (check : Element → PseudoId → SelectorMatch × PseudoId)
    (scope : Option ScopeNode) : List Element → PseudoId → SelectorMatch
  | [], _ => .selectorFailsCompletely
  | element :: ancestors, ignoreDynamicPseudo =>
    let (result, ignoreDynamicPseudo) := check element ignoreDynamicPseudo
    if result = .selectorMatches ∨ result = .selectorFailsCompletely then result
    else if some (.element element) = scope then .selectorFailsCompletely
    else checkAncestors check scope ancestors ignoreDynamicPseudo

/-- The loop of the indirect adjacent combinator. -/
def checkPreviousSiblings (check : Element → PseudoId → SelectorMatch × PseudoId) :
    List Element → PseudoId → SelectorMatch
  | [], _ => .selectorFailsAllSiblings
  | element :: siblings, ignoreDynamicPseudo =>
    let (result, ignoreDynamicPseudo) := check element ignoreDynamicPseudo
    if result = .selectorMatches ∨ result = .selectorFailsAllSiblings ∨
        result = .selectorFailsCompletely then result
    else checkPreviousSiblings check siblings ignoreDynamicPseudo

/-- The check of one element that may not be there. -/
def checkElement (check : Element → PseudoId → SelectorMatch × PseudoId)
    (missing : SelectorMatch) : Option Element → SelectorMatch
  | none => missing
  | some element => (check element .noPseudo).1

/-- The switch over the relations other than that to the same element. -/
def checkRelation (check : Element → PseudoId → SelectorMatch × PseudoId) (relation : Relation)
    (context : SelectorCheckingContext) : SelectorMatch :=
  match relation with
  | .descendant =>
    checkAncestors check context.scope context.element.ancestors .noPseudo
  | .child => checkElement check .selectorFailsCompletely context.element.parentElement
  | .directAdjacent =>
    checkElement check .selectorFailsAllSiblings context.element.previousElementSibling
  | .indirectAdjacent =>
    checkPreviousSiblings check context.element.previousSiblings .noPseudo
  | .shadowDescendant =>
    if context.scope.map ScopeNode.treeScope = some context.element.treeScope then
      .selectorFailsCompletely
    else checkElement check .selectorFailsCompletely context.element.shadowHost
  | .subSelector => .selectorFailsCompletely

/-- `SelectorChecker::checkSelector`, with the pseudo id that it leaves. -/
def checkSelector :
    SelectorPart → List SelectorPart → SelectorCheckingContext → PseudoId → SelectorMatch × PseudoId
  | part, tagHistory, context, dynamicPseudo =>
    if ¬ checker.checkOneSelector part context then (.selectorFailsLocally, dynamicPseudo)
    else
      match checker.checkPseudoElement part context dynamicPseudo with
      | none => (.selectorFailsLocally, dynamicPseudo)
      | some dynamicPseudo =>
        match tagHistory with
        | [] => (.selectorMatches, dynamicPseudo)
        | next :: later =>
          if part.relation = .subSelector then
            if checker.isInvalidAfterPseudo context dynamicPseudo next then
              (.selectorFailsCompletely, dynamicPseudo)
            else
              checkSelector next later
                (checker.subSelectorContext context dynamicPseudo) dynamicPseudo
          else if some (.element context.element) = context.scope then
            (.selectorFailsCompletely, dynamicPseudo)
          else if context.pseudoStyle ≠ .noPseudo ∧ context.pseudoStyle ≠ dynamicPseudo then
            (.selectorFailsCompletely, dynamicPseudo)
          else
            (checkRelation
              (fun element ignoreDynamicPseudo =>
                checkSelector next later (checker.nextContext part context element)
                  ignoreDynamicPseudo)
              part.relation context, dynamicPseudo)

/-- `SelectorChecker::checkSelector` from a context. -/
def check (selector : CSSSelector) (context : SelectorCheckingContext) : SelectorMatch :=
  (checker.checkSelector selector.part selector.tagHistory context .noPseudo).1

end SelectorChecker

end Css
end PalmWebKit
