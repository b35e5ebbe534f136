import PalmWebKit.Css.SelectorMatching

/-!
# Fast selector checking

Selectors of descendant, child and same-element combinators are checked by a greedy
search up the ancestors that can go back to one earlier place.
-/

namespace PalmWebKit
namespace Css

/-- `createHtmlCaseInsensitiveAttributesSet` -/
def htmlCaseInsensitiveAttributesSet : List WString :=
  ["accept-charset", "accept", "align", "alink", "axis", "bgcolor", "charset", "checked",
    "clear", "codetype", "color", "compact", "declare", "defer", "dir", "disabled",
    "enctype", "face", "frame", "hreflang", "http-equiv", "lang", "language", "link",
    "media", "method", "multiple", "nohref", "noresize", "noshade", "nowrap", "readonly",
    "rel", "rev", "rules", "scope", "scrolling", "selected", "shape", "target", "text",
    "type", "valign", "valuetype", "vlink"].map WString.lit

def htmlAttributeHasCaseInsensitiveValue (name : QualifiedName) : Bool :=
  name.namePrefix = none && name.namespaceURI = none &&
    htmlCaseInsensitiveAttributesSet.contains name.localName

def isCommonPseudoClassSelector (part : SelectorPart) : Bool :=
  part.matchKind = .pseudoClass &&
    (part.pseudoType = .link || part.pseudoType = .anyLink || part.pseudoType = .visited ||
      part.pseudoType = .focus)

def isFastCheckableRelation (relation : Relation) : Bool :=
  relation = .descendant || relation = .child || relation = .subSelector

def isFastCheckableMatch (part : SelectorPart) : Bool :=
  match part.matchKind with
  | .set => part.attributeName ≠ styleAttr
  | .exact =>
    part.attributeName ≠ styleAttr &&
      !htmlAttributeHasCaseInsensitiveValue part.attributeName
  | .none => true
  | .id => true
  | .classMatch => true
  | _ => false

def isFastCheckableRightmostSelector (part : SelectorPart) : Bool :=
  isFastCheckableRelation part.relation &&
    (isFastCheckableMatch part || isCommonPseudoClassSelector part)

/-- `SelectorChecker::isFastCheckableSelector` -/
def isFastCheckableSelector (selector : CSSSelector) : Bool :=
  isFastCheckableRightmostSelector selector.part &&
    selector.tagHistory.all fun part =>
      isFastCheckableRelation part.relation && isFastCheckableMatch part

/-- An element and its ancestors, none when there is no element. -/
def elementsUp : Option Element → List Element
  | none => []
  | some element => element :: element.ancestors

/-- The variables of the loop of `fastCheckSelector`; no parts stand for a null selector. -/
structure FastCheckState where
  selector : List SelectorPart
  element : Option Element
  topChildOrSubselector : List SelectorPart
  topChildOrSubselectorMatchElement : Option Element

/-- The variables after an element has matched a part. -/
def afterMatch (part : SelectorPart) (tagHistory topChildOrSubselector : List SelectorPart)
    (topChildOrSubselectorMatchElement : Option Element) (element : Element) : FastCheckState :=
  let setsTop := part.relation ≠ .descendant ∧ topChildOrSubselector = []
  { selector := tagHistory
    element := if part.relation ≠ .subSelector then element.parentElement else some element
    topChildOrSubselector :=
      if part.relation = .descendant then []
      else if setsTop then part :: tagHistory else topChildOrSubselector
    topChildOrSubselectorMatchElement :=
      if setsTop then some element else topChildOrSubselectorMatchElement }

section Checking

variable (document : Document) (elementTest : SelectorPart → Element → Bool)

def fastCheckRightmostSelector (part : SelectorPart) (element : Element) : Bool :=
  if ¬ tagMatches document element part then false
  else
    match part.matchKind with
    | .none => true
    | .classMatch => checkClassValue document element part.value
    | .id => checkIDValue document element part.value
    | .exact => elementTest part element
    | .set => elementTest part element
    | .pseudoClass => elementTest part element
    | _ => false

/-- The value test that the switch selects; other parts are asserted not to occur. -/
def fastCheckValue (part : SelectorPart) : Option (Element → Bool) :=
  match part.matchKind with
  | .classMatch => some fun element => checkClassValue document element part.value
  | .id => some fun element => checkIDValue document element part.value
  | .none => some fun _ => true
  | .set => some fun element => elementTest part element
  | .exact => some fun element => elementTest part element
  | _ => none

/-- `fastCheckSingleSelector`, nothing when it returns false. -/
def fastCheckSingleSelector (checkValue : Element → Bool) (part : SelectorPart)
    (tagHistory topChildOrSubselector : List SelectorPart)
    (topChildOrSubselectorMatchElement : Option Element) : List Element → Option FastCheckState
  | [] => none
  | element :: above =>
    if checkValue element && tagMatches document element part then
      some (afterMatch part tagHistory topChildOrSubselector
        topChildOrSubselectorMatchElement element)
    else if topChildOrSubselector ≠ [] then
      topChildOrSubselectorMatchElement.map fun matchElement =>
        -- There may be other matches further up: rewind.
        { selector := topChildOrSubselector
          element := matchElement.parentElement
          topChildOrSubselector := []
          topChildOrSubselectorMatchElement }
    else
      fastCheckSingleSelector checkValue part tagHistory topChildOrSubselector
        topChildOrSubselectorMatchElement above

/-- The loop of `fastCheckSelector`, nothing when the steps run out. -/
def fastCheckLoop : Nat → FastCheckState → Option Bool
  | steps, state =>
    match state.selector with
    | [] => some true
    | part :: tagHistory =>
      match steps with
      | 0 => none
      | steps + 1 =>
        match fastCheckValue document elementTest part with
        | none => none
        | some checkValue =>
          match fastCheckSingleSelector document checkValue part tagHistory
              state.topChildOrSubselector state.topChildOrSubselectorMatchElement
              (elementsUp state.element) with
          | none => some false
          | some next => fastCheckLoop steps next

/-- The variables before the loop. -/
def fastCheckStart (selector : CSSSelector) (element : Element) : FastCheckState :=
  { selector := selector.tagHistory
    element :=
      if selector.part.relation ≠ .subSelector then element.parentElement else some element
    topChildOrSubselector :=
      if selector.part.relation = .child ∨ selector.part.relation = .subSelector then
        selector.part :: selector.tagHistory
      else []
    topChildOrSubselectorMatchElement := none }

/-- `SelectorChecker::fastCheckSelector`, with as many steps as it can need. -/
def fastCheckSelector (selector : CSSSelector) (element : Element) : Option Bool :=
  fastCheckLoop document elementTest
    ((element.ancestors.length + 2) * (selector.tagHistory.length + 1))
    (fastCheckStart selector element)

/-- The fast branch of `SelectorChecker::checkSelector`. -/
def fastCheck (selector : CSSSelector) (element : Element) : Option Bool :=
  if fastCheckRightmostSelector document elementTest selector.part element then
    fastCheckSelector document elementTest selector element
  else some false

end Checking

end Css
end PalmWebKit
