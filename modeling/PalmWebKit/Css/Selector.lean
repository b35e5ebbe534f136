import PalmWebKit.Text.CodeUnits

/-!
# Selectors and element trees

The parts of a selector, stored from its rightmost part on, and the elements that
it is matched against.
-/

namespace PalmWebKit
namespace Css

/-- `AtomicString`, the null atom being `none`. -/
abbrev AtomicString := Option WString

/-- `QualifiedName` -/
structure QualifiedName where
  namePrefix : AtomicString
  localName : WString
  namespaceURI : AtomicString
  deriving DecidableEq

def starAtom : WString := WString.lit "*"

def anyQName : QualifiedName :=
  { namePrefix := none, localName := starAtom, namespaceURI := some starAtom }

def styleAttr : QualifiedName :=
  { namePrefix := none, localName := WString.lit "style", namespaceURI := none }

/-- `CSSSelector::Match` -/
inductive Match
  | none
  | id
  | classMatch
  | exact
  | set
  | list
  | hyphen
  | pseudoClass
  | pseudoElement
  | contain
  | beginMatch
  | endMatch
  | pagePseudoClass
  deriving DecidableEq

/-- `CSSSelector::Relation` -/
inductive Relation
  | descendant
  | child
  | directAdjacent
  | indirectAdjacent
  | subSelector
  | shadowDescendant
  deriving DecidableEq

/-- `CSSSelector::PseudoType`, those that the functions below tell apart. -/
inductive PseudoType
  | firstLine
  | firstLetter
  | selection
  | before
  | after
  | scrollbar
  | scrollbarButton
  | scrollbarCorner
  | scrollbarThumb
  | scrollbarTrack
  | scrollbarTrackPiece
  | resizer
  | fullScreen
  | fullScreenDocument
  | fullScreenAncestor
  | animatingFullScreenTransition
  | link
  | visited
  | anyLink
  | focus
  | userAgentCustomElement
  | webKitCustomElement
  | other (code : Nat)
  deriving DecidableEq

inductive PseudoId
  | noPseudo
  | firstLine
  | firstLetter
  | before
  | after
  | selection
  | scrollbar
  | scrollbarThumb
  | scrollbarButton
  | scrollbarTrack
  | scrollbarTrackPiece
  | scrollbarCorner
  | resizer
  | fullScreen
  | fullScreenDocument
  | fullScreenAncestor
  | animatingFullScreenTransition
  deriving DecidableEq

/-- `CSSSelector::pseudoId` -/
def pseudoId : PseudoType → PseudoId
  | .firstLine => .firstLine
  | .firstLetter => .firstLetter
  | .selection => .selection
  | .before => .before
  | .after => .after
  | .scrollbar => .scrollbar
  | .scrollbarButton => .scrollbarButton
  | .scrollbarCorner => .scrollbarCorner
  | .scrollbarThumb => .scrollbarThumb
  | .scrollbarTrack => .scrollbarTrack
  | .scrollbarTrackPiece => .scrollbarTrackPiece
  | .resizer => .resizer
  | .fullScreen => .fullScreen
  | .fullScreenDocument => .fullScreenDocument
  | .fullScreenAncestor => .fullScreenAncestor
  | .animatingFullScreenTransition => .animatingFullScreenTransition
  | _ => .noPseudo

/-- One `CSSSelector` of the array that a selector is stored in.  Its relation is the
one to the next part. -/
structure SelectorPart where
  matchKind : Match
  tag : QualifiedName
  value : AtomicString
  relation : Relation
  pseudoType : PseudoType
  attributeName : QualifiedName
  deriving DecidableEq

/-- The rightmost part of a selector and its tag history. -/
structure CSSSelector where
  part : SelectorPart
  tagHistory : List SelectorPart
  deriving DecidableEq

namespace SelectorPart

def hasTag (part : SelectorPart) : Bool := decide (part.tag ≠ anyQName)

def isCustomPseudoElement (part : SelectorPart) : Bool :=
  part.matchKind = .pseudoElement &&
    (part.pseudoType = .userAgentCustomElement || part.pseudoType = .webKitCustomElement)

end SelectorPart

/-- The place of an element: a child of the document or of a fragment, of an element, or
of one of the shadow roots of a host.  Only the children that are elements are counted. -/
inductive Element
  | topLevel (index : Nat)
  | child (parent : Element) (index : Nat)
  | inShadowRoot (host : Element) (root index : Nat)
  deriving DecidableEq

namespace Element

def parentElement : Element → Option Element
  | .topLevel _ => none
  | .child parent _ => some parent
  | .inShadowRoot _ _ _ => none

def parentOrHostElement : Element → Option Element
  | .topLevel _ => none
  | .child parent _ => some parent
  | .inShadowRoot host _ _ => some host

def shadowHost : Element → Option Element
  | .topLevel _ => none
  | .child parent _ => parent.shadowHost
  | .inShadowRoot host _ _ => some host

/-- The shadow root of the tree an element is in, none for the document's own tree. -/
def treeScope : Element → Option (Element × Nat)
  | .topLevel _ => none
  | .child parent _ => parent.treeScope
  | .inShadowRoot host root _ => some (host, root)

/-- The elements that `parentElement` leads to, the parent first. -/
def ancestors : Element → List Element
  | .topLevel _ => []
  | .child parent _ => parent :: parent.ancestors
  | .inShadowRoot _ _ _ => []

/-- The elements that `parentOrHostElement` leads to, the parent or host first. -/
def ancestorsOrHosts : Element → List Element
  | .topLevel _ => []
  | .child parent _ => parent :: parent.ancestorsOrHosts
  | .inShadowRoot host _ _ => host :: host.ancestorsOrHosts

/-- The element with another number among the same siblings. -/
def withIndex : Element → Nat → Element
  | .topLevel _, index => .topLevel index
  | .child parent _, index => .child parent index
  | .inShadowRoot host root _, index => .inShadowRoot host root index

def index : Element → Nat
  | .topLevel index => index
  | .child _ index => index
  | .inShadowRoot _ _ index => index

/-- The elements that `previousElementSibling` leads to, the nearest first. -/
def previousSiblings (element : Element) : List Element :=
  ((List.range element.index).map element.withIndex).reverse

def previousElementSibling (element : Element) : Option Element := element.previousSiblings.head?

end Element

inductive ShadowRootType
  | userAgentShadowRoot
  | authorShadowRoot
  deriving DecidableEq

/-- What the tests read of an element.  The class names belong to a `StyledElement`. -/
structure ElementData where
  localName : WString
  namespaceURI : AtomicString
  idForStyleResolution : AtomicString
  isStyledElement : Bool
  classNames : Option (List WString)
  styled : classNames.isSome → isStyledElement = true
  isLink : Bool
  shadowRoot : Option ShadowRootType
  shadowPseudoId : AtomicString

namespace ElementData

def hasID (data : ElementData) : Bool := data.idForStyleResolution.isSome

def hasClass (data : ElementData) : Bool := data.classNames.isSome

end ElementData

/-- A `div`, with nothing else to be tested. -/
def divElement : ElementData where
  localName := WString.lit "div"
  namespaceURI := none
  idForStyleResolution := none
  isStyledElement := true
  classNames := none
  styled := fun _ => rfl
  isLink := false
  shadowRoot := none
  shadowPseudoId := none

/-- A document: what there is to read at every place. -/
abbrev Document := Element → ElementData

section Tests

variable (document : Document)

/-- `SelectorChecker::tagMatches` -/
def tagMatches (element : Element) (part : SelectorPart) : Bool :=
  if part.hasTag then
    if part.tag.localName ≠ starAtom ∧ part.tag.localName ≠ (document element).localName then false
    else
      decide (part.tag.namespaceURI = some starAtom) ||
        decide (part.tag.namespaceURI = (document element).namespaceURI)
  else true

def checkClassValue (element : Element) (value : AtomicString) : Bool :=
  match (document element).classNames, value with
  | some classNames, some value => classNames.contains value
  | _, _ => false

def checkIDValue (element : Element) (value : AtomicString) : Bool :=
  (document element).hasID && decide ((document element).idForStyleResolution = value)

end Tests

end Css
end PalmWebKit
