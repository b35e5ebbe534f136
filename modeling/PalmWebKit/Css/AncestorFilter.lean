import PalmWebKit.Css.BloomFilter
import PalmWebKit.Css.SelectorMatching

/-!
# The ancestor filter

While the style of a tree is resolved the hashes of the tag names, ids and classes of all
ancestors are kept in a filter, and a selector is rejected without a check when one that
an ancestor would have to have is not in it.
-/

namespace PalmWebKit
namespace Css

open List

def tagNameSalt : UInt32 := 13

def idAttributeSalt : UInt32 := 17

def classAttributeSalt : UInt32 := 19

/-- `ParentStackFrame` -/
structure ParentStackFrame where
  element : Element
  identifierHashes : List UInt32

/-- The members of `SelectorChecker` that belong to the filter; the last frame of the
stack comes first. -/
structure AncestorFilter where
  parentStack : List ParentStackFrame
  ancestorIdentifierFilter : Option BloomFilter

namespace AncestorFilter

def bloomFilterKeyBits : Nat := 12

def initial : AncestorFilter :=
  { parentStack := [], ancestorIdentifierFilter := none }

section Walk

variable (document : Document) (existingHash : WString → UInt32)

def collectElementIdentifierHashes (element : Element) : List UInt32 :=
  let data := document element
  existingHash data.localName * tagNameSalt ::
    ((data.idForStyleResolution.toList.map fun id => existingHash id * idAttributeSalt) ++
      if data.isStyledElement && data.hasClass then
        (data.classNames.getD []).map fun className => existingHash className * classAttributeSalt
      else [])

/-- `pushParentStackFrame`, with the filter that there has to be. -/
def pushParentStackFrame (parentStack : List ParentStackFrame) (filter : BloomFilter)
    (parent : Element) : AncestorFilter :=
  let identifierHashes := collectElementIdentifierHashes document existingHash parent
  { parentStack := { element := parent, identifierHashes } :: parentStack
    ancestorIdentifierFilter :=
      some (identifierHashes.foldl (BloomFilter.add bloomFilterKeyBits) filter) }

/-- `setupParentStack`; the fast version for a root element pushes the same frame. -/
def setupParentStack (parent : Element) : AncestorFilter :=
  (parent :: parent.ancestorsOrHosts).foldr
    (fun ancestor checker =>
      pushParentStackFrame document existingHash checker.parentStack
        (checker.ancestorIdentifierFilter.getD BloomFilter.clear) ancestor)
    { parentStack := [], ancestorIdentifierFilter := some BloomFilter.clear }

/-- `pushParent`, which is asserted not to be called without a stack. -/
def pushParent (checker : AncestorFilter) (parent : Element) : Option AncestorFilter :=
  match checker.parentStack, checker.ancestorIdentifierFilter with
  | top :: _, some filter =>
    if some top.element ≠ parent.parentOrHostElement then some checker
    else some (pushParentStackFrame document existingHash checker.parentStack filter parent)
  | _, _ => none

/-- `popParent`, which is asserted not to be called without a stack. -/
def popParent (checker : AncestorFilter) : Option AncestorFilter :=
  match checker.parentStack, checker.ancestorIdentifierFilter with
  | top :: rest, some filter =>
    some
      { parentStack := rest
        ancestorIdentifierFilter :=
          if rest = [] then none
          else some (top.identifierHashes.foldl (BloomFilter.remove bloomFilterKeyBits) filter) }
  | _, _ => none

inductive Call
  | setupParentStack (parent : Element)
  | pushParent (parent : Element)
  | popParent
  deriving DecidableEq

def call (checker : AncestorFilter) : Call → Option AncestorFilter
  | .setupParentStack parent => some (setupParentStack document existingHash parent)
  | .pushParent parent => checker.pushParent document existingHash parent
  | .popParent => checker.popParent

/-- The filter after a sequence of calls. -/
def walk (calls : List Call) : Option AncestorFilter :=
  calls.foldlM (fun checker next => checker.call document existingHash next) initial

end Walk

section Collecting

variable (existingHash : WString → UInt32) (maximumIdentifierCount : Nat)

def isEmptyValue (value : AtomicString) : Bool := value.getD [] = []

/-- The hash of a value when it is not empty. -/
def valueHash (value : AtomicString) (salt : UInt32) : List UInt32 :=
  if isEmptyValue value then [] else [existingHash (value.getD []) * salt]

/-- The switch of `collectDescendantSelectorIdentifierHashes`. -/
def collectValueHash (part : SelectorPart) (hashes : List UInt32) : List UInt32 :=
  match part.matchKind with
  | .id => hashes ++ valueHash existingHash part.value idAttributeSalt
  | .classMatch => hashes ++ valueHash existingHash part.value classAttributeSalt
  | _ => hashes

/-- The hashes are written behind those that are there, up to the end of the array. -/
def collectDescendantSelectorIdentifierHashes (part : SelectorPart)
    (hashes : List UInt32) : List UInt32 :=
  let hashes := collectValueHash existingHash part hashes
  if hashes.length = maximumIdentifierCount then hashes
  else if part.tag.localName ≠ starAtom then
    hashes ++ [existingHash part.tag.localName * tagNameSalt]
  else hashes

/-- The loop of `collectIdentifierHashes`; the relation is the one to the first part. -/
def collectIdentifierHashesLoop : Relation → Bool → List SelectorPart → List UInt32 → List UInt32
  | _, _, [], hashes => hashes ++ [0]
  | relation, skipOverSubselectors, part :: later, hashes =>
    let collected :=
      collectDescendantSelectorIdentifierHashes existingHash maximumIdentifierCount part hashes
    let hashes :=
      match relation with
      | .subSelector => if skipOverSubselectors then hashes else collected
      | .descendant => collected
      | .child => collected
      | _ => hashes
    let skipOverSubselectors :=
      match relation with
      | .subSelector => skipOverSubselectors
      | .descendant => false
      | .child => false
      | _ => true
    if hashes.length = maximumIdentifierCount then hashes
    else collectIdentifierHashesLoop part.relation skipOverSubselectors later hashes

/-- `SelectorChecker::collectIdentifierHashes` -/
def collectIdentifierHashes (selector : CSSSelector) : List UInt32 :=
  collectIdentifierHashesLoop existingHash maximumIdentifierCount selector.part.relation true
    selector.tagHistory []

/-- `SelectorChecker::fastRejectSelector`; without a filter it is asserted not to be
called. -/
def fastRejectSelector (checker : AncestorFilter) (identifierHashes : List UInt32) : Bool :=
  match checker.ancestorIdentifierFilter with
  | none => false
  | some filter =>
    ((identifierHashes.take maximumIdentifierCount).takeWhile (· ≠ 0)).any fun hash =>
      !filter.mayContain bloomFilterKeyBits hash

end Collecting

end AncestorFilter

namespace SelectorChecker

/-- The tests of tag, class and id that every check makes. -/
def BasicTest (document : Document) (part : SelectorPart) (element : Element) : Prop :=
  tagMatches document element part = true ∧
    (part.matchKind = .classMatch → checkClassValue document element part.value = true) ∧
    (part.matchKind = .id → checkIDValue document element part.value = true)

section Matching

variable {checker : SelectorChecker} {part : SelectorPart} {context : SelectorCheckingContext}
  {check : Element → PseudoId → SelectorMatch × PseudoId} {dynamicPseudo : PseudoId}
  {elements : List Element} {relation : Relation}

theorem basicTest_of_checkOneSelector (passes : checker.checkOneSelector part context = true) :
    BasicTest checker.document part context.element := by
  rw [checkOneSelector] at passes
  split at passes
  · exact absurd passes (by decide)
  · next tag =>
      refine ⟨not_not.1 tag, fun isClass => ?_, fun isId => ?_⟩
      · rw [isClass] at passes
        exact passes
      · rw [isId] at passes
        exact passes

theorem exists_of_checkAncestors {scope : Option ScopeNode}
    (matched : checkAncestors check scope elements dynamicPseudo = .selectorMatches) :
    ∃ next ∈ elements, ∃ pseudo, (check next pseudo).1 = .selectorMatches := by
  induction elements generalizing dynamicPseudo with
  | nil => exact absurd matched (by simp [checkAncestors])
  | cons element elements ih =>
    rw [checkAncestors] at matched
    dsimp only at matched
    split at matched
    · exact ⟨element, .head _, dynamicPseudo, matched⟩
    · split at matched
      · exact absurd matched (by decide)
      · obtain ⟨next, member, found⟩ := ih matched
        exact ⟨next, .tail _ member, found⟩

theorem exists_of_checkPreviousSiblings
    (matched : checkPreviousSiblings check elements dynamicPseudo = .selectorMatches) :
    ∃ next ∈ elements, ∃ pseudo, (check next pseudo).1 = .selectorMatches := by
  induction elements generalizing dynamicPseudo with
  | nil => exact absurd matched (by simp [checkPreviousSiblings])
  | cons element elements ih =>
    rw [checkPreviousSiblings] at matched
    dsimp only at matched
    split at matched
    · exact ⟨element, .head _, dynamicPseudo, matched⟩
    · obtain ⟨next, member, found⟩ := ih matched
      exact ⟨next, .tail _ member, found⟩

theorem exists_of_checkElement {missing : SelectorMatch} {place : Option Element}
    (fails : missing ≠ .selectorMatches)
    (matched : checkElement check missing place = .selectorMatches) :
    ∃ next, place = some next ∧ ∃ pseudo, (check next pseudo).1 = .selectorMatches := by
  cases place with
  | none => exact absurd matched fails
  | some next => exact ⟨next, rfl, .noPseudo, matched⟩

theorem exists_of_checkRelation
    (matched : checkRelation check relation context = .selectorMatches) :
    ∃ next, Related relation context.element next ∧
      ∃ pseudo, (check next pseudo).1 = .selectorMatches := by
  cases relation with
  | descendant => exact exists_of_checkAncestors matched
  | child | directAdjacent => exact exists_of_checkElement (by decide) matched
  | indirectAdjacent => exact exists_of_checkPreviousSiblings matched
  | shadowDescendant =>
    dsimp only [checkRelation] at matched
    split at matched
    · exact absurd matched (by decide)
    · exact exists_of_checkElement (by decide) matched
  | subSelector => exact absurd matched (by simp [checkRelation])

/-- A selector that matches in any context has an assignment for the basic tests. -/
theorem satisfies_of_checkSelector (part : SelectorPart) (tagHistory : List SelectorPart)
    (context : SelectorCheckingContext) (dynamicPseudo : PseudoId)
    (matched : (checker.checkSelector part tagHistory context dynamicPseudo).1 = .selectorMatches) :
    Satisfies (BasicTest checker.document) part tagHistory context.element := by
  induction tagHistory generalizing part context dynamicPseudo with
  | nil =>
    rw [checkSelector] at matched
    split at matched
    · exact absurd matched (by simp)
    · next passes => exact satisfies_nil.2 (basicTest_of_checkOneSelector (not_not.1 passes))
  | cons next later ih =>
    rw [checkSelector] at matched
    split at matched
    · exact absurd matched (by simp)
    · next passes =>
        refine satisfies_cons.2
          ⟨basicTest_of_checkOneSelector (not_not.1 passes), ?_⟩
        cases pseudo : checker.checkPseudoElement part context dynamicPseudo with
        | none =>
          rw [pseudo] at matched
          exact absurd matched (by simp)
        | some leftPseudo =>
          rw [pseudo] at matched
          dsimp only at matched
          split at matched
          · next sub =>
              split at matched
              · exact absurd matched (by simp)
              · have rest := ih next
                  (checker.subSelectorContext context leftPseudo) leftPseudo matched
                refine ⟨context.element, ?_, rest⟩
                rw [sub]
                rfl
          · split at matched
            · exact absurd matched (by simp)
            · split at matched
              · exact absurd matched (by simp)
              · obtain ⟨nextElement, related, nextPseudo, found⟩ := exists_of_checkRelation matched
                exact ⟨nextElement, related, ih next
                  (checker.nextContext part context nextElement) nextPseudo found⟩

end Matching

end SelectorChecker

namespace Element

theorem ancestorsOrHosts_of_parentOrHostElement {element parent : Element}
    (isParent : element.parentOrHostElement = some parent) :
    element.ancestorsOrHosts = parent :: parent.ancestorsOrHosts := by
  cases element with
  | topLevel index => cases isParent
  | child other index | inShadowRoot host root index =>
    cases isParent
    rfl

@[simp] theorem ancestorsOrHosts_withIndex {element : Element} (number : Nat) :
    (element.withIndex number).ancestorsOrHosts = element.ancestorsOrHosts := by
  cases element <;> rfl

theorem ancestorsOrHosts_trans {element ancestor further : Element}
    (member : ancestor ∈ element.ancestorsOrHosts) (above : further ∈ ancestor.ancestorsOrHosts) :
    further ∈ element.ancestorsOrHosts := by
  induction element with
  | topLevel index => exact absurd member not_mem_nil
  | child parent index ih | inShadowRoot host root index ih =>
    rcases mem_cons.1 member with rfl | higher
    · exact .tail _ above
    · exact .tail _ (ih higher)

theorem mem_ancestorsOrHosts_of_mem_ancestors {element ancestor : Element}
    (member : ancestor ∈ element.ancestors) : ancestor ∈ element.ancestorsOrHosts := by
  induction element with
  | topLevel index | inShadowRoot host root index _ => exact absurd member not_mem_nil
  | child parent index ih => exact mem_cons.2 ((mem_cons.1 member).imp id ih)

theorem mem_ancestorsOrHosts_of_shadowHost {element host : Element}
    (isHost : element.shadowHost = some host) : host ∈ element.ancestorsOrHosts := by
  induction element with
  | topLevel index => cases isHost
  | child parent index ih => exact .tail _ (ih isHost)
  | inShadowRoot other root index _ =>
    cases isHost
    exact .head _

end Element

namespace AncestorFilter

variable {document : Document} {existingHash : WString → UInt32}

section Identifiers

variable {part : SelectorPart} {element : Element} {maximumIdentifierCount : Nat}
  {hashes : List UInt32}

variable (basic : SelectorChecker.BasicTest document part element)
include basic

theorem mem_identifierHashes_of_tag
    (named : part.tag.localName ≠ starAtom) : existingHash part.tag.localName * tagNameSalt ∈
      collectElementIdentifierHashes document existingHash element := by
  have tag := basic.1
  rw [tagMatches] at tag
  have hasTag : part.hasTag = true := by
    rw [SelectorPart.hasTag, decide_eq_true_iff]
    intro any
    exact named (by rw [any]; rfl)
  rw [if_pos hasTag] at tag
  split at tag
  · exact absurd tag (by decide)
  · next same =>
      have equal : part.tag.localName = (document element).localName := by
        by_contra differs
        exact same ⟨named, differs⟩
      rw [equal]
      exact .head _

theorem mem_identifierHashes_of_id (isId : part.matchKind = .id) {hash : UInt32}
    (member : hash ∈ valueHash existingHash part.value idAttributeSalt) :
    hash ∈ collectElementIdentifierHashes document existingHash element := by
  have id := basic.2.2 isId
  rw [checkIDValue, Bool.and_eq_true, decide_eq_true_iff] at id
  rw [valueHash] at member
  split at member
  · exact absurd member not_mem_nil
  · rw [mem_singleton.1 member]
    have hasID := id.1
    rw [ElementData.hasID, id.2, Option.isSome_iff_exists] at hasID
    obtain ⟨value, isValue⟩ := hasID
    have stored := id.2
    rw [isValue] at stored ⊢
    refine .tail _ (mem_append_left _ ?_)
    rw [stored]
    exact .head _

theorem mem_identifierHashes_of_class (isClass : part.matchKind = .classMatch) {hash : UInt32}
    (member : hash ∈ valueHash existingHash part.value classAttributeSalt) :
    hash ∈ collectElementIdentifierHashes document existingHash element := by
  have test := basic.2.1 isClass
  rw [valueHash] at member
  split at member
  · exact absurd member not_mem_nil
  · rw [mem_singleton.1 member]
    unfold checkClassValue at test
    split at test
    · next classNames value hasClasses isValue =>
        have styled := (document element).styled (by rw [hasClasses]; rfl)
        refine .tail _ (mem_append_right _ ?_)
        rw [styled, ElementData.hasClass, hasClasses, isValue]
        exact mem_map.2 ⟨value, contains_iff_mem.1 test, rfl⟩
    · exact absurd test (by decide)

/-- Only identifiers of an element that the part matches are collected. -/
theorem collectDescendant_subset {good : UInt32 → Prop}
    (identifiers : ∀ hash ∈ collectElementIdentifierHashes document existingHash element, good hash)
    (collected : ∀ hash ∈ hashes, good hash) :
    ∀ hash ∈ collectDescendantSelectorIdentifierHashes existingHash maximumIdentifierCount
      part hashes, good hash := by
  have valued : ∀ hash ∈ collectValueHash existingHash part hashes, good hash := by
    intro hash member
    unfold collectValueHash at member
    split at member
    · next isId =>
        rcases mem_append.1 member with earlier | added
        · exact collected hash earlier
        · exact identifiers hash (mem_identifierHashes_of_id basic isId added)
    · next isClass =>
        rcases mem_append.1 member with earlier | added
        · exact collected hash earlier
        · exact identifiers hash (mem_identifierHashes_of_class basic isClass added)
    · exact collected hash member
  intro hash member
  dsimp only [collectDescendantSelectorIdentifierHashes] at member
  split at member
  · exact valued hash member
  · split at member
    · next named =>
        rcases mem_append.1 member with earlier | added
        · exact valued hash earlier
        · rw [mem_singleton.1 added]
          exact identifiers _ (mem_identifierHashes_of_tag basic named)
    · exact valued hash member

end Identifiers

section Selectors

variable {element : Element} {maximumIdentifierCount : Nat}

/-- A hash of an ancestor of the element. -/
def IsAncestorHash (document : Document) (existingHash : WString → UInt32) (element : Element)
    (hash : UInt32) : Prop :=
  ∃ ancestor ∈ element.ancestorsOrHosts,
    hash ∈ collectElementIdentifierHashes document existingHash ancestor

/-- Where a relation leads, the ancestors are ancestors of the element, and the place is
one itself unless the parts are skipped over. -/
theorem related_within {place next : Element} {relation : Relation}
    (related : Related relation place next)
    (within : ∀ ancestor ∈ place.ancestorsOrHosts, ancestor ∈ element.ancestorsOrHosts) :
    (∀ ancestor ∈ next.ancestorsOrHosts, ancestor ∈ element.ancestorsOrHosts) ∧
      (relation = .descendant ∨ relation = .child → next ∈ element.ancestorsOrHosts) := by
  have above : next ∈ place.ancestorsOrHosts →
      (∀ ancestor ∈ next.ancestorsOrHosts, ancestor ∈ element.ancestorsOrHosts) ∧
        (relation = .descendant ∨ relation = .child → next ∈ element.ancestorsOrHosts) :=
    fun member => ⟨fun ancestor higher =>
      within ancestor (Element.ancestorsOrHosts_trans member higher), fun _ => within next member⟩
  cases relation with
  | descendant => exact above (Element.mem_ancestorsOrHosts_of_mem_ancestors related)
  | child =>
    exact above (Element.mem_ancestorsOrHosts_of_mem_ancestors
      (Element.mem_ancestors_of_parentElement related))
  | directAdjacent =>
    obtain ⟨number, rfl⟩ := Element.family_of_previousElementSibling related
    rw [Element.ancestorsOrHosts_withIndex]
    exact ⟨within, by simp⟩
  | indirectAdjacent =>
    obtain ⟨number, -, rfl⟩ := Element.mem_previousSiblings.1 related
    rw [Element.ancestorsOrHosts_withIndex]
    exact ⟨within, by simp⟩
  | subSelector =>
    cases related
    exact ⟨within, by simp⟩
  | shadowDescendant => exact above (Element.mem_ancestorsOrHosts_of_shadowHost related)

theorem collectIdentifierHashesLoop_subset (parts : List SelectorPart) (relation : Relation)
    (skipOverSubselectors : Bool) {place : Element} {hashes : List UInt32}
    (within : ∀ ancestor ∈ place.ancestorsOrHosts, ancestor ∈ element.ancestorsOrHosts)
    (atAncestor : skipOverSubselectors = false → place ∈ element.ancestorsOrHosts)
    (assigned : ∀ part later, parts = part :: later → ∃ next, Related relation place next ∧
      Satisfies (SelectorChecker.BasicTest document) part later next)
    (collected : ∀ hash ∈ hashes, hash = 0 ∨ IsAncestorHash document existingHash element hash) :
    ∀ hash ∈ collectIdentifierHashesLoop existingHash maximumIdentifierCount relation
      skipOverSubselectors parts hashes,
        hash = 0 ∨ IsAncestorHash document existingHash element hash := by
  induction parts generalizing relation skipOverSubselectors place hashes with
  | nil =>
    intro hash member
    rcases mem_append.1 member with earlier | last
    · exact collected hash earlier
    · exact .inl (mem_singleton.1 last)
  | cons part later ih =>
    obtain ⟨next, related, satisfied⟩ := assigned part later rfl
    obtain ⟨nextWithin, nextAncestor⟩ := related_within related within
    have basic : SelectorChecker.BasicTest document part next := by
      cases later with
      | nil => exact satisfies_nil.1 satisfied
      | cons second rest => exact (satisfies_cons.1 satisfied).1
    have following : ∀ second rest, later = second :: rest → ∃ further,
        Related part.relation next further ∧
          Satisfies (SelectorChecker.BasicTest document) second rest further := by
      rintro second rest rfl
      exact (satisfies_cons.1 satisfied).2
    have collects : next ∈ element.ancestorsOrHosts → ∀ hash ∈
        collectDescendantSelectorIdentifierHashes existingHash maximumIdentifierCount part
          hashes, hash = 0 ∨ IsAncestorHash document existingHash element hash :=
      fun isAncestor => collectDescendant_subset basic
        (fun hash member => .inr ⟨next, isAncestor, member⟩) collected
    have finish : ∀ (skip : Bool) (written : List UInt32),
        (∀ hash ∈ written, hash = 0 ∨ IsAncestorHash document existingHash element hash) →
        (skip = false → next ∈ element.ancestorsOrHosts) →
        ∀ hash ∈ (if written.length = maximumIdentifierCount then written
          else collectIdentifierHashesLoop existingHash maximumIdentifierCount part.relation
            skip later written),
          hash = 0 ∨ IsAncestorHash document existingHash element hash := by
      intro skip written good isAncestor hash member
      split at member
      · exact good hash member
      · exact ih part.relation skip nextWithin isAncestor following good hash
          member
    cases relation with
    | descendant =>
      have isAncestor := nextAncestor (.inl rfl)
      exact finish false _ (collects isAncestor) fun _ => isAncestor
    | child =>
      have isAncestor := nextAncestor (.inr rfl)
      exact finish false _ (collects isAncestor) fun _ => isAncestor
    | directAdjacent | indirectAdjacent | shadowDescendant =>
      exact finish true hashes collected (by simp)
    | subSelector =>
      cases related
      cases skipOverSubselectors with
      | true => exact finish true hashes collected (by simp)
      | false => exact finish false _ (collects (atAncestor rfl)) fun _ => atAncestor rfl

/-- All hashes collected from a selector that matches are hashes of ancestors. -/
theorem collectIdentifierHashes_subset {selector : CSSSelector}
    (satisfied : Satisfies (SelectorChecker.BasicTest document) selector.part
      selector.tagHistory element) :
    ∀ hash ∈ collectIdentifierHashes existingHash maximumIdentifierCount selector,
      hash = 0 ∨ IsAncestorHash document existingHash element hash := by
  refine collectIdentifierHashesLoop_subset selector.tagHistory selector.part.relation true
    (fun _ member => member) (by simp) ?_ (fun hash member => absurd member not_mem_nil)
  intro part later isHistory
  rw [isHistory] at satisfied
  exact (satisfies_cons.1 satisfied).2

end Selectors

section Walks

variable {checker next : AncestorFilter}

/-- The stack holds the ancestors of its top with their hashes, and the filter tallies
all of these. -/
structure Tracks (document : Document) (existingHash : WString → UInt32)
    (checker : AncestorFilter) : Prop where
  chain : ∀ top rest, checker.parentStack = top :: rest →
    rest.map ParentStackFrame.element = top.element.ancestorsOrHosts
  hashes : ∀ frame ∈ checker.parentStack, frame.identifierHashes =
      collectElementIdentifierHashes document existingHash frame.element
  tallied : ∀ filter, checker.ancestorIdentifierFilter = some filter →
    filter.Tallies (BloomFilter.occurrences bloomFilterKeyBits
      (checker.parentStack.flatMap ParentStackFrame.identifierHashes))
  present : checker.parentStack ≠ [] → checker.ancestorIdentifierFilter.isSome

theorem tracks_initial : Tracks document existingHash initial where
  chain := by
    intro top rest isStack
    cases isStack
  hashes := fun frame member => absurd member not_mem_nil
  tallied := by
    intro filter isFilter
    cases isFilter
  present := fun hasStack => absurd rfl hasStack

theorem tracks_pushParentStackFrame {parentStack : List ParentStackFrame} {filter : BloomFilter}
    {parent : Element}
    (tracks : Tracks document existingHash
      { parentStack, ancestorIdentifierFilter := some filter })
    (isNext : parentStack.map ParentStackFrame.element = parent.ancestorsOrHosts) :
    Tracks document existingHash
      (pushParentStackFrame document existingHash parentStack filter parent) where
  chain := by
    intro top rest isStack
    cases isStack
    exact isNext
  hashes := by
    intro frame member
    rcases mem_cons.1 member with rfl | earlier
    · rfl
    · exact tracks.hashes frame earlier
  tallied := by
    intro added isFilter
    cases isFilter
    refine ((tracks.tallied filter rfl).foldl_add _).congr fun index => ?_
    rw [pushParentStackFrame, flatMap_cons, BloomFilter.occurrences_append, Nat.add_comm]
  present := fun _ => rfl

/-- The frames of an element and its ancestors are pushed, the outermost first. -/
theorem tracks_pushAll (element : Element) :
    let checker := (element :: element.ancestorsOrHosts).foldr
      (fun ancestor checker =>
        pushParentStackFrame document existingHash checker.parentStack
          (checker.ancestorIdentifierFilter.getD BloomFilter.clear) ancestor)
      { parentStack := [], ancestorIdentifierFilter := some BloomFilter.clear }
    Tracks document existingHash checker ∧
      checker.parentStack.map ParentStackFrame.element = element :: element.ancestorsOrHosts := by
  have onTop : ∀ {checker : AncestorFilter} {parent : Element},
      Tracks document existingHash checker → checker.ancestorIdentifierFilter.isSome →
      checker.parentStack.map ParentStackFrame.element = parent.ancestorsOrHosts →
      let pushed := pushParentStackFrame document existingHash checker.parentStack
        (checker.ancestorIdentifierFilter.getD BloomFilter.clear) parent
      Tracks document existingHash pushed ∧
        pushed.parentStack.map ParentStackFrame.element = parent :: parent.ancestorsOrHosts := by
    intro checker parent tracks hasFilter isNext
    obtain ⟨filter, isFilter⟩ := Option.isSome_iff_exists.1 hasFilter
    refine ⟨?_, congrArg (parent :: ·) isNext⟩
    rw [isFilter, Option.getD_some]
    refine tracks_pushParentStackFrame ?_ isNext
    rw [← isFilter]
    exact tracks
  have empty : Tracks document existingHash
      { parentStack := [], ancestorIdentifierFilter := some BloomFilter.clear } :=
    { chain := by
        intro top rest isStack
        cases isStack
      hashes := fun frame member => absurd member not_mem_nil
      tallied := by
        intro filter isFilter
        cases isFilter
        exact BloomFilter.tallies_clear
      present := fun _ => rfl }
  induction element with
  | topLevel index => exact onTop empty rfl rfl
  | child parent index ih | inShadowRoot host root index ih => exact onTop ih.1 rfl ih.2

variable (tracks : Tracks document existingHash checker)
include tracks

theorem tracks_pushParent {parent : Element}
    (pushed : checker.pushParent document existingHash parent = some next) :
    Tracks document existingHash next := by
  unfold pushParent at pushed
  split at pushed
  · next top rest filter isStack isFilter =>
      split at pushed
      · cases pushed
        exact tracks
      · next consistent =>
          cases pushed
          have isParent := (not_not.1 consistent).symm
          refine tracks_pushParentStackFrame ?_ ?_
          · rw [← isFilter]
            exact tracks
          · rw [Element.ancestorsOrHosts_of_parentOrHostElement isParent,
              ← tracks.chain top rest isStack, isStack, map_cons]
  · cases pushed

theorem tracks_popParent
    (popped : checker.popParent = some next) : Tracks document existingHash next := by
  unfold popParent at popped
  split at popped
  · next top rest filter isStack isFilter =>
      cases popped
      refine ⟨?_, ?_, ?_, ?_⟩
      · rintro below further rfl
        have chain := tracks.chain top _ isStack
        rw [map_cons] at chain
        cases element : top.element with
        | topLevel index =>
          rw [element] at chain
          cases chain
        | child parent index | inShadowRoot host root index =>
          rw [element, Element.ancestorsOrHosts, List.cons.injEq] at chain
          rw [chain.1]
          exact chain.2
      · intro frame member
        refine tracks.hashes frame ?_
        rw [isStack]
        exact .tail _ member
      · intro left isLeft
        split at isLeft
        · cases isLeft
        · cases isLeft
          refine BloomFilter.Tallies.foldl_remove
            ((tracks.tallied filter isFilter).congr fun index => ?_)
          rw [isStack, flatMap_cons, BloomFilter.occurrences_append, Nat.add_comm]
      · intro hasStack
        rw [if_neg hasStack]
        rfl
  · cases popped

theorem tracks_call {call : Call} (called : checker.call document existingHash call = some next) :
    Tracks document existingHash next := by
  cases call with
  | setupParentStack parent =>
    cases called
    exact (tracks_pushAll parent).1
  | pushParent parent => exact tracks_pushParent tracks called
  | popParent => exact tracks_popParent tracks called

omit tracks

/-- Every filter that calls lead to tracks its stack. -/
theorem tracks_walk {calls : List Call} (walked : walk document existingHash calls = some checker) :
    Tracks document existingHash checker := by
  have run : ∀ {start : AncestorFilter}, Tracks document existingHash start →
      calls.foldlM (fun checker next => checker.call document existingHash next) start =
        some checker → Tracks document existingHash checker := by
    clear walked
    induction calls with
    | nil =>
      intro start tracks walked
      cases walked
      exact tracks
    | cons call calls ih =>
      intro start tracks walked
      obtain ⟨between, called, later⟩ := Option.bind_eq_some_iff.1 walked
      exact ih (tracks_call tracks called) later
  exact run tracks_initial walked

/-- The hashes of all ancestors of an element under the top of the stack may be contained. -/
theorem mayContain_of_isAncestorHash {element : Element} {top : ParentStackFrame}
    {rest : List ParentStackFrame} {filter : BloomFilter} {hash : UInt32}
    (tracks : Tracks document existingHash checker) (isStack : checker.parentStack = top :: rest)
    (isFilter : checker.ancestorIdentifierFilter = some filter)
    (isParent : element.parentOrHostElement = some top.element)
    (isHash : IsAncestorHash document existingHash element hash) :
    filter.mayContain bloomFilterKeyBits hash = true := by
  obtain ⟨ancestor, member, isIdentifier⟩ := isHash
  rw [Element.ancestorsOrHosts_of_parentOrHostElement isParent,
    ← tracks.chain top rest isStack, ← map_cons, ← isStack] at member
  obtain ⟨frame, inStack, rfl⟩ := mem_map.1 member
  rw [← tracks.hashes frame inStack] at isIdentifier
  exact (tracks.tallied filter isFilter).mayContain
    (mem_flatMap.2 ⟨frame, inStack, isIdentifier⟩)

/-- After any calls, a selector that the filter rejects for an element under the top of
the stack does not match the element, in whatever context it is checked. -/
theorem fastRejectSelector_sound (selectorChecker : SelectorChecker)
    (existingHash : WString → UInt32) (maximumIdentifierCount : Nat) (calls : List Call)
    (checker : AncestorFilter)
    (walked : walk selectorChecker.document existingHash calls = some checker)
    (top : ParentStackFrame) (rest : List ParentStackFrame)
    (isStack : checker.parentStack = top :: rest) (selector : CSSSelector)
    (rejected : checker.fastRejectSelector maximumIdentifierCount
      (collectIdentifierHashes existingHash maximumIdentifierCount selector) = true)
    (context : SelectorCheckingContext)
    (isParent : context.element.parentOrHostElement = some top.element) :
    selectorChecker.check selector context ≠ .selectorMatches := by
  intro matched
  have tracks := tracks_walk walked
  have satisfied := SelectorChecker.satisfies_of_checkSelector selector.part
    selector.tagHistory context .noPseudo matched
  cases isFilter : checker.ancestorIdentifierFilter with
  | none =>
    rw [fastRejectSelector, isFilter] at rejected
    exact absurd rejected (by simp)
  | some filter =>
    rw [fastRejectSelector, isFilter, any_eq_true] at rejected
    obtain ⟨hash, member, absent⟩ := rejected
    have notZero := all_eq_true.1 all_takeWhile hash member
    have collected := mem_of_mem_take ((takeWhile_sublist _).subset member)
    rcases @collectIdentifierHashes_subset _ existingHash _ _ _ satisfied hash collected with
      zero | isHash
    · rw [zero] at notZero
      exact absurd notZero (by decide)
    · rw [mayContain_of_isAncestorHash tracks isStack isFilter isParent isHash] at absent
      exact absurd absent (by decide)

/-- `#a div` for a `div` in a `div` without an id. -/
theorem fastRejectSelector_sound_of_missing_id :
    (SelectorChecker.ofElementTest (fun _ => divElement) .queryingRules false
        fun _ _ => true).check
      { part :=
          { matchKind := .none, tag := { anyQName with localName := WString.lit "div" }
            value := none, relation := .descendant, pseudoType := .other 0
            attributeName := anyQName }
        tagHistory :=
          [{ matchKind := .id, tag := anyQName, value := some (WString.lit "a")
             relation := .descendant, pseudoType := .other 0, attributeName := anyQName }] }
      (.create (.child (.topLevel 0) 0) .visitedMatchEnabled) ≠ .selectorMatches :=
  fastRejectSelector_sound _ (fun _ => 1) 4 [.setupParentStack (.topLevel 0)]
    (setupParentStack (fun _ => divElement) (fun _ => 1) (.topLevel 0)) rfl
    { element := .topLevel 0, identifierHashes := [13] } [] rfl _ (by decide +kernel) _ rfl

end Walks

end AncestorFilter

end Css
end PalmWebKit
