import PalmWebKit.Css.SelectorChecker

/-!
# What a recursive check means

A selector matches an element when there are elements for its other parts that pass
their tests and stand in the relations of the combinators.  Every result of the
recursive check means something about this, the failures also about other elements.
-/

namespace PalmWebKit
namespace Css

open List

/-- The element of the next part as seen from the element of a part. -/
def Related : Relation → Element → Element → Prop
  | .descendant, element, next => next ∈ element.ancestors
  | .child, element, next => element.parentElement = some next
  | .directAdjacent, element, next => element.previousElementSibling = some next
  | .indirectAdjacent, element, next => next ∈ element.previousSiblings
  | .subSelector, element, next => next = element
  | .shadowDescendant, element, next => element.shadowHost = some next

/-- The elements assigned to the parts behind the first satisfy, with the element of the
first, every test and every combinator. -/
def IsAssignment (test : SelectorPart → Element → Prop) :
    SelectorPart → List SelectorPart → Element → List Element → Prop
  | part, [], element, [] => test part element
  | part, next :: later, element, nextElement :: others =>
    test part element ∧ Related part.relation element nextElement ∧
      IsAssignment test next later nextElement others
  | _, _, _, _ => False

/-- There is an assignment of elements to the parts of a selector. -/
def Satisfies (test : SelectorPart → Element → Prop) (part : SelectorPart)
    (tagHistory : List SelectorPart) (element : Element) : Prop :=
  ∃ others, IsAssignment test part tagHistory element others

section Satisfying

variable {test : SelectorPart → Element → Prop} {part next : SelectorPart}
  {later : List SelectorPart} {element : Element}

@[simp] theorem satisfies_nil : Satisfies test part [] element ↔ test part element := by
  constructor
  · rintro ⟨others, assigned⟩
    cases others with
    | nil => exact assigned
    | cons other others => exact assigned.elim
  · intro passes
    exact ⟨[], passes⟩

theorem satisfies_cons : Satisfies test part (next :: later) element ↔ test part element ∧
        ∃ nextElement, Related part.relation element nextElement ∧
          Satisfies test next later nextElement := by
  constructor
  · rintro ⟨others, assigned⟩
    cases others with
    | nil => exact assigned.elim
    | cons nextElement others =>
      obtain ⟨passes, related, rest⟩ := assigned
      exact ⟨passes, nextElement, related, others, rest⟩
  · rintro ⟨passes, nextElement, related, others, rest⟩
    exact ⟨nextElement :: others, passes, related, rest⟩

end Satisfying

namespace Element

section Relatives

variable {element ancestor next : Element} {number : Nat}

@[simp] theorem parentElement_withIndex :
    (element.withIndex number).parentElement = element.parentElement := by
  cases element <;> rfl

@[simp] theorem ancestors_withIndex : (element.withIndex number).ancestors = element.ancestors := by
  cases element <;> rfl

@[simp] theorem shadowHost_withIndex :
    (element.withIndex number).shadowHost = element.shadowHost := by
  cases element <;> rfl

@[simp] theorem index_withIndex : (element.withIndex number).index = number := by
  cases element <;> rfl

@[simp] theorem withIndex_withIndex (other : Nat) :
    (element.withIndex number).withIndex other = element.withIndex other := by
  cases element <;> rfl

@[simp] theorem withIndex_index : element.withIndex element.index = element := by
  cases element <;> rfl

theorem mem_previousSiblings : next ∈ element.previousSiblings ↔
      ∃ number < element.index, next = element.withIndex number := by
  rw [previousSiblings, mem_reverse, mem_map]
  constructor
  · rintro ⟨number, inRange, rfl⟩
    exact ⟨number, mem_range.1 inRange, rfl⟩
  · rintro ⟨number, isBefore, rfl⟩
    exact ⟨number, mem_range.2 isBefore, rfl⟩

theorem previousSiblings_withIndex_zero : (element.withIndex 0).previousSiblings = [] := by
  rw [previousSiblings, index_withIndex]
  rfl

theorem previousSiblings_withIndex_succ : (element.withIndex (number + 1)).previousSiblings =
      element.withIndex number :: (element.withIndex number).previousSiblings := by
  rw [previousSiblings, previousSiblings, index_withIndex, index_withIndex,
    range_succ, map_append, reverse_append]
  simp only [map_cons, map_nil, reverse_cons, reverse_nil,
    nil_append, cons_append, withIndex_withIndex, List.cons.injEq,
    reverse_inj, map_inj_left, implies_true, true_and]

theorem previousSiblings_trans {sibling : Element} (member : sibling ∈ element.previousSiblings)
    (further : next ∈ sibling.previousSiblings) : next ∈ element.previousSiblings := by
  obtain ⟨siblingNumber, isBefore, rfl⟩ := mem_previousSiblings.1 member
  obtain ⟨nextNumber, isBeforeSibling, rfl⟩ := mem_previousSiblings.1 further
  rw [index_withIndex] at isBeforeSibling
  exact mem_previousSiblings.2
    ⟨nextNumber, Nat.lt_trans isBeforeSibling isBefore, withIndex_withIndex _⟩

theorem previousElementSibling_withIndex_zero :
    (element.withIndex 0).previousElementSibling = none := by
  rw [previousElementSibling, previousSiblings_withIndex_zero]
  rfl

theorem previousElementSibling_withIndex_succ :
    (element.withIndex (number + 1)).previousElementSibling =
      some (element.withIndex number) := by
  rw [previousElementSibling, previousSiblings_withIndex_succ]
  rfl

theorem ancestors_of_parentElement (parent : element.parentElement = some next) :
    element.ancestors = next :: next.ancestors := by
  cases element with
  | topLevel number | inShadowRoot host root number => cases parent
  | child other number =>
    cases parent
    rfl

theorem ancestors_of_no_parentElement (noParent : element.parentElement = none) :
    element.ancestors = [] := by
  cases element with
  | topLevel number | inShadowRoot host root number => rfl
  | child other number => cases noParent

theorem ancestors_subset_of_mem (member : ancestor ∈ element.ancestors)
    (further : next ∈ ancestor.ancestors) : next ∈ element.ancestors := by
  induction element with
  | topLevel number | inShadowRoot host root number _ => exact absurd member not_mem_nil
  | child parent number ih =>
    rcases mem_cons.1 member with rfl | above
    · exact .tail _ further
    · exact .tail _ (ih above)

theorem shadowHost_of_mem_ancestors (member : ancestor ∈ element.ancestors) :
    ancestor.shadowHost = element.shadowHost := by
  induction element with
  | topLevel number | inShadowRoot host root number _ => exact absurd member not_mem_nil
  | child parent number ih =>
    rcases mem_cons.1 member with rfl | above
    · rfl
    · exact ih above

end Relatives

/-- An element, its ancestors, and all their siblings. -/
def Family (element other : Element) : Prop :=
  ∃ ancestor ∈ element :: element.ancestors, ∃ number, other = ancestor.withIndex number

section Families

variable {element ancestor other next : Element} {number : Nat}

theorem family_self : element.Family element :=
  ⟨element, .head _, element.index, withIndex_index.symm⟩

theorem family_of_mem_ancestors (member : other ∈ element.ancestors) : element.Family other :=
  ⟨other, .tail _ member, other.index, withIndex_index.symm⟩

theorem family_withIndex (related : element.Family other) :
    element.Family (other.withIndex number) := by
  obtain ⟨ancestor, member, otherNumber, rfl⟩ := related
  exact ⟨ancestor, member, number, withIndex_withIndex _⟩

theorem family_of_withIndex (related : element.Family other) :
    (element.withIndex number).Family other := by
  obtain ⟨ancestor, member, otherNumber, rfl⟩ := related
  rcases mem_cons.1 member with rfl | above
  · exact ⟨_, .head _, otherNumber, (withIndex_withIndex _).symm⟩
  · refine ⟨ancestor, .tail _ ?_, otherNumber, rfl⟩
    rw [ancestors_withIndex]
    exact above

theorem ancestors_of_family (related : element.Family other) (member : next ∈ other.ancestors) :
    next ∈ element.ancestors := by
  obtain ⟨ancestor, within, number, rfl⟩ := related
  rw [ancestors_withIndex] at member
  rcases mem_cons.1 within with rfl | above
  · exact member
  · exact ancestors_subset_of_mem above member

theorem shadowHost_of_family (related : element.Family other) :
    other.shadowHost = element.shadowHost := by
  obtain ⟨ancestor, within, number, rfl⟩ := related
  rw [shadowHost_withIndex]
  rcases mem_cons.1 within with rfl | above
  · rfl
  · exact shadowHost_of_mem_ancestors above

theorem mem_ancestors_of_parentElement (parent : element.parentElement = some next) :
    next ∈ element.ancestors := by
  rw [ancestors_of_parentElement parent]
  exact .head _

theorem family_of_previousElementSibling (sibling : other.previousElementSibling = some next) :
    ∃ number, next = other.withIndex number := by
  have member : next ∈ other.previousSiblings := mem_of_mem_head? sibling
  obtain ⟨number, -, equal⟩ := mem_previousSiblings.1 member
  exact ⟨number, equal⟩

end Families

end Element

/-- What a result means for an element, where `holds` is what the selector is to be
checked for. -/
def Means (holds : Element → Prop) (element : Element) : SelectorMatch → Prop
  | .selectorMatches => holds element
  | .selectorFailsLocally => ¬ holds element
  | .selectorFailsAllSiblings =>
    ¬ holds element ∧ ∀ sibling ∈ element.previousSiblings, ¬ holds sibling
  | .selectorFailsCompletely => ∀ other, element.Family other → ¬ holds other

section Saying

variable {holds stronger : Element → Prop} {element : Element} {result : SelectorMatch}

theorem not_holds_of_means (meaning : Means holds element result)
    (fails : result ≠ .selectorMatches) : ¬ holds element := by
  cases result with
  | selectorMatches => exact absurd rfl fails
  | selectorFailsLocally => exact meaning
  | selectorFailsAllSiblings => exact meaning.1
  | selectorFailsCompletely => exact meaning element Element.family_self

/-- What fails for one property fails for a stronger one. -/
theorem Means.of_stronger (meaning : Means holds element result)
    (implies : ∀ other, stronger other → holds other)
    (matched : result = .selectorMatches → stronger element) : Means stronger element result := by
  cases result with
  | selectorMatches => exact matched rfl
  | selectorFailsLocally => exact mt (implies element) meaning
  | selectorFailsAllSiblings =>
    exact ⟨mt (implies element) meaning.1,
      fun sibling member => mt (implies sibling) (meaning.2 sibling member)⟩
  | selectorFailsCompletely => exact fun other related => mt (implies other) (meaning other related)

/-- A failure in the whole family is one in every sense. -/
theorem means_of_family (none : ∀ other, element.Family other → ¬ holds other)
    (fails : result ≠ .selectorMatches) : Means holds element result := by
  cases result with
  | selectorMatches => exact absurd rfl fails
  | selectorFailsLocally => exact none element Element.family_self
  | selectorFailsAllSiblings =>
    refine ⟨none element Element.family_self, fun sibling member => none sibling ?_⟩
    obtain ⟨number, -, rfl⟩ := Element.mem_previousSiblings.1 member
    exact Element.family_withIndex Element.family_self
  | selectorFailsCompletely => exact none

theorem matches_iff_of_means (meaning : Means holds element result) :
    result = .selectorMatches ↔ holds element := by
  constructor
  · rintro rfl
    exact meaning
  · intro isHeld
    by_contra fails
    exact not_holds_of_means meaning fails isHeld

end Saying

namespace SelectorChecker

section Relations

variable {check : Element → PseudoId → SelectorMatch × PseudoId} {holds : Element → Prop}
  {element : Element}

theorem checkAncestors_means (checked : ∀ other, Means holds other (check other .noPseudo).1)
    (keepsPseudo : ∀ other, (check other .noPseudo).2 = .noPseudo) (element : Element) :
    (checkAncestors check none element.ancestors .noPseudo = .selectorMatches ∧
        ∃ next ∈ element.ancestors, holds next) ∨
      (checkAncestors check none element.ancestors .noPseudo = .selectorFailsCompletely ∧
        ∀ next ∈ element.ancestors, ¬ holds next) := by
  induction element with
  | topLevel number => exact .inr ⟨rfl, fun next member => absurd member not_mem_nil⟩
  | inShadowRoot host root number _ =>
    exact .inr ⟨rfl, fun next member => absurd member not_mem_nil⟩
  | child parent number ih =>
    have atParent := checked parent
    have unfolded : checkAncestors check none (parent.child number).ancestors .noPseudo =
        if (check parent .noPseudo).1 = .selectorMatches ∨
            (check parent .noPseudo).1 = .selectorFailsCompletely then
          (check parent .noPseudo).1
        else checkAncestors check none parent.ancestors .noPseudo := by
      rw [Element.ancestors, checkAncestors]
      simp only [keepsPseudo parent, reduceCtorEq, if_false]
    rw [unfolded]
    by_cases matched : (check parent .noPseudo).1 = .selectorMatches
    · rw [if_pos (.inl matched)]
      rw [matched] at atParent
      exact .inl ⟨matched, parent, .head _, atParent⟩
    by_cases failed : (check parent .noPseudo).1 = .selectorFailsCompletely
    · rw [if_pos (.inr failed)]
      rw [failed] at atParent
      refine .inr ⟨failed, fun next member => ?_⟩
      rcases mem_cons.1 member with rfl | above
      · exact atParent _ Element.family_self
      · exact atParent _ (Element.family_of_mem_ancestors above)
    · rw [if_neg (not_or.2 ⟨matched, failed⟩)]
      have notParent := not_holds_of_means atParent matched
      rcases ih with ⟨found, next, member, isHeld⟩ | ⟨failed, none⟩
      · exact .inl ⟨found, next, .tail _ member, isHeld⟩
      · refine .inr ⟨failed, fun next member => ?_⟩
        rcases mem_cons.1 member with rfl | above
        · exact notParent
        · exact none next above

theorem checkPreviousSiblings_cases (checked : ∀ other, Means holds other (check other .noPseudo).1)
    (keepsPseudo : ∀ other, (check other .noPseudo).2 = .noPseudo) (number : Nat) :
    let siblings := (element.withIndex number).previousSiblings
    let result := checkPreviousSiblings check siblings .noPseudo
    (result = .selectorMatches ∧ ∃ next ∈ siblings, holds next) ∨
      (result = .selectorFailsAllSiblings ∧ ∀ next ∈ siblings, ¬ holds next) ∨
      (result = .selectorFailsCompletely ∧
        ∀ other, element.Family other → ¬ holds other) := by
  dsimp only
  induction number with
  | zero =>
    rw [Element.previousSiblings_withIndex_zero]
    exact .inr (.inl ⟨rfl, fun next member => absurd member not_mem_nil⟩)
  | succ number ih =>
    have atSibling := checked (element.withIndex number)
    rw [Element.previousSiblings_withIndex_succ, checkPreviousSiblings]
    simp only [keepsPseudo]
    cases result : (check (element.withIndex number) .noPseudo).1 with
    | selectorMatches =>
      rw [result] at atSibling
      exact .inl ⟨rfl, _, .head _, atSibling⟩
    | selectorFailsAllSiblings =>
      rw [result] at atSibling
      exact .inr (.inl ⟨rfl, forall_mem_cons.2 atSibling⟩)
    | selectorFailsCompletely =>
      rw [result] at atSibling
      exact .inr (.inr ⟨rfl, fun other related =>
        atSibling other (Element.family_of_withIndex related)⟩)
    | selectorFailsLocally =>
      rw [result] at atSibling
      rcases ih with ⟨found, next, member, isHeld⟩ | ⟨failed, none⟩ | failed
      · exact .inl ⟨found, next, .tail _ member, isHeld⟩
      · exact .inr (.inl ⟨failed, forall_mem_cons.2 ⟨atSibling, none⟩⟩)
      · exact .inr (.inr failed)

/-- The check of a related element means the same for the element it is made for. -/
theorem checkRelation_means (checked : ∀ other, Means holds other (check other .noPseudo).1)
    (keepsPseudo : ∀ other, (check other .noPseudo).2 = .noPseudo)
    {context : SelectorCheckingContext} (noScope : context.scope = none) {relation : Relation}
    (notSub : relation ≠ .subSelector) :
    Means (fun other => ∃ next, Related relation other next ∧ holds next) context.element
      (checkRelation check relation context) := by
  cases relation with
  | descendant =>
    dsimp only [checkRelation, Related]
    rw [noScope]
    rcases checkAncestors_means checked keepsPseudo context.element with
      ⟨found, next, member, isHeld⟩ | ⟨failed, none⟩
    · rw [found]
      exact ⟨next, member, isHeld⟩
    · rw [failed]
      rintro other related ⟨next, member, isHeld⟩
      exact none next (Element.ancestors_of_family related member) isHeld
  | child =>
    dsimp only [checkRelation, Related]
    cases parent : context.element.parentElement with
    | none =>
      rintro other related ⟨next, parentOther, -⟩
      have above := Element.ancestors_of_family related
        (Element.mem_ancestors_of_parentElement parentOther)
      rw [Element.ancestors_of_no_parentElement parent] at above
      exact absurd above not_mem_nil
    | some next =>
      have atParent := checked next
      rw [checkElement]
      cases result : (check next .noPseudo).1 with
      | selectorMatches =>
        rw [result] at atParent
        exact ⟨next, parent, atParent⟩
      | selectorFailsLocally =>
        rw [result] at atParent
        rintro ⟨other, parentOther, isHeld⟩
        rw [parent] at parentOther
        cases parentOther
        exact atParent isHeld
      | selectorFailsAllSiblings =>
        rw [result] at atParent
        refine ⟨?_, ?_⟩
        · rintro ⟨other, parentOther, isHeld⟩
          rw [parent] at parentOther
          cases parentOther
          exact atParent.1 isHeld
        · rintro sibling member ⟨other, parentOther, isHeld⟩
          obtain ⟨number, -, rfl⟩ := Element.mem_previousSiblings.1 member
          rw [Element.parentElement_withIndex, parent] at parentOther
          cases parentOther
          exact atParent.1 isHeld
      | selectorFailsCompletely =>
        rw [result] at atParent
        rintro other related ⟨parentOther, isParent, isHeld⟩
        have above := Element.ancestors_of_family related
          (Element.mem_ancestors_of_parentElement isParent)
        rw [Element.ancestors_of_parentElement parent] at above
        rcases mem_cons.1 above with rfl | further
        · exact atParent _ Element.family_self isHeld
        · exact atParent _ (Element.family_of_mem_ancestors further) isHeld
  | directAdjacent =>
    dsimp only [checkRelation, Related]
    rw [← @Element.withIndex_index context.element]
    cases context.element.index with
    | zero =>
      rw [Element.previousElementSibling_withIndex_zero]
      refine ⟨?_, ?_⟩
      · rintro ⟨next, sibling, -⟩
        rw [Element.previousElementSibling_withIndex_zero] at sibling
        cases sibling
      · intro sibling member
        rw [Element.previousSiblings_withIndex_zero] at member
        exact absurd member not_mem_nil
    | succ number =>
      have atSibling := checked (context.element.withIndex number)
      rw [Element.previousElementSibling_withIndex_succ, checkElement]
      have isNext : ∀ {next},
          (context.element.withIndex (number + 1)).previousElementSibling = some next →
            next = context.element.withIndex number := by
        intro next sibling
        rw [Element.previousElementSibling_withIndex_succ, Option.some_inj] at sibling
        exact sibling.symm
      cases result : (check (context.element.withIndex number) .noPseudo).1 with
      | selectorMatches =>
        rw [result] at atSibling
        exact ⟨_, Element.previousElementSibling_withIndex_succ, atSibling⟩
      | selectorFailsLocally =>
        rw [result] at atSibling
        rintro ⟨next, sibling, isHeld⟩
        rw [isNext sibling] at isHeld
        exact atSibling isHeld
      | selectorFailsAllSiblings =>
        rw [result] at atSibling
        refine ⟨?_, ?_⟩
        · rintro ⟨next, sibling, isHeld⟩
          rw [isNext sibling] at isHeld
          exact atSibling.1 isHeld
        · rintro sibling member ⟨next, further, isHeld⟩
          refine atSibling.2 next ?_ isHeld
          rw [Element.previousSiblings_withIndex_succ] at member
          have afterSibling : next ∈ sibling.previousSiblings := mem_of_mem_head? further
          rcases mem_cons.1 member with rfl | earlier
          · exact afterSibling
          · exact Element.previousSiblings_trans earlier afterSibling
      | selectorFailsCompletely =>
        rw [result] at atSibling
        rintro other related ⟨next, sibling, isHeld⟩
        obtain ⟨nextNumber, rfl⟩ := Element.family_of_previousElementSibling sibling
        have family := @Element.family_of_withIndex _ _ number
          (@Element.family_withIndex _ _ nextNumber related)
        rw [Element.withIndex_withIndex] at family
        exact atSibling _ family isHeld
  | indirectAdjacent =>
    dsimp only [checkRelation, Related]
    have found := @checkPreviousSiblings_cases check holds context.element checked
      keepsPseudo context.element.index
    rw [Element.withIndex_index] at found
    rcases found with ⟨found, next, member, isHeld⟩ | ⟨failed, none⟩ | ⟨failed, none⟩
    · rw [found]
      exact ⟨next, member, isHeld⟩
    · rw [failed]
      refine ⟨?_, ?_⟩
      · rintro ⟨next, member, isHeld⟩
        exact none next member isHeld
      · rintro sibling member ⟨next, further, isHeld⟩
        exact none next (Element.previousSiblings_trans member further) isHeld
    · rw [failed]
      rintro other related ⟨next, member, isHeld⟩
      obtain ⟨number, -, rfl⟩ := Element.mem_previousSiblings.1 member
      exact none _ (Element.family_withIndex related) isHeld
  | shadowDescendant =>
    dsimp only [checkRelation, Related]
    rw [noScope]
    cases host : context.element.shadowHost with
    | none =>
      rintro other related ⟨next, hostOther, -⟩
      rw [Element.shadowHost_of_family related, host] at hostOther
      cases hostOther
    | some next =>
      have atHost := checked next
      rw [checkElement]
      by_cases matched : (check next .noPseudo).1 = .selectorMatches
      · rw [matched] at atHost ⊢
        exact ⟨next, host, atHost⟩
      · have fails := not_holds_of_means atHost matched
        have none : ∀ other, context.element.Family other →
            ¬ ∃ next, other.shadowHost = some next ∧ holds next := by
          rintro other related ⟨nextOther, hostOther, isHeld⟩
          rw [Element.shadowHost_of_family related, host] at hostOther
          cases hostOther
          exact fails isHeld
        exact means_of_family none matched
  | subSelector => exact absurd rfl notSub

end Relations

/-- A checker whose tests look at the element only. -/
def ofElementTest (document : Document) (mode : Mode) (scrollbarForStyleResolve : Bool)
    (elementTest : SelectorPart → Element → Bool) : SelectorChecker :=
  { document, mode, scrollbarForStyleResolve
    otherTest := fun part context => elementTest part context.element }

/-- The test of one part on an element. -/
def passes (document : Document) (elementTest : SelectorPart → Element → Bool) (part : SelectorPart)
    (element : Element) : Bool :=
  tagMatches document element part &&
    match part.matchKind with
    | .classMatch => checkClassValue document element part.value
    | .id => checkIDValue document element part.value
    | .none => true
    | _ => elementTest part element

section Checking

variable {document : Document} {mode : Mode} {scrollbarForStyleResolve : Bool}
  {elementTest : SelectorPart → Element → Bool}

theorem checkOneSelector_ofElementTest (part : SelectorPart) (context : SelectorCheckingContext) :
    (ofElementTest document mode scrollbarForStyleResolve elementTest).checkOneSelector
        part context =
      passes document elementTest part context.element := by
  unfold checkOneSelector passes ofElementTest
  cases tagMatches document context.element part <;> rfl

/-- Without pseudo elements and without a scope a check means what its result says
about assignments, and leaves no pseudo id. -/
theorem checkSelector_means (part : SelectorPart) (tagHistory : List SelectorPart)
    (noPseudoElement : ∀ other ∈ part :: tagHistory, other.matchKind ≠ .pseudoElement)
    (context : SelectorCheckingContext) (noScope : context.scope = none)
    (noPseudoStyle : context.pseudoStyle = .noPseudo) :
    let checked :=
      (ofElementTest document mode scrollbarForStyleResolve elementTest).checkSelector
        part tagHistory context .noPseudo
    Means (Satisfies (fun part element => passes document elementTest part element = true)
        part tagHistory) context.element checked.1 ∧
      checked.2 = .noPseudo := by
  induction tagHistory generalizing part context with
  | nil =>
    rw [checkSelector, checkOneSelector_ofElementTest]
    simp only [checkPseudoElement, if_pos (noPseudoElement part mem_cons_self)]
    by_cases test : passes document elementTest part context.element = true
    · rw [if_neg (not_not.2 test)]
      exact ⟨satisfies_nil.2 test, rfl⟩
    · rw [if_pos test]
      exact ⟨mt satisfies_nil.1 test, rfl⟩
  | cons next later ih =>
    have nextHypothesis := ih next
      fun other member => noPseudoElement other (.tail _ member)
    rw [checkSelector, checkOneSelector_ofElementTest]
    simp only [checkPseudoElement, if_pos (noPseudoElement part mem_cons_self)]
    by_cases test : passes document elementTest part context.element = true
    · rw [if_neg (not_not.2 test)]
      by_cases sub : part.relation = .subSelector
      · obtain ⟨atElement, keepsPseudo⟩ := nextHypothesis
          ((ofElementTest document mode scrollbarForStyleResolve
            elementTest).subSelectorContext context .noPseudo) noScope noPseudoStyle
        rw [if_pos sub, if_neg (by simp [isInvalidAfterPseudo])]
        refine ⟨atElement.of_stronger ?_ ?_, keepsPseudo⟩
        · intro other satisfied
          obtain ⟨-, nextElement, related, rest⟩ := satisfies_cons.1 satisfied
          rw [sub] at related
          cases related
          exact rest
        · intro matched
          rw [matched] at atElement
          refine satisfies_cons.2 ⟨test, context.element, ?_, atElement⟩
          rw [sub]
          rfl
      · rw [if_neg sub, noScope, noPseudoStyle]
        have atOther := fun other => nextHypothesis
          ((ofElementTest document mode scrollbarForStyleResolve elementTest).nextContext
            part context other) noScope rfl
        have related := @checkRelation_means
          (fun element ignoreDynamicPseudo =>
            (ofElementTest document mode scrollbarForStyleResolve elementTest).checkSelector
              next later ((ofElementTest document mode scrollbarForStyleResolve
                elementTest).nextContext part context element) ignoreDynamicPseudo)
          (Satisfies
            (fun part element => passes document elementTest part element = true) next later)
          (fun other => (atOther other).1) (fun other => (atOther other).2) _ noScope _ sub
        refine ⟨related.of_stronger (fun other satisfied => (satisfies_cons.1 satisfied).2)
          fun matched => ?_, rfl⟩
        rw [matched] at related
        exact satisfies_cons.2 ⟨test, related⟩
    · rw [if_pos test]
      exact ⟨fun satisfied => test (satisfies_cons.1 satisfied).1, rfl⟩

/-- A selector without pseudo elements matches, without a scope, exactly when there is an
assignment. -/
theorem check_eq_matches_iff {selector : CSSSelector}
    (noPseudoElement : ∀ part ∈ selector.part :: selector.tagHistory,
      part.matchKind ≠ .pseudoElement)
    (element : Element)
    (visitedMatchType : VisitedMatchType) :
    (ofElementTest document mode scrollbarForStyleResolve elementTest).check selector
        (.create element visitedMatchType) = .selectorMatches ↔
      Satisfies (fun part element => passes document elementTest part element = true)
        selector.part selector.tagHistory element :=
  matches_iff_of_means (checkSelector_means selector.part selector.tagHistory noPseudoElement
    (.create element visitedMatchType) rfl rfl).1

end Checking

end SelectorChecker

end Css
end PalmWebKit
