import PalmWebKit.Css.FastSelector

/-!
# The greedy search finds every match

Between two steps of the fast check the question is whether the parts that are left
match at or above the current element, or the parts behind the place to go back to
match above it.  A descendant combinator makes that place superfluous: what matches
further up also has the ancestors that the search has still before it.
-/

namespace PalmWebKit
namespace Css

open List

/-- The parts match from an element on; no parts are left when all have matched. -/
def MatchesFrom (test : SelectorPart → Element → Prop) : List SelectorPart → Element → Prop
  | [], _ => True
  | part :: tagHistory, element => Satisfies test part tagHistory element

/-- Where the parts lead that were passed without a descendant combinator. -/
def climb : List SelectorPart → Option Element → Option Element
  | [], element => element
  | part :: later, element =>
    climb later
      (if part.relation = .child then element.bind Element.parentElement else element)

section Ups

variable {element other : Element} {start : Option Element} {before above : List Element}

theorem elementsUp_parentElement : elementsUp element.parentElement = element.ancestors := by
  cases element <;> rfl

theorem elementsUp_split (split : elementsUp start = before ++ element :: above) :
    above = element.ancestors := by
  induction before generalizing start with
  | nil =>
    cases start with
    | none => cases split
    | some first =>
      rw [elementsUp, nil_append, List.cons.injEq] at split
      rw [← split.2, split.1]
  | cons first before ih =>
    cases start with
    | none => cases split
    | some current =>
      rw [elementsUp, cons_append, List.cons.injEq] at split
      rw [← elementsUp_parentElement] at split
      exact ih split.2

end Ups

section Climbing

variable {passed : List SelectorPart} {start : Option Element} {part : SelectorPart}

theorem climb_append_singleton : climb (passed ++ [part]) start =
      if part.relation = .child then (climb passed start).bind Element.parentElement
      else climb passed start := by
  induction passed generalizing start with
  | nil => rfl
  | cons first passed ih => rw [cons_append, climb, ih, climb]

theorem length_elementsUp_climb_le :
    (elementsUp (climb passed start)).length ≤ (elementsUp start).length := by
  induction passed generalizing start with
  | nil => exact le_rfl
  | cons first passed ih =>
    refine le_trans ih ?_
    by_cases child : first.relation = .child
    · rw [if_pos child]
      cases start with
      | none => exact le_rfl
      | some element =>
        rw [Option.bind_some, elementsUp_parentElement]
        exact Nat.le_succ _
    · rw [if_neg child]

/-- What matches above a place leads above where that place leads. -/
theorem matchesFrom_above_climb {test : SelectorPart → Element → Prop} {rest : List SelectorPart}
    (onlyChildOrSub : ∀ part ∈ passed, part.relation = .child ∨ part.relation = .subSelector)
    (unfinished : rest ≠ []) {place above : Element} (isAbove : above ∈ place.ancestors)
    (matched : MatchesFrom test (passed ++ rest) above) :
    ∃ reached, climb passed (some place) = some reached ∧
      ∃ further ∈ reached.ancestors, MatchesFrom test rest further := by
  induction passed generalizing place above with
  | nil => exact ⟨place, rfl, above, isAbove, matched⟩
  | cons first passed ih =>
    have later : ∀ part ∈ passed, part.relation = .child ∨ part.relation = .subSelector :=
      fun part member => onlyChildOrSub part (.tail _ member)
    obtain ⟨next, after, behind⟩ : ∃ next after, passed ++ rest = next :: after := by
      cases passed with
      | nil => exact exists_cons_of_ne_nil unfinished
      | cons second passed => exact ⟨second, passed ++ rest, rfl⟩
    rw [cons_append, behind] at matched
    obtain ⟨-, nextElement, related, matchedNext⟩ := satisfies_cons.1 matched
    have matchedFrom : MatchesFrom test (passed ++ rest) nextElement := by
      rw [behind]
      exact matchedNext
    rw [climb]
    rcases onlyChildOrSub first (.head _) with child | sub
    · rw [child] at related
      rw [if_pos child, Option.bind_some]
      cases parent : place.parentElement with
      | none =>
        rw [Element.ancestors_of_no_parentElement parent] at isAbove
        exact absurd isAbove not_mem_nil
      | some placeParent =>
        rw [Element.ancestors_of_parentElement parent] at isAbove
        have nextAbove : nextElement ∈ placeParent.ancestors := by
          have isParent := Element.mem_ancestors_of_parentElement related
          rcases mem_cons.1 isAbove with rfl | further
          · exact isParent
          · exact Element.ancestors_subset_of_mem further isParent
        exact ih later nextAbove matchedFrom
    · rw [sub] at related
      cases related
      rw [if_neg (by rw [sub]; decide)]
      exact ih later isAbove matchedFrom

end Climbing

/-- The question that is left in a state of the loop. -/
def Pending (test : SelectorPart → Element → Prop) (state : FastCheckState) : Prop :=
  if state.topChildOrSubselector = [] then
    state.selector = [] ∨
      ∃ element ∈ elementsUp state.element, MatchesFrom test state.selector element
  else
    state.selector = [] ∨ (∃ element, state.element = some element ∧
        MatchesFrom test state.selector element) ∨
      ∃ matchElement, state.topChildOrSubselectorMatchElement = some matchElement ∧
        ∃ element ∈ matchElement.ancestors, MatchesFrom test state.topChildOrSubselector element

/-- The place to go back to is where the current element was reached from, nothing is
higher or longer than at the start, and only parts of the tag history come up. -/
structure FastCheckInvariant (allowed : SelectorPart → Prop) (height length : Nat)
    (state : FastCheckState) : Prop where
  selectorParts : ∀ part ∈ state.selector, allowed part
  topParts : ∀ matchElement, state.topChildOrSubselectorMatchElement = some matchElement →
    ∀ part ∈ state.topChildOrSubselector, allowed part
  elementHeight : (elementsUp state.element).length ≤ height
  selectorLength : state.selector.length ≤ length
  topLength : ∀ matchElement, state.topChildOrSubselectorMatchElement = some matchElement →
    state.topChildOrSubselector.length ≤ length
  topHeight : ∀ matchElement, state.topChildOrSubselector ≠ [] →
    state.topChildOrSubselectorMatchElement = some matchElement →
    (elementsUp (some matchElement)).length ≤ height
  reached : state.topChildOrSubselector ≠ [] →
    ∃ passed, state.topChildOrSubselector = passed ++ state.selector ∧
      (∀ part ∈ passed, part.relation = .child ∨ part.relation = .subSelector) ∧
      ∀ matchElement, state.topChildOrSubselectorMatchElement = some matchElement →
        climb passed (some matchElement) = state.element

/-- What a step makes smaller: first the height from which the search can go on, then
the parts that are left. -/
def fastCheckMeasure (height length : Nat) (state : FastCheckState) : Nat :=
  (if state.topChildOrSubselector = [] then (elementsUp state.element).length
    else
      match state.topChildOrSubselectorMatchElement with
      | none => height
      | some matchElement => (elementsUp (some matchElement)).length) * (length + 1) +
    state.selector.length

section Steps

variable {document : Document} {elementTest : SelectorPart → Element → Bool}
  {checkValue : Element → Bool} {part : SelectorPart} {tagHistory top : List SelectorPart}
  {matchElement : Option Element} {elements : List Element} {height length : Nat}
  {allowed : SelectorPart → Prop}

theorem fastCheckSingleSelector_search (checkValue : Element → Bool) :
    (fastCheckSingleSelector document checkValue part tagHistory [] matchElement elements = none ∧
      ∀ element ∈ elements, (checkValue element && tagMatches document element part) = false) ∨
      ∃ before element above, elements = before ++ element :: above ∧
        (∀ other ∈ before, (checkValue other && tagMatches document other part) = false) ∧
        (checkValue element && tagMatches document element part) = true ∧
        fastCheckSingleSelector document checkValue part tagHistory [] matchElement elements =
          some (afterMatch part tagHistory [] matchElement element) := by
  induction elements with
  | nil => exact .inl ⟨rfl, fun element member => absurd member not_mem_nil⟩
  | cons first elements ih =>
    by_cases matched : (checkValue first && tagMatches document first part) = true
    · refine .inr ⟨[], first, elements, rfl, fun other member =>
        absurd member not_mem_nil, matched, ?_⟩
      rw [fastCheckSingleSelector, if_pos matched]
    · have continued : fastCheckSingleSelector document checkValue part tagHistory []
          matchElement (first :: elements) =
          fastCheckSingleSelector document checkValue part tagHistory []
            matchElement elements := by
        rw [fastCheckSingleSelector, if_neg matched, if_neg (not_not.2 rfl)]
      rw [continued]
      have fails := Bool.eq_false_iff.2 matched
      rcases ih with ⟨failed, none⟩ |
        ⟨before, element, above, rfl, failsBefore, matches', found⟩
      · exact .inl ⟨failed, forall_mem_cons.2 ⟨fails, none⟩⟩
      · exact .inr ⟨first :: before, element, above, rfl,
          forall_mem_cons.2 ⟨fails, failsBefore⟩, matches', found⟩

section Answers

variable {test : SelectorPart → Element → Prop} {element : Element}

theorem matchesFrom_cons : MatchesFrom test (part :: tagHistory) element ↔ test part element ∧
        (tagHistory = [] ∨ ∃ next, Related part.relation element next ∧
          MatchesFrom test tagHistory next) := by
  cases tagHistory with
  | nil =>
    rw [MatchesFrom, satisfies_nil]
    exact ⟨fun passes => ⟨passes, .inl rfl⟩, fun both => both.1⟩
  | cons second later =>
    rw [MatchesFrom, satisfies_cons]
    simp only [reduceCtorEq, false_or]
    rfl

/-- A part joined by the descendant combinator that matches further up matches here. -/
theorem matchesFrom_of_above {other : Element} (descendant : part.relation = .descendant)
    (passes : test part element) (isAbove : other ∈ element.ancestors)
    (matched : MatchesFrom test (part :: tagHistory) other) :
    MatchesFrom test (part :: tagHistory) element := by
  obtain ⟨-, rest⟩ := matchesFrom_cons.1 matched
  refine matchesFrom_cons.2 ⟨passes, rest.imp id ?_⟩
  rintro ⟨next, related, matchedNext⟩
  rw [descendant] at related ⊢
  exact ⟨next, Element.ancestors_subset_of_mem isAbove related, matchedNext⟩

theorem relation_cases (isRelation : isFastCheckableRelation part.relation = true) :
    part.relation = .descendant ∨
      part.relation = .child ∨ part.relation = .subSelector := by
  simpa [isFastCheckableRelation, or_assoc] using isRelation

theorem pending_afterMatch_descendant (descendant : part.relation = .descendant)
    (passes : test part element) :
    Pending test (afterMatch part tagHistory top matchElement element) ↔
      MatchesFrom test (part :: tagHistory) element := by
  rw [matchesFrom_cons]
  simp only [Pending, afterMatch, descendant, ne_eq, not_true_eq_false, false_and, if_false,
    if_true, reduceCtorEq, not_false_eq_true, elementsUp_parentElement, passes, true_and]
  exact or_congr_right (exists_congr fun next => Iff.rfl)

theorem afterMatch_element (anchored : part.relation = .child ∨ part.relation = .subSelector)
    (next : Element) : (afterMatch part tagHistory top matchElement element).element = some next ↔
      Related part.relation element next := by
  rcases anchored with child | sub
  · simp only [afterMatch, child, Related, ne_eq, reduceCtorEq, not_false_eq_true, if_true]
  · simp only [afterMatch, sub, Related, ne_eq, not_true_eq_false, if_false, Option.some_inj]
    exact eq_comm

/-- A match answers the question as far as its part is concerned: the parts that are
left have to match from where the relation leads. -/
theorem pending_afterMatch_of_search (isRelation : isFastCheckableRelation part.relation = true)
    (passes : test part element) :
    Pending test (afterMatch part tagHistory [] matchElement element) ↔
      MatchesFrom test (part :: tagHistory) element ∨
        ∃ other ∈ element.ancestors, MatchesFrom test (part :: tagHistory) other := by
  rcases relation_cases isRelation with descendant | anchored
  · rw [pending_afterMatch_descendant descendant passes, iff_self_or]
    rintro ⟨other, isAbove, matched⟩
    exact matchesFrom_of_above descendant passes isAbove matched
  · have notDescendant : part.relation ≠ .descendant := by
      rcases anchored with child | sub
      · rw [child]
        decide
      · rw [sub]
        decide
    have atElement := @afterMatch_element part tagHistory [] matchElement element anchored
    rw [matchesFrom_cons, Pending]
    rw [if_neg (by simp [afterMatch, notDescendant])]
    simp only [atElement, passes, true_and, or_assoc]
    simp only [afterMatch, notDescendant, ne_eq, not_false_eq_true, true_and, if_true,
      if_false, Option.some_inj, exists_eq_left']

/-- The same for a place that was reached from an earlier match. -/
theorem pending_afterMatch_of_reached {passed : List SelectorPart}
    (isRelation : isFastCheckableRelation part.relation = true) (passes : test part element)
    (hasTop : top ≠ [])
    (onlyChildOrSub : ∀ other ∈ passed, other.relation = .child ∨ other.relation = .subSelector)
    (topSplit : top = passed ++ part :: tagHistory)
    (reached : ∀ place, matchElement = some place → climb passed (some place) = some element) :
    Pending test (afterMatch part tagHistory top matchElement element) ↔
      MatchesFrom test (part :: tagHistory) element ∨ ∃ place, matchElement = some place ∧
          ∃ other ∈ place.ancestors, MatchesFrom test top other := by
  rcases relation_cases isRelation with descendant | anchored
  · rw [pending_afterMatch_descendant descendant passes, iff_self_or]
    rintro ⟨place, isPlace, other, isAbove, matched⟩
    rw [topSplit] at matched
    obtain ⟨end', atEnd, further, above, matchedFurther⟩ :=
      matchesFrom_above_climb onlyChildOrSub (cons_ne_nil _ _) isAbove matched
    rw [reached place isPlace, Option.some_inj] at atEnd
    rw [← atEnd] at above
    exact matchesFrom_of_above descendant passes above matchedFurther
  · have notDescendant : part.relation ≠ .descendant := by
      rcases anchored with child | sub
      · rw [child]
        decide
      · rw [sub]
        decide
    have atElement := @afterMatch_element part tagHistory top matchElement element anchored
    rw [matchesFrom_cons, Pending]
    simp only [atElement, passes, true_and, or_assoc]
    simp only [afterMatch, notDescendant, ne_eq, not_false_eq_true, true_and, hasTop, if_false]

end Answers

section Invariants

variable {state : FastCheckState} {element : Element}

theorem length_afterMatch_element_le :
    (elementsUp (afterMatch part tagHistory top matchElement element).element).length ≤
      (elementsUp (some element)).length := by
  dsimp only [afterMatch]
  split
  · rw [elementsUp_parentElement]
    exact Nat.le_succ _
  · exact le_rfl

theorem climb_afterMatch (anchored : part.relation = .child ∨ part.relation = .subSelector) :
    (if part.relation = .child then (some element).bind Element.parentElement
      else some element) =
      (afterMatch part tagHistory top matchElement element).element := by
  rcases anchored with child | sub
  · simp only [afterMatch, child, if_true, Option.bind_some, ne_eq, reduceCtorEq, not_false_eq_true]
  · simp only [afterMatch, sub, reduceCtorEq, if_false, ne_eq, not_true_eq_false]

theorem invariant_afterMatch_of_search (inv : FastCheckInvariant allowed height length state)
    (atPart : state.selector = part :: tagHistory)
    (isRelation : isFastCheckableRelation part.relation = true)
    (isUp : (elementsUp (some element)).length ≤ (elementsUp state.element).length) :
    FastCheckInvariant allowed height length
      (afterMatch part tagHistory [] matchElement element) where
  selectorParts := by
    intro other member
    refine inv.selectorParts other ?_
    rw [atPart]
    exact .tail _ member
  topParts := by
    intro place _ other member
    refine inv.selectorParts other ?_
    rw [atPart]
    by_cases descendant : part.relation = .descendant
    · simp [afterMatch, descendant] at member
    · simpa [afterMatch, descendant] using member
  elementHeight := le_trans length_afterMatch_element_le (le_trans isUp inv.elementHeight)
  selectorLength := by
    have within := inv.selectorLength
    rw [atPart] at within
    exact Nat.le_of_succ_le within
  topLength := by
    intro place _
    have within := inv.selectorLength
    rw [atPart] at within
    dsimp only [afterMatch]
    split
    · exact Nat.zero_le _
    · rw [if_pos (And.intro (by assumption) rfl)]
      exact within
  topHeight := by
    intro place hasTop isPlace
    by_cases descendant : part.relation = .descendant
    · exact absurd (by simp [afterMatch, descendant]) hasTop
    · simp only [afterMatch, descendant, ne_eq, not_false_eq_true, and_self, if_true,
        Option.some_inj] at isPlace
      rw [← isPlace]
      exact le_trans isUp inv.elementHeight
  reached := by
    intro hasTop
    rcases relation_cases isRelation with descendant | anchored
    · exact absurd (by simp [afterMatch, descendant]) hasTop
    · have notDescendant : part.relation ≠ .descendant := by
        rcases anchored with child | sub
        · rw [child]
          decide
        · rw [sub]
          decide
      refine ⟨[part], ?_, ?_, ?_⟩
      · simp only [afterMatch, notDescendant, ne_eq, not_false_eq_true, and_self, if_true,
          if_false, singleton_append]
      · intro other member
        rw [mem_singleton.1 member]
        exact anchored
      · intro place isPlace
        simp only [afterMatch, notDescendant, ne_eq, not_false_eq_true, and_self, if_true,
          Option.some_inj] at isPlace
        rw [← isPlace]
        exact climb_afterMatch anchored

theorem invariant_afterMatch_of_reached (inv : FastCheckInvariant allowed height length state)
    (atPart : state.selector = part :: tagHistory)
    (isRelation : isFastCheckableRelation part.relation = true)
    (hasTop : state.topChildOrSubselector ≠ []) (atElement : state.element = some element) :
    FastCheckInvariant allowed height length
      (afterMatch part tagHistory state.topChildOrSubselector
        state.topChildOrSubselectorMatchElement element) where
  selectorParts := by
    intro other member
    refine inv.selectorParts other ?_
    rw [atPart]
    exact .tail _ member
  topParts := by
    intro place isPlace other member
    simp only [afterMatch, hasTop, and_false, if_false] at isPlace member
    refine inv.topParts place isPlace other ?_
    split at member
    · exact absurd member not_mem_nil
    · exact member
  elementHeight := by
    have within := inv.elementHeight
    rw [atElement] at within
    exact le_trans length_afterMatch_element_le within
  selectorLength := by
    have within := inv.selectorLength
    rw [atPart] at within
    exact Nat.le_of_succ_le within
  topLength := by
    intro place isPlace
    simp only [afterMatch, hasTop, and_false, if_false] at isPlace ⊢
    split
    · exact Nat.zero_le _
    · exact inv.topLength place isPlace
  topHeight := by
    intro place _ isPlace
    simp only [afterMatch, hasTop, and_false, if_false] at isPlace
    exact inv.topHeight place hasTop isPlace
  reached := by
    intro hasTopAfter
    rcases relation_cases isRelation with descendant | anchored
    · exact absurd (by simp [afterMatch, descendant]) hasTopAfter
    · have notDescendant : part.relation ≠ .descendant := by
        rcases anchored with child | sub
        · rw [child]
          decide
        · rw [sub]
          decide
      obtain ⟨passed, split, onlyChildOrSub, reached⟩ := inv.reached hasTop
      refine ⟨passed ++ [part], ?_, ?_, ?_⟩
      · simp only [afterMatch, notDescendant, hasTop, and_false, if_false]
        rw [split, atPart, append_assoc, singleton_append]
      · intro other member
        rcases mem_append.1 member with earlier | last
        · exact onlyChildOrSub other earlier
        · rw [mem_singleton.1 last]
          exact anchored
      · intro place isPlace
        simp only [afterMatch, hasTop, and_false, if_false] at isPlace
        rw [climb_append_singleton, reached place isPlace, atElement]
        exact climb_afterMatch anchored

theorem measure_afterMatch_of_search (atPart : state.selector = part :: tagHistory)
    (noTop : state.topChildOrSubselector = [])
    (isUp : (elementsUp (some element)).length ≤ (elementsUp state.element).length) :
    fastCheckMeasure height length (afterMatch part tagHistory [] matchElement element) <
      fastCheckMeasure height length state := by
  have lower := @length_afterMatch_element_le part tagHistory [] matchElement element
  have after : fastCheckMeasure height length
      (afterMatch part tagHistory [] matchElement element) ≤
      (elementsUp state.element).length * (length + 1) + tagHistory.length := by
    refine Nat.add_le_add_right (Nat.mul_le_mul_right _ ?_) _
    split
    · exact le_trans lower isUp
    · next hasTop =>
        by_cases descendant : part.relation = .descendant
        · exact absurd (by simp [afterMatch, descendant]) hasTop
        · simp only [afterMatch, descendant, ne_eq, not_false_eq_true, and_self, if_true]
          exact isUp
  refine lt_of_le_of_lt after ?_
  rw [fastCheckMeasure, if_pos noTop, atPart]
  exact Nat.lt_succ_self _

theorem measure_afterMatch_of_reached (inv : FastCheckInvariant allowed height length state)
    (atPart : state.selector = part :: tagHistory) (hasTop : state.topChildOrSubselector ≠ [])
    (atElement : state.element = some element) : fastCheckMeasure height length
        (afterMatch part tagHistory state.topChildOrSubselector
          state.topChildOrSubselectorMatchElement element) <
      fastCheckMeasure height length state := by
  have lower := @length_afterMatch_element_le part tagHistory state.topChildOrSubselector
    state.topChildOrSubselectorMatchElement element
  rw [fastCheckMeasure, fastCheckMeasure, if_neg hasTop, atPart]
  refine Nat.lt_succ_of_le (Nat.add_le_add_right (Nat.mul_le_mul_right _ ?_) _)
  by_cases descendant : part.relation = .descendant
  · rw [if_pos (by simp [afterMatch, descendant])]
    obtain ⟨passed, -, -, reached⟩ := inv.reached hasTop
    cases isPlace : state.topChildOrSubselectorMatchElement with
    | none =>
      have within := inv.elementHeight
      rw [atElement] at within
      exact le_trans lower within
    | some place =>
      have higher := @length_elementsUp_climb_le passed (some place)
      rw [reached place isPlace, atElement] at higher
      exact le_trans lower higher
  · rw [if_neg (by simp [afterMatch, descendant, hasTop])]
    simp only [afterMatch, hasTop, and_false, if_false]
    exact le_rfl

/-- One step of the loop answers the question or keeps it and makes progress. -/
theorem fastCheckSingleSelector_step {test : SelectorPart → Element → Prop}
    (inv : FastCheckInvariant allowed height length state)
    (atPart : state.selector = part :: tagHistory)
    (isRelation : isFastCheckableRelation part.relation = true)
    (tests : ∀ element, (checkValue element && tagMatches document element part) = true ↔
      test part element) :
    (fastCheckSingleSelector document checkValue part tagHistory state.topChildOrSubselector
        state.topChildOrSubselectorMatchElement (elementsUp state.element) = none ∧
      ¬ Pending test state) ∨
      ∃ next, fastCheckSingleSelector document checkValue part tagHistory
          state.topChildOrSubselector state.topChildOrSubselectorMatchElement
          (elementsUp state.element) = some next ∧
        FastCheckInvariant allowed height length next ∧
        (Pending test next ↔ Pending test state) ∧
        fastCheckMeasure height length next < fastCheckMeasure height length state := by
  have unfinished : state.selector ≠ [] := by
    rw [atPart]
    exact cons_ne_nil _ _
  have failsFrom : ∀ element, (checkValue element && tagMatches document element part) = false →
        ¬ MatchesFrom test (part :: tagHistory) element := by
    intro element fails matched
    rw [(tests element).2 (matchesFrom_cons.1 matched).1] at fails
    exact absurd fails (by decide)
  by_cases noTop : state.topChildOrSubselector = []
  · have pending : Pending test state ↔ ∃ element ∈ elementsUp state.element,
        MatchesFrom test (part :: tagHistory) element := by
      rw [Pending, if_pos noTop, or_iff_right unfinished, atPart]
    rw [noTop]
    rcases @fastCheckSingleSelector_search document part tagHistory
      state.topChildOrSubselectorMatchElement (elementsUp state.element) checkValue with
      ⟨failed, none⟩ | ⟨before, element, above, split, failsBefore, matched, found⟩
    · refine .inl ⟨failed, fun isPending => ?_⟩
      obtain ⟨element, member, matched⟩ := pending.1 isPending
      exact failsFrom element (none element member) matched
    · have isUp : (elementsUp (some element)).length ≤ (elementsUp state.element).length := by
        rw [elementsUp, ← elementsUp_split split, split, length_append]
        exact Nat.le_add_left _ _
      refine .inr ⟨_, found, invariant_afterMatch_of_search inv atPart isRelation isUp,
        ?_, measure_afterMatch_of_search atPart noTop isUp⟩
      rw [pending_afterMatch_of_search isRelation ((tests element).1 matched), pending, split,
        elementsUp_split split]
      constructor
      · rintro (here | ⟨other, isAbove, matchedOther⟩)
        · exact ⟨element, mem_append_right _ (.head _), here⟩
        · exact ⟨other, mem_append_right _ (.tail _ isAbove), matchedOther⟩
      · rintro ⟨other, member, matchedOther⟩
        rcases mem_append.1 member with isBefore | isFrom
        · exact absurd matchedOther (failsFrom other (failsBefore other isBefore))
        · rcases mem_cons.1 isFrom with rfl | isAbove
          · exact .inl matchedOther
          · exact .inr ⟨other, isAbove, matchedOther⟩
  · have pending : Pending test state ↔ (∃ element, state.element = some element ∧
          MatchesFrom test (part :: tagHistory) element) ∨
        ∃ place, state.topChildOrSubselectorMatchElement = some place ∧ ∃ other ∈ place.ancestors,
            MatchesFrom test state.topChildOrSubselector other := by
      rw [Pending, if_neg noTop, or_iff_right unfinished, atPart]
    obtain ⟨passed, topSplit, onlyChildOrSub, reached⟩ := inv.reached noTop
    rw [atPart] at topSplit
    cases atElement : state.element with
    | none =>
      refine .inl ⟨rfl, fun isPending => ?_⟩
      rcases pending.1 isPending with ⟨element, isElement, -⟩ |
        ⟨place, isPlace, other, isAbove, matched⟩
      · rw [atElement] at isElement
        cases isElement
      · rw [topSplit] at matched
        obtain ⟨end', atEnd, -⟩ :=
          matchesFrom_above_climb onlyChildOrSub (cons_ne_nil _ _) isAbove matched
        rw [reached place isPlace, atElement] at atEnd
        cases atEnd
    | some element =>
      rw [elementsUp, fastCheckSingleSelector]
      by_cases matched : (checkValue element && tagMatches document element part) = true
      · rw [if_pos matched]
        refine .inr ⟨_, rfl, invariant_afterMatch_of_reached inv atPart isRelation noTop atElement,
          ?_, measure_afterMatch_of_reached inv atPart noTop atElement⟩
        rw [pending_afterMatch_of_reached isRelation ((tests element).1 matched) noTop
          onlyChildOrSub topSplit (by rwa [atElement] at reached), pending, atElement]
        simp only [Option.some_inj, exists_eq_left']
      · rw [if_neg matched, if_pos noTop]
        have fails := failsFrom element (Bool.eq_false_iff.2 matched)
        cases isPlace : state.topChildOrSubselectorMatchElement with
        | none =>
          refine .inl ⟨rfl, fun isPending => ?_⟩
          rcases pending.1 isPending with ⟨other, isOther, matchedOther⟩ |
            ⟨place, isOtherPlace, -⟩
          · rw [atElement, Option.some_inj] at isOther
            rw [← isOther] at matchedOther
            exact fails matchedOther
          · rw [isPlace] at isOtherPlace
            cases isOtherPlace
        | some place =>
          have placeHeight := inv.topHeight place noTop isPlace
          have topLength := inv.topLength place isPlace
          have lower : (elementsUp place.parentElement).length + 1 =
              (elementsUp (some place)).length := by
            rw [elementsUp_parentElement]
            rfl
          refine .inr ⟨_, rfl, ⟨inv.topParts place isPlace, ?_, ?_, topLength, ?_, ?_, ?_⟩, ?_, ?_⟩
          · intro _ _ other member
            exact absurd member not_mem_nil
          · exact le_trans (Nat.le_of_lt (Nat.lt_of_succ_le lower.le)) placeHeight
          · intro _ _
            exact Nat.zero_le _
          · intro _ hasTop
            exact absurd rfl hasTop
          · intro hasTop
            exact absurd rfl hasTop
          · rw [pending, Pending, if_pos rfl, or_iff_right noTop, elementsUp_parentElement,
              atElement, isPlace]
            simp only [Option.some_inj, exists_eq_left', fails, false_or]
          · rw [fastCheckMeasure, fastCheckMeasure, if_pos rfl, if_neg noTop, isPlace]
            simp only
            rw [← lower, Nat.succ_mul]
            omega

/-- With enough steps the loop answers the question. -/
theorem fastCheckLoop_spec {test : SelectorPart → Element → Prop}
    (checkable : ∀ part, allowed part → isFastCheckableRelation part.relation = true ∧
      ∃ checkValue, fastCheckValue document elementTest part = some checkValue ∧
        ∀ element, (checkValue element && tagMatches document element part) = true ↔
          test part element)
    (inv : FastCheckInvariant allowed height length state)
    (steps : Nat)
    (enough : fastCheckMeasure height length state ≤ steps) :
    ∃ answer, fastCheckLoop document elementTest steps state = some answer ∧
      (answer = true ↔ Pending test state) := by
  induction steps generalizing state with
  | zero =>
    cases atPart : state.selector with
    | nil =>
      refine ⟨true, ?_, iff_of_true rfl ?_⟩
      · rw [fastCheckLoop]
        simp only [atPart]
      · rw [Pending]
        split <;> exact .inl atPart
    | cons part tagHistory =>
      rw [fastCheckMeasure, atPart, length_cons] at enough
      omega
  | succ steps ih =>
    cases atPart : state.selector with
    | nil =>
      refine ⟨true, ?_, iff_of_true rfl ?_⟩
      · rw [fastCheckLoop]
        simp only [atPart]
      · rw [Pending]
        split <;> exact .inl atPart
    | cons part tagHistory =>
      obtain ⟨isRelation, checkValue, selected, tests⟩ := checkable part
        (inv.selectorParts part (by rw [atPart]; exact mem_cons_self))
      rw [fastCheckLoop]
      simp only [atPart, selected]
      rcases @fastCheckSingleSelector_step document _ _ _ _ _ _ _ _ inv atPart isRelation
        tests with ⟨failed, notPending⟩ | ⟨next, continued, nextInvariant, same, progress⟩
      · rw [failed]
        exact ⟨false, rfl, iff_of_false Bool.false_ne_true notPending⟩
      · rw [continued]
        obtain ⟨answer, found, answers⟩ := ih nextInvariant (by omega)
        exact ⟨answer, found, answers.trans same⟩

end Invariants

end Steps

section FastChecks

variable {document : Document} {elementTest : SelectorPart → Element → Bool}
  {selector : CSSSelector} {part : SelectorPart} {element : Element}

theorem fastCheckStart_eq (isRelation : isFastCheckableRelation selector.part.relation = true) :
    fastCheckStart selector element =
      afterMatch selector.part selector.tagHistory (selector.part :: selector.tagHistory) none
        element := by
  rcases relation_cases isRelation with descendant | child | sub
  · simp only [fastCheckStart, afterMatch, descendant, reduceCtorEq, or_self, if_false, if_true,
      ne_eq, not_true_eq_false, false_and, not_false_eq_true]
  · simp only [fastCheckStart, afterMatch, child, reduceCtorEq, true_or, if_false, if_true,
      and_false]
  · simp only [fastCheckStart, afterMatch, sub, reduceCtorEq, or_true, if_false, if_true, and_false]

theorem fastCheckStart_invariant
    (isRelation : isFastCheckableRelation selector.part.relation = true) :
    FastCheckInvariant (· ∈ selector.tagHistory) (element.ancestors.length + 1)
      selector.tagHistory.length (fastCheckStart selector element) where
  selectorParts := fun _ member => member
  topParts := by
    intro place isPlace
    cases isPlace
  elementHeight := by
    rw [fastCheckStart_eq isRelation]
    exact length_afterMatch_element_le
  selectorLength := le_rfl
  topLength := by
    intro place isPlace
    cases isPlace
  topHeight := by
    intro place _ isPlace
    cases isPlace
  reached := by
    intro hasTop
    rcases relation_cases isRelation with descendant | anchored
    · exact absurd (by simp [fastCheckStart, descendant]) hasTop
    · refine ⟨[selector.part], ?_, ?_, ?_⟩
      · simp only [fastCheckStart, anchored, if_true, singleton_append]
      · intro other member
        rw [mem_singleton.1 member]
        exact anchored
      · intro place isPlace
        cases isPlace

theorem fastCheckStart_measure_le :
    fastCheckMeasure (element.ancestors.length + 1) selector.tagHistory.length
        (fastCheckStart selector element) ≤
      (element.ancestors.length + 2) * (selector.tagHistory.length + 1) := by
  have height : (elementsUp (fastCheckStart selector element).element).length ≤
      element.ancestors.length + 1 := by
    dsimp only [fastCheckStart]
    split
    · rw [elementsUp_parentElement]
      exact Nat.le_succ _
    · exact le_rfl
  have anchor : (if (fastCheckStart selector element).topChildOrSubselector = [] then
      (elementsUp (fastCheckStart selector element).element).length
    else
      match (fastCheckStart selector element).topChildOrSubselectorMatchElement with
      | none => element.ancestors.length + 1
      | some matchElement => (elementsUp (some matchElement)).length) ≤
      element.ancestors.length + 1 := by
    split
    · exact height
    · exact le_rfl
  have product := Nat.mul_le_mul_right (selector.tagHistory.length + 1) anchor
  refine le_trans (Nat.add_le_add_right product _) ?_
  rw [Nat.add_mul _ 2, Nat.add_mul _ 1]
  dsimp only [fastCheckStart]
  omega

theorem fastCheckValue_passes (isMatch : isFastCheckableMatch part = true) :
    ∃ checkValue, fastCheckValue document elementTest part = some checkValue ∧
      ∀ element, (checkValue element && tagMatches document element part) = true ↔
        SelectorChecker.passes document elementTest part element = true := by
  unfold isFastCheckableMatch at isMatch
  unfold fastCheckValue SelectorChecker.passes
  cases kind : part.matchKind <;> rw [kind] at isMatch <;>
    first
    | exact absurd isMatch Bool.false_ne_true
    | exact ⟨_, rfl, fun element => by rw [Bool.and_comm]⟩

theorem fastCheckRightmostSelector_eq_passes
    (isRightmost : isFastCheckableRightmostSelector part = true) :
    fastCheckRightmostSelector document elementTest part element =
      SelectorChecker.passes document elementTest part element := by
  have allowed : isFastCheckableMatch part = true ∨ part.matchKind = .pseudoClass := by
    rw [isFastCheckableRightmostSelector, Bool.and_eq_true, Bool.or_eq_true] at isRightmost
    refine isRightmost.2.imp id fun common => ?_
    rw [isCommonPseudoClassSelector, Bool.and_eq_true] at common
    exact of_decide_eq_true common.1
  unfold fastCheckRightmostSelector SelectorChecker.passes
  cases tagMatches document element part with
  | false => rfl
  | true =>
    unfold isFastCheckableMatch at allowed
    cases kind : part.matchKind <;> rw [kind] at allowed <;>
      first
      | rfl
      | exact absurd allowed (by simp)

/-- The fast check of a fast-checkable selector ends and finds exactly the matches. -/
theorem fastCheck_spec (isFastCheckable : isFastCheckableSelector selector = true)
    (element : Element) :
    ∃ answer, fastCheck document elementTest selector element = some answer ∧ (answer = true ↔
        Satisfies (fun part element =>
          SelectorChecker.passes document elementTest part element = true)
          selector.part selector.tagHistory element) := by
  rw [isFastCheckableSelector, Bool.and_eq_true, all_eq_true] at isFastCheckable
  obtain ⟨isRightmost, inHistory⟩ := isFastCheckable
  have isRelation : isFastCheckableRelation selector.part.relation = true := by
    rw [isFastCheckableRightmostSelector, Bool.and_eq_true] at isRightmost
    exact isRightmost.1
  rw [fastCheck, fastCheckRightmostSelector_eq_passes isRightmost]
  by_cases passes : SelectorChecker.passes document elementTest selector.part element = true
  · rw [if_pos passes]
    obtain ⟨answer, found, answers⟩ := @fastCheckLoop_spec document elementTest _ _ _ _
      (fun part element => SelectorChecker.passes document elementTest part element = true)
      (fun part member => by
        have both := inHistory part member
        rw [Bool.and_eq_true] at both
        exact ⟨both.1, fastCheckValue_passes both.2⟩)
      (fastCheckStart_invariant isRelation) _ (@fastCheckStart_measure_le selector element)
    refine ⟨answer, found, answers.trans ?_⟩
    rw [fastCheckStart_eq isRelation, @pending_afterMatch_of_reached _ _ _ _ _ _ [] isRelation
      passes (cons_ne_nil _ _) (fun other member => absurd member not_mem_nil) rfl
      (fun place isPlace => by cases isPlace)]
    simp only [reduceCtorEq, false_and, exists_false, or_false]
    rfl
  · rw [if_neg passes]
    refine ⟨false, rfl, iff_of_false Bool.false_ne_true ?_⟩
    intro matched
    exact passes (matchesFrom_cons.1 (show MatchesFrom _ (selector.part :: _) _ from matched)).1

theorem isFastCheckableSelector_noPseudoElement
    (isFastCheckable : isFastCheckableSelector selector = true) :
    ∀ part ∈ selector.part :: selector.tagHistory, part.matchKind ≠ .pseudoElement := by
  rw [isFastCheckableSelector, Bool.and_eq_true, all_eq_true] at isFastCheckable
  obtain ⟨isRightmost, inHistory⟩ := isFastCheckable
  intro part member isPseudo
  rcases mem_cons.1 member with rfl | later
  · simp [isFastCheckableRightmostSelector, isFastCheckableMatch, isCommonPseudoClassSelector,
      isPseudo] at isRightmost
  · have both := inHistory part later
    simp [isFastCheckableMatch, isPseudo] at both

end FastChecks

namespace SelectorChecker

/-- Without pseudo elements and without a scope the recursive check finds exactly the
elements for which there is an assignment, and the fast check of a fast-checkable selector
gives the same answer. -/
theorem matching_correct (document : Document) (mode : Mode) (scrollbarForStyleResolve : Bool)
    (elementTest : SelectorPart → Element → Bool) (selector : CSSSelector) (element : Element)
    (visitedMatchType : VisitedMatchType) :
    ((∀ part ∈ selector.part :: selector.tagHistory, part.matchKind ≠ .pseudoElement) →
      ((ofElementTest document mode scrollbarForStyleResolve elementTest).check selector
          (.create element visitedMatchType) = .selectorMatches ↔
        Satisfies (fun part element => passes document elementTest part element = true)
          selector.part selector.tagHistory element)) ∧
    (isFastCheckableSelector selector = true → fastCheck document elementTest selector element =
        some (decide ((ofElementTest document mode scrollbarForStyleResolve elementTest).check
          selector (.create element visitedMatchType) = .selectorMatches))) := by
  refine ⟨fun noPseudoElement => check_eq_matches_iff noPseudoElement element visitedMatchType,
    fun isFastCheckable => ?_⟩
  have recursive := @check_eq_matches_iff document mode scrollbarForStyleResolve elementTest
    selector (isFastCheckableSelector_noPseudoElement isFastCheckable) element visitedMatchType
  obtain ⟨answer, found, answers⟩ := @fastCheck_spec document elementTest _ isFastCheckable element
  rw [found, Option.some_inj, Bool.eq_iff_iff, answers, decide_eq_true_iff, recursive]

/-- `div > div` -/
def divInDiv : CSSSelector :=
  let tag := { anyQName with localName := WString.lit "div" }
  let div : SelectorPart :=
    { matchKind := .none, tag, value := none, relation := .child, pseudoType := .other 0
      attributeName := anyQName }
  { part := div, tagHistory := [{ div with relation := .descendant }] }

theorem matching_correct_divInDiv :
    ((ofElementTest (fun _ => divElement) .queryingRules false fun _ _ => true).check divInDiv
          (.create (.child (.topLevel 0) 0) .visitedMatchDisabled) = .selectorMatches ↔
        Satisfies (fun part element =>
          passes (fun _ => divElement) (fun _ _ => true) part element = true)
          divInDiv.part divInDiv.tagHistory (.child (.topLevel 0) 0)) ∧
      fastCheck (fun _ => divElement) (fun _ _ => true) divInDiv (.child (.topLevel 0) 0) =
        some (decide ((ofElementTest (fun _ => divElement) .queryingRules false
          fun _ _ => true).check divInDiv
            (.create (.child (.topLevel 0) 0) .visitedMatchDisabled) = .selectorMatches)) :=
  have correct := matching_correct (fun _ => divElement) .queryingRules false (fun _ _ => true)
    divInDiv (.child (.topLevel 0) 0) .visitedMatchDisabled
  ⟨correct.1 (by decide), correct.2 (by decide)⟩

end SelectorChecker

end Css
end PalmWebKit
