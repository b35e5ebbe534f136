import PalmWebKit.Platform.SpanSearch

/-!
# What the searches return

`searchLeft` takes the run of valid characters in front of the cursor, or in
front of one invalid character there.  `searchRight` takes the run behind the
cursor up to its last candidate.
-/

namespace PalmWebKit
namespace Platform

theorem charAt_of_neg (str : WString) {index : Int} (isNegative : index < 0) :
    charAt str index = 0 :=
  if_neg (by omega)

theorem charAt_of_end (str : WString) {index : Int} (isEnd : (str.length : Int) ≤ index) :
    charAt str index = 0 := by
  rw [charAt, if_pos (by omega)]
  rw [List.getD_eq_getElem?_getD, List.getElem?_eq_none (by omega)]
  rfl

namespace CharacterTests

/-- The terminating zero is no valid character, and prefixes are delimiters. -/
structure Lawful (tests : CharacterTests) : Prop where
  candidateZero : tests.isCandidate 0 = false
  delimiterZero : tests.isDelimiter 0 = false
  delimiterOfPrefix : ∀ ch, tests.isPrefix ch = true → tests.isDelimiter ch = true

section Spans

variable (tests : CharacterTests) (str : WString)

/-- A valid character stands at a position. -/
def ValidAt (position : Int) : Prop := tests.isValid (charAt str position) = true

def CandidateAt (position : Int) : Prop := tests.isCandidate (charAt str position) = true

instance (position : Int) : Decidable (tests.ValidAt str position) :=
  inferInstanceAs (Decidable (_ = true))

instance (position : Int) : Decidable (tests.CandidateAt str position) :=
  inferInstanceAs (Decidable (_ = true))

/-- The span lies in the text and its characters are valid. -/
structure IsRun (span : ParserSpan) : Prop where
  startInside : 0 ≤ span.start
  nonempty : span.start ≤ span.finish
  finishInside : span.finish < str.length
  valid : ∀ position, span.start ≤ position → position ≤ span.finish → tests.ValidAt str position

end Spans

section Left

variable {tests : CharacterTests} {str : WString}

theorem Lawful.validAt_iff (lawful : tests.Lawful) {position : Int} :
    tests.ValidAt str position ↔ tests.isCandidate (charAt str position) = true ∨
        tests.isDelimiter (charAt str position) = true := by
  rw [ValidAt, isValid, Bool.or_eq_true, Bool.or_eq_true]
  constructor
  · rintro ((isPrefix | isCandidate) | isDelimiter)
    · exact .inr (lawful.delimiterOfPrefix _ isPrefix)
    · exact .inl isCandidate
    · exact .inr isDelimiter
  · rintro (isCandidate | isDelimiter)
    · exact .inl (.inr isCandidate)
    · exact .inr isDelimiter

theorem Lawful.inside_of_validAt (lawful : tests.Lawful) {position : Int}
    (isValid : tests.ValidAt str position) : 0 ≤ position ∧ position < str.length := by
  have zero : ¬(tests.isCandidate 0 = true ∨ tests.isDelimiter 0 = true) := by
    rw [lawful.candidateZero, lawful.delimiterZero]
    exact nofun
  rw [lawful.validAt_iff] at isValid
  refine ⟨by_contra fun isNegative => zero ?_, by_contra fun isEnd => zero ?_⟩
  · rw [charAt_of_neg str (Int.not_le.1 isNegative)] at isValid
    exact isValid
  · rw [charAt_of_end str (Int.not_lt.1 isEnd)] at isValid
    exact isValid

/-- What the loop has seen behind a valid character. -/
structure RunsFrom (tests : CharacterTests) (str : WString) (count : Nat) (found : Bool)
    (first : Int) (expanded : Expansion) : Prop where
  first : expanded.firstValidCharPos = first
  lower : -1 ≤ expanded.start
  upper : expanded.start < count
  valid : ∀ position, expanded.start < position → position < count → tests.ValidAt str position
  stops : ¬tests.ValidAt str expanded.start
  found : expanded.candidateFound = true ↔ found = true ∨
    ∃ position, expanded.start < position ∧ position < count ∧ tests.CandidateAt str position

/-- The loop stops in front of a character that is not valid. -/
theorem runsFrom_stopped {count : Nat} {start : Int} (found : Bool) (first : Int)
    (isBefore : start + 1 = count) (stops : ¬tests.ValidAt str start) :
    RunsFrom tests str count found first ⟨start, found, first⟩ where
  first := rfl
  lower := show -1 ≤ start by omega
  upper := show start < count by omega
  valid position above below := absurd (show start < position from above) (by omega)
  stops := stops
  found := by
    refine ⟨.inl, ?_⟩
    rintro (isFound | ⟨position, above, below, -⟩)
    · exact isFound
    · exact absurd (show start < position from above) (by omega)

/-- The loop goes on over a valid character. -/
theorem RunsFrom.extend {count : Nat} {found foundBefore : Bool} {first : Int}
    {expanded : Expansion} (runsFrom : RunsFrom tests str count found first expanded)
    (isValid : tests.ValidAt str count)
    (foundIff : found = true ↔ foundBefore = true ∨ tests.CandidateAt str count) :
    RunsFrom tests str (count + 1) foundBefore first expanded where
  first := runsFrom.first
  lower := runsFrom.lower
  upper := Int.lt_trans runsFrom.upper (by omega)
  valid position above below := by
    rcases Int.lt_or_eq_of_le (show position ≤ count by omega) with isBefore | rfl
    · exact runsFrom.valid position above isBefore
    · exact isValid
  stops := runsFrom.stops
  found := by
    rw [runsFrom.found, foundIff]
    constructor
    · rintro ((isFound | isCandidate) | ⟨position, above, below, isCandidate⟩)
      · exact .inl isFound
      · exact .inr ⟨count, runsFrom.upper, by omega, isCandidate⟩
      · exact .inr ⟨position, above, by omega, isCandidate⟩
    · rintro (isFound | ⟨position, above, below, isCandidate⟩)
      · exact .inl (.inl isFound)
      · rcases Int.lt_or_eq_of_le (show position ≤ count by omega) with isBefore | rfl
        · exact .inr ⟨position, above, isBefore, isCandidate⟩
        · exact .inl (.inr isCandidate)

variable {cursorPos : Int}

/-- The loop goes on to the beginning of the run. -/
theorem Lawful.expandLeft_run (lawful : tests.Lawful) {count : Nat}
    (behind : (count : Int) ≤ cursorPos - 1) (found : Bool) {first : Int} (seen : first ≠ -1) :
    RunsFrom tests str count found first (tests.expandLeft str cursorPos count found first) := by
  induction count generalizing found with
  | zero =>
    have result : tests.expandLeft str cursorPos 0 found first = ⟨-1, found, first⟩ := rfl
    refine runsFrom_stopped found first rfl fun isValid => ?_
    exact absurd (lawful.inside_of_validAt isValid).1 (by decide)
  | succ start ih =>
    have further := fun seenBefore => ih (by omega) seenBefore
    by_cases isCandidate : tests.isCandidate (charAt str start) = true
    · have goesOn : tests.expandLeft str cursorPos (start + 1) found first =
          tests.expandLeft str cursorPos start true first := by
        rw [expandLeft]
        simp only [if_pos isCandidate, if_neg seen]
      rw [goesOn]
      exact (further true).extend (lawful.validAt_iff.2 (.inl isCandidate))
        (iff_of_true rfl (.inr isCandidate))
    · by_cases isDelimiter : tests.isDelimiter (charAt str start) = true
      · have goesOn : tests.expandLeft str cursorPos (start + 1) found first =
            tests.expandLeft str cursorPos start found first := by
          rw [expandLeft]
          simp only [if_neg isCandidate, if_pos isDelimiter, if_neg seen]
        rw [goesOn]
        refine (further found).extend (lawful.validAt_iff.2 (.inr isDelimiter)) ?_
        exact (or_iff_left isCandidate).symm
      · have result : tests.expandLeft str cursorPos (start + 1) found first =
            ⟨start, found, first⟩ := by
          rw [expandLeft]
          simp only [if_neg isCandidate, if_neg isDelimiter]
          rw [if_neg (show ¬(start : Int) = cursorPos - 1 by omega), ite_self]
        rw [result]
        refine runsFrom_stopped found first rfl ?_
        rw [lawful.validAt_iff]
        exact not_or.2 ⟨isCandidate, isDelimiter⟩

theorem skipInvalid_of_valid {start : Int} (isValid : tests.ValidAt str start) (left : Nat) :
    tests.skipInvalid str left start = start := by
  cases left with
  | zero => rfl
  | succ left =>
    rw [skipInvalid, isValid]
    rfl

theorem skipInvalid_of_not_valid {start : Int} (isInvalid : ¬tests.ValidAt str start)
    (isValid : tests.ValidAt str (start + 1)) {left : Nat} (some : 0 < left) :
    tests.skipInvalid str left start = start + 1 := by
  cases left with
  | zero => cases some
  | succ left =>
    have isFalse : tests.isValid (charAt str start) = false := Bool.eq_false_iff.2 isInvalid
    rw [skipInvalid, isFalse]
    exact skipInvalid_of_valid isValid left

theorem trimFromCursorToStart_of_valid {boundary : Int} (isValid : tests.ValidAt str boundary)
    (left : Nat) : tests.trimFromCursorToStart str left boundary = boundary := by
  cases left with
  | zero => rfl
  | succ left =>
    rw [trimFromCursorToStart, isValid]
    rfl

/-- The last valid character in front of the cursor, past one invalid one. -/
def LastValid (tests : CharacterTests) (str : WString) (cursorPos : Int) (last : Nat) : Prop :=
  tests.ValidAt str last ∧
    (last = cursorPos - 1 ∨ (last = cursorPos - 2 ∧ ¬tests.ValidAt str (cursorPos - 1)))

theorem Lawful.expandLeft_first (lawful : tests.Lawful) {cursorPos : Int} {last : Nat}
    (isValid : tests.ValidAt str last) (isBefore : (last : Int) ≤ cursorPos - 1) :
    ∃ found, RunsFrom tests str last found last
      (tests.expandLeft str cursorPos (last + 1) false (-1)) := by
  have seen : (last : Int) ≠ -1 := by omega
  by_cases isCandidate : tests.isCandidate (charAt str last) = true
  · refine ⟨true, ?_⟩
    rw [expandLeft]
    simp only [if_pos isCandidate, if_true]
    exact lawful.expandLeft_run isBefore true seen
  · have isDelimiter := (lawful.validAt_iff.1 isValid).resolve_left isCandidate
    refine ⟨false, ?_⟩
    rw [expandLeft]
    simp only [if_neg isCandidate, if_pos isDelimiter, if_true]
    exact lawful.expandLeft_run isBefore false seen

theorem Lawful.expandLeft_invalid (lawful : tests.Lawful) {last : Nat}
    (isInvalid : ¬tests.ValidAt str last) : tests.expandLeft str cursorPos (last + 1) false (-1) =
      if (last : Int) = cursorPos - 1 then tests.expandLeft str cursorPos last false (-1)
      else ⟨last, false, -1⟩ := by
  rw [lawful.validAt_iff, not_or] at isInvalid
  rw [expandLeft]
  simp only [if_neg isInvalid.1, if_neg isInvalid.2, Bool.false_eq_true, if_false]

/-- The loop finds a run, or nothing valid. -/
theorem Lawful.expandLeft_cursor (lawful : tests.Lawful) {cursorPos : Int}
    (positive : 0 < cursorPos) :
    (∃ last found, LastValid tests str cursorPos last ∧ RunsFrom tests str last found last
        (tests.expandLeft str cursorPos cursorPos.toNat false (-1))) ∨
    ∃ start, tests.expandLeft str cursorPos cursorPos.toNat false (-1) = ⟨start, false, -1⟩ ∧
      (start < 0 → ¬tests.ValidAt str 0) := by
  obtain ⟨count, isCount⟩ : ∃ count : Nat, cursorPos = count + 1 :=
    ⟨(cursorPos - 1).toNat, by omega⟩
  have position : cursorPos.toNat = count + 1 := by omega
  rw [position]
  by_cases isValid : tests.ValidAt str count
  · have atCursor : (count : Int) ≤ cursorPos - 1 := by
      omega
    obtain ⟨found, runsFrom⟩ := lawful.expandLeft_first isValid atCursor
    exact .inl ⟨count, found, ⟨isValid, .inl (by omega)⟩, runsFrom⟩
  · rw [lawful.expandLeft_invalid isValid, if_pos (by omega)]
    cases count with
    | zero => exact .inr ⟨-1, rfl, fun _ => isValid⟩
    | succ count =>
      have atCursor : (count : Int) + 1 = cursorPos - 1 := by omega
      by_cases isNextValid : tests.ValidAt str count
      · obtain ⟨found, runsFrom⟩ := @expandLeft_first _ str lawful cursorPos _ isNextValid
          (by omega)
        -- The invalid character has been passed, so the next one is the first.
        refine .inl ⟨count, found, ⟨isNextValid, .inr ⟨by omega, ?_⟩⟩, runsFrom⟩
        rw [← atCursor]
        exact isValid
      · rw [lawful.expandLeft_invalid isNextValid, if_neg (by omega)]
        exact .inr ⟨count, rfl, fun isNegative => absurd isNegative (by omega)⟩

/-- The span to the left is the run up to the last valid character. -/
theorem Lawful.searchLeft_spec (lawful : tests.Lawful) (positive : 0 < cursorPos)
    {span : ParserSpan} (isFound : tests.searchLeft str cursorPos = (true, span)) :
    tests.IsRun str span ∧ ¬tests.ValidAt str (span.start - 1) ∧
      span.finish = if tests.ValidAt str (cursorPos - 1) then cursorPos - 1 else cursorPos - 2 := by
  rw [searchLeft] at isFound
  split at isFound
  case isTrue => cases isFound
  case isFalse =>
    have cursor := @expandLeft_cursor tests str lawful cursorPos positive
    generalize tests.expandLeft str cursorPos cursorPos.toNat false (-1) = expanded
      at isFound cursor
    rcases cursor with ⟨last, found, ⟨isValid, isLast⟩, runsFrom⟩ | ⟨start, rfl, invalid⟩
    · have inside := lawful.inside_of_validAt isValid
      have seen : expanded.firstValidCharPos ≠ -1 := by
        rw [runsFrom.first]
        omega
      have lower := runsFrom.lower
      have upper := runsFrom.upper
      have runValid : ∀ position, expanded.start < position → position ≤ last →
          tests.ValidAt str position := by
        intro position above below
        rcases Int.lt_or_eq_of_le below with isBefore | rfl
        · exact runsFrom.valid position above isBefore
        · exact isValid
      have skipped : tests.skipInvalid str
          (cursorPos - if expanded.start < 0 then 0 else expanded.start).toNat
            (if expanded.start < 0 then 0 else expanded.start) = expanded.start + 1 := by
        split_ifs with isNegative
        · rw [skipInvalid_of_valid (runValid 0 isNegative (by omega))]
          omega
        · exact skipInvalid_of_not_valid runsFrom.stops
            (runValid _ (by omega) (by omega)) (by omega)
      dsimp only at isFound
      rw [if_pos seen, runsFrom.first, skipped, trimFromCursorToStart_of_valid isValid] at isFound
      split at isFound
      case isFalse => cases isFound
      case isTrue =>
        obtain rfl := ((Prod.mk.injEq ..).mp isFound).2
        refine ⟨⟨?_, ?_, inside.2, fun position above below => ?_⟩, ?_, ?_⟩
        · exact show 0 ≤ expanded.start + 1 by omega
        · exact show expanded.start + 1 ≤ last by omega
        · exact runValid position (show expanded.start < position from
            Int.lt_of_lt_of_le (Int.lt_succ _) above) below
        · rw [show expanded.start + 1 - 1 = expanded.start by omega]
          exact runsFrom.stops
        · rcases isLast with isCursor | ⟨isBefore, isInvalid⟩
          · rw [if_pos (isCursor ▸ isValid)]
            exact isCursor
          · rw [if_neg isInvalid]
            exact isBefore
    · have notFound : (false || (decide (start < 0) && tests.isDelimiter (charAt str 0))) =
          false := by
        by_cases isNegative : start < 0
        · have noDelimiter := (not_or.1 (lawful.validAt_iff.not.1 (invalid isNegative))).2
          rw [Bool.eq_false_iff.2 noDelimiter, Bool.and_false, Bool.or_false]
        · rw [decide_eq_false isNegative, Bool.false_and, Bool.or_false]
      dsimp only at isFound
      rw [notFound] at isFound
      cases isFound

end Left

section Right

variable {tests : CharacterTests} {str : WString}

/-- What the loop has passed from a position on. -/
structure RunsTo (tests : CharacterTests) (str : WString) (left : Nat) (finish : Int) (found : Bool)
    (expanded : Int × Bool) : Prop where
  valid : ∀ position, finish ≤ position → position < expanded.1 → tests.ValidAt str position
  lower : finish ≤ expanded.1
  stops : expanded.1 = finish + left ∨ ¬tests.ValidAt str expanded.1
  found : expanded.2 = true → found = true ∨
    ∃ position, finish ≤ position ∧ position < expanded.1 ∧ tests.CandidateAt str position

theorem RunsTo.extend {left : Nat} {finish : Int} {found foundBefore : Bool} {expanded : Int × Bool}
    (runsTo : RunsTo tests str left (finish + 1) found expanded)
    (isValid : tests.ValidAt str finish)
    (foundHere : found = true → foundBefore = true ∨ tests.CandidateAt str finish) :
    RunsTo tests str (left + 1) finish foundBefore expanded where
  valid position above below := by
    rcases Int.lt_or_eq_of_le above with isBehind | rfl
    · exact runsTo.valid position isBehind below
    · exact isValid
  lower := Int.le_trans (Int.le_of_lt (Int.lt_succ finish)) runsTo.lower
  stops := by
    rcases runsTo.stops with isEnd | isInvalid
    · exact .inl (isEnd.trans (by omega))
    · exact .inr isInvalid
  found isFound := by
    rcases runsTo.found isFound with isEarlier | ⟨position, above, below, isCandidate⟩
    · rcases foundHere isEarlier with wasFound | isCandidate
      · exact .inl wasFound
      · exact .inr ⟨finish, Int.le_refl _, runsTo.lower, isCandidate⟩
    · exact .inr ⟨position, Int.le_trans (Int.le_of_lt (Int.lt_succ finish)) above, below,
        isCandidate⟩

/-- The loop goes on to the end of the run. -/
theorem Lawful.expandRight_run (lawful : tests.Lawful) (left : Nat) (finish : Int) (found : Bool) :
    RunsTo tests str left finish found (tests.expandRight str left finish found) := by
  have nothingPassed : ∀ position, finish ≤ position → position < finish →
      tests.ValidAt str position := fun _ above below =>
    absurd (Int.lt_of_le_of_lt above below) (Int.lt_irrefl _)
  induction left generalizing finish found with
  | zero => exact ⟨nothingPassed, Int.le_refl _, .inl (Int.add_zero _).symm, .inl⟩
  | succ left ih =>
    have further := fun foundNow => ih (finish + 1) foundNow
      fun _ above below => absurd (Int.lt_of_le_of_lt above below) (Int.lt_irrefl _)
    by_cases isCandidate : tests.isCandidate (charAt str finish) = true
    · rw [expandRight]
      simp only [if_pos isCandidate]
      exact (further true).extend (lawful.validAt_iff.2 (.inl isCandidate))
        fun _ => .inr isCandidate
    · by_cases isDelimiter : tests.isDelimiter (charAt str finish) = true
      · rw [expandRight]
        simp only [if_neg isCandidate, if_pos isDelimiter]
        exact (further found).extend (lawful.validAt_iff.2 (.inr isDelimiter)) .inl
      · rw [expandRight]
        simp only [if_neg isCandidate, if_neg isDelimiter]
        refine ⟨nothingPassed, Int.le_refl _, .inr ?_, .inl⟩
        rw [lawful.validAt_iff]
        exact not_or.2 ⟨isCandidate, isDelimiter⟩

/-- The loop goes back to the last candidate. -/
theorem trimRight_spec (left : Nat) (finish : Int) (found : Bool) :
    (tests.trimRight str left finish found).1 ≤ finish ∧
    (∀ position, (tests.trimRight str left finish found).1 < position → position ≤ finish →
      ¬tests.CandidateAt str position) ∧
    ((tests.trimRight str left finish found = (finish - left, found)) ∨
      (finish - left < (tests.trimRight str left finish found).1 ∧
        tests.CandidateAt str (tests.trimRight str left finish found).1 ∧
        (tests.trimRight str left finish found).2 = true)) := by
  induction left generalizing finish with
  | zero =>
    exact ⟨Int.le_refl _, fun _ above below => absurd (Int.lt_of_lt_of_le above below)
      (Int.lt_irrefl _), .inl (by rw [trimRight]; simp)⟩
  | succ left ih =>
    by_cases isCandidate : tests.CandidateAt str finish
    · have result : tests.trimRight str (left + 1) finish found = (finish, true) := by
        rw [trimRight, show tests.isCandidate (charAt str finish) = true from isCandidate]
        rfl
      rw [result]
      exact ⟨Int.le_refl _, fun _ above below => absurd (Int.lt_of_lt_of_le above below)
        (Int.lt_irrefl _), .inr ⟨show finish - _ < finish by omega, isCandidate, rfl⟩⟩
    · have goesOn : tests.trimRight str (left + 1) finish found =
          tests.trimRight str left (finish - 1) found := by
        have isFalse : tests.isCandidate (charAt str finish) = false :=
          Bool.eq_false_iff.2 isCandidate
        rw [trimRight, isFalse]
        rfl
      obtain ⟨upper, trimmed, ends⟩ := ih (finish - 1)
      rw [goesOn]
      refine ⟨by omega, fun position above below => ?_, ?_⟩
      · rcases Int.lt_or_eq_of_le below with isBefore | rfl
        · exact trimmed position above (by omega)
        · exact isCandidate
      · have start : finish - 1 - left = finish - (left + 1 : Nat) := by
          omega
        rw [start] at ends
        exact ends

theorem Lawful.spanRight_spec (lawful : tests.Lawful) {left : Nat} {cursorPos : Int}
    (isInside : 0 ≤ cursorPos) (ends : cursorPos + left = str.length)
    (isFound : (tests.spanRight str left cursorPos).1 = true) :
    tests.IsRun str (tests.spanRight str left cursorPos).2 ∧
      (tests.spanRight str left cursorPos).2.start = cursorPos ∧
      tests.CandidateAt str (tests.spanRight str left cursorPos).2.finish ∧
      ∀ last, (tests.spanRight str left cursorPos).2.finish < last →
        (∀ position, (tests.spanRight str left cursorPos).2.finish < position →
          position ≤ last → tests.ValidAt str position) →
          ¬tests.CandidateAt str last := by
  rw [spanRight] at isFound ⊢
  have runsTo := @expandRight_run tests str lawful left cursorPos false
  generalize tests.expandRight str left cursorPos false = expanded at isFound runsTo
  have trimmed := @trimRight_spec tests str (expanded.1 - cursorPos + 1).toNat expanded.1
    expanded.2
  generalize tests.trimRight str (expanded.1 - cursorPos + 1).toNat expanded.1 expanded.2 =
    result at isFound trimmed
  obtain ⟨upper, noCandidate, stops⟩ := trimmed
  have stopsInvalid : ¬tests.ValidAt str expanded.1 := by
    rcases runsTo.stops with isEnd | isInvalid
    · intro isValid
      have inside := (lawful.inside_of_validAt isValid).2
      omega
    · exact isInvalid
  have isLast : cursorPos ≤ result.1 ∧ tests.CandidateAt str result.1 := by
    rcases stops with same | ⟨above, isCandidate, -⟩
    · have start : result.1 < cursorPos := by
        rw [same]
        exact show expanded.1 - _ < cursorPos by omega
      have isExpanded : expanded.2 = true := by
        rw [same] at isFound
        exact isFound
      rcases runsTo.found isExpanded with isFalse | ⟨position, above, below, isCandidate⟩
      · cases isFalse
      · exact absurd isCandidate
          (noCandidate position (Int.lt_of_lt_of_le start above) (Int.le_of_lt below))
    · exact ⟨by omega, isCandidate⟩
  have isValid : tests.ValidAt str result.1 := lawful.validAt_iff.2 (.inl isLast.2)
  have inText := lawful.inside_of_validAt isValid
  have isBefore : result.1 < expanded.1 := by
    refine Int.lt_iff_le_and_ne.2 ⟨upper, fun same => stopsInvalid ?_⟩
    rw [← same]
    exact isValid
  refine ⟨⟨show 0 ≤ cursorPos by omega, isLast.1, inText.2, fun position above below => ?_⟩, rfl,
    isLast.2, fun last isBehind allValid => ?_⟩
  · exact runsTo.valid position above (Int.lt_of_le_of_lt below isBefore)
  · by_cases inRun : last ≤ expanded.1
    · exact noCandidate last isBehind inRun
    · exact absurd (allValid expanded.1 isBefore (by omega)) stopsInvalid

theorem bmod_cases {number : Nat} (isUnsigned : number < 2 ^ 32) :
    (number : Int).bmod (2 ^ 32) = number ∨ (number : Int).bmod (2 ^ 32) < 0 := by
  have value := Int.bmod_def (number : Int) (2 ^ 32)
  omega

/-- The length of a long text is converted to a negative number. -/
theorem intLength_cases (isText : str.length < 2 ^ 32) :
    intLength str = str.length ∨ intLength str < 0 := bmod_cases isText

/-- The span to the right is the run up to its last candidate. -/
theorem Lawful.searchRight_spec (lawful : tests.Lawful) (isText : str.length < 2 ^ 32)
    {cursorPos : Int} {span : ParserSpan}
    (isFound : tests.searchRight str cursorPos = (true, span)) :
    tests.IsRun str span ∧ span.start = cursorPos ∧ tests.CandidateAt str span.finish ∧
      ∀ last, span.finish < last →
        (∀ position, span.finish < position → position ≤ last → tests.ValidAt str position) →
          ¬tests.CandidateAt str last := by
  have bound := @intLength_cases str isText
  rw [searchRight] at isFound
  split at isFound
  case isTrue => cases isFound
  case isFalse isInside =>
    have spec := @spanRight_spec tests str lawful (intLength str - cursorPos).toNat cursorPos
      (by omega) (by omega)
    rw [isFound] at spec
    exact spec rfl

end Right

/-! ## Both directions -/

section Spans

variable (tests : CharacterTests) (str : WString) (cursorPos : Int)

/-- The run that ends in front of the cursor, or of one invalid character. -/
structure LeftOf (span : ParserSpan) : Prop where
  run : tests.IsRun str span
  maximal : ¬tests.ValidAt str (span.start - 1)
  finish : span.finish =
    if tests.ValidAt str (cursorPos - 1) then cursorPos - 1 else cursorPos - 2

/-- The run that starts at the cursor, up to its last candidate. -/
structure RightOf (span : ParserSpan) : Prop where
  run : tests.IsRun str span
  start : span.start = cursorPos
  candidate : tests.CandidateAt str span.finish
  last : ∀ last, span.finish < last →
    (∀ position, span.finish < position → position ≤ last → tests.ValidAt str position) →
      ¬tests.CandidateAt str last

/-- The spans that are found are such runs, with one invalid character between
them if it stands in front of the cursor. -/
structure SpansFound (left right : Bool × ParserSpan) : Prop where
  leftRun : left.1 = true → LeftOf tests str cursorPos left.2
  rightRun : right.1 = true → RightOf tests str cursorPos right.2
  adjacent : left.1 = true → right.1 = true → right.2.start =
      if tests.ValidAt str (cursorPos - 1) then left.2.finish + 1 else left.2.finish + 2

/-- The spans that are found are maximal runs and stand side by side. -/
structure SpansAdjacent (left right : Bool × ParserSpan) : Prop where
  leftRun : left.1 = true → tests.IsRun str left.2 ∧ ¬tests.ValidAt str (left.2.start - 1)
  rightRun : right.1 = true → tests.IsRun str right.2 ∧ ¬tests.ValidAt str (right.2.finish + 1)
  adjacent : left.1 = true → right.1 = true → right.2.start = left.2.finish + 1

variable {tests str cursorPos}

theorem Lawful.findsSpans (lawful : tests.Lawful) (isText : str.length < 2 ^ 32)
    (positive : 0 < cursorPos) : SpansFound tests str cursorPos (tests.searchLeft str cursorPos)
      (tests.searchRight str cursorPos) := by
  have left : (tests.searchLeft str cursorPos).1 = true →
      LeftOf tests str cursorPos (tests.searchLeft str cursorPos).2 := by
    intro isFound
    obtain ⟨run, maximal, finish⟩ := lawful.searchLeft_spec positive (Prod.ext isFound rfl)
    exact ⟨run, maximal, finish⟩
  have right : (tests.searchRight str cursorPos).1 = true →
      RightOf tests str cursorPos (tests.searchRight str cursorPos).2 := by
    intro isFound
    obtain ⟨run, start, candidate, last⟩ := lawful.searchRight_spec isText (Prod.ext isFound rfl)
    exact ⟨run, start, candidate, last⟩
  refine ⟨left, right, fun leftFound rightFound => ?_⟩
  rw [(right rightFound).start, (left leftFound).finish]
  split_ifs <;> omega

end Spans

end CharacterTests

/-! ## Phone numbers and URLs -/

theorem PhoneNumberParser.lawful_tests : PhoneNumberParser.tests.Lawful where
  candidateZero := by decide
  delimiterZero := by decide
  delimiterOfPrefix ch isPrefix := by
    simp only [PhoneNumberParser.tests, PhoneNumberParser.isPrefixChar,
      PhoneNumberParser.isDelimiterChar, Bool.or_eq_true, decide_eq_true_iff] at isPrefix ⊢
    rcases isPrefix with (isOpen | isClose) | isPlus
    · exact by simp [isOpen]
    · exact by simp [isClose]
    · exact by simp [isPlus]

theorem UrlParser.lawful_tests {iswalnum : UChar → Bool} (notZero : iswalnum 0 = false) :
    (UrlParser.tests iswalnum).Lawful where
  candidateZero := by
    have noMark : (WString.lit ":/-_&.?%=#~[]@!*+,;()").contains 0 = false := by
      decide
    exact show (iswalnum 0 || _) = false by rw [notZero]; rfl
  delimiterZero := rfl
  delimiterOfPrefix _ isPrefix := isPrefix

theorem UrlParser.validAt_iff {iswalnum : UChar → Bool} {str : WString} {position : Int} :
    (UrlParser.tests iswalnum).ValidAt str position ↔
      (UrlParser.tests iswalnum).CandidateAt str position := by
  rw [CharacterTests.ValidAt, CharacterTests.isValid]
  exact (Bool.or_false _).symm ▸ Iff.rfl

/-- The spans of phone numbers and of URLs; those of URLs are maximal to the
right too. -/
theorem spansFound {iswalnum : UChar → Bool} (notZero : iswalnum 0 = false) {str : WString}
    (isText : str.length < 2 ^ 32) {cursorPos : Int} (positive : 0 < cursorPos) :
    CharacterTests.SpansFound PhoneNumberParser.tests str cursorPos
        (PhoneNumberParser.searchLeft str cursorPos)
        (PhoneNumberParser.searchRight str cursorPos) ∧
      CharacterTests.SpansFound (UrlParser.tests iswalnum) str cursorPos
        (UrlParser.searchLeft iswalnum str cursorPos)
        (UrlParser.searchRight iswalnum str cursorPos) ∧
      ((UrlParser.searchRight iswalnum str cursorPos).1 = true →
        ¬(UrlParser.tests iswalnum).ValidAt str
          ((UrlParser.searchRight iswalnum str cursorPos).2.finish + 1)) := by
  have urls := (UrlParser.lawful_tests notZero).findsSpans isText positive
  refine ⟨PhoneNumberParser.lawful_tests.findsSpans isText positive, urls, ?_⟩
  intro isFound isValid
  refine (urls.rightRun isFound).last _ (Int.lt_succ _) (fun position above below => ?_)
    (UrlParser.validAt_iff.1 isValid)
  obtain rfl : position = (UrlParser.searchRight iswalnum str cursorPos).2.finish + 1 :=
    Int.le_antisymm below above
  exact isValid

theorem spansFound_phoneNumber : (0 : Int) < 6 ∧ CharacterTests.SpansFound PhoneNumberParser.tests
      (WString.lit "ph 555-1212 ") 6
      (PhoneNumberParser.searchLeft (WString.lit "ph 555-1212 ") 6)
      (PhoneNumberParser.searchRight (WString.lit "ph 555-1212 ") 6) :=
  ⟨by decide, (@spansFound (fun unit => 97 ≤ unit && unit ≤ 122) (by decide)
    (WString.lit "ph 555-1212 ") (by decide) 6 (by decide)).1⟩

/-- An invalid character in front of the cursor is passed over. -/
theorem not_spansAdjacent :
    ¬∀ (str : WString) (cursorPos : Int), 0 < cursorPos → cursorPos ≤ str.length →
      CharacterTests.SpansAdjacent PhoneNumberParser.tests str
        (PhoneNumberParser.searchLeft str cursorPos)
        (PhoneNumberParser.searchRight str cursorPos) := by
  intro adjacent
  have spans := (adjacent (WString.lit "5a5") 2 (by decide) (by decide)).adjacent
    (by decide +kernel) (by decide +kernel)
  exact absurd spans (by decide +kernel)

end Platform
end PalmWebKit
