import PalmWebKit.Logic.Toggles
import PalmWebKit.Graphics.Region

/-!
# The segments of a row

The loop over the segments of two spans combines the points of the two rows, and its
result is strictly sorted again.
-/

namespace PalmWebKit
namespace Graphics
namespace Shape

open List Toggles

/-- The segments of a span in a shape: an even number of strictly increasing
coordinates. -/
structure Row (segments : List Int) : Prop where
  sorted : segments.Pairwise (· < ·)
  even : segments.length % 2 = 0

theorem Row.nil : Row [] := ⟨.nil, rfl⟩

/-- The flag inside the first shape or not, and inside the second one or not. -/
def flagOf (first second : Bool) : Nat := (if first then 1 else 0) + (if second then 2 else 0)

theorem flagOf_xor_one (first second : Bool) :
    flagOf first second ^^^ 1 = flagOf (!first) second := by
  revert first second
  decide

theorem flagOf_xor_two (first second : Bool) :
    flagOf first second ^^^ 2 = flagOf first (!second) := by
  revert first second
  decide

theorem flagOf_ne {first second newFirst newSecond : Bool}
    (changes : newFirst = !first ∨ newSecond = !second) :
    flagOf first second ≠ flagOf newFirst newSecond := by
  revert first second newFirst newSecond
  decide

/-- The constants of an operation that combines points. -/
structure Operation.Computes (op : Operation) (combine : Bool → Bool → Bool) : Prop where
  code : ∃ inverted, ∀ first second,
    decide (flagOf first second = op.opCode) = (combine first second ^^ inverted)
  first_only : ∀ first, combine first false = (first && op.shouldAddRemainingSegmentsFromSpan1)
  second_only : ∀ second, combine false second = (second && op.shouldAddRemainingSegmentsFromSpan2)
  spans1 : op.shouldAddRemainingSpansFromShape1 = op.shouldAddRemainingSegmentsFromSpan1
  spans2 : op.shouldAddRemainingSpansFromShape2 = op.shouldAddRemainingSegmentsFromSpan2

theorem unionOperation_computes : unionOperation.Computes (· || ·) :=
  ⟨⟨true, by decide⟩, by decide, by decide, rfl, rfl⟩

theorem intersectOperation_computes : intersectOperation.Computes (· && ·) :=
  ⟨⟨false, by decide⟩, by decide, by decide, rfl, rfl⟩

theorem subtractOperation_computes :
    subtractOperation.Computes (fun first second => first && !second) :=
  ⟨⟨false, by decide⟩, by decide, by decide, rfl, rfl⟩

/-! ## The loop over the segments -/

section Turns

variable {op : Operation} {flag : Nat} {x1 x2 : Int} {later1 later2 : List Int}

/-- A coordinate, where it is an edge of the result. -/
def edge (op : Operation) (flag newFlag : Nat) (x : Int) (rest : List Int) : List Int :=
  if newFlag = op.opCode ∨ flag = op.opCode then x :: rest else rest

theorem operateSegments_lt (isBefore : x1 < x2) :
    operateSegments op flag (x1 :: later1) (x2 :: later2) = edge op flag (flag ^^^ 1) x1
        (operateSegments op (flag ^^^ 1) later1 (x2 :: later2)) := by
  have notBehind : ¬x1 - x2 ≥ 0 := by omega
  have atMost : x1 - x2 ≤ 0 := by omega
  rw [operateSegments]
  simp only [if_pos atMost, if_neg notBehind]
  rfl

theorem operateSegments_gt (isBefore : x2 < x1) :
    operateSegments op flag (x1 :: later1) (x2 :: later2) = edge op flag (flag ^^^ 2) x2
        (operateSegments op (flag ^^^ 2) (x1 :: later1) later2) := by
  have notBefore : ¬x1 - x2 ≤ 0 := by omega
  have atLeast : x1 - x2 ≥ 0 := by omega
  rw [operateSegments]
  simp only [if_pos atLeast, if_neg notBefore]
  rfl

theorem operateSegments_eq : operateSegments op flag (x1 :: later1) (x1 :: later2) =
      edge op flag (flag ^^^ 1 ^^^ 2) x1
        (operateSegments op (flag ^^^ 1 ^^^ 2) later1 later2) := by
  have atMost : x1 - x1 ≤ 0 := by omega
  have atLeast : x1 - x1 ≥ 0 := by omega
  rw [operateSegments]
  simp only [if_pos atLeast, if_pos atMost]
  rfl

theorem operateSegments_nil_right (segments1 : List Int) : operateSegments op flag segments1 [] =
      if op.shouldAddRemainingSegmentsFromSpan1 then segments1 else [] := by
  cases segments1 with
  | nil => cases add : op.shouldAddRemainingSegmentsFromSpan1 <;> simp [operateSegments]
  | cons x1 later1 =>
    cases add : op.shouldAddRemainingSegmentsFromSpan1 <;>
      simp [operateSegments, add]

theorem operateSegments_nil_left (segments2 : List Int) : operateSegments op flag [] segments2 =
      if op.shouldAddRemainingSegmentsFromSpan2 then segments2 else [] := by
  cases segments2 with
  | nil => cases add : op.shouldAddRemainingSegmentsFromSpan2 <;> simp [operateSegments]
  | cons x2 later2 =>
    cases add : op.shouldAddRemainingSegmentsFromSpan2 <;>
      simp [operateSegments, add]

end Turns

theorem le_of_mem_sorted {x other : Int} {later : List Int} (sorted : (x :: later).Pairwise (· < ·))
    (isMem : other ∈ x :: later) : x ≤ other := by
  rcases mem_cons.1 isMem with rfl | isLater
  · exact le_rfl
  · exact ((pairwise_cons.1 sorted).1 other isLater).le

theorem inside_before {x point : Int} {later : List Int} (sorted : (x :: later).Pairwise (· < ·))
    (isLess : point < x) : Toggles.inside (x :: later) point = false :=
  inside_of_lt fun _ isMem => lt_of_lt_of_le isLess (le_of_mem_sorted sorted isMem)

theorem xor_turn (flag isInside : Bool) : (flag ^^ (true ^^ isInside)) = (!flag ^^ isInside) := by
  revert flag isInside
  decide

theorem exists_bound (coordinates : List Int) : ∃ bound, ∀ x ∈ coordinates, x ≤ bound := by
  induction coordinates with
  | nil => exact ⟨0, fun x isMem => by cases isMem⟩
  | cons first later ih =>
    obtain ⟨bound, isBound⟩ := ih
    refine ⟨max first bound, fun x isMem => ?_⟩
    rcases mem_cons.1 isMem with rfl | isLater
    · exact le_max_left _ _
    · exact (isBound x isLater).trans (le_max_right _ _)

/-- What the loop gives from a turn on: `first` and `second` are the flags, and the
coordinates before the turn are behind every point. -/
structure Combines (combine : Bool → Bool → Bool) (first second : Bool)
    (segments1 segments2 result : List Int) : Prop where
  mem : ∀ x ∈ result, x ∈ segments1 ∨ x ∈ segments2
  sorted : result.Pairwise (· < ·)
  inside : ∀ x, inside result x =
    (combine (first ^^ inside segments1 x) (second ^^ inside segments2 x) ^^ combine first second)

section Computes

variable
  {op : Operation}
  {combine : Bool → Bool → Bool}
  (computes : op.Computes combine)

include computes

variable {first second newFirst newSecond : Bool}

theorem edge_eq (x : Int) (rest : List Int)
    (changes : flagOf first second ≠ flagOf newFirst newSecond) :
    edge op (flagOf first second) (flagOf newFirst newSecond) x rest =
      if combine first second ^^ combine newFirst newSecond then x :: rest else rest := by
  obtain ⟨inverted, code⟩ := computes.code
  have old := code first second
  have new := code newFirst newSecond
  unfold edge
  by_cases isOld : flagOf first second = op.opCode
  · have notNew : ¬flagOf newFirst newSecond = op.opCode :=
      fun isNew => changes (isOld.trans isNew.symm)
    rw [decide_eq_true isOld] at old
    rw [decide_eq_false notNew] at new
    have differs : (combine first second ^^ combine newFirst newSecond) = true := by
      revert old new
      cases combine first second <;> cases combine newFirst newSecond <;> cases inverted <;>
        decide
    rw [if_pos (Or.inr isOld), if_pos differs]
  · by_cases isNew : flagOf newFirst newSecond = op.opCode
    · rw [decide_eq_false isOld] at old
      rw [decide_eq_true isNew] at new
      have differs : (combine first second ^^ combine newFirst newSecond) = true := by
        revert old new
        cases combine first second <;> cases combine newFirst newSecond <;>
          cases inverted <;> decide
      rw [if_pos (Or.inl isNew), if_pos differs]
    · rw [decide_eq_false isOld] at old
      rw [decide_eq_false isNew] at new
      have same : (combine first second ^^ combine newFirst newSecond) = false := by
        revert old new
        cases combine first second <;> cases combine newFirst newSecond <;>
          cases inverted <;> decide
      rw [if_neg (by rw [not_or]; exact ⟨isNew, isOld⟩), same]
      rfl

/-- A turn at the smallest coordinate. -/
theorem Combines.turn {segments1 segments2 later1 later2 rest : List Int} {x : Int}
    (changes : flagOf first second ≠ flagOf newFirst newSecond)
    (mem : ∀ other, other = x ∨ other ∈ later1 ∨ other ∈ later2 →
      other ∈ segments1 ∨ other ∈ segments2)
    (isBefore : ∀ other, other ∈ later1 ∨ other ∈ later2 → x < other) (before : ∀ point, point < x →
      Toggles.inside segments1 point = false ∧ Toggles.inside segments2 point = false)
    (behind : ∀ point, x ≤ point → (first ^^ Toggles.inside segments1 point) =
          (newFirst ^^ Toggles.inside later1 point) ∧
        (second ^^ Toggles.inside segments2 point) = (newSecond ^^ Toggles.inside later2 point))
    (combines : Combines combine newFirst newSecond later1 later2 rest) :
    Combines combine first second segments1 segments2
      (edge op (flagOf first second) (flagOf newFirst newSecond) x rest) := by
  rw [edge_eq computes x rest changes]
  have later : ∀ other ∈ rest, x < other :=
    fun other isRest => isBefore other (combines.mem other isRest)
  have points : ∀ point, Toggles.inside
      (if combine first second ^^ combine newFirst newSecond then x :: rest else rest) point =
      ((decide (x ≤ point) && (combine first second ^^ combine newFirst newSecond)) ^^
        Toggles.inside rest point) := by
    intro point
    cases (combine first second ^^ combine newFirst newSecond) with
    | true => rw [if_pos rfl, inside_cons, Bool.and_true]
    | false => rw [if_neg Bool.false_ne_true, Bool.and_false, Bool.false_xor]
  refine ⟨?_, ?_, ?_⟩
  · intro other isMem
    split at isMem
    · rcases mem_cons.1 isMem with equal | isRest
      · exact mem other (.inl equal)
      · exact mem other (.inr (combines.mem other isRest))
    · exact mem other (.inr (combines.mem other isMem))
  · split
    · exact pairwise_cons.2 ⟨later, combines.sorted⟩
    · exact combines.sorted
  · intro point
    rw [points point]
    rcases lt_or_ge point x with isLess | isMore
    · have notInside := inside_of_lt (fun other isRest => isLess.trans (later other isRest))
      rw [decide_eq_false (not_le.2 isLess), (before point isLess).1,
        (before point isLess).2, notInside]
      simp
    · rw [decide_eq_true isMore, (behind point isMore).1, (behind point isMore).2,
        combines.inside point]
      cases combine first second <;> cases combine newFirst newSecond <;> simp

variable {segments1 segments2 : List Int}

theorem combines_operateSegments (first second : Bool) (sorted1 : segments1.Pairwise (· < ·))
    (sorted2 : segments2.Pairwise (· < ·)) (parity1 : first = decide (segments1.length % 2 = 1))
    (parity2 : second = decide (segments2.length % 2 = 1)) :
    Combines combine first second segments1 segments2
      (operateSegments op (flagOf first second) segments1 segments2) := by
  induction size : segments1.length + segments2.length using Nat.strongRecOn
    generalizing first second segments1 segments2 with
  | ind size ih =>
    match segments1, segments2 with
    | [], segments2 =>
      have notFirst : first = false := parity1
      subst notFirst
      rw [operateSegments_nil_left]
      refine ⟨?_, ?_, ?_⟩
      · intro x isMem
        split at isMem
        · exact .inr isMem
        · cases isMem
      · split
        · exact sorted2
        · exact .nil
      · intro point
        rw [inside_nil, Bool.false_xor, computes.second_only, computes.second_only]
        cases op.shouldAddRemainingSegmentsFromSpan2 <;> cases second <;> simp
    | x1 :: later1, [] =>
      have notSecond : second = false := parity2
      subst notSecond
      rw [operateSegments_nil_right]
      refine ⟨?_, ?_, ?_⟩
      · intro x isMem
        split at isMem
        · exact .inl isMem
        · cases isMem
      · split
        · exact sorted1
        · exact .nil
      · intro point
        rw [inside_nil, Bool.false_xor, computes.first_only, computes.first_only]
        cases op.shouldAddRemainingSegmentsFromSpan1 <;> cases first <;> simp
    | x1 :: later1, x2 :: later2 =>
      rw [length_cons] at parity1 parity2 size
      rw [length_cons] at size
      have above1 := pairwise_cons.1 sorted1
      have above2 := pairwise_cons.1 sorted2
      have newParity1 : (!first) = decide (later1.length % 2 = 1) := by
        rw [parity1, ← decide_not]
        exact decide_eq_decide.2 (by omega)
      have newParity2 : (!second) = decide (later2.length % 2 = 1) := by
        rw [parity2, ← decide_not]
        exact decide_eq_decide.2 (by omega)
      rcases lt_trichotomy x1 x2 with isBefore | rfl | isBehind
      · have rest := ih (later1.length + (x2 :: later2).length)
          (by rw [length_cons]; omega) (!first) second above1.2 sorted2 newParity1
          (by rw [length_cons]; exact parity2) rfl
        rw [operateSegments_lt isBefore, flagOf_xor_one]
        refine Combines.turn computes ?_ ?_ ?_ ?_ ?_ rest
        · exact flagOf_ne (.inl rfl)
        · rintro other (rfl | isLater | isLater)
          · exact .inl (.head _)
          · exact .inl (.tail x1 isLater)
          · exact .inr isLater
        · rintro other (isLater | isLater)
          · exact above1.1 other isLater
          · exact lt_of_lt_of_le isBefore (le_of_mem_sorted sorted2 isLater)
        · intro point isLess
          exact ⟨inside_before sorted1 isLess, inside_before sorted2 (isLess.trans isBefore)⟩
        · intro point isMore
          rw [inside_cons, decide_eq_true isMore]
          exact ⟨xor_turn _ _, rfl⟩
      · have rest := ih (later1.length + later2.length) (by omega)
          (!first) (!second) above1.2 above2.2 newParity1 newParity2 rfl
        rw [operateSegments_eq, flagOf_xor_one, flagOf_xor_two]
        refine Combines.turn computes ?_ ?_ ?_ ?_ ?_ rest
        · exact flagOf_ne (.inl rfl)
        · rintro other (rfl | isLater | isLater)
          · exact .inl (.head _)
          · exact .inl (.tail x1 isLater)
          · exact .inr (.tail x1 isLater)
        · rintro other (isLater | isLater)
          · exact above1.1 other isLater
          · exact above2.1 other isLater
        · intro point isLess
          exact ⟨inside_before sorted1 isLess, inside_before sorted2 isLess⟩
        · intro point isMore
          rw [inside_cons, inside_cons, decide_eq_true isMore]
          exact ⟨xor_turn _ _, xor_turn _ _⟩
      · have rest := ih ((x1 :: later1).length + later2.length)
          (by rw [length_cons]; omega) first (!second) sorted1 above2.2
          (by exact parity1) newParity2 rfl
        rw [operateSegments_gt isBehind, flagOf_xor_two]
        refine Combines.turn computes ?_ ?_ ?_ ?_ ?_ rest
        · exact flagOf_ne (.inr rfl)
        · rintro other (rfl | isLater | isLater)
          · exact .inr (.head _)
          · exact .inl isLater
          · exact .inr (.tail x2 isLater)
        · rintro other (isLater | isLater)
          · exact lt_of_lt_of_le isBehind (le_of_mem_sorted sorted1 isLater)
          · exact above2.1 other isLater
        · intro point isLess
          exact ⟨inside_before sorted1 (isLess.trans isBehind), inside_before sorted2 isLess⟩
        · intro point isMore
          refine ⟨rfl, ?_⟩
          rw [inside_cons, decide_eq_true isMore]
          exact xor_turn _ _

/-- The loop combines two rows to one. -/
theorem inside_operateSegments (row1 : Row segments1) (row2 : Row segments2) (x : Int) :
    Toggles.inside (operateSegments op 0 segments1 segments2) x =
      combine (Toggles.inside segments1 x) (Toggles.inside segments2 x) := by
  have combines := combines_operateSegments computes false false row1.sorted row2.sorted
    (by rw [row1.even]; rfl) (by rw [row2.even]; rfl)
  have nothing : combine false false = false := by rw [computes.first_only, Bool.false_and]
  rw [show (0 : Nat) = flagOf false false from rfl, combines.inside, nothing, Bool.xor_false,
    Bool.false_xor, Bool.false_xor]

theorem row_operateSegments (row1 : Row segments1)
    (row2 : Row segments2) : Row (operateSegments op 0 segments1 segments2) := by
  have combines := combines_operateSegments computes false false row1.sorted row2.sorted
    (by rw [row1.even]; rfl) (by rw [row2.even]; rfl)
  refine ⟨combines.sorted, ?_⟩
  obtain ⟨bound, isBound⟩ :=
    exists_bound (operateSegments op 0 segments1 segments2 ++ (segments1 ++ segments2))
  have behind := inside_operateSegments computes row1 row2 bound
  have nothing : combine false false = false := by rw [computes.first_only, Bool.false_and]
  rw [inside_of_le fun x isMem => isBound x (mem_append_left _ isMem),
    inside_of_le fun x isMem => isBound x
      (mem_append_right _ (mem_append_left _ isMem)),
    inside_of_le fun x isMem => isBound x
      (mem_append_right _ (mem_append_right _ isMem)),
    row1.even, row2.even] at behind
  have notOdd := of_decide_eq_false (behind.trans nothing)
  omega

end Computes

end Shape
end Graphics
end PalmWebKit
