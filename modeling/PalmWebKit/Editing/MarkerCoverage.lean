import PalmWebKit.Editing.MarkerOrder

/-!
# Coverage of the markers of a node

The text that the markers of a type cover is the union of their ranges.
`addMarker` is to enlarge it by the range of the new marker and to leave the
other types alone, apart from the markers that wait for the spell checker.
Which of these it takes out depends on the markers in front of them.
-/

namespace PalmWebKit
namespace Editing

open List

open MarkerVectors (ofPairs answersPending mergedBefore mergedAfter)

namespace DocumentMarker

def Covers (marker : DocumentMarker) (offset : Nat) : Prop :=
  marker.startOffset ≤ offset ∧ offset < marker.endOffset

instance (marker : DocumentMarker) (offset : Nat) :
    Decidable (marker.Covers offset) := inferInstanceAs (Decidable (_ ∧ _))

/-- The ranges intersect or touch, as both loops compare them. -/
def Overlaps (first second : DocumentMarker) : Prop :=
  first.startOffset ≤ second.endOffset ∧ second.startOffset ≤ first.endOffset

/-- A new marker that is not empty is the answer a pending one waits for. -/
def Replaces (newMarker marker : DocumentMarker) : Prop :=
  newMarker.startOffset < newMarker.endOffset ∧
    answersPending newMarker marker ∧ newMarker.Overlaps marker

end DocumentMarker

/-- The offset is under a marker of the type. -/
def Covered (markers : List DocumentMarker) (type : MarkerType) (offset : Nat) : Prop :=
  ∃ marker ∈ markers, marker.type = type ∧ marker.Covers offset

/-- What adding a marker is to do to the covered text. -/
structure CoverageMeets (markers : List DocumentMarker) (newMarker : DocumentMarker)
    (added : List DocumentMarker) : Prop where
  sameType : ∀ offset, Covered added newMarker.type offset ↔
    Covered markers newMarker.type offset ∨ newMarker.Covers offset
  otherType : ∀ type, type ≠ newMarker.type → ∀ offset, Covered added type offset ↔
      ∃ marker ∈ markers, marker.type = type ∧ marker.Covers offset ∧ ¬newMarker.Replaces marker

/-! ## The condition -/

/-- The marker starts behind the start of the new one, is of its type, and ends
before its end. -/
def InsideNew (newMarker marker : DocumentMarker) : Bool :=
  marker.type = newMarker.type ∧ newMarker.startOffset < marker.startOffset ∧
      marker.endOffset < newMarker.endOffset

/-- The second loop does not look at the marker behind these: the last of them
lies inside the new marker and was itself looked at. -/
def PassedOver (newMarker : DocumentMarker) (before : List DocumentMarker) : Bool :=
  before.foldl (fun passed marker => !passed && InsideNew newMarker marker) false

/-- The marker of the same type starts in the new one, or at its end, and ends
at its end or behind it. -/
def Stretches (newMarker marker : DocumentMarker) : Prop :=
  marker.type = newMarker.type ∧ newMarker.startOffset < marker.startOffset ∧
      marker.startOffset ≤ newMarker.endOffset ∧ newMarker.endOffset ≤ marker.endOffset

/-- No old marker is cut, and of the pending markers behind `before` exactly
those that overlap the new one are found. -/
structure KeepsCoverage (newMarker : DocumentMarker) (markers : List DocumentMarker) : Prop where
  notCut : ∀ marker ∈ markers, marker.type = newMarker.type →
    marker.startOffset ≤ newMarker.startOffset → marker.endOffset ≤ newMarker.endOffset
  ahead : ∀ before pending after, markers = before ++ pending :: after →
    answersPending newMarker pending → pending.endOffset < newMarker.startOffset →
        ∀ marker ∈ before, marker.type = newMarker.type → marker.endOffset < newMarker.startOffset
  under : ∀ before pending after, markers = before ++ pending :: after →
    answersPending newMarker pending → newMarker.startOffset < pending.startOffset →
        pending.startOffset ≤ newMarker.endOffset → PassedOver newMarker before = false
  behind : ∀ before pending after, markers = before ++ pending :: after →
    answersPending newMarker pending → newMarker.endOffset < pending.startOffset →
        ∀ first marker between, before = first ++ marker :: between → Stretches newMarker marker →
            pending.startOffset ≤ marker.endOffset → PassedOver newMarker first = true

namespace DocumentMarkerController

/-- The markers of the node. -/
def markersForNode (controller : DocumentMarkerController) : List DocumentMarker :=
  (controller.vectors.map MarkerVectors.markers).getD []

end DocumentMarkerController

/-! ## Which pending markers are taken out -/

section PassedOver

variable
  {newMarker : DocumentMarker}

variable (before : List DocumentMarker)

theorem passedOver_append_singleton (marker : DocumentMarker) :
    PassedOver newMarker (before ++ [marker]) =
      (!PassedOver newMarker before && InsideNew newMarker marker) := by
  rw [PassedOver, foldl_append]
  rfl

/-- A marker that is not inside the new one hides nothing. -/
theorem passedOver_cons_of_not_inside {marker : DocumentMarker}
    (outside : InsideNew newMarker marker = false) :
    PassedOver newMarker (marker :: before) = PassedOver newMarker before := by
  rw [PassedOver, foldl_cons, outside]
  rfl

/-- The marker behind a hidden one is looked at again. -/
theorem passedOver_cons_cons {marker next : DocumentMarker}
    (inside : InsideNew newMarker marker = true) : PassedOver newMarker (marker :: next :: before) =
      PassedOver newMarker before := by
  rw [PassedOver, foldl_cons, inside]
  rfl

theorem passedOver_singleton {marker : DocumentMarker}
    (inside : InsideNew newMarker marker = true) : PassedOver newMarker [marker] = true := by
  rw [PassedOver, foldl_cons, inside]
  rfl

theorem passedOver_eq_false {before : List DocumentMarker}
    (outside : ∀ marker ∈ before, InsideNew newMarker marker = false) :
    PassedOver newMarker before = false := by
  induction before with
  | nil => rfl
  | cons marker before ih =>
    rw [passedOver_cons_of_not_inside before (outside marker mem_cons_self)]
    exact ih fun other member => outside other (.tail marker member)

end PassedOver

/-- The second loop comes to the pending marker behind `before`: it starts
before the end of the new marker, or before the end that the new marker takes
over from one of its type. -/
def Reached (newMarker : DocumentMarker) (before : List DocumentMarker)
    (pending : DocumentMarker) : Prop :=
  (pending.startOffset ≤ newMarker.endOffset ∧ PassedOver newMarker before = false) ∨
    ∃ first marker between, before = first ++ marker :: between ∧ Stretches newMarker marker ∧
        pending.startOffset ≤ marker.endOffset ∧ PassedOver newMarker first = false

/-- One of the loops takes the pending marker behind `before` out. -/
def TakenOut (newMarker : DocumentMarker) (before : List DocumentMarker)
    (pending : DocumentMarker) : Prop :=
  if pending.startOffset ≤ newMarker.startOffset then
    newMarker.startOffset ≤ pending.endOffset ∨ ∃ marker ∈ before, marker.type = newMarker.type ∧
        newMarker.startOffset ≤ marker.endOffset
  else Reached newMarker before pending

section Reached

variable
  {newMarker pending marker : DocumentMarker}

/-- A marker that neither hides nor stretches does not change what is
reached. -/
theorem reached_cons_iff (before : List DocumentMarker)
    (neither : marker.type = newMarker.type → marker.startOffset ≤ newMarker.startOffset) :
    Reached newMarker (marker :: before) pending ↔
      Reached newMarker before pending := by
  have outside : InsideNew newMarker marker = false := by
    rw [InsideNew, decide_eq_false_iff_not]
    rintro ⟨same, behind, -⟩
    exact Nat.not_le.2 behind (neither same)
  have hides : ∀ rest, PassedOver newMarker (marker :: rest) = PassedOver newMarker rest :=
    fun rest => passedOver_cons_of_not_inside rest outside
  rw [Reached, hides]
  apply or_congr_right
  constructor
  · rintro ⟨first, other, between, split, stretches, reaches, looked⟩
    cases first with
    | nil =>
      cases split
      exact absurd stretches.2.1 (Nat.not_lt.2 (neither stretches.1))
    | cons head first =>
      cases split
      rw [hides] at looked
      exact ⟨first, other, between, rfl, stretches, reaches, looked⟩
  · rintro ⟨first, other, between, rfl, stretches, reaches, looked⟩
    exact ⟨marker :: first, other, between, rfl, stretches, reaches, (hides first).trans looked⟩

/-- Two markers of which the first is inside and hides the second. -/
theorem reached_cons_cons_iff {next : DocumentMarker} (before : List DocumentMarker)
    (inside : InsideNew newMarker marker = true) :
    Reached newMarker (marker :: next :: before) pending ↔
      Reached newMarker before pending := by
  have ends : marker.endOffset < newMarker.endOffset := by
    rw [InsideNew, decide_eq_true_iff] at inside
    exact inside.2.2
  have hides : ∀ rest, PassedOver newMarker (marker :: next :: rest) = PassedOver newMarker rest :=
    fun rest => passedOver_cons_cons rest inside
  rw [Reached, hides]
  apply or_congr_right
  constructor
  · rintro ⟨first, other, between, split, stretches, reaches, looked⟩
    match first, split with
    | [], split =>
      cases split
      exact absurd stretches.2.2.2 (Nat.not_le.2 ends)
    | [head], split =>
      cases split
      rw [passedOver_singleton inside] at looked
      cases looked
    | head :: second :: first, split =>
      cases split
      rw [hides] at looked
      exact ⟨first, other, between, rfl, stretches, reaches, looked⟩
  · rintro ⟨first, other, between, rfl, stretches, reaches, looked⟩
    exact ⟨marker :: next :: first, other, between, rfl, stretches, reaches,
      (hides first).trans looked⟩

variable {before : List DocumentMarker}

/-- Behind a marker that stretches the new one the pending ones up to its end
are reached. -/
theorem reached_cons_of_stretches (stretches : Stretches newMarker marker)
    (apart : ∀ other ∈ before, other.type = newMarker.type → marker.endOffset < other.startOffset) :
    Reached newMarker (marker :: before) pending ↔
      pending.startOffset ≤ marker.endOffset := by
  have ends := stretches.2.2.2
  constructor
  · rintro (⟨near, -⟩ | ⟨first, other, between, split, otherStretches, reaches, -⟩)
    · exact Nat.le_trans near ends
    · cases first with
      | nil =>
        cases split
        exact reaches
      | cons head first =>
        cases split
        have far := apart other (by simp) otherStretches.1
        have near := otherStretches.2.2.1
        omega
  · intro reaches
    exact .inr ⟨[], marker, before, rfl, stretches, reaches, rfl⟩

/-- In front of the new marker nothing hides. -/
theorem reached_of_startOffset_le
    (sorted : ∀ other ∈ before, other.startOffset ≤ pending.startOffset)
    (front : pending.startOffset ≤ newMarker.startOffset)
    (ends : newMarker.startOffset ≤ newMarker.endOffset) : Reached newMarker before pending := by
  refine .inl ⟨Nat.le_trans front ends, passedOver_eq_false ?_⟩
  intro other member
  rw [InsideNew, decide_eq_false_iff_not]
  rintro ⟨-, behind, -⟩
  exact Nat.not_le.2 behind (Nat.le_trans (sorted other member) front)

end Reached

/-! ## The loops -/

namespace Ordered

variable
  {pairs : List PaintedMarker}

variable {first second : PaintedMarker}

/-- Two markers of one type do not touch. -/
theorem apart_of_ne (ordered : Ordered pairs) (firstMember : first ∈ pairs)
    (secondMember : second ∈ pairs) (same : first.1.type = second.1.type)
    (distinct : first ≠ second) : first.1.Apart second.1 := by
  let Disjoint : PaintedMarker → PaintedMarker → Prop := fun one other =>
    one.1.type = other.1.type → one.1.Apart other.1
  have pairwise : pairs.Pairwise Disjoint := ordered.apart.imp fun apart same => .inl (apart same)
  have symmetric : Std.Symm Disjoint := ⟨fun _ _ disjoint same => (disjoint same.symm).symm⟩
  exact pairwise.forall firstMember secondMember distinct same

theorem apart_of_lt (ordered : Ordered pairs) (firstMember : first ∈ pairs)
    (secondMember : second ∈ pairs) (same : first.1.type = second.1.type)
    (before : first.1.startOffset < second.1.startOffset) :
    first.1.endOffset < second.1.startOffset := by
  have distinct : first ≠ second := by
    rintro rfl
    exact Nat.lt_irrefl _ before
  have wide := ordered.nonempty second secondMember
  rcases ordered.apart_of_ne firstMember secondMember same distinct with
    apart | apart
  · exact apart
  · omega

/-- Only one marker of a type covers an offset. -/
theorem eq_of_covers (ordered : Ordered pairs) (firstMember : first ∈ pairs)
    (secondMember : second ∈ pairs) (same : first.1.type = second.1.type) {offset : Nat}
    (firstCovers : first.1.Covers offset) (secondCovers : second.1.Covers offset) :
    first = second := by
  by_contra distinct
  have ⟨firstLow, firstHigh⟩ := firstCovers
  have ⟨secondLow, secondHigh⟩ := secondCovers
  rcases ordered.apart_of_ne firstMember secondMember same distinct with
    apart | apart <;> omega

/-- A marker does not occur again behind itself. -/
theorem not_mem_tail {pair : PaintedMarker} {rest : List PaintedMarker}
    (ordered : Ordered (pair :: rest)) : pair ∉ rest := by
  intro member
  have apart := (pairwise_cons.1 ordered.apart).1 pair member rfl
  have wide := ordered.nonempty pair (.head _)
  omega

end Ordered

namespace MarkerVectors

theorem answersPending_type {newMarker marker : DocumentMarker}
    (pending : answersPending newMarker marker) : marker.type ≠ newMarker.type := by
  rw [answersPending, Bool.and_eq_true, beq_iff_eq] at pending
  intro same
  rw [same] at pending
  rw [pending.1] at pending
  exact absurd pending.2 (by decide)

theorem answersPending_congr {newMarker other : DocumentMarker} (same : newMarker.type = other.type)
    (marker : DocumentMarker) : answersPending newMarker marker = answersPending other marker := by
  rw [answersPending, answersPending, same]

variable
  {pair : PaintedMarker}
  {pairs : List PaintedMarker}

/-- Markers of other types stay, unless they are pending ones. -/
theorem mem_mergedBefore (newMarker : DocumentMarker) (member : pair ∈ pairs)
    (other : pair.1.type ≠ newMarker.type) (notPending : ¬answersPending newMarker pair.1) :
    pair ∈ (mergedBefore newMarker pairs).1 ++
      (mergedBefore newMarker pairs).2.2 := by
  induction pairs generalizing newMarker with
  | nil => exact absurd member not_mem_nil
  | cons head rest ih =>
    rw [mergedBefore]
    split_ifs with behind same pending
    · exact member
    · rcases mem_cons.1 member with rfl | member
      · exact absurd same.1 other
      · exact ih _ member other notPending
    · rcases mem_cons.1 member with rfl | member
      · exact absurd pending.1 notPending
      · exact ih _ member other notPending
    · rcases mem_cons.1 member with rfl | member
      · exact .head _
      · exact .tail _
          (ih _ member other notPending)

variable (merged : DocumentMarker)

theorem mem_mergedAfter {later : List PaintedMarker} (member : pair ∈ later)
    (other : pair.1.type ≠ merged.type)
    (notPending : ¬answersPending merged pair.1) : pair ∈ (mergedAfter merged later).1 := by
  fun_induction mergedAfter merged later with
  | case1 => exact member
  | case2 => exact member
  | case3 merged head rest near same covers loop =>
    rcases mem_cons.1 member with rfl | member
    · exact absurd same other
    · exact loop member other notPending
  | case4 merged head near same inside =>
    rcases mem_cons.1 member with rfl | member
    · exact absurd same other
    · exact absurd member not_mem_nil
  | case5 merged head near same inside next later left extended step loop =>
    rw [step] at loop
    rcases mem_cons.1 member with rfl | member
    · exact absurd same other
    · rcases mem_cons.1 member with rfl | member
      · exact .head _
      · exact .tail next (loop member other notPending)
  | case6 merged head rest near differs pending loop =>
    rcases mem_cons.1 member with rfl | member
    · exact absurd pending notPending
    · exact loop member other notPending
  | case7 merged head rest near differs pending left extended step loop =>
    rw [step] at loop
    rcases mem_cons.1 member with rfl | member
    · exact .head _
    · exact .tail head (loop member other notPending)

/-- When no marker of the type reaches the new one, the second loop takes out
the pending markers that do. -/
theorem mergedAfter_of_behind {later : List PaintedMarker} (ordered : Ordered later)
    (behind : ∀ pair ∈ later, pair.1.type = merged.type → merged.endOffset < pair.1.startOffset) :
    (mergedAfter merged later).2 = merged ∧ ∀ pair ∈ later, answersPending merged pair.1 →
        (pair ∈ (mergedAfter merged later).1 ↔
          merged.endOffset < pair.1.startOffset) := by
  fun_induction mergedAfter merged later with
  | case1 => exact ⟨rfl, fun _ member => absurd member not_mem_nil⟩
  | case2 merged head rest far =>
    have sorted := (pairwise_cons.1 ordered.sorted).1
    refine ⟨rfl, fun pair member _ => iff_of_true member ?_⟩
    rcases mem_cons.1 member with rfl | member
    · exact far
    · exact Nat.lt_of_lt_of_le far (sorted pair member)
  | case3 merged head rest near same => exact absurd (behind head (.head _) same) near
  | case4 merged head near same => exact absurd (behind head (.head _) same) near
  | case5 merged head near same => exact absurd (behind head (.head _) same) near
  | case6 merged head rest near other pending loop =>
    obtain ⟨kept, members⟩ := loop ordered.tail
      fun pair member => behind pair (.tail head member)
    refine ⟨kept, fun pair member answers => ?_⟩
    rcases mem_cons.1 member with rfl | member
    · refine iff_of_false (fun found => ordered.not_mem_tail ?_) near
      exact (mergedAfter_spec merged rest).sublist.subset found
    · exact members pair member answers
  | case7 merged head rest near other pending left extended step loop =>
    rw [step] at loop
    obtain ⟨kept, members⟩ := loop ordered.tail
      fun pair member => behind pair (.tail head member)
    refine ⟨kept, fun pair member answers => ?_⟩
    rcases mem_cons.1 member with rfl | member
    · exact absurd answers pending
    · have differs : pair ≠ head := fun equal => pending (equal ▸ answers)
      rw [mem_cons, or_iff_right differs]
      exact members pair member answers

variable {newMarker : DocumentMarker}

/-- The second loop takes out the pending markers it reaches. -/
theorem mem_mergedAfter_iff {before after : List PaintedMarker} {pending : PaintedMarker}
    (ordered : Ordered (before ++ pending :: after)) (sameType : merged.type = newMarker.type)
    (sameEnd : merged.endOffset = newMarker.endOffset)
    (starts : ∀ pair ∈ before ++ pending :: after, pair.1.type = newMarker.type →
        newMarker.startOffset < pair.1.startOffset) (answers : answersPending newMarker pending.1) :
    pending ∈ (mergedAfter merged (before ++ pending :: after)).1 ↔
      ¬Reached newMarker (before.map Prod.fst) pending.1 := by
  generalize whole : before ++ pending :: after = later at ordered starts ⊢
  have other := answersPending_type answers
  fun_induction mergedAfter merged later generalizing before with
  | case1 => simp at whole
  | case2 merged head rest far =>
    have allFar : ∀ pair ∈ before ++ pending :: after,
        newMarker.endOffset < pair.1.startOffset := by
      have sorted := (pairwise_cons.1 ordered.sorted).1
      rw [sameEnd] at far
      rw [whole]
      intro pair member
      rcases mem_cons.1 member with rfl | member
      · exact far
      · exact Nat.lt_of_lt_of_le far (sorted pair member)
    refine iff_of_true (whole ▸ by simp) ?_
    rintro (⟨near, -⟩ | ⟨first, marker, between, split, stretches, -⟩)
    · exact Nat.not_lt.2 near (allFar pending (by simp))
    · obtain ⟨pair, member, rfl⟩ : ∃ pair ∈ before, pair.1 = marker := by
        have member : marker ∈ before.map Prod.fst := by simp [split]
        exact mem_map.1 member
      exact Nat.not_lt.2 stretches.2.2.1
        (allFar pair (mem_append_left _ member))
  | case3 merged head rest near same covers loop =>
    cases before with
    | nil =>
      cases whole
      exact absurd (same.trans sameType) other
    | cons first before =>
      cases whole
      have apart := (pairwise_cons.1 ordered.apart).1
      have behind : ∀ pair ∈ before ++ pending :: after, pair.1.type = merged.type →
            head.1.endOffset < pair.1.startOffset :=
        fun pair member sameToo => apart pair member (same.trans sameToo.symm)
      have stretches : Stretches newMarker head.1 :=
        ⟨same.trans sameType, starts head (.head _) (same.trans sameType),
          sameEnd ▸ Nat.not_lt.1 near, sameEnd ▸ covers⟩
      rw [map_cons, reached_cons_of_stretches stretches, Nat.not_le]
      · exact (mergedAfter_of_behind _ ordered.tail behind).2 pending
          (by simp) (answersPending_congr sameType pending.1 ▸ answers)
      · intro marker member sameToo
        obtain ⟨pair, inBefore, rfl⟩ := mem_map.1 member
        exact behind pair (mem_append_left _ inBefore)
          (sameToo.trans sameType.symm)
  | case4 merged head near same inside =>
    obtain ⟨rfl, rfl⟩ : before = [] ∧ pending = head := by
      cases before with
      | nil => exact ⟨rfl, (List.cons.inj whole).1⟩
      | cons => simp at whole
    exact absurd (same.trans sameType) other
  | case5 merged head near same inside next later left extended step loop =>
    -- The marker behind a covered one stays, whatever it is.
    have result := mergedAfter_spec merged later
    rw [step] at loop result
    have isInside : InsideNew newMarker head.1 = true := by
      rw [InsideNew, decide_eq_true_iff]
      exact ⟨same.trans sameType, starts head (.head _) (same.trans sameType),
        sameEnd ▸ Nat.not_le.1 inside⟩
    rcases before with _ | ⟨first, _ | ⟨second, before⟩⟩
    · cases whole
      exact absurd (same.trans sameType) other
    · cases whole
      refine iff_of_true (.head _) ?_
      rintro (⟨-, looked⟩ | ⟨front, marker, between, split, stretches, -⟩)
      · rw [map_cons, map_nil, passedOver_singleton isInside]
          at looked
        cases looked
      · cases front with
        | nil =>
          cases split
          exact inside (sameEnd ▸ stretches.2.2.2)
        | cons => simp at split
    · cases whole
      have differs : pending ≠ next := by
        rintro rfl
        exact ordered.tail.not_mem_tail (by simp)
      rw [map_cons, map_cons, reached_cons_cons_iff _ isInside,
        mem_cons, or_iff_right differs]
      exact loop sameType sameEnd rfl ordered.tail.tail
        fun pair member => starts pair
          (.tail head (.tail next member))
  | case6 merged head rest near differs taken loop =>
    cases before with
    | nil =>
      cases whole
      refine iff_of_false (fun found => ordered.not_mem_tail ?_) ?_
      · exact (mergedAfter_spec merged after).sublist.subset found
      · rw [not_not]
        exact .inl ⟨sameEnd ▸ Nat.not_lt.1 near, rfl⟩
    | cons first before =>
      cases whole
      rw [map_cons, reached_cons_iff]
      · exact loop sameType sameEnd rfl ordered.tail
          fun pair member => starts pair (.tail head member)
      · exact fun sameToo => absurd (sameToo.trans sameType.symm) differs
  | case7 merged head rest near differs taken left extended step loop =>
    rw [answersPending_congr sameType] at taken
    rw [step] at loop
    cases before with
    | nil =>
      cases whole
      exact absurd answers taken
    | cons first before =>
      cases whole
      have distinct : pending ≠ head := fun equal => taken (equal ▸ answers)
      rw [map_cons, reached_cons_iff, mem_cons, or_iff_right distinct]
      · exact loop sameType sameEnd rfl ordered.tail
          fun pair member => starts pair (.tail head member)
      · exact fun sameToo => absurd (sameToo.trans sameType.symm) differs

/-- What both loops leave of the pairs. -/
def kept (newMarker : DocumentMarker) (pairs : List PaintedMarker) : List PaintedMarker :=
  let (passed, merged, later) := mergedBefore newMarker pairs
  passed ++ (mergedAfter merged later).1

theorem kept_cons (newMarker : DocumentMarker) (pair : PaintedMarker) (rest : List PaintedMarker) :
    kept newMarker (pair :: rest) =
      if pair.1.startOffset > newMarker.startOffset then
        (mergedAfter newMarker (pair :: rest)).1
      else if pair.1.type = newMarker.type ∧ pair.1.endOffset ≥ newMarker.startOffset then
        kept { newMarker with startOffset := pair.1.startOffset } rest
      else if answersPending newMarker pair.1 ∧ pair.1.endOffset ≥ newMarker.startOffset then
        kept newMarker rest
      else pair :: kept newMarker rest := by
  rw [kept, mergedBefore]
  split_ifs <;> rfl

theorem kept_sublist (ordered : Ordered pairs) : (kept newMarker pairs).Sublist pairs :=
  ((mergedAfter_spec _ _).sublist.append_left _).trans
    (mergedBefore_spec newMarker ordered).sublist

/-- Markers of other types stay, unless they are pending ones. -/
theorem mem_kept (ordered : Ordered pairs) (member : pair ∈ pairs)
    (other : pair.1.type ≠ newMarker.type) (notPending : ¬answersPending newMarker pair.1) :
    pair ∈ kept newMarker pairs := by
  have sameType := (mergedBefore_spec newMarker ordered).type
  rcases mem_append.1
    (mem_mergedBefore newMarker member other notPending) with member | member
  · exact mem_append_left _ member
  · refine mem_append_right _ (mem_mergedAfter _ member ?_ ?_)
    · rwa [sameType]
    · rwa [answersPending_congr sameType]

section FirstLoop

variable
  {newMarker : DocumentMarker}
  {before after : List PaintedMarker}
  {pending : PaintedMarker}

/-- When a marker of the type has been taken over, the rest of the first loop
takes out the pending ones it comes to. -/
theorem mem_kept_of_absorbed (absorbing : DocumentMarker)
    (ordered : Ordered (before ++ pending :: after)) (sameType : absorbing.type = newMarker.type)
    (sameEnd : absorbing.endOffset = newMarker.endOffset)
    (starts_le : absorbing.startOffset ≤ newMarker.startOffset)
    (wide : newMarker.startOffset ≤ newMarker.endOffset)
    (fromStart : ∀ pair ∈ before ++ pending :: after, absorbing.startOffset ≤ pair.1.startOffset)
    (starts : ∀ pair ∈ before ++ pending :: after, pair.1.type = newMarker.type →
        newMarker.startOffset < pair.1.startOffset)
    (answers : answersPending newMarker pending.1) :
    pending ∈ kept absorbing (before ++ pending :: after) ↔
      ¬Reached newMarker (before.map Prod.fst) pending.1 := by
  generalize whole : before ++ pending :: after = pairs at *
  induction pairs generalizing before with
  | nil => simp at whole
  | cons head rest ih =>
    have headStart := fromStart head (.head _)
    have headWide := ordered.nonempty head (.head _)
    rw [kept_cons]
    split_ifs with behind same taken
    · rw [← whole] at ordered starts ⊢
      exact mem_mergedAfter_iff absorbing ordered sameType sameEnd starts
        answers
    · have far := starts head (.head _) (same.1.trans sameType)
      omega
    · cases before with
      | nil =>
        cases whole
        refine iff_of_false (fun found => ordered.not_mem_tail ?_) ?_
        · exact (kept_sublist ordered.tail).subset found
        · rw [not_not]
          exact reached_of_startOffset_le (by simp)
            (Nat.le_trans (Nat.not_lt.1 behind) starts_le) wide
      | cons first before =>
        cases whole
        rw [map_cons, reached_cons_iff]
        · exact ih rfl ordered.tail
            (fun pair member => fromStart pair (.tail head member))
            (fun pair member => starts pair (.tail head member))
        · exact fun _ => Nat.le_trans (Nat.not_lt.1 behind) starts_le
    · cases before with
      | nil =>
        cases whole
        refine absurd ⟨?_, Nat.le_trans headStart (Nat.le_of_lt headWide)⟩
          taken
        rwa [answersPending_congr sameType]
      | cons first before =>
        cases whole
        have distinct : pending ≠ head := by
          rintro rfl
          exact ordered.not_mem_tail (by simp)
        rw [map_cons, reached_cons_iff, mem_cons, or_iff_right distinct]
        · exact ih rfl ordered.tail
            (fun pair member => fromStart pair (.tail head member))
            (fun pair member => starts pair (.tail head member))
        · exact fun _ => Nat.le_trans (Nat.not_lt.1 behind) starts_le

/-- A marker that neither reaches the new one nor starts behind its start does
not change what is taken out. -/
theorem takenOut_cons_iff {marker waiting : DocumentMarker} (rest : List DocumentMarker)
    (front : marker.type = newMarker.type → marker.startOffset ≤ newMarker.startOffset)
    (short : marker.type = newMarker.type → marker.endOffset < newMarker.startOffset) :
    TakenOut newMarker (marker :: rest) waiting ↔
      TakenOut newMarker rest waiting := by
  rw [TakenOut, TakenOut]
  split_ifs
  · apply or_congr_right
    constructor
    · rintro ⟨other, member, same, reaches⟩
      rcases mem_cons.1 member with rfl | member
      · exact absurd reaches (Nat.not_le.2 (short same))
      · exact ⟨other, member, same, reaches⟩
    · rintro ⟨other, member, same, reaches⟩
      exact ⟨other, .tail marker member, same, reaches⟩
  · exact reached_cons_iff rest front

/-- Behind a marker that is taken over. -/
theorem takenOut_cons_of_absorbed {marker : DocumentMarker} (same : marker.type = newMarker.type)
    (front : marker.startOffset ≤ newMarker.startOffset)
    (reaches : newMarker.startOffset ≤ marker.endOffset)
    (wide : newMarker.startOffset ≤ newMarker.endOffset)
    (sorted : ∀ pair ∈ before, pair.1.startOffset ≤ pending.1.startOffset) :
    TakenOut newMarker (marker :: before.map Prod.fst) pending.1 ↔
      Reached newMarker (before.map Prod.fst) pending.1 := by
  rw [TakenOut]
  split_ifs with early
  · refine iff_of_true (.inr ⟨marker, .head _, same, reaches⟩) ?_
    refine reached_of_startOffset_le ?_ early wide
    intro other member
    obtain ⟨pair, inBefore, rfl⟩ := mem_map.1 member
    exact sorted pair inBefore
  · exact reached_cons_iff _ fun _ => front

/-- The pending markers that both loops leave. -/
theorem mem_kept_iff (ordered : Ordered (before ++ pending :: after))
    (wide : newMarker.startOffset ≤ newMarker.endOffset)
    (answers : answersPending newMarker pending.1) :
    pending ∈ kept newMarker (before ++ pending :: after) ↔
      ¬TakenOut newMarker (before.map Prod.fst) pending.1 := by
  have other := answersPending_type answers
  generalize whole : before ++ pending :: after = pairs at *
  induction pairs generalizing before with
  | nil => simp at whole
  | cons head rest ih =>
    have sorted := (pairwise_cons.1 ordered.sorted).1
    have apart := (pairwise_cons.1 ordered.apart).1
    rw [kept_cons]
    split_ifs with behind same taken
    · have allBehind : ∀ pair ∈ head :: rest,
          newMarker.startOffset < pair.1.startOffset := by
        intro pair member
        rcases mem_cons.1 member with rfl | member
        · exact behind
        · exact Nat.lt_of_lt_of_le behind (sorted pair member)
      rw [← whole] at ordered allBehind ⊢
      rw [TakenOut, if_neg (Nat.not_le.2 (allBehind pending (by simp)))]
      exact mem_mergedAfter_iff newMarker ordered rfl rfl
        (fun pair member _ => allBehind pair member) answers
    · cases before with
      | nil =>
        cases whole
        exact absurd same.1 other
      | cons first before =>
        cases whole
        have beforeSorted := (pairwise_append.1 ordered.tail.sorted).2.2
        rw [map_cons, takenOut_cons_of_absorbed same.1
          (Nat.not_lt.1 behind) same.2 wide
          fun pair member => beforeSorted pair member pending (by simp)]
        refine mem_kept_of_absorbed _ ordered.tail rfl rfl
          (Nat.not_lt.1 behind) wide sorted ?_ answers
        intro pair member sameToo
        exact Nat.lt_of_le_of_lt same.2
          (apart pair member (same.1.trans sameToo.symm))
    · cases before with
      | nil =>
        cases whole
        refine iff_of_false (fun found => ordered.not_mem_tail ?_) ?_
        · exact (kept_sublist ordered.tail).subset found
        · rw [not_not, TakenOut, if_pos (Nat.not_lt.1 behind)]
          exact .inl taken.2
      | cons first before =>
        cases whole
        rw [map_cons, takenOut_cons_iff]
        · exact ih rfl ordered.tail
        · exact fun sameToo => absurd sameToo (answersPending_type taken.1)
        · exact fun sameToo => absurd sameToo (answersPending_type taken.1)
    · cases before with
      | nil =>
        cases whole
        refine iff_of_true (.head _) ?_
        rw [TakenOut, if_pos (Nat.not_lt.1 behind)]
        rintro (reaches | ⟨marker, member, -⟩)
        · exact taken ⟨answers, reaches⟩
        · exact absurd member not_mem_nil
      | cons first before =>
        cases whole
        have distinct : pending ≠ head := by
          rintro rfl
          exact ordered.not_mem_tail (by simp)
        rw [map_cons, takenOut_cons_iff, mem_cons, or_iff_right distinct]
        · exact ih rfl ordered.tail
        · exact fun _ => Nat.not_lt.1 behind
        · intro sameToo
          exact Nat.not_le.1 fun reaches => same ⟨sameToo, reaches⟩

end FirstLoop

/-! ## The text under the type of the new marker -/

section SameType

variable
  {type : MarkerType}
  {offset : Nat}

@[simp]
theorem covered_nil : ¬Covered [] type offset := by
  rintro ⟨marker, member, -⟩
  exact not_mem_nil member

theorem covered_cons (marker : DocumentMarker) (markers : List DocumentMarker) :
    Covered (marker :: markers) type offset ↔ marker.type = type ∧ marker.Covers offset ∨
        Covered markers type offset := by
  simp [Covered]

theorem covered_append (markers others : List DocumentMarker) :
    Covered (markers ++ others) type offset ↔
      Covered markers type offset ∨ Covered others type offset := by
  induction markers with
  | nil => simp
  | cons marker markers ih => rw [cons_append, covered_cons, covered_cons, ih, or_assoc]

/-- The text under the pairs. -/
abbrev UnderPairs (pairs : List PaintedMarker) (type : MarkerType) (offset : Nat) : Prop :=
  Covered (pairs.map Prod.fst) type offset

theorem underPairs_cons (pair : PaintedMarker) (pairs : List PaintedMarker) :
    UnderPairs (pair :: pairs) type offset ↔ pair.1.type = type ∧ pair.1.Covers offset ∨
        UnderPairs pairs type offset := covered_cons _ _

theorem underPairs_cons_of_ne {pair : PaintedMarker} (pairs : List PaintedMarker)
    (other : pair.1.type ≠ type) :
    UnderPairs (pair :: pairs) type offset ↔ UnderPairs pairs type offset := by
  rw [underPairs_cons]
  exact or_iff_right fun found => other found.1

/-- The second loop loses no text under the type. -/
theorem underPairs_mergedAfter (merged : DocumentMarker) {later : List PaintedMarker}
    (starts : ∀ pair ∈ later, pair.1.type = merged.type → merged.startOffset ≤ pair.1.startOffset) :
    UnderPairs (mergedAfter merged later).1 merged.type offset ∨
        (mergedAfter merged later).2.Covers offset ↔
      UnderPairs later merged.type offset ∨ merged.Covers offset := by
  fun_induction mergedAfter merged later with
  | case1 => rfl
  | case2 => rfl
  | case3 merged head rest near same covers loop =>
    have start := starts head (.head _) same
    have wider : DocumentMarker.Covers
        { merged with endOffset := head.1.endOffset } offset ↔
          head.1.Covers offset ∨ merged.Covers offset := by
      simp only [DocumentMarker.Covers]
      omega
    rw [underPairs_cons, and_iff_right same, or_assoc, or_left_comm, ← wider]
    exact loop fun pair member => starts pair (.tail head member)
  | case4 merged head near same inside =>
    have start := starts head (.head _) same
    have within : head.1.Covers offset → merged.Covers offset := by
      simp only [DocumentMarker.Covers]
      omega
    rw [underPairs_cons, and_iff_right same, or_assoc, or_left_comm, or_iff_right_of_imp within]
  | case5 merged head near same inside next later left extended step loop =>
    rw [step] at loop
    have start := starts head (.head _) same
    have within : head.1.Covers offset → merged.Covers offset := by
      simp only [DocumentMarker.Covers]
      omega
    have behind := loop fun pair member => starts pair
      (.tail head (.tail next member))
    rw [underPairs_cons, or_assoc, behind, ← or_assoc, ← underPairs_cons, underPairs_cons head,
      and_iff_right same, or_assoc, or_left_comm, or_iff_right_of_imp within]
  | case6 merged head rest near other pending loop =>
    rw [underPairs_cons_of_ne _ other]
    exact loop fun pair member => starts pair (.tail head member)
  | case7 merged head rest near other pending left extended step loop =>
    rw [step] at loop
    rw [underPairs_cons_of_ne _ other, underPairs_cons_of_ne _ other]
    exact loop fun pair member => starts pair (.tail head member)

/-- The new marker behind both loops. -/
def extended (newMarker : DocumentMarker) (pairs : List PaintedMarker) : DocumentMarker :=
  let (_, merged, later) := mergedBefore newMarker pairs
  (mergedAfter merged later).2

theorem extended_cons (newMarker : DocumentMarker) (pair : PaintedMarker)
    (rest : List PaintedMarker) : extended newMarker (pair :: rest) =
      if pair.1.startOffset > newMarker.startOffset then
        (mergedAfter newMarker (pair :: rest)).2
      else if pair.1.type = newMarker.type ∧ pair.1.endOffset ≥ newMarker.startOffset then
        extended { newMarker with startOffset := pair.1.startOffset } rest
      else extended newMarker rest := by
  rw [extended, mergedBefore]
  split_ifs <;> rfl

/-- Without a cut the loops lose no text under the type. -/
theorem underPairs_kept (newMarker : DocumentMarker) {pairs : List PaintedMarker}
    (ordered : Ordered pairs) (wide : newMarker.startOffset ≤ newMarker.endOffset)
    (notCut : ∀ pair ∈ pairs, pair.1.type = newMarker.type →
      pair.1.startOffset ≤ newMarker.startOffset → pair.1.endOffset ≤ newMarker.endOffset) :
    UnderPairs (kept newMarker pairs) newMarker.type offset ∨
        (extended newMarker pairs).Covers offset ↔
      UnderPairs pairs newMarker.type offset ∨ newMarker.Covers offset := by
  induction pairs generalizing newMarker with
  | nil => rfl
  | cons head rest ih =>
    have sorted := (pairwise_cons.1 ordered.sorted).1
    have notCutRest : ∀ pair ∈ rest, pair.1.type = newMarker.type →
        pair.1.startOffset ≤ newMarker.startOffset → pair.1.endOffset ≤ newMarker.endOffset :=
      fun pair member => notCut pair (.tail head member)
    rw [kept_cons, extended_cons]
    split_ifs with behind same taken
    · refine underPairs_mergedAfter newMarker fun pair member _ => ?_
      rcases mem_cons.1 member with rfl | member
      · exact Nat.le_of_lt behind
      · exact Nat.le_trans (Nat.le_of_lt behind) (sorted pair member)
    · have before := Nat.not_lt.1 behind
      have whole := notCut head (.head _) same.1 before
      have wider : DocumentMarker.Covers
          { newMarker with startOffset := head.1.startOffset } offset ↔
            head.1.Covers offset ∨ newMarker.Covers offset := by
        simp only [DocumentMarker.Covers]
        omega
      rw [underPairs_cons, and_iff_right same.1, or_assoc, or_left_comm, ← wider]
      refine ih
        { newMarker with startOffset := head.1.startOffset } ordered.tail
        (Nat.le_trans before wide) ?_
      exact fun pair member sameToo early =>
        notCutRest pair member sameToo (Nat.le_trans early before)
    · rw [underPairs_cons_of_ne _ (answersPending_type taken.1)]
      exact ih newMarker ordered.tail wide notCutRest
    · rw [underPairs_cons, underPairs_cons, or_assoc, or_assoc,
        ih newMarker ordered.tail wide notCutRest]

/-- The end of the new marker is no longer under the type when the first loop
cuts a marker there. -/
theorem not_underPairs_of_cut {newMarker : DocumentMarker} {pairs : List PaintedMarker}
    {cut : PaintedMarker} (ordered : Ordered pairs)
    (wide : newMarker.startOffset ≤ newMarker.endOffset) (member : cut ∈ pairs)
    (same : cut.1.type = newMarker.type) (early : cut.1.startOffset ≤ newMarker.startOffset)
    (longer : newMarker.endOffset < cut.1.endOffset) :
    ¬(UnderPairs (kept newMarker pairs) newMarker.type newMarker.endOffset ∨
      (extended newMarker pairs).Covers newMarker.endOffset) := by
  have first := mergedBefore_spec newMarker ordered
  obtain ⟨front, split, -⟩ := first.consumed
  have laterOrdered : Ordered (mergedBefore newMarker pairs).2.2 :=
    ordered.sublist ((sublist_append_right _ _).trans first.sublist)
  have laterFar : ∀ pair ∈ (mergedBefore newMarker pairs).2.2, pair.1.type = newMarker.type →
        newMarker.endOffset < pair.1.startOffset := by
    intro pair inLater sameToo
    have inPairs : pair ∈ pairs := split ▸ mem_append_right front inLater
    have behind := first.laterApart pair inLater sameToo
    have apart := ordered.apart_of_lt member inPairs (same.trans sameToo.symm)
      (Nat.lt_of_le_of_lt early behind)
    exact Nat.lt_trans longer apart
  have unchanged := (mergedAfter_of_behind (mergedBefore newMarker pairs).2.1
    laterOrdered fun pair inLater sameToo => by
      rw [first.endOffset]
      exact laterFar pair inLater (sameToo.trans first.type)).1
  rintro (⟨marker, inKept, sameToo, covers⟩ | covers)
  · obtain ⟨pair, left, rfl⟩ := mem_map.1 inKept
    have low := covers.1
    have high := covers.2
    rcases mem_append.1 left with inPassed | inLeft
    · have apart := first.passedApart pair inPassed sameToo
      have start := first.startOffset_le
      omega
    · have far := laterFar pair
        ((mergedAfter_spec _ _).sublist.subset inLeft) sameToo
      omega
  · have ends : (extended newMarker pairs).endOffset = newMarker.endOffset :=
      (congrArg DocumentMarker.endOffset unchanged).trans first.endOffset
    exact absurd covers.2 (Nat.not_lt.2 (Nat.le_of_eq ends))

end SameType

/-! ## Adding a marker -/

section Adding

variable
  {newMarker : DocumentMarker}
  {pairs before after : List PaintedMarker}
  {pending : PaintedMarker}

/-- Nothing is hidden behind markers that are not inside the new one. -/
theorem passedOver_append_of_outside (first : List DocumentMarker) {others : List DocumentMarker}
    (nonempty : others ≠ []) (outside : ∀ marker ∈ others, InsideNew newMarker marker = false) :
    PassedOver newMarker (first ++ others) = false := by
  obtain ⟨front, last, rfl⟩ := (eq_nil_or_concat others).resolve_left nonempty
  rw [concat_eq_append, ← append_assoc, passedOver_append_singleton,
    outside last (by simp), Bool.and_false]

/-- What is reached within the new marker is not hidden. -/
theorem reached_iff_of_startOffset_le (ordered : Ordered (before ++ pending :: after))
    (near : pending.1.startOffset ≤ newMarker.endOffset) :
    Reached newMarker (before.map Prod.fst) pending.1 ↔
      PassedOver newMarker (before.map Prod.fst) = false := by
  constructor
  · rintro (⟨-, looked⟩ | ⟨first, marker, between, split, stretches, -, -⟩)
    · exact looked
    · obtain ⟨front, behind, rfl, rfl, mapped⟩ := map_eq_append_iff.1 split
      obtain ⟨pair, others, rfl, rfl, rfl⟩ := map_eq_cons_iff.1 mapped
      have orderedBehind : Ordered (pair :: others) := by
        refine ordered.sublist ?_
        rw [append_assoc]
        exact (sublist_append_left _ _).trans
          (sublist_append_right _ _)
      have apart := (pairwise_cons.1 orderedBehind.apart).1
      have ends := stretches.2.2.2
      rw [split]
      refine passedOver_append_of_outside _ (cons_ne_nil _ _) ?_
      intro marker member
      rw [InsideNew, decide_eq_false_iff_not]
      rintro ⟨same, -, inside⟩
      rcases mem_cons.1 member with rfl | member
      · omega
      · obtain ⟨other, inOthers, rfl⟩ := mem_map.1 member
        have far := apart other inOthers (stretches.1.trans same.symm)
        have wide := orderedBehind.nonempty other
          (.tail pair inOthers)
        omega
  · exact fun looked => .inl ⟨near, looked⟩

/-- The loops find a pending marker exactly when it overlaps the new one. -/
theorem takenOut_iff_overlaps_iff (ordered : Ordered (before ++ pending :: after))
    (wide : newMarker.startOffset < newMarker.endOffset) :
    (TakenOut newMarker (before.map Prod.fst) pending.1 ↔ newMarker.Overlaps pending.1) ↔
      (pending.1.endOffset < newMarker.startOffset →
        ∀ marker ∈ before.map Prod.fst, marker.type = newMarker.type →
          marker.endOffset < newMarker.startOffset) ∧
      (newMarker.startOffset < pending.1.startOffset → pending.1.startOffset ≤ newMarker.endOffset →
          PassedOver newMarker (before.map Prod.fst) = false) ∧
      (newMarker.endOffset < pending.1.startOffset → ∀ first marker between,
          before.map Prod.fst = first ++ marker :: between → Stretches newMarker marker →
              pending.1.startOffset ≤ marker.endOffset →
                PassedOver newMarker first = true) := by
  have pendingWide := ordered.nonempty pending (by simp)
  rw [TakenOut, DocumentMarker.Overlaps]
  split_ifs with early
  · have within : newMarker.endOffset ≥ pending.1.startOffset := by omega
    rw [and_iff_left within, or_iff_left_iff_imp]
    constructor
    · intro found
      refine ⟨fun ahead marker member same => ?_, fun behind => ?_,
        fun behind => ?_⟩
      · by_contra reaches
        have := found ⟨marker, member, same, Nat.not_lt.1 reaches⟩
        omega
      · omega
      · omega
    · rintro ⟨ahead, -, -⟩ ⟨marker, member, same, reaches⟩
      by_contra short
      have := ahead (Nat.not_le.1 short) marker member same
      omega
  · rw [Nat.not_le] at early
    by_cases near : pending.1.startOffset ≤ newMarker.endOffset
    · have overlaps : newMarker.startOffset ≤ pending.1.endOffset ∧
          pending.1.startOffset ≤ newMarker.endOffset := by omega
      rw [reached_iff_of_startOffset_le ordered near, iff_true_right overlaps]
      constructor
      · intro looked
        exact ⟨fun ahead => by omega, fun _ _ => looked, fun far => by omega⟩
      · exact fun conditions => conditions.2.1 early near
    · have apart : ¬(newMarker.startOffset ≤ pending.1.endOffset ∧
          pending.1.startOffset ≤ newMarker.endOffset) :=
        fun overlaps => near overlaps.2
      rw [iff_false_right apart, Reached, not_or, and_iff_right fun reached => near reached.1]
      constructor
      · intro missed
        refine ⟨fun ahead => by omega, fun _ close => absurd close near, ?_⟩
        intro _ first marker between split stretches reaches
        by_contra looked
        exact missed ⟨first, marker, between, split, stretches, reaches, eq_false_of_ne_true looked⟩
      · rintro ⟨-, -, hidden⟩ ⟨first, marker, between, split, stretches, reaches, looked⟩
        rw [hidden (Nat.not_le.1 near) first marker between split stretches reaches] at looked
        cases looked

/-- The condition on the pairs. -/
theorem keepsCoverage_ofPairs (ordered : Ordered pairs)
    (wide : newMarker.startOffset < newMarker.endOffset) :
    KeepsCoverage newMarker (ofPairs pairs).markers ↔
      (∀ pair ∈ pairs, pair.1.type = newMarker.type → pair.1.startOffset ≤ newMarker.startOffset →
          pair.1.endOffset ≤ newMarker.endOffset) ∧
      ∀ before pending after, pairs = before ++ pending :: after →
        answersPending newMarker pending.1 → (TakenOut newMarker (before.map Prod.fst) pending.1 ↔
            newMarker.Overlaps pending.1) := by
  constructor
  · intro keeps
    constructor
    · intro pair member
      exact keeps.notCut pair.1 (mem_map_of_mem member)
    · rintro before pending after rfl answers
      have split : (ofPairs (before ++ pending :: after)).markers =
          before.map Prod.fst ++ pending.1 :: after.map Prod.fst := by
        simp [ofPairs]
      rw [takenOut_iff_overlaps_iff ordered wide]
      exact ⟨keeps.ahead _ _ _ split answers, keeps.under _ _ _ split answers,
        keeps.behind _ _ _ split answers⟩
  · rintro ⟨notCut, found⟩
    have conditions : ∀ before pending after, (ofPairs pairs).markers = before ++ pending :: after →
          answersPending newMarker pending →
            ∃ front pair, before = front.map Prod.fst ∧ pair.1 = pending ∧
              ∃ rest, pairs = front ++ pair :: rest ∧
                (TakenOut newMarker (front.map Prod.fst) pair.1 ↔
                  newMarker.Overlaps pair.1) := by
      intro before pending after split answers
      obtain ⟨front, behind, rfl, rfl, mapped⟩ := map_eq_append_iff.1 split
      obtain ⟨pair, rest, rfl, rfl, rfl⟩ := map_eq_cons_iff.1 mapped
      exact ⟨front, pair, rfl, rfl, rest, rfl, found front pair rest rfl answers⟩
    constructor
    · intro marker member
      obtain ⟨pair, inPairs, rfl⟩ := mem_map.1 member
      exact notCut pair inPairs
    · intro before pending after split answers
      obtain ⟨front, pair, rfl, rfl, rest, rfl, exactly⟩ :=
        conditions before pending after split answers
      exact ((takenOut_iff_overlaps_iff ordered wide).1 exactly).1
    · intro before pending after split answers
      obtain ⟨front, pair, rfl, rfl, rest, rfl, exactly⟩ :=
        conditions before pending after split answers
      exact ((takenOut_iff_overlaps_iff ordered wide).1 exactly).2.1
    · intro before pending after split answers
      obtain ⟨front, pair, rfl, rfl, rest, rfl, exactly⟩ :=
        conditions before pending after split answers
      exact ((takenOut_iff_overlaps_iff ordered wide).1 exactly).2.2

/-- The pending markers that are left are those that do not overlap the new
one. -/
def FindsPending (newMarker : DocumentMarker) (pairs : List PaintedMarker) : Prop :=
  ∀ pair ∈ pairs, answersPending newMarker pair.1 →
    (pair ∈ kept newMarker pairs ↔ ¬newMarker.Overlaps pair.1)

theorem findsPending_iff (ordered : Ordered pairs)
    (wide : newMarker.startOffset ≤ newMarker.endOffset) :
    FindsPending newMarker pairs ↔ ∀ before pending after, pairs = before ++ pending :: after →
        answersPending newMarker pending.1 → (TakenOut newMarker (before.map Prod.fst) pending.1 ↔
            newMarker.Overlaps pending.1) := by
  constructor
  · rintro finds before pending after rfl answers
    have left := finds pending (by simp) answers
    rw [mem_kept_iff ordered wide answers] at left
    exact not_iff_not.1 left
  · intro found pair member answers
    obtain ⟨before, after, rfl⟩ := append_of_mem member
    rw [mem_kept_iff ordered wide answers]
    exact not_congr (found before pair after rfl answers)

/-- The text under the markers of another type behind both loops. -/
theorem otherType_iff (ordered : Ordered pairs)
    (wide : newMarker.startOffset < newMarker.endOffset) :
    (∀ type, type ≠ newMarker.type → ∀ offset, UnderPairs (kept newMarker pairs) type offset ↔
        ∃ marker ∈ (ofPairs pairs).markers, marker.type = type ∧
          marker.Covers offset ∧ ¬newMarker.Replaces marker) ↔
      FindsPending newMarker pairs := by
  constructor
  · intro meets pair member answers
    have pairWide := ordered.nonempty pair member
    have covers : pair.1.Covers pair.1.startOffset := ⟨Nat.le_refl _, pairWide⟩
    have under := meets pair.1.type (answersPending_type answers)
      pair.1.startOffset
    constructor
    · intro left overlaps
      obtain ⟨marker, inMarkers, same, coversToo, notReplaced⟩ :=
        under.1 ⟨pair.1, mem_map_of_mem left, rfl, covers⟩
      obtain ⟨other, inPairs, rfl⟩ := mem_map.1 inMarkers
      obtain rfl := ordered.eq_of_covers inPairs member same coversToo covers
      exact notReplaced ⟨wide, answers, overlaps⟩
    · intro misses
      obtain ⟨marker, inMarkers, same, coversToo⟩ := under.2
        ⟨pair.1, mem_map_of_mem member, rfl, covers,
          fun replaced => misses replaced.2.2⟩
      obtain ⟨other, left, rfl⟩ := mem_map.1 inMarkers
      obtain rfl := ordered.eq_of_covers ((kept_sublist ordered).subset left)
        member same coversToo covers
      exact left
  · intro finds type other offset
    constructor
    · rintro ⟨marker, inMarkers, rfl, covers⟩
      obtain ⟨pair, left, rfl⟩ := mem_map.1 inMarkers
      have member := (kept_sublist ordered).subset left
      exact ⟨pair.1, mem_map_of_mem member, rfl, covers,
        fun replaced => (finds pair member replaced.2.1).1 left replaced.2.2⟩
    · rintro ⟨marker, inMarkers, rfl, covers, notReplaced⟩
      obtain ⟨pair, member, rfl⟩ := mem_map.1 inMarkers
      refine ⟨pair.1, mem_map_of_mem ?_, rfl, covers⟩
      by_cases answers : answersPending newMarker pair.1
      · exact (finds pair member answers).2 fun overlaps => notReplaced ⟨wide, answers, overlaps⟩
      · exact mem_kept ordered member other answers

/-- The added markers cover what the kept ones and the new one cover. -/
theorem covered_addMarker (newMarker : DocumentMarker) (ordered : Ordered pairs) (type : MarkerType)
    (offset : Nat) : Covered ((ofPairs pairs).addMarker newMarker).markers type offset ↔
      UnderPairs (kept newMarker pairs) type offset ∨
        newMarker.type = type ∧ (extended newMarker pairs).Covers offset := by
  have sameType : (extended newMarker pairs).type = newMarker.type :=
    (mergedAfter_spec _ _).type.trans (mergedBefore_spec newMarker ordered).type
  have markers : ((ofPairs pairs).addMarker newMarker).markers =
      (mergedBefore newMarker pairs).1.map Prod.fst ++ extended newMarker pairs ::
          (mergedAfter (mergedBefore newMarker pairs).2.1
            (mergedBefore newMarker pairs).2.2).1.map Prod.fst := by
    rw [addMarker_ofPairs]
    simp [ofPairs, extended]
  rw [markers, covered_append, covered_cons, sameType, UnderPairs, kept,
    map_append, covered_append, or_assoc]
  exact or_congr_right Or.comm

/-- On ordered pairs the coverage is right exactly under the condition. -/
theorem coverageMeets_ofPairs_iff (ordered : Ordered pairs)
    (wide : newMarker.startOffset < newMarker.endOffset) :
    CoverageMeets (ofPairs pairs).markers newMarker
        ((ofPairs pairs).addMarker newMarker).markers ↔
      KeepsCoverage newMarker (ofPairs pairs).markers := by
  have weak := Nat.le_of_lt wide
  rw [keepsCoverage_ofPairs ordered wide, ← findsPending_iff ordered weak,
    ← otherType_iff ordered wide]
  constructor
  · intro meets
    constructor
    · intro cut member same early
      by_contra longer
      have lost := not_underPairs_of_cut ordered weak member same early
        (Nat.not_le.1 longer)
      apply lost
      have under := (meets.sameType newMarker.endOffset).2
        (.inl ⟨cut.1, mem_map_of_mem member, same,
          Nat.le_trans early weak, Nat.not_le.1 longer⟩)
      rw [covered_addMarker newMarker ordered] at under
      exact under.imp_right And.right
    · intro type other offset
      rw [← meets.otherType type other, covered_addMarker newMarker ordered]
      exact (or_iff_left fun found => other found.1.symm).symm
  · rintro ⟨notCut, others⟩
    constructor
    · intro offset
      rw [covered_addMarker newMarker ordered, and_iff_right rfl]
      exact underPairs_kept newMarker ordered weak notCut
    · intro type other offset
      rw [← others type other, covered_addMarker newMarker ordered]
      exact or_iff_left fun found => other found.1.symm

end Adding

end MarkerVectors

namespace DocumentMarkerController

/-- On a node whose markers are in order and not empty, `addMarker` keeps the
coverage exactly under the condition. -/
theorem coverageMeets_addMarker_iff (controller : DocumentMarkerController)
    (inOrder : controller.InOrder)
    (nonempty : ∀ marker ∈ controller.markersForNode, marker.startOffset < marker.endOffset)
    (newMarker : DocumentMarker) (wellFormed : newMarker.startOffset ≤ newMarker.endOffset) :
    CoverageMeets controller.markersForNode newMarker
        (controller.addMarker newMarker).markersForNode ↔
      (newMarker.startOffset < newMarker.endOffset →
        KeepsCoverage newMarker controller.markersForNode) := by
  rcases Nat.lt_or_eq_of_le wellFormed with wide | empty
  · rw [imp_iff_right wide, DocumentMarkerController.addMarker, if_neg (Nat.ne_of_gt wide)]
    cases present : controller.vectors with
    | none =>
      have ordered : Ordered [] := .nil
      have meets := MarkerVectors.coverageMeets_ofPairs_iff ordered wide
      have same : ((ofPairs []).addMarker newMarker).markers = [newMarker] := by
        rw [MarkerVectors.addMarker_ofPairs]
        rfl
      have markers : controller.markersForNode = (ofPairs []).markers := by
        rw [markersForNode, present]
        rfl
      rw [same] at meets
      rw [markers]
      exact meets
    | some vectors =>
      have vectorsInOrder := inOrder vectors present
      have pairs : vectors = ofPairs (vectors.markers.zip vectors.rects) := by
        rw [ofPairs, map_fst_zip (Nat.le_of_eq vectorsInOrder.lengths),
          map_snd_zip (Nat.le_of_eq vectorsInOrder.lengths.symm)]
      have markers : controller.markersForNode = vectors.markers := by
        rw [markersForNode, present]
        rfl
      rw [markers] at nonempty ⊢
      have ordered : Ordered (vectors.markers.zip vectors.rects) := by
        refine .of_inOrder ?_ (pairs ▸ vectorsInOrder)
        intro pair member
        exact nonempty pair.1 (of_mem_zip member).1
      have meets := MarkerVectors.coverageMeets_ofPairs_iff ordered wide
      rw [← pairs] at meets
      exact meets
  · have unchanged : controller.addMarker newMarker = controller :=
      if_pos empty.symm
    rw [unchanged]
    refine iff_of_true ⟨fun offset => ?_, fun type other offset => ?_⟩
      fun wide => absurd wide (Nat.not_lt.2 (Nat.le_of_eq empty.symm))
    · have nothing : ¬newMarker.Covers offset := fun covers =>
        absurd (Nat.lt_of_le_of_lt covers.1 covers.2)
          (Nat.not_lt.2 (Nat.le_of_eq empty.symm))
      exact (or_iff_left nothing).symm
    · have kept : ∀ marker, ¬newMarker.Replaces marker := fun _ replaces =>
        absurd replaces.1 (Nat.not_lt.2 (Nat.le_of_eq empty.symm))
      simp only [Covered, kept, not_false_eq_true, and_true]

/-- A spelling marker with a pending one behind it. -/
def spelledNode : DocumentMarkerController where
  vectors := some
    { markers := [⟨.spelling, 2, 6, [], false⟩, ⟨.spellPending, 9, 12, [], false⟩]
      rects := [placeholderRectForMarker, placeholderRectForMarker] }
  updatingMarkersEnabled := true

theorem spelledNode_inOrder : spelledNode.InOrder := by
  intro vectors present
  cases present
  exact {
    lengths := rfl
    sorted := by decide
    apart := by simp }

/-- The new marker reaches the old one and the pending one. -/
theorem spelledNode_keepsCoverage :
    KeepsCoverage ⟨.spelling, 5, 9, [], false⟩ spelledNode.markersForNode := by
  have only : ∀ before pending after, spelledNode.markersForNode = before ++ pending :: after →
        answersPending ⟨.spelling, 5, 9, [], false⟩ pending →
          before = [⟨.spelling, 2, 6, [], false⟩] ∧
            pending = ⟨.spellPending, 9, 12, [], false⟩ := by
    intro before pending after split answers
    match before, split with
    | [], split =>
      cases split
      exact absurd answers (by decide)
    | [first], split =>
      cases split
      exact ⟨rfl, rfl⟩
    | first :: second :: before, split => simp [spelledNode, markersForNode] at split
  constructor
  · decide
  · intro before pending after split answers early
    obtain ⟨rfl, rfl⟩ := only before pending after split answers
    exact absurd early (by decide)
  · intro before pending after split answers _ _
    obtain ⟨rfl, rfl⟩ := only before pending after split answers
    rfl
  · intro before pending after split answers far
    obtain ⟨rfl, rfl⟩ := only before pending after split answers
    exact absurd far (by decide)

theorem coverageMeets_spelledNode :
    CoverageMeets spelledNode.markersForNode ⟨.spelling, 5, 9, [], false⟩
      (spelledNode.addMarker ⟨.spelling, 5, 9, [], false⟩).markersForNode :=
  (coverageMeets_addMarker_iff spelledNode spelledNode_inOrder (by decide)
    ⟨.spelling, 5, 9, [], false⟩ (by decide)).2
      fun _ => spelledNode_keepsCoverage

/-- The end of an old marker is lost when a shorter one is added inside it. -/
theorem longer_marker_cut :
    ¬∀ (controller : DocumentMarkerController) (newMarker : DocumentMarker), controller.InOrder →
        (∀ marker ∈ controller.markersForNode, marker.startOffset < marker.endOffset) →
          newMarker.startOffset ≤ newMarker.endOffset →
            CoverageMeets controller.markersForNode newMarker
              (controller.addMarker newMarker).markersForNode := by
  intro meets
  have lost := (meets spelledNode ⟨.spelling, 3, 4, [], false⟩
    spelledNode_inOrder (by decide) (by decide)).sameType 5
  have under : Covered spelledNode.markersForNode .spelling 5 :=
    ⟨⟨.spelling, 2, 6, [], false⟩, by decide, rfl, by decide⟩
  obtain ⟨marker, member, -, covers⟩ := lost.2 (.inl under)
  have uncovered : ∀ marker ∈
      (spelledNode.addMarker ⟨.spelling, 3, 4, [], false⟩).markersForNode,
        ¬marker.Covers 5 := by
    decide
  exact uncovered marker member covers

end DocumentMarkerController

end Editing
end PalmWebKit
