import PalmWebKit.Editing.DocumentMarkers
import PalmWebKit.Logic.Runs

/-!
# Order of the markers of a node

The two vectors of a node are the columns of one list of pairs, and the loops
over them are recursions on that list.  On the list it can be seen when
`addMarker` keeps the markers in order: after a marker that the new one covers
the second loop passes over the next marker without looking at it.
-/

namespace PalmWebKit
namespace Editing

open List

/-- A marker with the rectangle it was painted in. -/
abbrev PaintedMarker := DocumentMarker × IntRect

/-- The vectors whose elements are paired up. -/
def MarkerVectors.ofPairs (pairs : List PaintedMarker) : MarkerVectors where
  markers := pairs.map Prod.fst
  rects := pairs.map Prod.snd

namespace MarkerVectors

/-! ## The loops on a list of pairs -/

/-- The first loop: the markers it passes, the new marker with what it has
taken over, and the markers left for the second loop. -/
def mergedBefore (newMarker : DocumentMarker) :
    List PaintedMarker → List PaintedMarker × DocumentMarker × List PaintedMarker
  | [] => ([], newMarker, [])
  | pair :: rest =>
    if pair.1.startOffset > newMarker.startOffset then
      ([], newMarker, pair :: rest)
    else if pair.1.type = newMarker.type ∧ pair.1.endOffset ≥ newMarker.startOffset then
      mergedBefore { newMarker with startOffset := pair.1.startOffset } rest
    else if answersPending newMarker pair.1 ∧ pair.1.endOffset ≥ newMarker.startOffset then
      mergedBefore newMarker rest
    else
      let (passed, merged, later) := mergedBefore newMarker rest
      (pair :: passed, merged, later)

/-- The second loop: the markers it leaves, and the new marker. -/
def mergedAfter (newMarker : DocumentMarker) :
    List PaintedMarker → List PaintedMarker × DocumentMarker
  | [] => ([], newMarker)
  | pair :: rest =>
    if pair.1.startOffset > newMarker.endOffset then
      (pair :: rest, newMarker)
    else if pair.1.type = newMarker.type then
      if newMarker.endOffset ≤ pair.1.endOffset then
        mergedAfter { newMarker with endOffset := pair.1.endOffset } rest
      else
        match rest with
        | [] => ([], newMarker)
        | next :: later =>
          let (left, extended) := mergedAfter newMarker later
          (next :: left, extended)
    else if answersPending newMarker pair.1 then
      mergedAfter newMarker rest
    else
      let (left, extended) := mergedAfter newMarker rest
      (pair :: left, extended)

section Columns

variable
  (before after : List PaintedMarker)
  (pair : PaintedMarker)

theorem markers_ofPairs_here : (ofPairs (before ++ pair :: after)).markers[before.length]? =
      some pair.1 := by
  simp [ofPairs]

theorem markers_ofPairs_end {index : Nat} (beyond : before.length ≤ index) :
    (ofPairs before).markers[index]? = none := by
  simpa [ofPairs] using beyond

theorem removeAt_ofPairs : (ofPairs (before ++ pair :: after)).removeAt before.length =
      ofPairs (before ++ after) := by
  have column : ∀ {Value : Type} (f : PaintedMarker → Value),
      ((before ++ pair :: after).map f).eraseIdx before.length =
        (before ++ after).map f := by
    intro Value f
    rw [map_append, eraseIdx_append_of_length_le
      (by simp)]
    simp
  rw [removeAt, ofPairs, ofPairs, column, column]

theorem insertIdx_length_append {Value : Type} (first second : List Value) (value : Value) :
    (first ++ second).insertIdx first.length value = first ++ value :: second := by
  induction first with
  | nil => simp
  | cons head tail ih => simpa [insertIdx_succ_cons] using ih

theorem insertAt_ofPairs (marker : DocumentMarker) :
    (ofPairs (before ++ after)).insertAt before.length marker =
      ofPairs (before ++ (marker, placeholderRectForMarker) :: after) := by
  have column : ∀ {Value : Type} (f : PaintedMarker → Value) (value : Value),
      ((before ++ after).map f).insertIdx before.length value =
        before.map f ++ value :: after.map f := by
    intro Value f value
    have length : before.length = (before.map f).length := by simp
    rw [map_append, length, insertIdx_length_append]
  rw [insertAt, ofPairs, ofPairs, column, column]
  simp

end Columns

variable (before : List PaintedMarker)

/-- The first loop on the vectors is the one on the list. -/
theorem mergeBefore_ofPairs {turns : Nat} (newMarker : DocumentMarker) (rest : List PaintedMarker)
    (enough : rest.length ≤ turns) :
    mergeBefore turns (ofPairs (before ++ rest)) newMarker before.length =
      let (passed, merged, later) := mergedBefore newMarker rest
      (ofPairs (before ++ passed ++ later), merged,
        (before ++ passed).length) := by
  induction rest generalizing turns before newMarker with
  | nil =>
    cases turns with
    | zero => simp [mergeBefore, mergedBefore]
    | succ turns =>
      rw [mergeBefore, append_nil, markers_ofPairs_end before (Nat.le_refl _)]
      simp [mergedBefore]
  | cons pair rest ih =>
    obtain ⟨turns, rfl⟩ : ∃ others, turns = others + 1 :=
      ⟨turns - 1, by rw [length_cons] at enough; omega⟩
    rw [length_cons, Nat.add_le_add_iff_right] at enough
    rw [mergeBefore, markers_ofPairs_here, mergedBefore]
    dsimp only
    split_ifs
    · simp
    · rw [removeAt_ofPairs]
      exact ih before _ enough
    · rw [removeAt_ofPairs]
      exact ih before _ enough
    · have moved := ih (before ++ [pair]) newMarker enough
      simpa using moved

/-- The second loop on the vectors is the one on the list. -/
theorem mergeAfter_ofPairs {turns : Nat} (newMarker : DocumentMarker) (rest : List PaintedMarker)
    (enough : rest.length ≤ turns) :
    mergeAfter turns (ofPairs (before ++ rest)) newMarker before.length =
      let (left, extended) := mergedAfter newMarker rest
      (ofPairs (before ++ left), extended) := by
  induction turns generalizing before newMarker rest with
  | zero =>
    obtain rfl := length_eq_zero_iff.1 (Nat.le_zero.1 enough)
    simp [mergeAfter, mergedAfter]
  | succ turns ih =>
    cases rest with
    | nil =>
      rw [mergeAfter, append_nil, markers_ofPairs_end before (Nat.le_refl _)]
      simp [mergedAfter]
    | cons pair rest =>
      rw [length_cons, Nat.add_le_add_iff_right] at enough
      rw [mergeAfter, markers_ofPairs_here, mergedAfter.eq_def]
      dsimp only
      split_ifs
      · rfl
      · rw [removeAt_ofPairs]
        exact ih before _ rest enough
      · rw [removeAt_ofPairs]
        cases rest with
        | nil =>
          cases turns with
          | zero => simp [mergeAfter]
          | succ turns =>
            rw [mergeAfter, append_nil, markers_ofPairs_end before (Nat.le_succ _)]
        | cons next later =>
          rw [length_cons] at enough
          have skipped := ih (before ++ [next]) newMarker
            later (by omega)
          simpa using skipped
      · rw [removeAt_ofPairs]
        exact ih before _ rest enough
      · have moved := ih (before ++ [pair]) newMarker rest
          enough
        simpa using moved

/-- `addMarker` on the list of pairs. -/
theorem addMarker_ofPairs (pairs : List PaintedMarker) (newMarker : DocumentMarker) :
    (ofPairs pairs).addMarker newMarker =
      let (passed, merged, later) := mergedBefore newMarker pairs
      let (left, extended) := mergedAfter merged later
      ofPairs (passed ++ (extended, placeholderRectForMarker) :: left) := by
  have first := mergeBefore_ofPairs [] newMarker pairs
    (Nat.le_refl pairs.length)
  rw [nil_append, length_nil] at first
  have count : (ofPairs pairs).markers.length = pairs.length := length_map _
  rw [addMarker, count, first]
  dsimp only
  rw [mergeAfter_ofPairs _ _ _ (by simp [ofPairs])]
  rw [nil_append, insertAt_ofPairs]

end MarkerVectors

/-! ## Order -/

/-- Two ranges are disjoint and do not touch. -/
def DocumentMarker.Apart (first second : DocumentMarker) : Prop :=
  first.endOffset < second.startOffset ∨ second.endOffset < first.startOffset

/-- What painting, hit testing and removal rely on. -/
structure MarkerVectors.InOrder (vectors : MarkerVectors) : Prop where
  lengths : vectors.markers.length = vectors.rects.length
  sorted : vectors.markers.Pairwise fun first second => first.startOffset ≤ second.startOffset
  apart : vectors.markers.Pairwise fun first second => first.type = second.type → first.Apart second

/-- The order of the pairs behind the vectors. -/
structure Ordered (pairs : List PaintedMarker) : Prop where
  nonempty : ∀ pair ∈ pairs, pair.1.startOffset < pair.1.endOffset
  sorted : pairs.Pairwise fun first second => first.1.startOffset ≤ second.1.startOffset
  apart : pairs.Pairwise fun first second =>
    first.1.type = second.1.type → first.1.endOffset < second.1.startOffset

namespace Ordered

theorem nil : Ordered [] where
  nonempty := by simp
  sorted := .nil
  apart := .nil

theorem sublist {pairs shorter : List PaintedMarker} (ordered : Ordered pairs)
    (sub : shorter.Sublist pairs) : Ordered shorter where
  nonempty := fun pair member => ordered.nonempty pair (sub.subset member)
  sorted := ordered.sorted.sublist sub
  apart := ordered.apart.sublist sub

theorem tail {pair : PaintedMarker} {rest : List PaintedMarker} (ordered : Ordered (pair :: rest)) :
    Ordered rest := ordered.sublist (sublist_cons_self pair rest)

variable {pairs : List PaintedMarker}

theorem inOrder (ordered : Ordered pairs) : (MarkerVectors.ofPairs pairs).InOrder where
  lengths := by simp [MarkerVectors.ofPairs]
  sorted := pairwise_map.2 ordered.sorted
  apart := pairwise_map.2
    (ordered.apart.imp fun apart same => .inl (apart same))

theorem sorted_of_inOrder (inOrder : (MarkerVectors.ofPairs pairs).InOrder) :
    pairs.Pairwise fun first second =>
      first.1.startOffset ≤ second.1.startOffset := by
  simpa [MarkerVectors.ofPairs, pairwise_map] using inOrder.sorted

/-- Pairs of non-empty markers whose vectors are in order. -/
theorem of_inOrder (nonempty : ∀ pair ∈ pairs, pair.1.startOffset < pair.1.endOffset)
    (inOrder : (MarkerVectors.ofPairs pairs).InOrder) : Ordered pairs where
  nonempty := nonempty
  sorted := sorted_of_inOrder inOrder
  apart := by
    have apart : pairs.Pairwise fun first second =>
        first.1.type = second.1.type → first.1.Apart second.1 := pairwise_map.1 inOrder.apart
    have both := (sorted_of_inOrder inOrder).and apart
    refine both.imp_of_mem ?_
    rintro first second - secondMember ⟨before, disjoint⟩ same
    have wide := nonempty second secondMember
    rcases disjoint same with apart | apart
    · exact apart
    · omega

end Ordered

namespace MarkerVectors

/-- What the first loop does to ordered pairs. -/
structure MergedBefore (newMarker : DocumentMarker) (pairs passed : List PaintedMarker)
    (merged : DocumentMarker) (later : List PaintedMarker) : Prop where
  sublist : (passed ++ later).Sublist pairs
  type : merged.type = newMarker.type
  endOffset : merged.endOffset = newMarker.endOffset
  startOffset_le : merged.startOffset ≤ newMarker.startOffset
  origin : merged.startOffset = newMarker.startOffset ∨
    ∃ pair ∈ pairs, pair.1.type = newMarker.type ∧ merged.startOffset = pair.1.startOffset
  passedStart : ∀ pair ∈ passed, pair.1.startOffset ≤ merged.startOffset
  passedApart : ∀ pair ∈ passed, pair.1.type = newMarker.type →
    pair.1.endOffset < merged.startOffset
  laterStart : ∀ pair ∈ later, merged.startOffset < pair.1.startOffset
  laterApart : ∀ pair ∈ later, pair.1.type = newMarker.type →
    newMarker.startOffset < pair.1.startOffset
  consumed : ∃ front, pairs = front ++ later ∧
    ∀ pair ∈ front, pair.1.startOffset ≤ newMarker.startOffset

section FirstLoop

variable
  {newMarker merged : DocumentMarker}
  {pair : PaintedMarker}
  {rest passed later : List PaintedMarker}

/-- The first loop stops at a marker behind the start of the new one. -/
theorem MergedBefore.stop (sorted : ∀ other ∈ rest, pair.1.startOffset ≤ other.1.startOffset)
    (behind : newMarker.startOffset < pair.1.startOffset) :
    MergedBefore newMarker (pair :: rest) [] newMarker (pair :: rest) := by
  have allBehind : ∀ other ∈ pair :: rest,
      newMarker.startOffset < other.1.startOffset := by
    intro other member
    rcases mem_cons.1 member with rfl | member
    · exact behind
    · exact Nat.lt_of_lt_of_le behind (sorted other member)
  exact {
    sublist := .refl _
    type := rfl
    endOffset := rfl
    startOffset_le := Nat.le_refl _
    origin := .inl rfl
    passedStart := by simp
    passedApart := by simp
    laterStart := allBehind
    laterApart := fun other member _ => allBehind other member
    consumed := ⟨[], rfl, by simp⟩ }

/-- A marker of the same type that reaches the new one is taken over. -/
theorem MergedBefore.absorb
    (apart : ∀ other ∈ rest, pair.1.type = other.1.type → pair.1.endOffset < other.1.startOffset)
    (before : pair.1.startOffset ≤ newMarker.startOffset) (same : pair.1.type = newMarker.type)
    (reaches : newMarker.startOffset ≤ pair.1.endOffset)
    (loop : MergedBefore
      { newMarker with startOffset := pair.1.startOffset } rest passed merged
        later) : MergedBefore newMarker (pair :: rest) passed merged later := by
  obtain ⟨front, split, fronts⟩ := loop.consumed
  exact {
    sublist := loop.sublist.cons pair
    type := loop.type
    endOffset := loop.endOffset
    startOffset_le := Nat.le_trans loop.startOffset_le before
    origin := by
      rcases loop.origin with start | ⟨other, member, sameType, start⟩
      · exact .inr ⟨pair, .head _, same, start⟩
      · exact .inr ⟨other, .tail _ member, sameType, start⟩
    passedStart := loop.passedStart
    passedApart := loop.passedApart
    laterStart := loop.laterStart
    laterApart := fun other member sameType => by
      have inRest : other ∈ rest := split ▸ mem_append_right front member
      have beyond := apart other inRest (same.trans sameType.symm)
      omega
    consumed := ⟨pair :: front, by rw [split]; rfl, by
      intro other member
      rcases mem_cons.1 member with rfl | member
      · exact before
      · exact Nat.le_trans (fronts other member) before⟩ }

/-- A marker that is dropped. -/
theorem MergedBefore.drop (before : pair.1.startOffset ≤ newMarker.startOffset)
    (loop : MergedBefore newMarker rest passed merged later) :
    MergedBefore newMarker (pair :: rest) passed merged later := by
  obtain ⟨front, split, fronts⟩ := loop.consumed
  exact {
    sublist := loop.sublist.cons pair
    type := loop.type
    endOffset := loop.endOffset
    startOffset_le := loop.startOffset_le
    origin := by
      rcases loop.origin with start | ⟨other, member, sameType, start⟩
      · exact .inl start
      · exact .inr ⟨other, .tail _ member, sameType, start⟩
    passedStart := loop.passedStart
    passedApart := loop.passedApart
    laterStart := loop.laterStart
    laterApart := loop.laterApart
    consumed := ⟨pair :: front, by rw [split]; rfl, by
      intro other member
      rcases mem_cons.1 member with rfl | member
      · exact before
      · exact fronts other member⟩ }

/-- A marker that is passed. -/
theorem MergedBefore.pass (sorted : ∀ other ∈ rest, pair.1.startOffset ≤ other.1.startOffset)
    (apart : ∀ other ∈ rest, pair.1.type = other.1.type → pair.1.endOffset < other.1.startOffset)
    (before : pair.1.startOffset ≤ newMarker.startOffset)
    (short : pair.1.type = newMarker.type → pair.1.endOffset < newMarker.startOffset)
    (loop : MergedBefore newMarker rest passed merged later) :
    MergedBefore newMarker (pair :: rest) (pair :: passed) merged later := by
  obtain ⟨front, split, fronts⟩ := loop.consumed
  exact {
    sublist := loop.sublist.cons_cons pair
    type := loop.type
    endOffset := loop.endOffset
    startOffset_le := loop.startOffset_le
    origin := by
      rcases loop.origin with start | ⟨other, member, sameType, start⟩
      · exact .inl start
      · exact .inr ⟨other, .tail _ member, sameType, start⟩
    passedStart := by
      intro other member
      rcases mem_cons.1 member with rfl | member
      · rcases loop.origin with start | ⟨source, inRest, -, start⟩
        · omega
        · exact start ▸ sorted source inRest
      · exact loop.passedStart other member
    passedApart := by
      intro other member sameType
      rcases mem_cons.1 member with rfl | member
      · rcases loop.origin with start | ⟨source, inRest, sourceType, start⟩
        · exact start ▸ short sameType
        · exact start ▸ apart source inRest (sameType.trans sourceType.symm)
      · exact loop.passedApart other member sameType
    laterStart := loop.laterStart
    laterApart := loop.laterApart
    consumed := ⟨pair :: front, by rw [split]; rfl, by
      intro other member
      rcases mem_cons.1 member with rfl | member
      · exact before
      · exact fronts other member⟩ }

end FirstLoop

theorem mergedBefore_spec (newMarker : DocumentMarker) {pairs : List PaintedMarker}
    (ordered : Ordered pairs) : MergedBefore newMarker pairs (mergedBefore newMarker pairs).1
      (mergedBefore newMarker pairs).2.1 (mergedBefore newMarker pairs).2.2 := by
  induction pairs generalizing newMarker with
  | nil =>
    exact {
      sublist := .refl _
      type := rfl
      endOffset := rfl
      startOffset_le := Nat.le_refl _
      origin := .inl rfl
      passedStart := by simp [mergedBefore]
      passedApart := by simp [mergedBefore]
      laterStart := by simp [mergedBefore]
      laterApart := by simp [mergedBefore]
      consumed := ⟨[], rfl, by simp⟩ }
  | cons pair rest ih =>
    have sorted := (pairwise_cons.1 ordered.sorted).1
    have apart := (pairwise_cons.1 ordered.apart).1
    rw [mergedBefore]
    split_ifs with behind same pending
    · exact .stop sorted behind
    · exact .absorb apart (Nat.not_lt.1 behind) same.1 same.2
        (ih _ ordered.tail)
    · exact .drop (Nat.not_lt.1 behind)
        (ih newMarker ordered.tail)
    · refine .pass sorted apart (Nat.not_lt.1 behind) ?_
        (ih newMarker ordered.tail)
      intro sameType
      exact Nat.not_le.1 fun reaches => same ⟨sameType, reaches⟩

/-- What the second loop does to ordered pairs. -/
structure MergedAfter (merged : DocumentMarker) (later left : List PaintedMarker)
    (extended : DocumentMarker) : Prop where
  sublist : left.Sublist later
  type : extended.type = merged.type
  startOffset : extended.startOffset = merged.startOffset
  endOffset_le : merged.endOffset ≤ extended.endOffset

theorem mergedAfter_spec (merged : DocumentMarker) (later : List PaintedMarker) :
    MergedAfter merged later (mergedAfter merged later).1
      (mergedAfter merged later).2 := by
  fun_induction mergedAfter merged later with
  | case1 => exact ⟨.refl _, rfl, rfl, Nat.le_refl _⟩
  | case2 => exact ⟨.refl _, rfl, rfl, Nat.le_refl _⟩
  | case3 merged pair rest near same covers loop =>
    exact ⟨loop.sublist.cons _, loop.type, loop.startOffset, Nat.le_trans covers loop.endOffset_le⟩
  | case4 => exact ⟨nil_sublist _, rfl, rfl, Nat.le_refl _⟩
  | case5 merged pair near same inside next later left extended step loop =>
    rw [step] at loop
    exact ⟨(loop.sublist.cons_cons next).cons pair, loop.type, loop.startOffset, loop.endOffset_le⟩
  | case6 merged pair rest near other pending loop =>
    exact ⟨loop.sublist.cons _, loop.type, loop.startOffset, loop.endOffset_le⟩
  | case7 merged pair rest near other pending left extended step loop =>
    rw [step] at loop
    exact ⟨loop.sublist.cons_cons _, loop.type, loop.startOffset, loop.endOffset_le⟩

/-- The second loop misses nothing at two neighbours: when both are of the type
of the new marker, the second one starts behind its end. -/
def MissesNothing (newMarker : DocumentMarker) (pair next : PaintedMarker) : Prop :=
  pair.1.type = newMarker.type → next.1.type = newMarker.type →
    newMarker.endOffset < next.1.startOffset

section SecondLoop

variable {newMarker : DocumentMarker}

theorem isChain_of_behind {pairs : List PaintedMarker}
    (behind : ∀ pair ∈ pairs, pair.1.type = newMarker.type →
      newMarker.endOffset < pair.1.startOffset) : pairs.IsChain (MissesNothing newMarker) := by
  refine List.Pairwise.isChain ?_
  exact pairwise_of_forall_mem_list
    fun _ _ next member _ same => behind next member same

/-- A neighbour of another type says nothing. -/
theorem isChain_cons_of_ne {pair : PaintedMarker} {rest : List PaintedMarker}
    (other : pair.1.type ≠ newMarker.type) : (pair :: rest).IsChain (MissesNothing newMarker) ↔
      rest.IsChain (MissesNothing newMarker) := by
  rw [isChain_cons]
  exact and_iff_right fun next _ same => absurd same other

/-- The markers that the second loop leaves are all behind the new marker, as
far as they are of its type, exactly when it misses nothing. -/
theorem mergedAfter_behind_iff (newMarker : DocumentMarker) {later : List PaintedMarker}
    (ordered : Ordered later) :
    (∀ pair ∈ (mergedAfter newMarker later).1, pair.1.type = newMarker.type →
          (mergedAfter newMarker later).2.endOffset < pair.1.startOffset) ↔
      later.IsChain (MissesNothing newMarker) := by
  fun_induction mergedAfter newMarker later with
  | case1 => simp
  | case2 merged pair rest far =>
    have sorted := (pairwise_cons.1 ordered.sorted).1
    have behind : ∀ other ∈ pair :: rest, other.1.type = merged.type →
          merged.endOffset < other.1.startOffset := by
      intro other member _
      rcases mem_cons.1 member with rfl | member
      · exact far
      · exact Nat.lt_of_lt_of_le far (sorted other member)
    exact iff_of_true behind (isChain_of_behind behind)
  | case3 merged pair rest near same covers loop =>
    have apart := (pairwise_cons.1 ordered.apart).1
    have behind : ∀ other ∈ rest, other.1.type = merged.type →
        pair.1.endOffset < other.1.startOffset :=
      fun other member sameType => apart other member (same.trans sameType.symm)
    refine iff_of_true ((loop ordered.tail).2 (isChain_of_behind behind)) ?_
    rw [isChain_cons]
    constructor
    · intro next head _ sameType
      exact Nat.lt_of_le_of_lt covers
        (behind next (mem_of_mem_head? head) sameType)
    · exact isChain_of_behind fun other member sameType =>
        Nat.lt_of_le_of_lt covers (behind other member sameType)
  | case4 => simp
  | case5 merged pair near same inside next later left extended step loop =>
    -- The neighbour of a covered marker is not looked at.
    have result := mergedAfter_spec merged later
    rw [step] at loop result
    rw [forall_mem_cons, loop ordered.tail.tail, isChain_cons_cons]
    by_cases sameNext : next.1.type = merged.type
    · constructor
      · rintro ⟨behindNext, -⟩
        have behind : merged.endOffset < next.1.startOffset :=
          Nat.lt_of_le_of_lt result.endOffset_le (behindNext sameNext)
        refine ⟨fun _ _ => behind, isChain_of_behind ?_⟩
        have sorted := (pairwise_cons.1 ordered.tail.sorted).1
        intro other member _
        rcases mem_cons.1 member with rfl | member
        · exact behind
        · exact Nat.lt_of_lt_of_le behind (sorted other member)
      · rintro ⟨missesNothing, chain⟩
        have behind := missesNothing same sameNext
        have stops : mergedAfter merged later = (later, merged) := by
          have sorted := (pairwise_cons.1 ordered.tail.sorted).1
          cases later with
          | nil => rfl
          | cons other others =>
            have far : other.1.startOffset > merged.endOffset :=
              Nat.lt_of_lt_of_le behind (sorted other (.head _))
            rw [mergedAfter.eq_def]
            dsimp only
            rw [if_pos far]
        rw [stops] at step
        cases step
        exact ⟨fun _ => behind, chain.tail⟩
    · rw [isChain_cons_of_ne sameNext]
      exact and_congr_left fun _ =>
        iff_of_true (fun sameType => absurd sameType sameNext)
          fun _ sameType => absurd sameType sameNext
  | case6 merged pair rest near other pending loop =>
    rw [loop ordered.tail, isChain_cons_of_ne other]
  | case7 merged pair rest near other pending left extended step loop =>
    rw [step] at loop
    rw [forall_mem_cons, loop ordered.tail, isChain_cons_of_ne other]
    exact and_iff_right fun same => absurd same other

end SecondLoop

/-! ## Adding and removing -/

/-- No marker is missed when a new one is added: of two neighbours of its type
that both start behind its start, the second one starts behind its end. -/
def NoneMissed (markers : List DocumentMarker) (newMarker : DocumentMarker) : Prop :=
  markers.IsChain fun marker next =>
    marker.type = newMarker.type → next.type = newMarker.type →
      newMarker.startOffset < marker.startOffset → newMarker.endOffset < next.startOffset

section Adding

variable
  {newMarker merged extended : DocumentMarker}
  {pairs passed later left : List PaintedMarker}

/-- Only the markers left by the first loop can be missed. -/
theorem noneMissed_iff (first : MergedBefore newMarker pairs passed merged later) :
    NoneMissed (ofPairs pairs).markers newMarker ↔
      later.IsChain (MissesNothing merged) := by
  obtain ⟨front, split, fronts⟩ := first.consumed
  rw [NoneMissed, ofPairs, isChain_map, split, isChain_append]
  have front_chain : front.IsChain fun pair next : PaintedMarker =>
      pair.1.type = newMarker.type → next.1.type = newMarker.type →
        newMarker.startOffset < pair.1.startOffset →
          newMarker.endOffset < next.1.startOffset := by
    refine List.Pairwise.isChain (pairwise_of_forall_mem_list ?_)
    intro pair member _ _ _ _ behind
    exact absurd (fronts pair member) (Nat.not_le.2 behind)
  constructor
  · rintro ⟨-, chain, -⟩
    refine List.IsChain.imp_of_mem_imp ?_ chain
    intro pair next member nextMember missed same sameNext
    rw [first.type] at same sameNext
    rw [first.endOffset]
    exact missed same sameNext (first.laterApart pair member same)
  · intro chain
    refine ⟨front_chain, ?_, ?_⟩
    · refine List.IsChain.imp_of_mem_imp ?_ chain
      intro pair next member nextMember missed same sameNext _
      rw [← first.type] at same sameNext
      rw [← first.endOffset]
      exact missed same sameNext
    · intro pair last next head same sameNext behind
      exact absurd (fronts pair (mem_of_mem_getLast? last))
        (Nat.not_le.2 behind)

/-- The pairs around the new marker are ordered when nothing of its type on
the right reaches it. -/
theorem ordered_around (ordered : Ordered pairs)
    (nonempty : newMarker.startOffset < newMarker.endOffset)
    (first : MergedBefore newMarker pairs passed merged later)
    (second : MergedAfter merged later left extended)
    (behind : ∀ pair ∈ left, pair.1.type = merged.type → extended.endOffset < pair.1.startOffset) :
    Ordered (passed ++ (extended, placeholderRectForMarker) :: left) := by
  have kept : Ordered (passed ++ left) :=
    ordered.sublist ((second.sublist.append_left passed).trans first.sublist)
  have start := second.startOffset
  have wide := second.endOffset_le
  constructor
  · intro pair member
    rcases mem_append.1 member with member | member
    · exact kept.nonempty pair (mem_append_left _ member)
    · rcases mem_cons.1 member with rfl | member
      · dsimp only
        have low := first.startOffset_le
        have high := first.endOffset
        omega
      · exact kept.nonempty pair (mem_append_right _ member)
  · obtain ⟨passedSorted, leftSorted, across⟩ := pairwise_append.1 kept.sorted
    refine pairwise_append.2 ⟨passedSorted, pairwise_cons.2 ⟨?_, leftSorted⟩, ?_⟩
    · intro pair member
      rw [start]
      exact Nat.le_of_lt (first.laterStart pair (second.sublist.subset member))
    · intro pair member other otherMember
      rcases mem_cons.1 otherMember with rfl | otherMember
      · rw [start]
        exact first.passedStart pair member
      · exact across pair member other otherMember
  · obtain ⟨passedApart, leftApart, across⟩ := pairwise_append.1 kept.apart
    refine pairwise_append.2 ⟨passedApart, pairwise_cons.2 ⟨?_, leftApart⟩, ?_⟩
    · intro pair member same
      exact behind pair member (same.symm.trans second.type)
    · intro pair member other otherMember
      rcases mem_cons.1 otherMember with rfl | otherMember
      · intro same
        rw [start]
        exact first.passedApart pair member
          (same.trans (second.type.trans first.type))
      · exact across pair member other otherMember

/-- Adding a marker to ordered ones keeps the order exactly when none is
missed. -/
theorem addMarker_inOrder_iff (ordered : Ordered pairs)
    (nonempty : newMarker.startOffset < newMarker.endOffset) :
    ((ofPairs pairs).addMarker newMarker).InOrder ↔
      NoneMissed (ofPairs pairs).markers newMarker := by
  have first := mergedBefore_spec newMarker ordered
  rw [noneMissed_iff first, addMarker_ofPairs]
  generalize mergedBefore newMarker pairs = result at first ⊢
  obtain ⟨passed, merged, later⟩ := result
  have laterOrdered : Ordered later :=
    ordered.sublist ((sublist_append_right _ _).trans first.sublist)
  have second := mergedAfter_spec merged later
  rw [← mergedAfter_behind_iff merged laterOrdered]
  dsimp only
  generalize mergedAfter merged later = result at second ⊢
  obtain ⟨left, extended⟩ := result
  dsimp only at first second ⊢
  constructor
  · intro inOrder pair member same
    have apart := pairwise_map.1 inOrder.apart
    have disjoint := (pairwise_cons.1 (pairwise_append.1 apart).2.1).1 pair member
        (second.type.trans same.symm)
    have start := first.laterStart pair (second.sublist.subset member)
    have positive := laterOrdered.nonempty pair (second.sublist.subset member)
    rcases disjoint with apart | apart
    · exact apart
    · have extendedStart := second.startOffset
      dsimp only at apart
      omega
  · intro behind
    exact (ordered_around ordered nonempty first second behind).inOrder

/-- What is in order afterwards is ordered again. -/
theorem addMarker_ordered (ordered : Ordered pairs)
    (nonempty : newMarker.startOffset < newMarker.endOffset)
    (noneMissed : NoneMissed (ofPairs pairs).markers newMarker) :
    ∃ added, (ofPairs pairs).addMarker newMarker = ofPairs added ∧
      Ordered added := by
  have first := mergedBefore_spec newMarker ordered
  rw [noneMissed_iff first] at noneMissed
  have laterOrdered : Ordered (mergedBefore newMarker pairs).2.2 :=
    ordered.sublist ((sublist_append_right _ _).trans first.sublist)
  exact ⟨_, addMarker_ofPairs pairs newMarker,
    ordered_around ordered nonempty first (mergedAfter_spec _ _)
      ((mergedAfter_behind_iff _ laterOrdered).2 noneMissed)⟩

end Adding

/-- Removing takes pairs out and changes nothing else. -/
theorem removeLoop_ofPairs (removal : MarkerRemoval) (turns : Nat)
    (before rest : List PaintedMarker) :
    ∃ left, removeLoop removal turns (ofPairs (before ++ rest)) before.length =
        ofPairs (before ++ left) ∧
      left.Sublist rest := by
  induction turns generalizing before rest with
  | zero => exact ⟨rest, rfl, .refl _⟩
  | succ turns ih =>
    cases rest with
    | nil =>
      refine ⟨[], ?_, .refl _⟩
      rw [removeLoop, append_nil, markers_ofPairs_end before (Nat.le_refl _)]
    | cons pair rest =>
      rw [removeLoop, markers_ofPairs_here]
      dsimp only
      split_ifs
      · exact ⟨_, rfl, .refl _⟩
      · obtain ⟨left, moved, sub⟩ := ih (before ++ [pair]) rest
        refine ⟨pair :: left, ?_, sub.cons_cons pair⟩
        simpa using moved
      · obtain ⟨left, removed, sub⟩ := ih before rest
        rw [removeAt_ofPairs]
        exact ⟨left, removed, sub.cons pair⟩

end MarkerVectors

/-! ## Runs -/

inductive MarkerEvent
  | addMarker
      (newMarker : DocumentMarker)
      (nonempty : newMarker.startOffset < newMarker.endOffset)
  | removeMarkers (removal : MarkerRemoval)
  | updatingMarkersEnabled (value : Bool)

namespace DocumentMarkerController

def step (controller : DocumentMarkerController) : MarkerEvent → DocumentMarkerController
  | .addMarker newMarker _ => controller.addMarker newMarker
  | .removeMarkers removal => controller.removeMarkers removal
  | .updatingMarkersEnabled value => { controller with updatingMarkersEnabled := value }

def InOrder (controller : DocumentMarkerController) : Prop :=
  ∀ vectors, controller.vectors = some vectors → vectors.InOrder

/-- The condition for an event: an added marker makes the second loop miss
none. -/
def KeepsOrder (controller : DocumentMarkerController) : MarkerEvent → Prop
  | .addMarker newMarker _ =>
    ∀ vectors, controller.vectors = some vectors →
      MarkerVectors.NoneMissed vectors.markers newMarker
  | _ => True

/-- The vectors of the node are the columns of ordered pairs. -/
def Sound (controller : DocumentMarkerController) : Prop :=
  ∀ vectors, controller.vectors = some vectors → ∃ pairs, vectors = .ofPairs pairs ∧ Ordered pairs

theorem sound_start : start.Sound := by
  intro vectors present
  cases present

section Steps

variable {controller : DocumentMarkerController}

theorem Sound.inOrder (sound : controller.Sound) : controller.InOrder := by
  intro vectors present
  obtain ⟨pairs, rfl, ordered⟩ := sound vectors present
  exact ordered.inOrder

theorem sound_single {newMarker : DocumentMarker}
    (nonempty : newMarker.startOffset < newMarker.endOffset) :
    ∃ pairs, MarkerVectors.mk [newMarker] [placeholderRectForMarker] =
      .ofPairs pairs ∧ Ordered pairs :=
  ⟨[(newMarker, placeholderRectForMarker)], rfl, {
    nonempty := by simpa using nonempty
    sorted := pairwise_singleton _ _
    apart := pairwise_singleton _ _ }⟩

theorem Sound.removeMarkers (sound : controller.Sound) (removal : MarkerRemoval) :
    (controller.removeMarkers removal).Sound := by
  unfold DocumentMarkerController.removeMarkers
  split_ifs
  · exact sound
  · exact sound
  · cases present : controller.vectors with
    | none => exact sound
    | some vectors =>
      obtain ⟨pairs, rfl, ordered⟩ := sound vectors present
      obtain ⟨left, removed, sub⟩ := MarkerVectors.removeLoop_ofPairs removal
        (MarkerVectors.ofPairs pairs).markers.length [] pairs
      rw [length_nil, nil_append] at removed
      dsimp only
      rw [removed]
      intro vectors emptied
      split_ifs at emptied
      cases emptied
      exact ⟨left, rfl, ordered.sublist sub⟩

theorem Sound.step (sound : controller.Sound) {event : MarkerEvent}
    (keepsOrder : controller.KeepsOrder event) : (controller.step event).Sound := by
  cases event with
  | removeMarkers removal => exact sound.removeMarkers removal
  | updatingMarkersEnabled value => exact sound
  | addMarker newMarker nonempty =>
    rw [DocumentMarkerController.step, DocumentMarkerController.addMarker,
      if_neg (Nat.ne_of_gt nonempty)]
    cases present : controller.vectors with
    | none =>
      intro vectors added
      cases added
      exact sound_single nonempty
    | some vectors =>
      obtain ⟨pairs, rfl, ordered⟩ := sound vectors present
      intro vectors added
      cases added
      exact MarkerVectors.addMarker_ordered ordered nonempty
        (keepsOrder _ present)

theorem Sound.keepsOrder_of_inOrder (sound : controller.Sound) {event : MarkerEvent}
    (inOrder : (controller.step event).InOrder) : controller.KeepsOrder event := by
  cases event with
  | removeMarkers removal | updatingMarkersEnabled value => trivial
  | addMarker newMarker nonempty =>
    intro vectors present
    obtain ⟨pairs, rfl, ordered⟩ := sound vectors present
    refine (MarkerVectors.addMarker_inOrder_iff ordered nonempty).1
      (inOrder _ ?_)
    rw [DocumentMarkerController.step, DocumentMarkerController.addMarker,
      if_neg (Nat.ne_of_gt nonempty), present]

end Steps

/-- In every run of `addMarker` and `removeMarkers` on a node the markers stay
in order exactly when no added marker makes the second loop miss one. -/
theorem inOrder_run_iff (events : List MarkerEvent) :
    (∀ reached ∈ Runs.visited step start events, reached.InOrder) ↔
      Runs.StepsMeet step KeepsOrder start events :=
  Runs.visited_iff_stepsMeet_of_invariant
    (fun _ sound => sound.inOrder)
    (fun _ _ sound keepsOrder => sound.step keepsOrder)
    (fun _ _ sound inOrder => sound.keepsOrder_of_inOrder inOrder)
    events sound_start

/-- A marker that covers two neighbours of its type takes over only the first
of them. -/
theorem covered_neighbour_missed : ¬∀ events : List MarkerEvent,
      ∀ reached ∈ Runs.visited step start events, reached.InOrder := by
  intro inOrder
  have reached := inOrder
    [.addMarker ⟨.grammar, 5, 6, [], false⟩ (by decide),
      .addMarker ⟨.grammar, 8, 9, [], false⟩ (by decide),
      .addMarker ⟨.grammar, 4, 10, [], false⟩ (by decide)] _
    (Runs.final_mem_visited _ _)
  have apart := (reached _ rfl).apart
  have covered := (pairwise_cons.1 apart).1 ⟨.grammar, 8, 9, [], false⟩
    (by decide) rfl
  rcases covered with before | behind
  · exact absurd before (by decide)
  · exact absurd behind (by decide)

end DocumentMarkerController

end Editing
end PalmWebKit
