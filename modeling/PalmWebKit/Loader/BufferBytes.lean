import PalmWebKit.Loader.SharedBuffer

/-!
# The bytes of a shared buffer

What the vector and the segments hold together is the content and, behind it, the
unused part of the last segment.  Every operation but `copy` keeps that.
-/

namespace PalmWebKit
namespace Loader

open List

variable {position : Nat}

theorem Segment.write_val {segment : Segment} {data : List Byte}
    (fits : position + data.length ≤ segmentSize) : (segment.write position data fits).1 =
      segment.1.take position ++ data ++ segment.1.drop (position + data.length) := rfl

@[simp] theorem segmentBytes_nil : segmentBytes [] = [] := rfl

@[simp] theorem segmentBytes_cons (segment : Segment) (segments : List Segment) :
    segmentBytes (segment :: segments) = segment.1 ++ segmentBytes segments := rfl

@[simp] theorem segmentBytes_append (first second : List Segment) :
    segmentBytes (first ++ second) = segmentBytes first ++ segmentBytes second :=
  flatMap_append

@[simp] theorem length_segmentBytes (segments : List Segment) :
    (segmentBytes segments).length = segmentSize * segments.length := by
  induction segments with
  | nil => rfl
  | cons segment segments ih =>
    rw [segmentBytes_cons, length_append, ih, segment.2, length_cons]
    ring

theorem segmentIndex_of_lt (inFirst : position < segmentSize) : segmentIndex position = 0 := by
  exact Nat.div_eq_of_lt inFirst

theorem segmentIndex_of_le (isLater : segmentSize ≤ position) :
    segmentIndex position = segmentIndex (position - segmentSize) + 1 := by
  exact Nat.div_eq_sub_div (by decide) isLater

/-- The bytes behind a position begin in the segment with its index. -/
theorem drop_segmentBytes {segments : List Segment} {segment : Segment}
    (found : segments[segmentIndex position]? = some segment) :
    (segmentBytes segments).drop position = segment.1.drop (offsetInSegment position) ++
        segmentBytes (segments.drop (segmentIndex position + 1)) := by
  rw [offsetInSegment_eq]
  induction segments generalizing position with
  | nil => cases found
  | cons first segments ih =>
    rw [segmentBytes_cons]
    by_cases inFirst : position < segmentSize
    · rw [segmentIndex_of_lt inFirst] at found ⊢
      cases found
      rw [Nat.mod_eq_of_lt inFirst, drop_append_of_le_length (segment.2.symm ▸ inFirst.le),
        drop_succ_cons, drop_zero]
    · rw [segmentIndex_of_le (not_lt.1 inFirst)] at found ⊢
      rw [getElem?_cons_succ] at found
      rw [drop_append, first.2, drop_eq_nil_of_le (first.2.symm ▸ not_lt.1 inFirst),
        nil_append, ih found, Nat.mod_eq_sub_mod (not_lt.1 inFirst), drop_succ_cons]

theorem unsignedSub_of_le {left right : Nat} (atMost : right ≤ left)
    (small : left < unsignedRange) : unsignedSub left right = left - right := by
  rw [unsignedSub, Nat.mod_eq_of_lt (atMost.trans_lt small)]
  have enough : left + (unsignedRange - right) = left - right + unsignedRange := by omega
  rw [enough, Nat.add_mod_right, Nat.mod_eq_of_lt (by omega)]

namespace SharedBuffer

variable {shared : SharedBuffer} {content : List Byte}

/-- The buffer has this content.  Behind it there may be less than a segment. -/
structure Holds (shared : SharedBuffer) (content : List Byte) : Prop where
  size : shared.size = content.length
  small : content.length < unsignedRange
  bufferLe : shared.buffer.length ≤ content.length
  bytes : ∃ rest, shared.buffer ++ segmentBytes shared.segments = content ++ rest ∧
    rest.length < segmentSize
  large : shared.segments ≠ [] → segmentSize < content.length

/-- The bytes of the segments can be counted, too. -/
structure Denotes (shared : SharedBuffer) (content : List Byte) : Prop extends
    Holds shared content where
  few : segmentSize * shared.segments.length < unsignedRange

theorem denotes_empty : Denotes empty [] where
  size := rfl
  small := by decide
  bufferLe := le_rfl
  bytes := ⟨[], rfl, by decide⟩
  large := fun some_segment => absurd rfl some_segment
  few := by decide

/-- A vector that is all of the buffer. -/
theorem denotes_of_no_segments (small : content.length < unsignedRange) :
    Denotes ⟨content.length, content, []⟩ content where
  size := rfl
  small := small
  bufferLe := le_rfl
  bytes := ⟨[], rfl, by decide⟩
  large := fun some_segment => absurd rfl some_segment
  few := by
    rw [length_nil]
    decide

namespace Holds

theorem length_bytes (holds : Holds shared content) : ∃ rest, rest < segmentSize ∧
      shared.buffer.length + segmentSize * shared.segments.length = content.length + rest := by
  obtain ⟨rest, same, short⟩ := holds.bytes
  refine ⟨rest.length, short, ?_⟩
  have lengths := congrArg List.length same
  rwa [length_append, length_append, length_segmentBytes] at lengths

theorem buffer_eq_of_no_segments (holds : Holds shared content)
    (noSegments : shared.segments = []) : shared.buffer = content := by
  obtain ⟨rest, same, -⟩ := holds.bytes
  rw [noSegments, segmentBytes_nil, append_nil] at same
  have short := holds.bufferLe
  rw [same, length_append] at short
  have nothing : rest = [] := eq_nil_of_length_eq_zero (by omega)
  rw [same, nothing, append_nil]

end Holds

/-! ## Appending -/

/-- The loop leaves the bytes before the position and puts the data behind
them. -/
theorem segmentBytes_copyLoop (fresh : Nat → Segment) (segment : Segment)
    (position : Fin segmentSize) {data : List Byte} (some_data : data ≠ []) :
    ∃ rest, segmentBytes (copyLoop fresh segment position data) =
        segment.1.take position ++ data ++ rest ∧ rest.length < segmentSize := by
  have before := position.2
  have room := segment.2
  have length_pos : 0 < data.length := length_pos_iff.2 some_data
  induction size : data.length using Nat.strongRecOn generalizing fresh segment position data
  with
  | ind size ih =>
    rw [copyLoop]
    by_cases isLast : data.length = min data.length (segmentSize - position)
    · rw [if_pos isLast, segmentBytes_cons, segmentBytes_nil, append_nil,
        Segment.write_val, ← isLast, take_length]
      refine ⟨_, rfl, ?_⟩
      rw [length_drop]
      omega
    · rw [if_neg isLast, segmentBytes_cons]
      have copied : min data.length (segmentSize - position) = segmentSize - position := by omega
      rw [Segment.write_val, copied]
      have later : data.drop (segmentSize - position) ≠ [] := by
        rw [← length_pos_iff, length_drop]
        omega
      obtain ⟨rest, same, short⟩ := ih
        (data.drop (segmentSize - position)).length
        (by rw [length_drop]; omega) (fun index => fresh (index + 1)) (fresh 0)
        ⟨0, by decide⟩ later (by decide) (fresh 0).2 (length_pos_iff.2 later) rfl
      refine ⟨rest, ?_, short⟩
      rw [same, take_zero, nil_append]
      have filled : segment.1.drop
          (position + (data.take (segmentSize - position)).length) = [] := by
        apply drop_eq_nil_of_le
        rw [length_take]
        omega
      rw [filled, append_nil, append_assoc, ← append_assoc (data.take _),
        take_append_drop, append_assoc]

/-- The sizes after an append are values of `unsigned`, the bytes of the segments
together included. -/
def AppendFits (shared : SharedBuffer) (data : Data) : Prop :=
  data.1.length = 0 ∨ shared.size + data.1.length < unsignedRange ∧
      shared.size - shared.buffer.length + data.1.length + segmentSize ≤ unsignedRange

namespace Holds

variable {data : Data} {fresh : Nat → Segment}

variable (holds : Holds shared content)
include holds

theorem positionInSegment :
    offsetInSegment (unsignedSub shared.size shared.buffer.length) =
      (content.length - shared.buffer.length) % segmentSize := by
  have small := holds.small
  have bufferLe := holds.bufferLe
  rw [offsetInSegment_eq, holds.size, unsignedSub_of_le bufferLe small]

/-- Segments that were filled with the data. -/
theorem grow {segments : List Segment} {rest : List Byte}
    (small : content.length + data.1.length < unsignedRange)
    (large : segmentSize < content.length + data.1.length)
    (same : shared.buffer ++ segmentBytes segments = content ++ data.1 ++ rest)
    (short : rest.length < segmentSize) :
    Holds ⟨content.length + data.1.length, shared.buffer, segments⟩ (content ++ data.1) where
  size := length_append.symm
  small := by rwa [length_append]
  bufferLe := holds.bufferLe.trans (by rw [length_append]; omega)
  bytes := ⟨rest, same, short⟩
  large := fun _ => by rwa [length_append]

/-- The bytes before the position at which the last segment is used in part. -/
theorem bytes_before_position {earlier : List Segment} {last : Segment}
    (split : shared.segments = earlier ++ [last])
    (partly : (content.length - shared.buffer.length) % segmentSize ≠ 0) :
    shared.buffer ++ segmentBytes earlier ++
      last.1.take ((content.length - shared.buffer.length) % segmentSize) = content := by
  obtain ⟨rest, same, short⟩ := holds.bytes
  have lengths := congrArg List.length same
  have lastLength := last.2
  rw [split, segmentBytes_append, segmentBytes_cons, segmentBytes_nil, append_nil,
    ← append_assoc] at same
  simp only [length_append, length_segmentBytes, split, length_cons,
    length_nil] at lengths
  have content_length : content.length = (shared.buffer ++ segmentBytes earlier).length +
        (content.length - shared.buffer.length) % segmentSize := by
    rw [length_append, length_segmentBytes]
    simp only [segmentSize] at lengths short partly lastLength ⊢
    omega
  have prefixes := congrArg (List.take content.length) same
  rw [take_left] at prefixes
  conv at prefixes => lhs; rw [content_length]
  rwa [take_length_add_append] at prefixes

/-- The segments of a larger buffer can be counted, if their bytes can. -/
theorem few_iff {segments : List Segment}
    (after : Holds ⟨content.length + data.1.length, shared.buffer, segments⟩
      (content ++ data.1)) : segmentSize * segments.length < unsignedRange ↔
      content.length - shared.buffer.length + data.1.length + segmentSize ≤
        unsignedRange := by
  obtain ⟨rest, short, lengths⟩ := after.length_bytes
  have bufferLe := holds.bufferLe
  simp only [length_append, segmentSize, unsignedRange] at lengths short ⊢
  omega

omit holds

/-- An append puts the data behind the content. -/
theorem append (holds : Holds shared content) (some_data : data.1 ≠ [])
    (small : content.length + data.1.length < unsignedRange) :
    ∃ after, shared.append data fresh = some after ∧ Holds after (content ++ data.1) ∧
      (segmentSize * after.segments.length < unsignedRange ↔
        content.length - shared.buffer.length + data.1.length + segmentSize ≤
          unsignedRange) := by
  rw [SharedBuffer.append, if_neg (mt eq_nil_of_length_eq_zero some_data)]
  simp only [holds.positionInSegment]
  simp only [holds.size, Nat.mod_eq_of_lt small]
  by_cases isSmall : content.length + data.1.length ≤ segmentSize
  · rw [if_pos isSmall]
    have noSegments : shared.segments = [] := by
      by_contra some_segment
      exact absurd (holds.large some_segment) (by omega)
    have whole := holds.buffer_eq_of_no_segments noSegments
    refine ⟨_, rfl, ?_, ?_⟩
    · rw [noSegments, whole, ← length_append]
      exact (denotes_of_no_segments (by rwa [length_append])).toHolds
    · rw [noSegments, length_nil]
      simp only [segmentSize, unsignedRange] at isSmall ⊢
      omega
  · rw [if_neg isSmall]
    have grown : ∀ segments rest,
        shared.buffer ++ segmentBytes segments = content ++ data.1 ++ rest →
        rest.length < segmentSize →
        Holds ⟨content.length + data.1.length, shared.buffer, segments⟩
          (content ++ data.1) ∧ (segmentSize * segments.length < unsignedRange ↔
            content.length - shared.buffer.length + data.1.length + segmentSize ≤
              unsignedRange) := by
      intro segments rest same short
      have after := holds.grow small (not_le.1 isSmall) same short
      exact ⟨after, holds.few_iff after⟩
    by_cases isFull : (content.length - shared.buffer.length) % segmentSize = 0
    · rw [if_pos isFull]
      obtain ⟨rest, same, short⟩ := holds.bytes
      have lengths := congrArg List.length same
      have bufferLe := holds.bufferLe
      simp only [length_append, length_segmentBytes] at lengths
      have full : rest = [] := by
        apply eq_nil_of_length_eq_zero
        simp only [segmentSize] at lengths short isFull
        omega
      obtain ⟨unused, copied, unusedShort⟩ := segmentBytes_copyLoop
        (fun index => fresh (index + 1)) (fresh 0)
        ⟨(content.length - shared.buffer.length) % segmentSize, Nat.mod_lt _ (by decide)⟩
        some_data
      refine ⟨_, rfl, grown _ unused ?_ unusedShort⟩
      rw [segmentBytes_append, copied, ← append_assoc, same, full]
      simp only [isFull, take_zero, nil_append, append_nil, append_assoc]
    · rw [if_neg isFull]
      cases last : shared.segments.getLast? with
      | none =>
        have noSegments := getLast?_eq_none_iff.1 last
        rw [holds.buffer_eq_of_no_segments noSegments, Nat.sub_self] at isFull
        exact absurd rfl isFull
      | some segment =>
        obtain ⟨earlier, split⟩ := getLast?_eq_some_iff.1 last
        obtain ⟨unused, copied, unusedShort⟩ := segmentBytes_copyLoop fresh segment
          ⟨(content.length - shared.buffer.length) % segmentSize,
            Nat.mod_lt _ (by decide)⟩ some_data
        refine ⟨_, rfl, grown _ unused ?_ unusedShort⟩
        rw [segmentBytes_append, copied, split, dropLast_concat, ← append_assoc, ←
          append_assoc, ← append_assoc, holds.bytes_before_position split isFull]

end Holds

/-- An append that fits puts the data behind the content. -/
theorem Denotes.append {data : Data} {fresh : Nat → Segment} (denotes : Denotes shared content)
    (fits : AppendFits shared data) :
    ∃ after, shared.append data fresh = some after ∧ Denotes after (content ++ data.1) := by
  by_cases nothing : data.1.length = 0
  · rw [SharedBuffer.append, if_pos nothing, eq_nil_of_length_eq_zero nothing, append_nil]
    exact ⟨shared, rfl, denotes⟩
  · obtain ⟨small, roomy⟩ := fits.resolve_left nothing
    rw [denotes.size] at small roomy
    obtain ⟨after, appended, holds, few_iff⟩ := @Holds.append _ _ data fresh
      denotes.toHolds (fun isNil => nothing (by rw [isNil]; rfl)) small
    exact ⟨after, appended, holds, few_iff.2 roomy⟩

end SharedBuffer

end Loader
end PalmWebKit
