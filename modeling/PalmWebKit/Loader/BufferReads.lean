import PalmWebKit.Loader.BufferBytes

/-!
# Reading a shared buffer

`data()`, `buffer()` and successive calls of `getSomeData` all give the content.
-/

namespace PalmWebKit
namespace Loader
namespace SharedBuffer

open List

variable {shared : SharedBuffer} {content : List Byte}

/-! ## Merging -/

theorem gather_eq (bytesLeft : Nat) (segments : List Segment) :
    gather bytesLeft segments = (segmentBytes segments).take bytesLeft := by
  induction segments generalizing bytesLeft with
  | nil => rw [gather, segmentBytes_nil, take_nil]
  | cons segment segments ih =>
    rw [gather, segmentBytes_cons, take_append, ih, segment.2]
    by_cases within : bytesLeft ≤ segmentSize
    · rw [Nat.min_eq_left within, Nat.sub_self, Nat.sub_eq_zero_of_le within]
    · rw [Nat.min_eq_right (not_le.1 within).le, take_of_length_le segment.2.le,
        take_of_length_le (segment.2.trans_le (not_le.1 within).le)]

namespace Holds

variable (holds : Holds shared content)
include holds

theorem bufferSize_eq :
    shared.buffer.length % unsignedRange = shared.buffer.length :=
  Nat.mod_eq_of_lt (holds.bufferLe.trans_lt holds.small)

/-- The vector is all of the content when it is as long. -/
theorem buffer_eq (whole : content.length ≤ shared.buffer.length) : shared.buffer = content := by
  obtain ⟨rest, same, -⟩ := holds.bytes
  have prefixes := congrArg (List.take content.length) same
  rw [take_left, take_append_of_le_length whole,
    take_of_length_le holds.bufferLe] at prefixes
  exact prefixes

theorem merge_eq (grown : Nat → Byte) :
    shared.merge grown = ⟨content.length, content, []⟩ ∨
      shared.merge grown = shared ∧ shared.buffer = content := by
  rw [merge, holds.bufferSize_eq, holds.size]
  by_cases merges : content.length > shared.buffer.length
  · rw [if_pos merges]
    left
    obtain ⟨rest, same, short⟩ := holds.bytes
    have bufferLe := holds.bufferLe
    have lengths := congrArg List.length same
    have gathered : shared.buffer ++
        gather (content.length - shared.buffer.length) shared.segments = content := by
      have prefixes := congrArg (List.take content.length) same
      rw [take_left, take_append, take_of_length_le bufferLe] at prefixes
      rw [gather_eq, prefixes]
    have gatheredLength := congrArg List.length gathered
    rw [length_append] at gatheredLength
    dsimp only
    rw [take_take, Nat.min_eq_left bufferLe, take_left, gathered,
      drop_eq_nil_of_le, append_nil]
    rw [gatheredLength, length_take]
    exact min_le_left _ _
  · rw [if_neg merges]
    exact .inr ⟨rfl, holds.buffer_eq (not_lt.1 merges)⟩

theorem buffer_merge (grown : Nat → Byte) : (shared.merge grown).buffer = content := by
  rcases holds.merge_eq grown with merged | ⟨same, whole⟩
  · rw [merged]
  · rw [same, whole]

end Holds

namespace Denotes

theorem merge (denotes : Denotes shared content)
    (grown : Nat → Byte) : Denotes (shared.merge grown) content := by
  rcases denotes.merge_eq grown with merged | ⟨same, -⟩
  · rw [merged]
    exact denotes_of_no_segments denotes.small
  · rw [same]
    exact denotes

/-! ## Reading in pieces -/

/-- A call of `getSomeData` gives some of the bytes behind the position. -/
theorem getSomeData {position : Nat} (denotes : Denotes shared content)
    (inside : position < content.length) :
    ∃ bytes length, shared.getSomeData position = (bytes, length) ∧ 0 < length ∧
      length ≤ bytes.length ∧ position + length ≤ content.length ∧
      bytes.take length = (content.drop position).take length := by
  have bufferLe := denotes.bufferLe
  obtain ⟨rest, same, short⟩ := denotes.bytes
  have lengths := congrArg List.length same
  simp only [length_append, length_segmentBytes] at lengths
  rw [SharedBuffer.getSomeData, denotes.bufferSize_eq, denotes.size, if_neg (not_le.2 inside)]
  by_cases inBuffer : position < shared.buffer.length
  · rw [if_pos inBuffer]
    refine ⟨_, _, rfl, by omega, by rw [length_drop], by omega, ?_⟩
    have behind := congrArg (fun bytes => (bytes.drop position).take
      (shared.buffer.length - position)) same
    rw [drop_append_of_le_length inBuffer.le, drop_append_of_le_length inside.le,
      take_append_of_le_length (by rw [length_drop]),
      take_append_of_le_length (by rw [length_drop]; omega)] at behind
    exact behind
  · rw [if_neg inBuffer]
    dsimp only
    have inSegments : segmentIndex (position - shared.buffer.length) <
        shared.segments.length := by
      rw [segmentIndex, Nat.div_lt_iff_lt_mul (by decide)]
      simp only [segmentSize] at lengths short ⊢
      omega
    have found := getElem?_eq_getElem inSegments
    have tail := drop_segmentBytes found
    rw [found]
    have few := denotes.few
    have offsetLt := offsetInSegment_lt (position - shared.buffer.length)
    have segmentLength := (shared.segments[segmentIndex (position - shared.buffer.length)]).2
    have behind := congrArg (List.drop position) same
    rw [drop_append, drop_eq_nil_of_le (not_lt.1 inBuffer), nil_append, tail,
      drop_append_of_le_length inside.le] at behind
    have division := Nat.div_add_mod (position - shared.buffer.length) segmentSize
    rw [← segmentIndex, ← offsetInSegment_eq] at division
    have piece : ∀ length, 0 < length →
        length ≤ segmentSize - offsetInSegment (position - shared.buffer.length) →
        position + length ≤ content.length →
        0 < length ∧ length ≤ ((shared.segments[segmentIndex
            (position - shared.buffer.length)]).1.drop
              (offsetInSegment (position - shared.buffer.length))).length ∧
          position + length ≤ content.length ∧
          ((shared.segments[segmentIndex (position - shared.buffer.length)]).1.drop
            (offsetInSegment (position - shared.buffer.length))).take length =
              (content.drop position).take length := by
      intro length some_length atMost within
      have available : length ≤ ((shared.segments[segmentIndex
          (position - shared.buffer.length)]).1.drop
            (offsetInSegment (position - shared.buffer.length))).length := by
        rwa [length_drop, segmentLength]
      refine ⟨some_length, available, within, ?_⟩
      have pieces := congrArg (List.take length) behind
      rwa [take_append_of_le_length available, take_append_of_le_length
        (by rw [length_drop]; omega)] at pieces
    refine ⟨_, _, rfl, ?_⟩
    rw [Nat.mod_eq_of_lt (by rwa [Nat.mul_comm])]
    by_cases isLast : segmentIndex (position - shared.buffer.length) = shared.segments.length - 1
    · rw [if_pos isLast]
      have used : min (shared.segments.length * segmentSize)
          (content.length - shared.buffer.length) =
          content.length - shared.buffer.length := by
        rw [Nat.mul_comm]
        omega
      rw [unsignedSub_of_le (by omega) (by omega)]
      apply piece
      · omega
      · rw [isLast] at division
        simp only [segmentSize] at division lengths short offsetLt ⊢
        omega
      · omega
    · rw [if_neg isLast]
      apply piece
      · omega
      · exact le_rfl
      · simp only [segmentSize] at division lengths short offsetLt ⊢
        omega

theorem readFrom {calls position : Nat} (denotes : Denotes shared content)
    (atMost : position ≤ content.length) (enough : content.length - position < calls) :
    shared.readFrom calls position = some (content.drop position) := by
  induction calls generalizing position with
  | zero => omega
  | succ calls ih =>
    rw [SharedBuffer.readFrom]
    rcases atMost.lt_or_eq with inside | isEnd
    · obtain ⟨bytes, length, same, some_length, available, within, piece⟩ :=
        denotes.getSomeData inside
      rw [same]
      dsimp only
      rw [if_neg some_length.ne', if_neg (not_lt.2 available), Nat.mod_eq_of_lt
        (within.trans_lt denotes.small), ih within (by omega),
        Option.map_some, piece, ← drop_drop, take_append_drop]
    · have ended : shared.getSomeData position = ([], 0) := by
        rw [SharedBuffer.getSomeData, if_pos (by rw [denotes.size, isEnd])]
      rw [ended, isEnd, drop_length]
      rfl

end Denotes

/-- All ways of reading the buffer give this content. -/
structure Reads (shared : SharedBuffer) (content : List Byte) : Prop where
  size : shared.size = content.length
  data : ∀ grown, shared.data grown = content
  buffer : ∀ grown, (shared.merge grown).buffer = content
  someData : shared.readFrom (content.length + 1) 0 = some content

theorem Denotes.reads (denotes : Denotes shared content) : Reads shared content where
  size := denotes.size
  data grown := by rw [SharedBuffer.data, denotes.buffer_merge, denotes.size, take_length]
  buffer := denotes.buffer_merge
  someData := denotes.readFrom (Nat.zero_le _) (by omega)

end SharedBuffer

end Loader
end PalmWebKit
