import PalmWebKit.Logic.Runs

/-!
# Shared buffers

A `SharedBuffer` keeps its bytes in a vector and behind it in segments of one
size, of which the last one may be used in part.  Memory that is allocated or
grown has any contents, which are arguments.
-/

namespace PalmWebKit
namespace Loader

abbrev Byte := UInt8

def segmentSize : Nat := 0x1000

def segmentPositionMask : Nat := 0x0FFF

/-- The values of `unsigned`. -/
def unsignedRange : Nat := 2 ^ 32

/-- The difference of two values of `unsigned`. -/
def unsignedSub (left right : Nat) : Nat :=
  (left + (unsignedRange - right % unsignedRange)) % unsignedRange

def segmentIndex (position : Nat) : Nat := position / segmentSize

def offsetInSegment (position : Nat) : Nat := position &&& segmentPositionMask

theorem offsetInSegment_eq (position : Nat) :
    offsetInSegment position = position % segmentSize := Nat.and_two_pow_sub_one_eq_mod position 12

theorem offsetInSegment_lt (position : Nat) : offsetInSegment position < segmentSize := by
  rw [offsetInSegment_eq]
  exact Nat.mod_lt position (by decide)

/-- What `allocateSegment` returns a pointer to. -/
abbrev Segment := { bytes : List Byte // bytes.length = segmentSize }

/-- `memcpy` into a segment. -/
def Segment.write (segment : Segment) (position : Nat) (data : List Byte)
    (fits : position + data.length ≤ segmentSize) : Segment :=
  ⟨segment.1.take position ++ data ++ segment.1.drop (position + data.length), by
    have length := segment.2
    simp only [List.length_append, List.length_take, List.length_drop]
    omega⟩

/-- The bytes of some segments, one behind the other. -/
def segmentBytes (segments : List Segment) : List Byte := segments.flatMap (·.1)

/-- The arguments `data` and `length` of a call. -/
abbrev Data := { bytes : List Byte // bytes.length < unsignedRange }

structure SharedBuffer where
  size : Nat
  buffer : List Byte
  segments : List Segment

namespace SharedBuffer

def empty : SharedBuffer := ⟨0, [], []⟩

/-- The loop of `append`, from the segment to which it copies first. -/
def copyLoop (fresh : Nat → Segment) (segment : Segment) (position : Fin segmentSize)
    (data : List Byte) : List Segment :=
  let bytesToCopy := min data.length (segmentSize - position)
  let written := segment.write position (data.take bytesToCopy) (by
    rw [List.length_take]
    omega)
  if data.length = bytesToCopy then
    [written]
  else
    written :: copyLoop (fun index => fresh (index + 1)) (fresh 0) ⟨0, by decide⟩
      (data.drop bytesToCopy)
termination_by data.length
decreasing_by
  rw [List.length_drop]
  omega

/-- `none` is the access to the last segment where there is none. -/
def append (shared : SharedBuffer) (data : Data) (fresh : Nat → Segment) : Option SharedBuffer :=
  if data.1.length = 0 then
    some shared
  else
    let difference := unsignedSub shared.size shared.buffer.length
    let positionInSegment : Fin segmentSize :=
      ⟨offsetInSegment difference, offsetInSegment_lt difference⟩
    let size := (shared.size + data.1.length) % unsignedRange
    if size ≤ segmentSize then
      some { shared with size := size, buffer := shared.buffer ++ data.1 }
    else if positionInSegment.1 = 0 then
      some { shared with
        size := size
        segments := shared.segments ++
          copyLoop (fun index => fresh (index + 1)) (fresh 0) positionInSegment data.1 }
    else
      match shared.segments.getLast? with
      | none => none
      | some segment => some { shared with
          size := size
          segments := shared.segments.dropLast ++ copyLoop fresh segment positionInSegment data.1 }

def clear (_ : SharedBuffer) : SharedBuffer := empty

/-- The whole of each segment is appended. -/
def copy (shared : SharedBuffer) : SharedBuffer where
  size := shared.size
  buffer := shared.buffer ++ segmentBytes shared.segments
  segments := []

/-- The loop of `buffer`: what it copies out of the segments. -/
def gather : Nat → List Segment → List Byte
  | _, [] => []
  | bytesLeft, segment :: segments =>
    let bytesToCopy := min bytesLeft segmentSize
    segment.1.take bytesToCopy ++ gather (bytesLeft - bytesToCopy) segments

/-- `buffer()` merges the segments; the vector that it returns is `buffer`. -/
def merge (shared : SharedBuffer) (grown : Nat → Byte) : SharedBuffer :=
  let bufferSize := shared.buffer.length % unsignedRange
  if shared.size > bufferSize then
    let resized := (shared.buffer ++
      (List.range (shared.size - shared.buffer.length)).map grown).take shared.size
    let bytes := gather (shared.size - bufferSize) shared.segments
    { shared with
      buffer := resized.take bufferSize ++ bytes ++ resized.drop (bufferSize + bytes.length)
      segments := [] }
  else
    shared

/-- The bytes that `data()` points to, as many as `size()` says. -/
def data (shared : SharedBuffer) (grown : Nat → Byte) : List Byte :=
  (shared.merge grown).buffer.take shared.size

/-- The pointer that `getSomeData` sets, as the bytes behind it, and the length
that it returns. -/
def getSomeData (shared : SharedBuffer) (position : Nat) : List Byte × Nat :=
  let totalSize := shared.size
  if position ≥ totalSize then
    ([], 0)
  else
    let consecutiveSize := shared.buffer.length % unsignedRange
    if position < consecutiveSize then
      (shared.buffer.drop position, consecutiveSize - position)
    else
      let position := position - consecutiveSize
      let segments := shared.segments.length
      let maxSegmentedSize := segments * segmentSize % unsignedRange
      let segment := segmentIndex position
      match shared.segments[segment]? with
      | none => ([], 0)
      | some found =>
        let bytesLeft := totalSize - consecutiveSize
        let segmentedSize := min maxSegmentedSize bytesLeft
        let positionInSegment := offsetInSegment position
        (found.1.drop positionInSegment,
          if segment = segments - 1 then unsignedSub segmentedSize position
          else segmentSize - positionInSegment)

/-- What a caller collects that calls `getSomeData` until it returns zero: `none`
when it reads behind the memory that it gets or makes more than some calls. -/
def readFrom (shared : SharedBuffer) : Nat → Nat → Option (List Byte)
  | 0, _ => none
  | calls + 1, position =>
    let (bytes, length) := shared.getSomeData position
    if length = 0 then
      some []
    else if bytes.length < length then
      none
    else
      (shared.readFrom calls ((position + length) % unsignedRange)).map
        (bytes.take length ++ ·)

end SharedBuffer

end Loader
end PalmWebKit
