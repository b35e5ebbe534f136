import Mathlib

/-!
# The arguments of a message

Values are written one after the other, each aligned by its offset in the
buffer, and read back, each aligned by its address.  A machine word of the
decoder has `width` bits; the decoder also records the ranges it touches and
the sums it computes, before they are reduced to a word.
-/

namespace PalmWebKit
namespace CoreIPC

/-- The types with a size of their own. -/
inductive Primitive where
  | bool
  | uint16
  | uint32
  | uint64
  | int32
  | int64
  | float
  | double
  deriving DecidableEq

/-- The size of a type is two to this power, and so is its alignment. -/
def Primitive.exponent : Primitive → Nat
  | .bool => 0
  | .uint16 => 1
  | .uint32 => 2
  | .uint64 => 3
  | .int32 => 2
  | .int64 => 3
  | .float => 2
  | .double => 3

/-- `sizeof` -/
def Primitive.size (type : Primitive) : Nat := 2 ^ type.exponent

/-- A value of one of the types that are encoded; a primitive is its bits. -/
inductive Value where
  | primitive (type : Primitive) (bits : BitVec (8 * type.size))
  | fixedLengthData (exponent : Nat) (data : List UInt8)
  | variableLengthByteArray (data : List UInt8)
  deriving DecidableEq

/-- What a read is told. -/
inductive ValueType where
  | primitive (type : Primitive)
  | fixedLengthData (exponent size : Nat)
  | variableLengthByteArray

def Value.type : Value → ValueType
  | .primitive type _ => .primitive type
  | .fixedLengthData exponent data => .fixedLengthData exponent data.length
  | .variableLengthByteArray _ => .variableLengthByteArray

/-- The largest alignment that a read of the type asks for is two to this. -/
def ValueType.exponent : ValueType → Nat
  | .primitive type => type.exponent
  | .fixedLengthData exponent _ => exponent
  | .variableLengthByteArray => Primitive.uint64.exponent

/-! ## The bytes of a number -/

/-- The bytes of a number in memory, the lowest first. -/
def bytesOf : Nat → Nat → List UInt8
  | 0, _ => []
  | count + 1, number => UInt8.ofNat number :: bytesOf count (number / 256)

def numberOf : List UInt8 → Nat
  | [] => 0
  | byte :: bytes => byte.toNat + 256 * numberOf bytes

@[simp] theorem length_bytesOf (count number : Nat) : (bytesOf count number).length = count := by
  induction count generalizing number with
  | zero => rfl
  | succ count ih => rw [bytesOf, List.length_cons, ih]

theorem numberOf_bytesOf (count number : Nat) :
    numberOf (bytesOf count number) = number % 256 ^ count := by
  induction count generalizing number with
  | zero => rw [bytesOf, numberOf, Nat.pow_zero, Nat.mod_one]
  | succ count ih =>
    have byte : (UInt8.ofNat number).toNat = number % 256 := UInt8.toNat_ofNat
    rw [bytesOf, numberOf, ih, byte, Nat.pow_succ', Nat.mod_mul]

/-- The number with the bits of a primitive is read back from its bytes. -/
theorem ofNat_numberOf_bytesOf {size : Nat} (bits : BitVec (8 * size)) :
    BitVec.ofNat (8 * size) (numberOf (bytesOf size bits.toNat)) = bits := by
  have small : bits.toNat < 256 ^ size := by
    have := bits.isLt
    rwa [Nat.pow_mul] at this
  rw [numberOf_bytesOf, Nat.mod_eq_of_lt small, BitVec.ofNat_toNat, BitVec.setWidth_eq]

/-! ## The encoder -/

namespace ArgumentEncoder

/-- The static `roundUpToAlignment` of the encoder. -/
def roundUpToAlignment (value alignment : Nat) : Nat :=
  (value + alignment - 1) / alignment * alignment

/-- `grow` and the copy behind it: the bytes between the last value and the
next one are not written, and `filler` is what stands there. -/
def encodeFixedLengthData (filler : Nat → UInt8) (buffer : List UInt8) (data : List UInt8)
    (alignment : Nat) : List UInt8 :=
  let alignedSize := roundUpToAlignment buffer.length alignment
  buffer ++ (List.range (alignedSize - buffer.length)).map (fun skipped =>
    filler (buffer.length + skipped)) ++ data

/-- `encode` of each primitive type. -/
def encodePrimitive (filler : Nat → UInt8) (buffer : List UInt8) (type : Primitive)
    (bits : BitVec (8 * type.size)) : List UInt8 :=
  encodeFixedLengthData filler buffer (bytesOf type.size bits.toNat) type.size

def encodeVariableLengthByteArray (filler : Nat → UInt8) (buffer : List UInt8)
    (data : List UInt8) : List UInt8 :=
  encodeFixedLengthData filler
    (encodePrimitive filler buffer .uint64
      (BitVec.ofNat (8 * Primitive.uint64.size) data.length)) data 1

def encode (filler : Nat → UInt8) (buffer : List UInt8) : Value → List UInt8
  | .primitive type bits => encodePrimitive filler buffer type bits
  | .fixedLengthData exponent data => encodeFixedLengthData filler buffer data (2 ^ exponent)
  | .variableLengthByteArray data => encodeVariableLengthByteArray filler buffer data

/-- The values one after the other, from an empty buffer. -/
def encodeAll (filler : Nat → UInt8) (values : List Value) : List UInt8 :=
  values.foldl (encode filler) []

end ArgumentEncoder

/-! ## The decoder -/

/-- An `ArgumentDecoder`; pointers are addresses, and `contents` are the bytes
from `buffer` on.  `touched` and `computed` are the record. -/
structure ArgumentDecoder where
  buffer : Nat
  bufferPos : Nat
  bufferEnd : Nat
  contents : List UInt8
  touched : List (Nat × Nat)
  computed : List Nat

namespace ArgumentDecoder

variable (width : Nat)

/-- The static `roundUpToAlignment` of the decoder, on a sum of `width` bits: the
lowest bits of the sum are cleared. -/
def roundUpToAlignment (address exponent : Nat) : Nat :=
  (((address + (2 ^ exponent - 1)) % 2 ^ width) >>> exponent) <<< exponent

/-- `create` with `initialize`, on the block that `malloc` gives. -/
def create (allocatedBase : Nat) (bytes : List UInt8) : ArgumentDecoder :=
  let buffer := roundUpToAlignment width allocatedBase 3
  { buffer := buffer
    bufferPos := buffer
    bufferEnd := (buffer + bytes.length) % 2 ^ width
    contents := bytes
    touched := []
    computed := [bytes.length + 8, allocatedBase + 7, buffer + bytes.length] }

def alignedBufferIsLargeEnoughToContain (alignedPosition bufferEnd size : Nat) : Bool :=
  alignedPosition ≤ bufferEnd && size ≤ bufferEnd - alignedPosition

def markInvalid (decoder : ArgumentDecoder) : ArgumentDecoder :=
  { decoder with
    bufferPos := (decoder.bufferEnd + 1) % 2 ^ width
    computed := decoder.computed ++ [decoder.bufferEnd + 1] }

def isInvalid (decoder : ArgumentDecoder) : Bool := decoder.bufferEnd < decoder.bufferPos

def alignBufferPosition (exponent size : Nat)
    (decoder : ArgumentDecoder) : Bool × ArgumentDecoder :=
  let alignedPosition := roundUpToAlignment width decoder.bufferPos exponent
  let aligning :=
    { decoder with computed := decoder.computed ++ [decoder.bufferPos + (2 ^ exponent - 1)] }
  if alignedBufferIsLargeEnoughToContain alignedPosition decoder.bufferEnd size then
    (true, { aligning with bufferPos := alignedPosition })
  else (false, aligning.markInvalid width)

/-- Copy from the position and move it past what was copied. -/
def take (size : Nat) (decoder : ArgumentDecoder) : List UInt8 × ArgumentDecoder :=
  ((decoder.contents.drop (decoder.bufferPos - decoder.buffer)).take size, { decoder with
      bufferPos := (decoder.bufferPos + size) % 2 ^ width
      touched := decoder.touched ++ [(decoder.bufferPos, size)]
      computed := decoder.computed ++ [decoder.bufferPos + size] })

def decodeFixedLengthData (size exponent : Nat)
    (decoder : ArgumentDecoder) : Option (List UInt8) × ArgumentDecoder :=
  match decoder.alignBufferPosition width exponent size with
  | (false, failed) => (none, failed)
  | (true, aligned) =>
    let taken := aligned.take width size
    (some taken.1, taken.2)

/-- `decodeBool` and the functions of the other primitive types. -/
def decodePrimitive (type : Primitive)
    (decoder : ArgumentDecoder) : Option (BitVec (8 * type.size)) × ArgumentDecoder :=
  let decoded := decoder.decodeFixedLengthData width type.size type.exponent
  (decoded.1.map fun bytes => BitVec.ofNat (8 * type.size) (numberOf bytes), decoded.2)

/-- The length is cut to a word of the machine where it becomes a `size_t`. -/
def decodeVariableLengthByteArray
    (decoder : ArgumentDecoder) : Option (List UInt8) × ArgumentDecoder :=
  match decoder.decodePrimitive width .uint64 with
  | (none, failed) => (none, failed)
  | (some size, counted) =>
    let converted := { counted with computed := counted.computed ++ [size.toNat] }
    converted.decodeFixedLengthData width (size.toNat % 2 ^ width) 0

/-- Read one value. -/
def read (decoder : ArgumentDecoder) : ValueType → Option Value × ArgumentDecoder
  | .primitive type =>
    let decoded := decoder.decodePrimitive width type
    (decoded.1.map (.primitive type), decoded.2)
  | .fixedLengthData exponent size =>
    let decoded := decoder.decodeFixedLengthData width size exponent
    (decoded.1.map (.fixedLengthData exponent), decoded.2)
  | .variableLengthByteArray =>
    let decoded := decoder.decodeVariableLengthByteArray width
    (decoded.1.map .variableLengthByteArray, decoded.2)

/-- Read values one after the other. -/
def readAll (decoder : ArgumentDecoder) : List ValueType → List (Option Value) × ArgumentDecoder
  | [] => ([], decoder)
  | type :: types =>
    let first := decoder.read width type
    let rest := readAll first.2 types
    (first.1 :: rest.1, rest.2)

end ArgumentDecoder
end CoreIPC
end PalmWebKit
