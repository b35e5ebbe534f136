import PalmWebKit.CoreIPC.DecoderSafety

/-!
# Reading back what was encoded

A decoder whose buffer is aligned for the values reads the values that were
encoded and ends at the end of the buffer.
-/

namespace PalmWebKit
namespace CoreIPC

open List ArgumentDecoder

/-- The largest alignment that the value asks for is two to this. -/
def Value.exponent (value : Value) : Nat := value.type.exponent

namespace ArgumentEncoder

variable (filler : Nat → UInt8)

/-- Some bytes are put behind those that are there, at the next offset that is a
multiple of the alignment. -/
theorem encodeFixedLengthData_eq (buffer data : List UInt8)
    (exponent : Nat) : ∃ padding : List UInt8,
      encodeFixedLengthData filler buffer data (2 ^ exponent) = buffer ++ padding ++ data ∧
        buffer.length + padding.length = alignedPosition buffer.length exponent := by
  have sameSize : roundUpToAlignment buffer.length (2 ^ exponent) =
      alignedPosition buffer.length exponent := by
    have positive := Nat.two_pow_pos exponent
    rw [roundUpToAlignment, alignedPosition, Nat.add_sub_assoc positive]
  refine ⟨_, rfl, ?_⟩
  have forward := le_alignedPosition buffer.length exponent
  rw [length_map, length_range]
  omega

theorem prefix_encodeFixedLengthData (buffer data : List UInt8)
    (exponent : Nat) : buffer <+: encodeFixedLengthData filler buffer data (2 ^ exponent) := by
  obtain ⟨padding, encoded, _⟩ := encodeFixedLengthData_eq filler buffer data exponent
  rw [encoded, append_assoc]
  exact prefix_append _ _

theorem prefix_encode (buffer : List UInt8) (value : Value) :
    buffer <+: encode filler buffer value := by
  cases value with
  | primitive type bits => exact prefix_encodeFixedLengthData filler buffer _ type.exponent
  | fixedLengthData exponent data => exact prefix_encodeFixedLengthData filler buffer data exponent
  | variableLengthByteArray data =>
    exact (prefix_encodeFixedLengthData filler buffer _ Primitive.uint64.exponent).trans
      (prefix_encodeFixedLengthData filler _ data 0)

theorem prefix_foldl_encode (buffer : List UInt8) (values : List Value) :
    buffer <+: values.foldl (encode filler) buffer := by
  induction values generalizing buffer with
  | nil => exact prefix_rfl
  | cons value values ih => exact (prefix_encode filler buffer value).trans (ih _)

end ArgumentEncoder

open ArgumentEncoder

/-- The decoder has read a beginning of its buffer. -/
structure HasRead (decoder : ArgumentDecoder) (front : List UInt8) : Prop where
  bufferEnd_eq : decoder.bufferEnd = decoder.buffer + decoder.contents.length
  isPrefix : front <+: decoder.contents
  bufferPos_eq : decoder.bufferPos = decoder.buffer + front.length

variable {decoder : ArgumentDecoder} {front : List UInt8}

theorem HasRead.placed (hasRead : HasRead decoder front) : Placed decoder where
  bufferEnd_eq := hasRead.bufferEnd_eq
  buffer_le := by
    rw [hasRead.bufferPos_eq]
    exact Nat.le_add_right _ _
  bufferPos_le := by
    have := hasRead.isPrefix.length_le
    rw [hasRead.bufferPos_eq, hasRead.bufferEnd_eq]
    omega

/-- In an aligned buffer addresses and offsets are aligned together. -/
theorem alignedPosition_add {buffer offset exponent : Nat} (aligned : 2 ^ exponent ∣ buffer) :
    alignedPosition (buffer + offset) exponent =
      buffer + alignedPosition offset exponent := by
  obtain ⟨quotient, rfl⟩ := aligned
  have positive := Nat.two_pow_pos exponent
  rw [alignedPosition, alignedPosition, Nat.add_assoc, Nat.mul_add_div positive, Nat.add_mul,
    Nat.mul_comm quotient]

/-- Bytes that were encoded next are read next. -/
theorem decodeFixedLengthData_encoded {width exponent : Nat} {filler : Nat → UInt8}
    {decoder : ArgumentDecoder} {front data : List UInt8} (hasRead : HasRead decoder front)
    (room : Room width exponent decoder) (aligned : 2 ^ exponent ∣ decoder.buffer)
    (encoded : encodeFixedLengthData filler front data (2 ^ exponent) <+: decoder.contents) :
    (decoder.decodeFixedLengthData width data.length exponent).1 = some data ∧
      HasRead (decoder.decodeFixedLengthData width data.length exponent).2
        (encodeFixedLengthData filler front data (2 ^ exponent)) ∧
      SameBuffer decoder (decoder.decodeFixedLengthData width data.length exponent).2 := by
  have outcome :=
    @decodeFixedLengthData_outcome width data.length exponent decoder hasRead.placed room
  obtain ⟨padding, encodedEq, sizeEq⟩ := encodeFixedLengthData_eq filler front data exponent
  rw [encodedEq] at encoded ⊢
  have position : alignedPosition decoder.bufferPos exponent =
      decoder.buffer + (front ++ padding).length := by
    rw [hasRead.bufferPos_eq, alignedPosition_add aligned, ← sizeEq, length_append]
  have long := encoded.length_le
  rw [length_append] at long
  generalize decoder.decodeFixedLengthData width data.length exponent = decoded at outcome
  obtain ⟨result, after⟩ := decoded
  cases outcome with
  | taken enough =>
    refine ⟨?_, ⟨hasRead.bufferEnd_eq, encoded, ?_⟩, ⟨rfl, rfl, rfl⟩⟩
    · obtain ⟨rest, contentsEq⟩ := encoded
      rw [position, Nat.add_sub_cancel_left, ← contentsEq, append_assoc,
        drop_left, take_left]
    · rw [position, @length_append _ (front ++ padding), Nat.add_assoc]
  | failed short =>
    rw [hasRead.bufferEnd_eq] at short
    omega

variable {filler : Nat → UInt8} {width : Nat}

/-- A primitive that was encoded next is read next. -/
theorem decodePrimitive_encoded {type : Primitive} {bits : BitVec (8 * type.size)}
    (hasRead : HasRead decoder front) (room : Room width type.exponent decoder)
    (aligned : 2 ^ type.exponent ∣ decoder.buffer)
    (encoded : encodePrimitive filler front type bits <+: decoder.contents) :
    (decoder.decodePrimitive width type).1 = some bits ∧
      HasRead (decoder.decodePrimitive width type).2
        (encodePrimitive filler front type bits) ∧
      SameBuffer decoder (decoder.decodePrimitive width type).2 := by
  have decoded := @decodeFixedLengthData_encoded width type.exponent filler decoder front
    (bytesOf type.size bits.toNat) hasRead room aligned encoded
  rw [length_bytesOf] at decoded
  refine ⟨?_, decoded.2⟩
  rw [decodePrimitive, decoded.1, Option.map_some, ofNat_numberOf_bytesOf]

theorem HasRead.computed (hasRead : HasRead decoder front) (sums : List Nat) :
    HasRead { decoder with computed := sums } front :=
  ⟨hasRead.bufferEnd_eq, hasRead.isPrefix, hasRead.bufferPos_eq⟩

/-- The length of data in the buffer is a word of the machine. -/
theorem length_lt_of_encoded {width exponent : Nat} {front data : List UInt8}
    (bufferEnd_eq : decoder.bufferEnd = decoder.buffer + decoder.contents.length)
    (room : Room width exponent decoder)
    (encoded : encodeFixedLengthData filler front data 1 <+: decoder.contents) :
    data.length < 2 ^ width := by
  obtain ⟨padding, encodedEq, _⟩ := encodeFixedLengthData_eq filler front data 0
  have long := encoded.length_le
  rw [Nat.pow_zero] at encodedEq
  rw [encodedEq, length_append] at long
  have := Nat.two_pow_pos exponent
  unfold Room at room
  omega

/-- A byte array that was encoded next is read next. -/
theorem decodeVariableLengthByteArray_encoded {front data : List UInt8} (widthLe : width ≤ 64)
    (hasRead : HasRead decoder front) (room : Room width Primitive.uint64.exponent decoder)
    (aligned : 2 ^ Primitive.uint64.exponent ∣ decoder.buffer)
    (encoded : encodeVariableLengthByteArray filler front data <+: decoder.contents) :
    (decoder.decodeVariableLengthByteArray width).1 = some data ∧
      HasRead (decoder.decodeVariableLengthByteArray width).2
        (encodeVariableLengthByteArray filler front data) ∧
      SameBuffer decoder (decoder.decodeVariableLengthByteArray width).2 := by
  have small := length_lt_of_encoded hasRead.bufferEnd_eq room encoded
  have sizeEq : (BitVec.ofNat (8 * Primitive.uint64.size) data.length).toNat = data.length := by
    exact Nat.mod_eq_of_lt (Nat.lt_of_lt_of_le small (Nat.pow_le_pow_right Nat.zero_lt_two widthLe))
  have counted : encodePrimitive filler front .uint64
        (BitVec.ofNat (8 * Primitive.uint64.size) data.length) <+: decoder.contents :=
    (prefix_encodeFixedLengthData filler _ data 0).trans encoded
  obtain ⟨readSize, hasReadSize, same⟩ := decodePrimitive_encoded hasRead room aligned counted
  rw [decodeVariableLengthByteArray]
  generalize decoder.decodePrimitive width .uint64 = decoded at readSize hasReadSize same
  obtain ⟨result, after⟩ := decoded
  subst readSize
  dsimp only
  rw [sizeEq, Nat.mod_eq_of_lt small]
  obtain ⟨read, hasReadData, sameAfter⟩ :=
    @decodeFixedLengthData_encoded width 0 filler
      { after with computed := after.computed ++ [data.length] }
      (encodePrimitive filler front .uint64
        (BitVec.ofNat (8 * Primitive.uint64.size) data.length)) data
      (hasReadSize.computed _) ((same.room room).mono (Nat.zero_le _)) (Nat.one_dvd _)
      (by rw [same.contents_eq]; exact encoded)
  exact ⟨read, hasReadData, same.trans ⟨sameAfter.buffer_eq, sameAfter.bufferEnd_eq,
    sameAfter.contents_eq⟩⟩

/-- A value that was encoded next is read next. -/
theorem read_encoded {value : Value} (widthLe : width ≤ 64) (hasRead : HasRead decoder front)
    (room : Room width value.exponent decoder) (aligned : 2 ^ value.exponent ∣ decoder.buffer)
    (encoded : encode filler front value <+: decoder.contents) :
    (decoder.read width value.type).1 = some value ∧
      HasRead (decoder.read width value.type).2 (encode filler front value) ∧
      SameBuffer decoder (decoder.read width value.type).2 := by
  cases value with
  | primitive type bits =>
    obtain ⟨read, kept⟩ := decodePrimitive_encoded hasRead room aligned encoded
    refine ⟨?_, kept⟩
    rw [Value.type, ArgumentDecoder.read, read, Option.map_some]
  | fixedLengthData exponent data =>
    change Room width exponent decoder at room
    obtain ⟨read, kept⟩ := decodeFixedLengthData_encoded hasRead room aligned encoded
    refine ⟨?_, kept⟩
    rw [Value.type, ArgumentDecoder.read, read, Option.map_some]
  | variableLengthByteArray data =>
    obtain ⟨read, kept⟩ :=
      decodeVariableLengthByteArray_encoded widthLe hasRead room aligned encoded
    refine ⟨?_, kept⟩
    rw [Value.type, ArgumentDecoder.read, read, Option.map_some]

/-- The values that were encoded next are read next. -/
theorem readAll_encoded {values : List Value} (widthLe : width ≤ 64)
    (hasRead : HasRead decoder front) (room : ∀ value ∈ values, Room width value.exponent decoder)
    (aligned : ∀ value ∈ values, 2 ^ value.exponent ∣ decoder.buffer)
    (encoded : values.foldl (encode filler) front <+: decoder.contents) :
    (decoder.readAll width (values.map Value.type)).1 = values.map some ∧
      HasRead (decoder.readAll width (values.map Value.type)).2
        (values.foldl (encode filler) front) ∧
      SameBuffer decoder (decoder.readAll width (values.map Value.type)).2 := by
  induction values generalizing decoder front with
  | nil => exact ⟨rfl, hasRead, rfl, rfl, rfl⟩
  | cons value values ih =>
    rw [forall_mem_cons] at room aligned
    have first := (prefix_foldl_encode filler (encode filler front value) values).trans encoded
    obtain ⟨read, hasReadFirst, same⟩ := read_encoded widthLe hasRead room.1 aligned.1 first
    obtain ⟨readRest, hasReadRest, sameRest⟩ := ih hasReadFirst
      (fun later member => same.room (room.2 later member))
      (fun later member => by rw [same.buffer_eq]; exact aligned.2 later member)
      (by rw [same.contents_eq]; exact encoded)
    rw [map_cons, ArgumentDecoder.readAll]
    refine ⟨?_, hasReadRest, same.trans sameRest⟩
    rw [map_cons, read, readRest]

/-! ## The coding -/

/-- Reading back gives the values and ends at the end of the buffer. -/
def RoundTrips (width allocatedBase : Nat) (filler : Nat → UInt8) (values : List Value) : Prop :=
  ((create width allocatedBase (encodeAll filler values)).readAll width
      (values.map Value.type)).1 = values.map some ∧
    ((create width allocatedBase (encodeAll filler values)).readAll width
        (values.map Value.type)).2.bufferPos =
      ((create width allocatedBase (encodeAll filler values)).readAll width
        (values.map Value.type)).2.bufferEnd

/-- The buffer of a decoder is aligned for the primitive types. -/
theorem dvd_buffer {width allocatedBase size exponent : Nat} {bytes : List UInt8}
    {types : List ValueType} (fits : BlockFits width allocatedBase size types)
    (sizeEq : bytes.length = size) (small : exponent ≤ 3) :
    2 ^ exponent ∣ (create width allocatedBase bytes).buffer := by
  subst sizeEq
  obtain ⟨_, _, _, _, bufferEq⟩ := create_placed fits
  rw [bufferEq]
  exact Nat.dvd_mul_left_of_dvd (Nat.pow_dvd_pow 2 small) _

/-- Values that were encoded are read back, and reads of any buffer stay inside
it and fail for good; no sum is cut exactly when no length that is read is. -/
theorem arguments_coded {width : Nat} (widthLe : width ≤ 64) (filler : Nat → UInt8)
    (values : List Value) (encodedBase : Nat)
    (encodedFits : BlockFits width encodedBase (encodeAll filler values).length
      (values.map Value.type))
    (encodedAligned : ∀ value ∈ values, 3 < value.exponent →
      2 ^ value.exponent ∣ (create width encodedBase (encodeAll filler values)).buffer)
    (bytes : List UInt8)
    (types : List ValueType)
    (allocatedBase : Nat)
    (fits : BlockFits width allocatedBase bytes.length types) :
    RoundTrips width encodedBase filler values ∧
      Within ((create width allocatedBase bytes).readAll width types).2 ∧
      Sticky ((create width allocatedBase bytes).readAll width types).1 ∧
      (NoWrap width ((create width allocatedBase bytes).readAll width types).2 ↔
        Runs.StepsMeet (next width) (LengthFits width) (create width allocatedBase bytes)
          types) := by
  obtain ⟨placed, room, within, noWrap, _⟩ := create_placed fits
  obtain ⟨stillWithin, sticky, noWrapIff⟩ := readAll_safe placed within room
  refine ⟨?_, stillWithin, sticky, noWrapIff.trans (and_iff_right noWrap)⟩
  obtain ⟨encodedPlaced, encodedRoom, _⟩ := create_placed encodedFits
  have aligned : ∀ value ∈ values,
      2 ^ value.exponent ∣ (create width encodedBase (encodeAll filler values)).buffer := by
    intro value member
    rcases Nat.lt_or_ge 3 value.exponent with large | small
    · exact encodedAligned value member large
    · exact dvd_buffer encodedFits rfl small
  have hasRead : HasRead (create width encodedBase (encodeAll filler values)) [] :=
    ⟨encodedPlaced.bufferEnd_eq, nil_prefix, rfl⟩
  obtain ⟨read, hasReadAll, same⟩ := readAll_encoded widthLe hasRead
    (fun value member => encodedRoom value.type (mem_map_of_mem member)) aligned
    (prefix_rfl : values.foldl (encode filler) [] <+: encodeAll filler values)
  refine ⟨read, ?_⟩
  rw [hasReadAll.bufferPos_eq, hasReadAll.bufferEnd_eq, same.contents_eq]
  rfl

/-- A truth value, three bytes and a double, and reads of four bytes. -/
theorem arguments_coded_sample : RoundTrips 32 4098 (fun _ => 0)
        [.primitive .bool 1, .variableLengthByteArray [7, 8, 9], .primitive .double 5] ∧
      Within ((create 32 4096 [1, 0, 0, 0]).readAll 32
        [.primitive .uint16, .primitive .uint32, .variableLengthByteArray]).2 ∧
      Sticky ((create 32 4096 [1, 0, 0, 0]).readAll 32
        [.primitive .uint16, .primitive .uint32, .variableLengthByteArray]).1 ∧
      (NoWrap 32 ((create 32 4096 [1, 0, 0, 0]).readAll 32
          [.primitive .uint16, .primitive .uint32, .variableLengthByteArray]).2 ↔
        Runs.StepsMeet (next 32) (LengthFits 32) (create 32 4096 [1, 0, 0, 0])
          [.primitive .uint16, .primitive .uint32, .variableLengthByteArray]) :=
  arguments_coded (by decide) _ _ _ ⟨by decide, by decide⟩ (by decide) _ _ _
    ⟨by decide, by decide⟩

/-- A length of `2 ^ 32 + 3` is read as three where words have 32 bits. -/
theorem length_cut : ((create 32 4096 [3, 0, 0, 0, 1, 0, 0, 0, 97, 98, 99]).readAll 32
        [.variableLengthByteArray]).1 = [some (.variableLengthByteArray [97, 98, 99])] ∧
      ¬ NoWrap 32 ((create 32 4096 [3, 0, 0, 0, 1, 0, 0, 0, 97, 98, 99]).readAll 32
        [.variableLengthByteArray]).2 := by
  refine ⟨by decide, fun fits => ?_⟩
  exact absurd (fits 4294967299 (by decide)) (by decide)

end CoreIPC
end PalmWebKit
