import PalmWebKit.Network.WebSocketFrame

/-!
# The codec of WebSocket frames

What `makeFrameData` writes, `parseFrame` reads, in front of any bytes; a proper
prefix of it is incomplete.  Length fields that are too long or too large are
errors, and no operation leaves the range of its type.
-/

namespace PalmWebKit
namespace Network
namespace WebSocketFrame

open List

/-- What `makeFrameData` asserts of its frame. -/
def OpCodeFits (frame : WebSocketFrame) : Prop := frame.opCode &&& ~~~opCodeMask = 0

instance (frame : WebSocketFrame) : Decidable frame.OpCodeFits :=
  inferInstanceAs (Decidable (_ = _))

/-! ## The first two bytes -/

def firstByte (final compress : Bool) (opCode : UInt8) : UInt8 :=
  (if final then finalBit else 0) ||| (if compress then compressBit else 0) ||| opCode

def secondByte (masked : Bool) (lengthField : Nat) : UInt8 :=
  (if masked then maskBit else 0) ||| UInt8.ofNat lengthField

theorem firstByte_bits :
    ∀ (final compress : Bool) (bits : BitVec 8), UInt8.ofBitVec bits &&& ~~~opCodeMask = 0 →
        firstByte final compress (UInt8.ofBitVec bits) &&& opCodeMask = UInt8.ofBitVec bits ∧
        decide (firstByte final compress (UInt8.ofBitVec bits) &&& finalBit ≠ 0) = final ∧
        decide (firstByte final compress (UInt8.ofBitVec bits) &&& compressBit ≠ 0) = compress ∧
        decide (firstByte final compress (UInt8.ofBitVec bits) &&& reserved2Bit ≠ 0) = false ∧
        decide (firstByte final compress (UInt8.ofBitVec bits) &&& reserved3Bit ≠ 0) = false := by
  decide +kernel

theorem secondByte_bits : ∀ (masked : Bool) (lengthField : Fin 128),
      (secondByte masked lengthField &&& payloadLengthMask).toNat = lengthField ∧
        decide (secondByte masked lengthField &&& maskBit ≠ 0) = masked := by
  decide +kernel

/-! ## The length field -/

def lengthField (payloadLength : Nat) : Nat :=
  if payloadLength ≤ 125 then payloadLength
  else if payloadLength ≤ 0xFFFF then 126
  else 127

def extendedLength (payloadLength : Nat) : List UInt8 :=
  if payloadLength ≤ 125 then []
  else if payloadLength ≤ 0xFFFF then NetworkOrder.bytes 2 payloadLength
  else NetworkOrder.bytes 8 payloadLength

theorem lengthField_lt (payloadLength : Nat) : lengthField payloadLength < 128 := by
  rw [lengthField]
  split_ifs <;> omega

theorem makeHeader_eq (frame : WebSocketFrame) :
    makeHeader frame = firstByte frame.final frame.compress frame.opCode ::
        secondByte frame.masked (lengthField frame.payload.length) ::
          extendedLength frame.payload.length := by
  have high (number : Nat) : (number &&& 0xFF00) >>> 8 = number >>> 8 &&& 0xFF := by
    rw [Nat.shiftRight_and_distrib]
    rfl
  rw [makeHeader, lengthField, extendedLength]
  by_cases short : frame.payload.length ≤ 125
  · have alsoShort : frame.payload.length ≤ maxPayloadLengthWithoutExtendedLengthField := short
    simp only [if_pos short, if_pos alsoShort]
    rfl
  · have alsoLong : ¬frame.payload.length ≤ maxPayloadLengthWithoutExtendedLengthField := short
    by_cases medium : frame.payload.length ≤ 0xFFFF
    · simp only [if_neg short, if_neg alsoLong, if_pos medium, high]
      rfl
    · simp only [if_neg short, if_neg alsoLong, if_neg medium]
      rfl

/-- The loop that reads the length field loses no bits of eight bytes. -/
theorem readPayloadLength_eq {count number : Nat} {bytes : List UInt8}
    (bound : number < 256 ^ count) (width : count + bytes.length ≤ 8) :
    readPayloadLength number bytes = some (NetworkOrder.valueFrom number bytes) := by
  induction bytes generalizing count number with
  | nil => rfl
  | cons byte bytes ih =>
    rw [length_cons] at width
    have isByte : byte.toNat < 256 := byte.toNat_lt
    have small : number < 2 ^ 56 :=
      bound.trans_le (Nat.pow_le_pow_right (by decide) (by omega : count ≤ 7))
    have next : number * 256 + byte.toNat < 256 ^ (count + 1) := by omega
    rw [readPayloadLength, if_neg (Nat.not_le.2 small),
      NetworkOrder.shiftLeft_or_byte, NetworkOrder.valueFrom,
      ih next (by omega)]

theorem readPayloadLength_value {bytes : List UInt8} (width : bytes.length ≤ 8) :
    readPayloadLength 0 bytes = some (NetworkOrder.value bytes) :=
  readPayloadLength_eq (by decide : 0 < 256 ^ 0) (by omega)

/-! ## Masks -/

@[simp] theorem length_applyMask (maskingKey payload : List UInt8) :
    (applyMask maskingKey payload).length = payload.length := by
  rw [applyMask, length_mapIdx]

/-- Unmasking gives back what was masked. -/
@[simp] theorem applyMask_applyMask (maskingKey payload : List UInt8) :
    applyMask maskingKey (applyMask maskingKey payload) = payload := by
  apply ext_getElem
  · simp
  · intro index inMasked inPayload
    simp [applyMask, UInt8.xor_assoc]

/-! ## Reading a header -/

variable {size : SizeType} {first second : UInt8} {rest : List UInt8}

theorem parseFrame_short (short : (second &&& payloadLengthMask).toNat ≤ 125) :
    parseFrame size (first :: second :: rest) =
      parsePayload size first second (second &&& payloadLengthMask).toNat
        [first, second] rest := by
  have notExtended : ¬(second &&& payloadLengthMask).toNat >
      maxPayloadLengthWithoutExtendedLengthField := Nat.not_lt.2 short
  simp only [parseFrame, if_neg notExtended]

/-- The number of bytes of an extended length field. -/
def extendedWidth (second : UInt8) : Nat :=
  extendedPayloadLengthSize (second &&& payloadLengthMask).toNat

/-- A length that fewer bytes can encode. -/
def IsNonMinimal (width payloadLength : Nat) : Prop :=
  (width = 2 ∧ payloadLength ≤ 125) ∨ (width = 8 ∧ payloadLength ≤ 0xFFFF)

instance (width payloadLength : Nat) : Decidable (IsNonMinimal width payloadLength) :=
  inferInstanceAs (Decidable (_ ∨ _))

theorem extendedWidth_le (second : UInt8) : extendedWidth second ≤ 8 := by
  rw [extendedWidth, extendedPayloadLengthSize]
  split_ifs <;> decide

/-- An extended field that the buffer does not hold yet. -/
theorem parseFrame_incompleteHeader (isObject : rest.length ≤ size.largestObject)
    (long : 125 < (second &&& payloadLengthMask).toNat)
    (incomplete : rest.length < extendedWidth second) : parseFrame size (first :: second :: rest) =
      (.frameIncomplete, first :: second :: rest) := by
  have extended : (second &&& payloadLengthMask).toNat >
      maxPayloadLengthWithoutExtendedLengthField := long
  have fits : ¬rest.length > size.largestObject := Nat.not_lt.2 isObject
  rw [extendedWidth] at incomplete
  simp only [parseFrame, if_pos extended, if_neg fits, if_pos incomplete]

/-- An extended field whose bytes are there. -/
theorem parseFrame_extended (isObject : rest.length ≤ size.largestObject)
    (long : 125 < (second &&& payloadLengthMask).toNat)
    (complete : extendedWidth second ≤ rest.length) : parseFrame size (first :: second :: rest) =
      if IsNonMinimal (extendedWidth second)
          (NetworkOrder.value (rest.take (extendedWidth second))) then
        (minimalLengthError, first :: second :: rest)
      else
        parsePayload size first second
          (NetworkOrder.value (rest.take (extendedWidth second)))
          (first :: second :: rest.take (extendedWidth second))
          (rest.drop (extendedWidth second)) := by
  have extended : (second &&& payloadLengthMask).toNat >
      maxPayloadLengthWithoutExtendedLengthField := long
  have fits : ¬rest.length > size.largestObject := Nat.not_lt.2 isObject
  have isThere : ¬rest.length < extendedWidth second := Nat.not_lt.2 complete
  have width : (rest.take (extendedWidth second)).length ≤ 8 := by
    rw [length_take]
    exact (Nat.min_le_left _ _).trans (extendedWidth_le second)
  have read := readPayloadLength_value width
  rw [extendedWidth] at isThere read
  simp only [parseFrame, if_pos extended, if_neg fits, if_neg isThere, read]
  by_cases shortPair : extendedWidth second = 2 ∧
      NetworkOrder.value (rest.take (extendedWidth second)) ≤ 125
  · have nonMinimal : IsNonMinimal (extendedWidth second)
        (NetworkOrder.value (rest.take (extendedWidth second))) := .inl shortPair
    rw [if_pos nonMinimal]
    exact if_pos shortPair
  · refine (if_neg shortPair).trans (if_congr ?_ rfl rfl)
    exact (or_iff_right shortPair).symm

/-! ## Reading a payload -/

variable {payloadLength : Nat} {header : List UInt8}

/-- The bytes of the key that the second byte announces. -/
def maskingKeyLength (second : UInt8) : Nat :=
  if decide (second &&& maskBit ≠ 0) then maskingKeyWidthInBytes else 0

/-- A length that no object of the platform has together with its key. -/
def IsOutOfRange (size : SizeType) (second : UInt8) (payloadLength : Nat) : Prop :=
  payloadLength > maxPayloadLength ∨ payloadLength + maskingKeyLength second > size.max

theorem maskingKeyLength_le (second : UInt8) : maskingKeyLength second ≤ 4 := by
  rw [maskingKeyLength]
  split_ifs <;> decide

/-- The sum of a length in the range and a key does not overflow. -/
theorem not_overflow (inRange : ¬payloadLength > maxPayloadLength) :
    ¬payloadLength + maskingKeyLength second ≥ 2 ^ 64 := by
  have key := maskingKeyLength_le second
  rw [maxPayloadLength] at inRange
  omega

theorem parsePayload_outOfRange (outOfRange : IsOutOfRange size second payloadLength) :
    ∃ errorString, parsePayload size first second payloadLength header rest =
      (.frameError errorString, header ++ rest) := by
  refine ⟨"WebSocket frame length too large: " ++ toString payloadLength ++ " bytes", ?_⟩
  rw [parsePayload]
  rw [← maskingKeyLength]
  by_cases tooLarge : payloadLength > maxPayloadLength
  · rw [if_pos tooLarge]
  · rw [if_neg tooLarge, if_neg (not_overflow tooLarge), if_pos (outOfRange.resolve_left tooLarge)]

theorem parsePayload_inRange (inRange : ¬IsOutOfRange size second payloadLength)
    (isObject : rest.length ≤ size.largestObject) :
    parsePayload size first second payloadLength header rest =
      if rest.length < maskingKeyLength second + payloadLength then
        (.frameIncomplete, header ++ rest)
      else
        let maskingKey := rest.take (maskingKeyLength second)
        let payload := (rest.drop (maskingKeyLength second)).take payloadLength
        let payload :=
          if decide (second &&& maskBit ≠ 0) then applyMask maskingKey payload else payload
        (.frameOK
          { opCode := first &&& opCodeMask
            final := first &&& finalBit ≠ 0
            compress := first &&& compressBit ≠ 0
            reserved2 := first &&& reserved2Bit ≠ 0
            reserved3 := first &&& reserved3Bit ≠ 0
            masked := second &&& maskBit ≠ 0
            payload }
          (header.length + maskingKeyLength second + payloadLength),
          header ++ maskingKey ++ payload ++
            rest.drop (maskingKeyLength second + payloadLength)) := by
  rw [IsOutOfRange, not_or] at inRange
  rw [parsePayload]
  rw [← maskingKeyLength, if_neg inRange.1, if_neg (not_overflow inRange.1),
    if_neg inRange.2, if_neg (Nat.not_lt.2 isObject)]

/-! ## Any buffer -/

/-- A buffer with a complete length field that is too long or too large. -/
def HasBadLength (size : SizeType) (data : List UInt8) : Prop :=
  ∃ first second rest, data = first :: second :: rest ∧ 125 < (second &&& payloadLengthMask).toNat ∧
    extendedWidth second ≤ rest.length ∧
    (IsNonMinimal (extendedWidth second)
        (NetworkOrder.value (rest.take (extendedWidth second))) ∨
      IsOutOfRange size second
        (NetworkOrder.value (rest.take (extendedWidth second))))

/-- A bad length is an error, and the buffer stays as it is. -/
theorem parseFrame_badLength {data : List UInt8} (isObject : data.length ≤ size.largestObject)
    (badLength : HasBadLength size data) :
    ∃ errorString, parseFrame size data = (.frameError errorString, data) := by
  obtain ⟨first, second, rest, rfl, long, complete, bad⟩ := badLength
  have restIsObject : rest.length ≤ size.largestObject := by
    rw [length_cons, length_cons] at isObject
    omega
  rw [parseFrame_extended restIsObject long complete]
  by_cases nonMinimal : IsNonMinimal (extendedWidth second)
      (NetworkOrder.value (rest.take (extendedWidth second)))
  · rw [if_pos nonMinimal]
    exact ⟨_, rfl⟩
  · rw [if_neg nonMinimal]
    obtain ⟨errorString, error⟩ := @parsePayload_outOfRange size first second
      (rest.drop (extendedWidth second)) _
      (first :: second :: rest.take (extendedWidth second)) (bad.resolve_left nonMinimal)
    refine ⟨errorString, error.trans ?_⟩
    rw [cons_append, cons_append, take_append_drop]

theorem parsePayload_ne_overflow (isObject : rest.length ≤ size.largestObject) :
    (parsePayload size first second payloadLength header rest).1 ≠ .overflow := by
  by_cases outOfRange : IsOutOfRange size second payloadLength
  · obtain ⟨errorString, error⟩ :=
      @parsePayload_outOfRange size first second rest payloadLength header outOfRange
    rw [error]
    exact ParseFrameResult.noConfusion
  · rw [parsePayload_inRange outOfRange isObject]
    split_ifs <;> exact ParseFrameResult.noConfusion

/-- Whatever the buffer holds, every result fits its type. -/
theorem parseFrame_ne_overflow {data : List UInt8} (isObject : data.length ≤ size.largestObject) :
    (parseFrame size data).1 ≠ .overflow := by
  match data with
  | [] => exact ParseFrameResult.noConfusion
  | [_] => exact ParseFrameResult.noConfusion
  | first :: second :: rest =>
    have restIsObject : rest.length ≤ size.largestObject := by
      rw [length_cons, length_cons] at isObject
      omega
    by_cases short : (second &&& payloadLengthMask).toNat ≤ 125
    · rw [parseFrame_short short]
      exact parsePayload_ne_overflow restIsObject
    · by_cases incomplete : rest.length < extendedWidth second
      · rw [parseFrame_incompleteHeader restIsObject (Nat.not_le.1 short) incomplete]
        exact ParseFrameResult.noConfusion
      · rw [parseFrame_extended restIsObject (Nat.not_le.1 short) (Nat.not_lt.1 incomplete)]
        split_ifs
        · exact ParseFrameResult.noConfusion
        · apply parsePayload_ne_overflow
          rw [length_drop]
          omega

/-! ## Written frames -/

variable {frame : WebSocketFrame} {maskingKey : MaskingKey}

/-- The second byte of a frame. -/
def lengthByte (frame : WebSocketFrame) : UInt8 :=
  secondByte frame.masked (lengthField frame.payload.length)

theorem lengthByte_field (frame : WebSocketFrame) :
    (lengthByte frame &&& payloadLengthMask).toNat = lengthField frame.payload.length :=
  (secondByte_bits frame.masked ⟨_, lengthField_lt frame.payload.length⟩).1

theorem lengthByte_masked (frame : WebSocketFrame) :
    decide (lengthByte frame &&& maskBit ≠ 0) = frame.masked :=
  (secondByte_bits frame.masked ⟨_, lengthField_lt frame.payload.length⟩).2

theorem maskingKeyLength_lengthByte (frame : WebSocketFrame) : maskingKeyLength (lengthByte frame) =
      if frame.masked then maskingKeyWidthInBytes else 0 := by
  rw [maskingKeyLength, lengthByte_masked]

/-- The extended field of a length is as wide as its first byte announces, is
not too long and gives the length. -/
theorem extendedLength_spec (long : 125 < frame.payload.length)
    (inRange : frame.payload.length ≤ maxPayloadLength) :
    125 < (lengthByte frame &&& payloadLengthMask).toNat ∧
      extendedWidth (lengthByte frame) = (extendedLength frame.payload.length).length ∧
      NetworkOrder.value (extendedLength frame.payload.length) = frame.payload.length ∧
      ¬IsNonMinimal (extendedWidth (lengthByte frame)) frame.payload.length := by
  have notShort : ¬frame.payload.length ≤ 125 := Nat.not_le.2 long
  rw [maxPayloadLength] at inRange
  rw [extendedWidth, lengthByte_field, lengthField, extendedLength]
  rw [if_neg notShort, if_neg notShort]
  by_cases medium : frame.payload.length ≤ 0xFFFF
  · rw [if_pos medium, if_pos medium, NetworkOrder.value_bytes_of_lt (by omega)]
    refine ⟨by decide, rfl, rfl, ?_⟩
    rintro (⟨-, short⟩ | ⟨width, -⟩)
    · exact notShort short
    · cases width
  · rw [if_neg medium, if_neg medium, NetworkOrder.length_bytes,
      NetworkOrder.value_bytes_of_lt (by omega)]
    refine ⟨by decide, rfl, rfl, ?_⟩
    rintro (⟨width, -⟩ | ⟨-, alsoMedium⟩)
    · cases width
    · exact medium alsoMedium

/-- Behind its header, a frame is read with its own length. -/
theorem parseFrame_makeHeader (inRange : frame.payload.length ≤ maxPayloadLength)
    (isObject : (makeHeader frame ++ rest).length ≤ size.largestObject) :
    parseFrame size (makeHeader frame ++ rest) =
      parsePayload size (firstByte frame.final frame.compress frame.opCode)
        (lengthByte frame) frame.payload.length (makeHeader frame) rest := by
  rw [makeHeader_eq, ← lengthByte] at isObject ⊢
  rw [cons_append, cons_append] at isObject ⊢
  by_cases short : frame.payload.length ≤ 125
  · have field : (lengthByte frame &&& payloadLengthMask).toNat = frame.payload.length := by
      rw [lengthByte_field, lengthField, if_pos short]
    have noField : extendedLength frame.payload.length = [] := if_pos short
    rw [parseFrame_short (by omega), field, noField]
    rfl
  · obtain ⟨long, width, value, minimal⟩ := extendedLength_spec (Nat.not_le.1 short) inRange
    have restIsObject :
        (extendedLength frame.payload.length ++ rest).length ≤ size.largestObject := by
      rw [length_cons, length_cons] at isObject
      omega
    have complete : extendedWidth (lengthByte frame) ≤
        (extendedLength frame.payload.length ++ rest).length := by
      rw [width, length_append]
      exact Nat.le_add_right _ _
    rw [parseFrame_extended restIsObject long complete, width, take_left, value,
      drop_left]
    rw [width] at minimal
    exact if_neg minimal

/-- A part of a header is incomplete. -/
theorem parseFrame_prefixOfHeader {front missing : List UInt8}
    (inRange : frame.payload.length ≤ maxPayloadLength)
    (isObject : front.length ≤ size.largestObject) (cut : makeHeader frame = front ++ missing)
    (proper : missing ≠ []) : parseFrame size front = (.frameIncomplete, front) := by
  rw [makeHeader_eq, ← lengthByte] at cut
  match front with
  | [] => rfl
  | [_] => rfl
  | first :: second :: rest =>
    obtain ⟨-, isSecond, field⟩ : _ ∧ lengthByte frame = second ∧
          extendedLength frame.payload.length = rest ++ missing := by
      simpa using cut
    have length := congrArg List.length field
    have missingLength : 0 < missing.length := length_pos_iff.2 proper
    rw [length_append] at length
    by_cases short : frame.payload.length ≤ 125
    · rw [extendedLength, if_pos short, length_nil] at length
      omega
    · obtain ⟨long, width, -, -⟩ := extendedLength_spec (Nat.not_le.1 short) inRange
      rw [← isSecond]
      refine parseFrame_incompleteHeader ?_ long (by omega)
      rw [length_cons, length_cons] at isObject
      omega

/-- The key and the masked payload, or the payload. -/
def body (frame : WebSocketFrame) (maskingKey : MaskingKey) : List UInt8 :=
  if frame.masked then maskingKey.bytes ++ applyMask maskingKey.bytes frame.payload
  else frame.payload

theorem makeFrameData_eq (frame : WebSocketFrame) (maskingKey : MaskingKey) :
    makeFrameData frame maskingKey = makeHeader frame ++ body frame maskingKey := by
  rw [makeFrameData, appendFramePayload, body]
  split_ifs
  · rw [append_assoc]
  · rfl

theorem length_body (frame : WebSocketFrame) (maskingKey : MaskingKey) :
    (body frame maskingKey).length =
      maskingKeyLength (lengthByte frame) + frame.payload.length := by
  rw [maskingKeyLength_lengthByte, body]
  split_ifs
  · rw [length_append, length_applyMask, maskingKey.width]
  · rw [Nat.zero_add]

/-- The length of an object is in the range. -/
theorem inRange_of_isObject
    (isObject : (makeFrameData frame maskingKey).length ≤ size.largestObject) :
    frame.payload.length ≤ maxPayloadLength ∧
      ¬IsOutOfRange size (lengthByte frame) frame.payload.length := by
  have objects : size.largestObject ≤ maxPayloadLength := by cases size <;> decide
  have sizes := size.largestObject_le_max
  rw [makeFrameData_eq, length_append, length_body] at isObject
  exact ⟨by omega, by rintro (tooLarge | tooLarge) <;> omega⟩

/-- The buffer with the payload unmasked in its place. -/
def unmaskedData (frame : WebSocketFrame) (maskingKey : MaskingKey) : List UInt8 :=
  makeHeader frame ++ (if frame.masked then maskingKey.bytes else []) ++ frame.payload

/-- What is read of the key and the payload. -/
theorem readBody (frame : WebSocketFrame) (maskingKey : MaskingKey) (rest : List UInt8) :
    (body frame maskingKey ++ rest).take (maskingKeyLength (lengthByte frame)) =
        (if frame.masked then maskingKey.bytes else []) ∧
      ((body frame maskingKey ++ rest).drop (maskingKeyLength (lengthByte frame))).take
          frame.payload.length =
        (if frame.masked then applyMask maskingKey.bytes frame.payload
        else frame.payload) ∧
      (body frame maskingKey ++ rest).drop
          (maskingKeyLength (lengthByte frame) + frame.payload.length) = rest := by
  rw [← length_body frame maskingKey, drop_left, maskingKeyLength_lengthByte, body]
  by_cases masked : frame.masked = true
  · rw [if_pos masked, if_pos masked, if_pos masked, if_pos masked, append_assoc,
      ← maskingKey.width, take_left, drop_left]
    refine ⟨rfl, ?_, rfl⟩
    rw [← length_applyMask maskingKey.bytes frame.payload, take_left]
  · rw [if_neg masked, if_neg masked, if_neg masked, if_neg masked, drop_zero, take_left]
    exact ⟨rfl, rfl, rfl⟩

/-- A written frame is read, whatever follows it. -/
theorem parseFrame_makeFrameData (fits : frame.OpCodeFits)
    (isObject : (makeFrameData frame maskingKey ++ rest).length ≤ size.largestObject) :
    parseFrame size (makeFrameData frame maskingKey ++ rest) =
      (.frameOK { frame with reserved2 := false, reserved3 := false }
          (makeFrameData frame maskingKey).length,
        unmaskedData frame maskingKey ++ rest) := by
  have frameIsObject : (makeFrameData frame maskingKey).length ≤ size.largestObject := by
    rw [length_append] at isObject
    exact (Nat.le_add_right _ _).trans isObject
  obtain ⟨lengthInRange, inRange⟩ := inRange_of_isObject frameIsObject
  rw [makeFrameData_eq, append_assoc] at isObject ⊢
  have bodyIsObject : (body frame maskingKey ++ rest).length ≤ size.largestObject := by
    rw [length_append] at isObject
    exact (Nat.le_add_left _ _).trans isObject
  have isThere : ¬(body frame maskingKey ++ rest).length <
      maskingKeyLength (lengthByte frame) + frame.payload.length := by
    rw [length_append, length_body]
    exact Nat.not_lt.2 (Nat.le_add_right _ _)
  obtain ⟨key, payload, behind⟩ := readBody frame maskingKey rest
  obtain ⟨opCode, final, compress, reserved2, reserved3⟩ :=
    firstByte_bits frame.final frame.compress frame.opCode.toBitVec fits
  have unmasked : (if frame.masked then
          applyMask (if frame.masked then maskingKey.bytes else [])
            (if frame.masked then applyMask maskingKey.bytes frame.payload
            else frame.payload)
        else if frame.masked then applyMask maskingKey.bytes frame.payload
        else frame.payload) = frame.payload := by
    by_cases masked : frame.masked = true
    · rw [if_pos masked, if_pos masked, if_pos masked, applyMask_applyMask]
    · rw [if_neg masked, if_neg masked]
  rw [parseFrame_makeHeader lengthInRange isObject,
    parsePayload_inRange inRange bodyIsObject, if_neg isThere]
  dsimp only
  rw [key, payload, behind, lengthByte_masked, unmasked, opCode, final, compress,
    reserved2, reserved3, unmaskedData, length_append, length_body]
  rw [Nat.add_assoc]

/-- A proper prefix of a written frame is incomplete. -/
theorem parseFrame_prefix {front missing : List UInt8}
    (isObject : (makeFrameData frame maskingKey).length ≤ size.largestObject)
    (cut : makeFrameData frame maskingKey = front ++ missing) (proper : missing ≠ []) :
    parseFrame size front = (.frameIncomplete, front) := by
  obtain ⟨lengthInRange, inRange⟩ := inRange_of_isObject isObject
  have missingLength : 0 < missing.length := length_pos_iff.2 proper
  have frontIsObject : front.length ≤ size.largestObject := by
    rw [cut, length_append] at isObject
    omega
  rw [makeFrameData_eq] at cut
  rcases append_eq_append_iff.1 cut with ⟨rest, rfl, isBody⟩ | ⟨rest, header, rfl⟩
  · have restIsObject : rest.length ≤ size.largestObject := by
      rw [length_append] at frontIsObject
      omega
    have length := length_body frame maskingKey
    rw [isBody, length_append] at length
    have incomplete : rest.length < maskingKeyLength (lengthByte frame) + frame.payload.length := by
      omega
    rw [parseFrame_makeHeader lengthInRange frontIsObject,
      parsePayload_inRange inRange restIsObject, if_pos incomplete]
  · by_cases ends : rest = []
    · subst ends
      rw [append_nil] at header
      have length := length_body frame maskingKey
      rw [nil_append] at missingLength
      rw [← header]
      have readHeader := @parseFrame_makeHeader size [] frame lengthInRange
        (by rwa [append_nil, header])
      rw [append_nil] at readHeader
      rw [readHeader, parsePayload_inRange inRange (Nat.zero_le _), ← length,
        length_nil, if_pos missingLength, append_nil]
    · exact parseFrame_prefixOfHeader lengthInRange frontIsObject header ends

/-- The codec: a frame whose opcode fits its four bits comes back with its
opcode, its final and compress bits, its mask bit and its payload, and with the
reserved bits off, in front of whatever follows; a proper prefix is incomplete
and stays as it is; bad lengths are errors, and nothing overflows. -/
theorem codec_spec (size : SizeType) :
    (∀ (frame : WebSocketFrame) (maskingKey : MaskingKey) (rest : List UInt8), frame.OpCodeFits →
        (makeFrameData frame maskingKey ++ rest).length ≤ size.largestObject →
          parseFrame size (makeFrameData frame maskingKey ++ rest) =
            (.frameOK { frame with reserved2 := false, reserved3 := false }
                (makeFrameData frame maskingKey).length,
              unmaskedData frame maskingKey ++ rest)) ∧
      (∀ (frame : WebSocketFrame) (maskingKey : MaskingKey) (front missing : List UInt8),
        (makeFrameData frame maskingKey).length ≤ size.largestObject →
          makeFrameData frame maskingKey = front ++ missing → missing ≠ [] →
            parseFrame size front = (.frameIncomplete, front)) ∧
      ∀ data : List UInt8, data.length ≤ size.largestObject → (HasBadLength size data →
          ∃ errorString, parseFrame size data = (.frameError errorString, data)) ∧
        (parseFrame size data).1 ≠ .overflow :=
  ⟨fun _ _ _ fits isObject => parseFrame_makeFrameData fits isObject,
    fun _ _ _ _ isObject cut proper => parseFrame_prefix isObject cut proper,
    fun _ isObject => ⟨parseFrame_badLength isObject, parseFrame_ne_overflow isObject⟩⟩

/-- A masked text frame in front of one more byte. -/
theorem codec_spec_masked : parseFrame .bits32
        (makeFrameData ⟨opCodeText, true, false, false, false, true, [0x61, 0x62]⟩
          ⟨[1, 2, 3, 4], rfl⟩ ++ [0x81]) =
      (.frameOK ⟨opCodeText, true, false, false, false, true, [0x61, 0x62]⟩ 8,
        [0x81, 0x82, 1, 2, 3, 4, 0x61, 0x62, 0x81]) :=
  (codec_spec .bits32).1 ⟨opCodeText, true, false, false, false, true, [0x61, 0x62]⟩
    ⟨[1, 2, 3, 4], rfl⟩ [0x81] (by decide) (by decide)

/-- A reserved bit of a frame is not written. -/
theorem not_codec_reserved2 : ¬∀ (frame : WebSocketFrame) (maskingKey : MaskingKey),
      (parseFrame .bits32 (makeFrameData frame maskingKey)).1 =
        .frameOK frame (makeFrameData frame maskingKey).length := by
  intro always
  have text := always ⟨opCodeText, true, false, true, false, false, [0x61]⟩ ⟨[0, 0, 0, 0], rfl⟩
  revert text
  decide

end WebSocketFrame
end Network
end PalmWebKit
