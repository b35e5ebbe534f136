import PalmWebKit.IndexedDB.KeyRoundTrip
import PalmWebKit.Logic.SizeType

/-!
# The decoders of keys on any bytes

The decoders as a machine runs them: a shift has less than the width, a byte
count is a difference of pointers, and a pointer is an address.  A pointer is
the list of the bytes from there to the limit.
-/

namespace PalmWebKit
namespace IndexedDB

inductive DecoderFault
  /-- A shift by 64 or more. -/
  | shift
  /-- A byte count that is no difference of pointers. -/
  | overflow
  /-- The end of a string lies in front of its start. -/
  | reversed
  /-- A read at the limit or behind it. -/
  | outside
  /-- A recursion that does not end. -/
  | unfinished
  deriving DecidableEq, Repr

/-- A decoder that returns null, or a value and the pointer behind it. -/
abbrev PointerDecoder := StateT (List UInt8) (OptionT (Except DecoderFault))

namespace PointerDecoder

variable {Value : Type}

def fault (reason : DecoderFault) : PointerDecoder Value := fun _ => OptionT.mk (.error reason)

/-- `if (p >= limit) return 0;` and `*p++` -/
def readByte : PointerDecoder UInt8
  | [] => failure
  | byte :: bytes => OptionT.mk (.ok (some (byte, bytes)))

def decodeVarIntLoop (foundInt : BitVec 64) (shift : Nat) : PointerDecoder Int
  | [] => failure
  | byte :: bytes =>
    if 64 ≤ shift then OptionT.mk (.error .shift)
    else
      let found := foundInt ||| (BitVec.ofNat 64 (byte &&& 0x7F).toNat <<< shift)
      if byte &&& 0x80 = 0 then OptionT.mk (.ok (some (found.toInt, bytes)))
      else decodeVarIntLoop found (shift + 7) bytes

def decodeVarInt : PointerDecoder Int := decodeVarIntLoop 0 0

/-- `if (p + count > limit) return 0;` and the bytes that `p += count` passes. -/
def advance (size : SizeType) (limit : Nat) (count : Int) : PointerDecoder (List UInt8) :=
  fun bytes =>
    let p := limit - bytes.length
    let end_ := ((p + count) % (size.max + 1)).toNat
    OptionT.mk <|
      if count < -(size.largestObject + 1) ∨ size.largestObject < count then .error .overflow
      else if limit < end_ then .ok none
      else if end_ < p then .error .reversed
      else if bytes.length < end_ - p then .error .outside
      else .ok (some (bytes.take (end_ - p), bytes.drop (end_ - p)))

def decodeStringWithLength (size : SizeType) (limit : Nat) : PointerDecoder WString := do
  let length ← decodeVarInt
  let bytes ← advance size limit (length * 2)
  pure (decodeString bytes)

def decodeDouble (size : SizeType) (limit : Nat) : PointerDecoder Double := do
  let bytes ← advance size limit 8
  pure ⟨UInt64.ofBitVec (decodeIntLoop 0 0 bytes)⟩

/-- The loop `while (length--)` -/
def times (decoder : PointerDecoder Value) : Nat → PointerDecoder (List Value)
  | 0 => pure []
  | count + 1 => do
      let value ← decoder
      let values ← times decoder count
      pure (value :: values)

/-- What is behind the type byte, in `decodeIDBKey`. -/
def decodeIDBKeyPayload (size : SizeType) (limit : Nat) (type : UInt8)
    (element : PointerDecoder IDBKey) : PointerDecoder IDBKey :=
  if type = idbKeyNullTypeByte then
    pure .invalid
  else if type = idbKeyArrayTypeByte then do
    let length ← decodeVarInt
    if length < 0 then failure
    else do
      let keys ← times element length.toNat
      pure (.array keys)
  else if type = idbKeyStringTypeByte then do
    let value ← decodeStringWithLength size limit
    pure (.string value)
  else if type = idbKeyDateTypeByte then do
    let value ← decodeDouble size limit
    pure (.date value)
  else if type = idbKeyNumberTypeByte then do
    let value ← decodeDouble size limit
    pure (.number value)
  else
    failure

/-- What is behind the type byte, in `extractEncodedIDBKey`. -/
def skipIDBKeyPayload (size : SizeType) (limit : Nat) (type : UInt8)
    (element : PointerDecoder Unit) : PointerDecoder Unit :=
  if type = idbKeyArrayTypeByte then do
    let length ← decodeVarInt
    if length < 0 then failure
    else do
      let _ ← times element length.toNat
      pure ()
  else if type = idbKeyStringTypeByte then do
    let length ← decodeVarInt
    let _ ← advance size limit (length * 2)
    pure ()
  else if type = idbKeyDateTypeByte ∨ type = idbKeyNumberTypeByte then do
    let _ ← advance size limit 8
    pure ()
  else
    pure ()

/-- A function that calls itself, with so many calls inside of each other. -/
def nestedWithin (payload : UInt8 → PointerDecoder Value → PointerDecoder Value) :
    Nat → PointerDecoder Value
  | 0 => fault .unfinished
  | calls + 1 => do payload (← readByte) (nestedWithin payload calls)

/-- Each call takes a byte, so that there is one more call than bytes. -/
def nested (payload : UInt8 → PointerDecoder Value → PointerDecoder Value) :
    PointerDecoder Value := fun bytes =>
  nestedWithin payload (bytes.length + 1) bytes

def decodeIDBKey (size : SizeType) (limit : Nat) : PointerDecoder IDBKey :=
  nested (decodeIDBKeyPayload size limit)

/-- The result are the bytes from `start` to `p`. -/
def extractEncodedIDBKey (size : SizeType) (limit : Nat) : PointerDecoder (List UInt8) :=
  fun bytes => do
    let (_, rest) ← nested (skipIDBKeyPayload size limit) bytes
    pure (bytes.take (bytes.length - rest.length), rest)

/-! ## Which bytes are safe -/

/-- No integer has an eleventh byte. -/
def EndsWithin (count : Nat) (bytes : List UInt8) : Prop :=
  bytes.length ≤ count ∨ ∃ byte ∈ bytes.take count, byte &&& 0x80 = 0

/-- A byte count that is a difference of pointers and does not lead to a lower
address. -/
def CountFits (size : SizeType) (limit : Nat) (count : Int) (bytes : List UInt8) : Prop :=
  -(size.largestObject + 1 : Int) ≤ count ∧ count ≤ size.largestObject ∧
    ((limit - bytes.length : Nat) : Int) ≤ ((limit - bytes.length : Nat) + count) % (size.max + 1)

/-- A property of the bytes from where a value starts to where so many have been read. -/
def EachFits (parser : Decoder Value) (fits : List UInt8 → Prop) : Nat → List UInt8 → Prop
  | 0, _ => True
  | count + 1, bytes =>
    fits bytes ∧ ∀ value rest, parser bytes = some (value, rest) → EachFits parser fits count rest

/-- The string at these bytes has a length that ends in time and fits. -/
def StringFits (size : SizeType) (limit : Nat) (bytes : List UInt8) : Prop :=
  EndsWithin 10 bytes ∧ ∀ length rest,
    IndexedDB.decodeVarInt bytes = some (length, rest) → CountFits size limit (length * 2) rest

/-- What is behind a type byte fits; `fits` says so of the elements of an array. -/
structure PayloadFits (size : SizeType) (limit : Nat) (type : UInt8)
    (element : Decoder Value) (fits : List UInt8 → Prop) (bytes : List UInt8) : Prop where
  array : type = idbKeyArrayTypeByte → EndsWithin 10 bytes ∧ ∀ length rest,
    IndexedDB.decodeVarInt bytes = some (length, rest) → EachFits element fits length.toNat rest
  string : type = idbKeyStringTypeByte → StringFits size limit bytes
  double : type = idbKeyDateTypeByte ∨ type = idbKeyNumberTypeByte → CountFits size limit 8 bytes

/-- All integers, strings and doubles that are read of a key fit, down to some depth
of its arrays. -/
def KeyFits (size : SizeType) (limit : Nat)
    (payload : UInt8 → Decoder Value → Decoder Value) : Nat → List UInt8 → Prop
  | 0, _ => True
  | _ + 1, [] => True
  | depth + 1, type :: bytes =>
    PayloadFits size limit type (Parser.nestedWithin payload depth)
      (KeyFits size limit payload depth) bytes

/-- The decoder returns null or a pointer from here up to the limit. -/
def ReturnsInside (decoder : PointerDecoder Value) (bytes : List UInt8) : Prop :=
  ∃ result, decoder bytes = OptionT.mk (.ok result) ∧ ∀ value rest,
    result = some (value, rest) → ∃ count ≤ bytes.length, rest = bytes.drop count

end PointerDecoder
end IndexedDB
end PalmWebKit
