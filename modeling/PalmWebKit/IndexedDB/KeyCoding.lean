import PalmWebKit.Logic.PartialParser
import PalmWebKit.Text.CodeUnits

/-!
# The coding of IndexedDB keys

An `IDBKey` is stored as a type byte and its payload: a string as its length
and big-endian code units, a number or a date as the bytes of a double, an
array as its length and its elements.  The same format is read by a decoder,
by a function that skips over a key, and by a comparison of two encodings.
-/

namespace PalmWebKit
namespace IndexedDB

/-- A double as its IEEE 754 bits. -/
structure Double where
  bits : UInt64
  deriving DecidableEq, Repr

namespace Double

def isNaN (double : Double) : Bool := 0x7FF0000000000000 < double.bits.toNat % 2 ^ 63

/-- Where a double that is no NaN stands in their order.  Both zeros stand at
the same place. -/
def rank (double : Double) : Int :=
  if double.bits.toNat < 2 ^ 63 then
    double.bits.toNat
  else
    -(double.bits.toNat - 2 ^ 63 : Int)

/-- `<` of two doubles. -/
def less (first second : Double) : Bool :=
  !first.isNaN && !second.isNaN && decide (first.rank < second.rank)

/-- `-0.0` as `0.0`. -/
def unsignedZero (double : Double) : Double :=
  if double.bits = 0x8000000000000000 then ⟨0⟩ else double

end Double

/-! ## Keys -/

/-- The types of keys, with the numbers of the enumeration. -/
inductive IDBKeyType
  | invalidType
  | arrayType
  | stringType
  | dateType
  | numberType
  | minType
  deriving DecidableEq, Repr

def IDBKeyType.number : IDBKeyType → Int
  | .invalidType => 0
  | .arrayType => 1
  | .stringType => 2
  | .dateType => 3
  | .numberType => 4
  | .minType => 5

/-- `IDBKey::compareTypes` -/
def compareTypes (a b : IDBKeyType) : Int := b.number - a.number

/-- The keys that can be created; there is none of type `MinType`. -/
inductive IDBKey
  | invalid
  | array (keys : List IDBKey)
  | string (value : WString)
  | date (value : Double)
  | number (value : Double)

namespace IDBKey

/-- Induction over the elements of arrays. -/
@[elab_as_elim, induction_eliminator]
theorem induction {motive : IDBKey → Prop} (invalid : motive .invalid)
    (array : ∀ keys, (∀ key ∈ keys, motive key) → motive (.array keys))
    (string : ∀ value, motive (.string value)) (date : ∀ value, motive (.date value))
    (number : ∀ value, motive (.number value)) (key : IDBKey) : motive key :=
  @IDBKey.rec motive (fun keys => ∀ key ∈ keys, motive key)
    invalid array string date number
    (fun _ member => absurd member List.not_mem_nil)
    (fun _ _ first others => List.forall_mem_cons.2 ⟨first, others⟩)
    key

def type : IDBKey → IDBKeyType
  | .invalid => .invalidType
  | .array _ => .arrayType
  | .string _ => .stringType
  | .date _ => .dateType
  | .number _ => .numberType

mutual

def isValid : IDBKey → Bool
  | .invalid => false
  | .array keys => allValid keys
  | .string _ => true
  | .date _ => true
  | .number _ => true

def allValid : List IDBKey → Bool
  | [] => true
  | key :: keys => isValid key && allValid keys

end

mutual

/-- The length of a string is an `unsigned`, and the size of a vector is a
`size_t` that is passed on as an `int64_t`. -/
def fits : IDBKey → Bool
  | .invalid => true
  | .array keys => decide (keys.length < 2 ^ 63) && allFit keys
  | .string value => decide (value.length < 2 ^ 32)
  | .date _ => true
  | .number _ => true

def allFit : List IDBKey → Bool
  | [] => true
  | key :: keys => fits key && allFit keys

end

end IDBKey

variable (keys : List IDBKey)

theorem IDBKey.allValid_iff : allValid keys = true ↔ ∀ key ∈ keys, key.isValid = true := by
  induction keys with
  | nil => simp [allValid]
  | cons key keys ih => rw [allValid, Bool.and_eq_true, ih, List.forall_mem_cons]

theorem IDBKey.allFit_iff : allFit keys = true ↔ ∀ key ∈ keys, key.fits = true := by
  induction keys with
  | nil => simp [allFit]
  | cons key keys ih => rw [allFit, Bool.and_eq_true, ih, List.forall_mem_cons]

/-- A valid key as it can be in memory. -/
structure ValidKey where
  key : IDBKey
  isValid : key.isValid = true
  fits : key.fits = true

/-- The order of UTF-16 strings that `codePointCompare` gives. -/
def codePointCompare : WString → WString → Int
  | [], [] => 0
  | [], _ :: _ => -1
  | _ :: _, [] => 1
  | first :: firsts, second :: seconds =>
    if first = second then codePointCompare firsts seconds
    else if second < first then 1
    else -1

namespace IDBKey

mutual

def compare : IDBKey → IDBKey → Int
  | .array keys, .array others => compareArrays keys others
  | .string value, .string other => -codePointCompare other value
  | .date value, .date other => if value.less other then -1 else if other.less value then 1 else 0
  | .number value, .number other =>
    if value.less other then -1 else if other.less value then 1 else 0
  | key, other =>
    if key.type ≠ other.type then
      if other.type.number < key.type.number then -1 else 1
    else
      0

/-- The loop over the elements and the comparison of the sizes. -/
def compareArrays : List IDBKey → List IDBKey → Int
  | [], [] => 0
  | [], _ :: _ => -1
  | _ :: _, [] => 1
  | key :: keys, other :: others =>
    if compare key other ≠ 0 then compare key other
    else compareArrays keys others

end

def isEqual (key other : IDBKey) : Bool := key.compare other = 0

end IDBKey

/-! ## Bytes and integers -/

/-- A parser of the bytes of a key. -/
abbrev Decoder := Parser UInt8

def encodeByte (byte : UInt8) : List UInt8 := [byte]

def decodeByte : Decoder UInt8 := Parser.token

/-- The loop of `encodeInt`; an `int64_t` has at most eight bytes. -/
def encodeIntLoop : Nat → Nat → List UInt8
  | 0, _ => []
  | count + 1, n =>
    UInt8.ofNat n ::
      if n >>> 8 = 0 then [] else encodeIntLoop count (n >>> 8)

def encodeInt (nParam : Int) : List UInt8 := encodeIntLoop 8 (nParam % 2 ^ 64).toNat

def decodeIntLoop (ret : BitVec 64) (shift : Nat) : List UInt8 → BitVec 64
  | [] => ret
  | byte :: bytes =>
    decodeIntLoop (ret ||| (BitVec.ofNat 64 byte.toNat <<< shift)) (shift + 8)
      bytes

def decodeInt (bytes : List UInt8) : Int := (decodeIntLoop 0 0 bytes).toInt

/-- The loop of `encodeVarInt`; 64 bits make at most ten groups of seven. -/
def encodeVarIntLoop : Nat → Nat → List UInt8
  | 0, _ => []
  | count + 1, n =>
    if n >>> 7 = 0 then
      [UInt8.ofNat (n &&& 0x7F)]
    else
      (UInt8.ofNat (n &&& 0x7F) ||| 0x80) :: encodeVarIntLoop count (n >>> 7)

def encodeVarInt (nParam : Int) : List UInt8 := encodeVarIntLoop 10 (nParam % 2 ^ 64).toNat

def decodeVarIntLoop (foundInt : BitVec 64) (shift : Nat) : Decoder Int
  | [] => none
  | byte :: bytes =>
    let found := foundInt ||| (BitVec.ofNat 64 (byte &&& 0x7F).toNat <<< shift)
    if byte &&& 0x80 = 0 then
      some (found.toInt, bytes)
    else
      decodeVarIntLoop found (shift + 7) bytes

def decodeVarInt : Decoder Int := decodeVarIntLoop 0 0

/-! ## Strings and doubles -/

/-- The backing store is UTF-16BE. -/
def encodeString (text : WString) : List UInt8 :=
  text.flatMap fun unit => [UInt8.ofNat (unit.toNat / 256), UInt8.ofNat (unit.toNat % 256)]

def decodeString : List UInt8 → WString
  | high :: low :: bytes => UInt16.ofNat (high.toNat * 256 + low.toNat) :: decodeString bytes
  | _ => []

def encodeStringWithLength (text : WString) : List UInt8 :=
  encodeVarInt text.length ++ encodeString text

/-- The bytes of a payload of so many code units.  A negative length is taken
for one that goes past the limit; the source asserts that there is none. -/
def stringBytes (length : Int) : Decoder (List UInt8) :=
  if length < 0 then failure else Parser.exactly (length * 2).toNat

def decodeStringWithLength : Decoder WString := do
  let length ← decodeVarInt
  let bytes ← stringBytes length
  pure (decodeString bytes)

/-- The bytes of a double in the order of the machine, low ones first. -/
def encodeDouble (double : Double) : List UInt8 :=
  (List.range 8).map fun index => UInt8.ofNat (double.bits.toNat >>> (8 * index))

def decodeDouble : Decoder Double := do
  let bytes ← Parser.exactly 8
  pure ⟨UInt64.ofBitVec (decodeIntLoop 0 0 bytes)⟩

/-! ## Keys as bytes -/

def idbKeyNullTypeByte : UInt8 := 0
def idbKeyStringTypeByte : UInt8 := 1
def idbKeyDateTypeByte : UInt8 := 2
def idbKeyNumberTypeByte : UInt8 := 3
def idbKeyArrayTypeByte : UInt8 := 4
def idbKeyMinKeyTypeByte : UInt8 := 5

def maxIDBKey : List UInt8 := encodeByte idbKeyNullTypeByte

def minIDBKey : List UInt8 := encodeByte idbKeyMinKeyTypeByte

mutual

def encodeIDBKey : IDBKey → List UInt8
  | .invalid => encodeByte idbKeyNullTypeByte
  | .array keys => encodeByte idbKeyArrayTypeByte ++ encodeVarInt keys.length ++ encodeIDBKeys keys
  | .string value => encodeByte idbKeyStringTypeByte ++ encodeStringWithLength value
  | .date value => encodeByte idbKeyDateTypeByte ++ encodeDouble value
  | .number value => encodeByte idbKeyNumberTypeByte ++ encodeDouble value

def encodeIDBKeys : List IDBKey → List UInt8
  | [] => []
  | key :: keys => encodeIDBKey key ++ encodeIDBKeys keys

end

theorem encodeIDBKeys_eq : encodeIDBKeys keys = (keys.map encodeIDBKey).flatten := by
  induction keys with
  | nil => rfl
  | cons key keys ih => rw [encodeIDBKeys, ih, List.map_cons, List.flatten_cons]

/-- The payload behind a type byte; `element` decodes the elements of an
array. -/
def decodeIDBKeyPayload (type : UInt8) (element : Decoder IDBKey) : Decoder IDBKey :=
  if type = idbKeyNullTypeByte then
    pure .invalid
  else if type = idbKeyArrayTypeByte then do
    let length ← decodeVarInt
    if length < 0 then
      failure
    else do
      let keys ← element.times length.toNat
      pure (.array keys)
  else if type = idbKeyStringTypeByte then do
    let value ← decodeStringWithLength
    pure (.string value)
  else if type = idbKeyDateTypeByte then do
    let value ← decodeDouble
    pure (.date value)
  else if type = idbKeyNumberTypeByte then do
    let value ← decodeDouble
    pure (.number value)
  else
    failure

def decodeIDBKey : Decoder IDBKey := Parser.nested decodeIDBKeyPayload

/-- Skip over the payload behind a type byte.  A byte that is no type byte has
none. -/
def skipIDBKeyPayload (type : UInt8) (element : Decoder Unit) : Decoder Unit :=
  if type = idbKeyArrayTypeByte then do
    let length ← decodeVarInt
    if length < 0 then
      failure
    else do
      let _ ← element.times length.toNat
      pure ()
  else if type = idbKeyStringTypeByte then do
    let length ← decodeVarInt
    let _ ← stringBytes length
    pure ()
  else if type = idbKeyDateTypeByte ∨ type = idbKeyNumberTypeByte then do
    let _ ← (Parser.exactly 8 : Decoder (List UInt8))
    pure ()
  else
    pure ()

/-- The bytes of the key in front. -/
def extractEncodedIDBKey : Decoder (List UInt8) := (Parser.nested skipIDBKeyPayload).taken

end IndexedDB
end PalmWebKit
