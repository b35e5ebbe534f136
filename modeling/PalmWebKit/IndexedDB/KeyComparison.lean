import PalmWebKit.IndexedDB.KeyOrder

/-!
# Comparing encoded keys

Two encodings are compared without decoding them.  The comparison has the sign
of the comparison of the keys, and it runs to the ends of both encodings when
the keys are equal.
-/

namespace PalmWebKit
namespace IndexedDB

open List SignComparison

/-! ## The comparison -/

/-- A computation that takes bytes off the fronts of two encodings. -/
abbrev Comparer := StateT (List UInt8 × List UInt8) Option

namespace Comparer

variable {Value : Type}

/-- Decode a value from the first encoding. -/
def first (decoder : Decoder Value) : Comparer Value := fun encodings =>
  (decoder encodings.1).map fun result => (result.1, result.2, encodings.2)

/-- Decode a value from the second encoding. -/
def second (decoder : Decoder Value) : Comparer Value := fun encodings =>
  (decoder encodings.2).map fun result => (result.1, encodings.1, result.2)

/-- Compare up to so many elements until two of them differ. -/
def elements (compare : Comparer Int) : Nat → Comparer Int
  | 0 => pure 0
  | count + 1 => do
      let cmp ← compare
      if cmp ≠ 0 then pure cmp else elements compare count

end Comparer

/-- The difference of the first two bytes that differ. -/
def memcmp : List UInt8 → List UInt8 → Int
  | first :: firsts, second :: seconds =>
    if first = second then memcmp firsts seconds
    else (first.toNat : Int) - second.toNat
  | _, _ => 0

def compareEncodedStringsWithLength : Comparer Int := do
  let lenP ← Comparer.first decodeVarInt
  let lenQ ← Comparer.second decodeVarInt
  let startP ← Comparer.first (stringBytes lenP)
  let startQ ← Comparer.second (stringBytes lenQ)
  let lmin := if lenP < lenQ then lenP else lenQ
  let x := memcmp (startP.take (lmin * 2).toNat) (startQ.take (lmin * 2).toNat)
  if x ≠ 0 then
    pure x
  else if lenP = lenQ then
    pure 0
  else
    pure (if lenP > lenQ then 1 else -1)

def keyTypeByteToKeyType (type : UInt8) : IDBKeyType :=
  if type = idbKeyNullTypeByte then .invalidType
  else if type = idbKeyArrayTypeByte then .arrayType
  else if type = idbKeyStringTypeByte then .stringType
  else if type = idbKeyDateTypeByte then .dateType
  else if type = idbKeyNumberTypeByte then .numberType
  else if type = idbKeyMinKeyTypeByte then .minType
  else .invalidType

/-- What the two lengths say after the elements have been compared. -/
def compareLengths (lengthA lengthB cmp : Int) : Int :=
  if cmp ≠ 0 then cmp
  else if lengthA < lengthB then -1
  else if lengthA > lengthB then 1
  else 0

/-- The comparison of the payloads behind equal types; `element` compares the
elements of arrays. -/
def compareEncodedPayloads (typeA : UInt8) (element : Comparer Int) : Comparer Int :=
  if typeA = idbKeyNullTypeByte ∨ typeA = idbKeyMinKeyTypeByte then
    pure 0
  else if typeA = idbKeyArrayTypeByte then do
    let lengthA ← Comparer.first decodeVarInt
    let lengthB ← Comparer.second decodeVarInt
    if lengthA < 0 ∨ lengthB < 0 then
      pure 0
    else do
      let cmp ← Comparer.elements element (min lengthA lengthB).toNat
      pure (compareLengths lengthA lengthB cmp)
  else if typeA = idbKeyStringTypeByte then
    compareEncodedStringsWithLength
  else if typeA = idbKeyDateTypeByte ∨ typeA = idbKeyNumberTypeByte then do
    let d ← Comparer.first decodeDouble
    let e ← Comparer.second decodeDouble
    pure (if d.less e then -1 else if e.less d then 1 else 0)
  else
    pure 0

/-- The comparison of keys nested at most so deep.  It fails where an encoding
ends too early. -/
def compareEncodedIDBKeysWithin : Nat → Comparer Int
  | 0 => failure
  | depth + 1 => do
      let typeA ← Comparer.first decodeByte
      let typeB ← Comparer.second decodeByte
      let x := compareTypes (keyTypeByteToKeyType typeA)
        (keyTypeByteToKeyType typeB)
      if x ≠ 0 then
        pure x
      else
        compareEncodedPayloads typeA (compareEncodedIDBKeysWithin depth)

/-- The comparison of the keys in front of two encodings, and what is left of
both.  Every level of nesting takes a byte of the first one. -/
def compareEncodedIDBKeysAt : Comparer Int := fun encodings =>
  compareEncodedIDBKeysWithin encodings.1.length encodings

/-- The comparison of two vectors, zero when one is no encoded key. -/
def compareEncodedIDBKeys (keyA keyB : List UInt8) : Int :=
  match compareEncodedIDBKeysAt (keyA, keyB) with
  | none => 0
  | some (x, _) => x

/-! ## Agreement with a comparison of values -/

namespace Comparer

variable {Value : Type}

/-- In front of every continuation the comparison of two texts has the sign of
an integer, and it stops behind both texts when it finds no difference. -/
def Agrees (comparer : Comparer Int) (textA textB : List UInt8) (expected : Int) : Prop :=
  ∀ restA restB, ∃ x remaining, comparer (textA ++ restA, textB ++ restB) = some (x, remaining) ∧
      x.sign = expected.sign ∧
      (x = 0 → remaining = (restA, restB))

theorem bind_apply {First Second : Type} (comparer : Comparer First)
    (next : First → Comparer Second) (encodings : List UInt8 × List UInt8) :
    (comparer >>= next) encodings =
      (comparer encodings).bind fun result => next result.1 result.2 := rfl

namespace Agrees

theorem pure_nil {x expected : Int} (sameSign : x.sign = expected.sign) :
    (pure x : Comparer Int).Agrees [] [] expected :=
  fun restA restB => ⟨x, (restA, restB), rfl, sameSign, fun _ => rfl⟩

/-- A difference ends the comparison wherever it is. -/
theorem pure_ne_zero {x expected : Int} (difference : x ≠ 0) (sameSign : x.sign = expected.sign)
    (textA textB : List UInt8) : (pure x : Comparer Int).Agrees textA textB expected :=
  fun _ _ => ⟨x, _, rfl, sameSign, fun same => absurd same difference⟩

variable
  {decoder : Decoder Value}
  {value : Value}
  {expected : Int}

variable {text textA textB : List UInt8} {next : Value → Comparer Int}

theorem first_bind (reads : decoder.Reads text value)
    (agrees : (next value).Agrees textA textB expected) :
    (Comparer.first decoder >>= next).Agrees (text ++ textA) textB expected := by
  intro restA restB
  obtain ⟨x, remaining, result, rest⟩ := agrees restA restB
  refine ⟨x, remaining, ?_, rest⟩
  rw [bind_apply, Comparer.first, append_assoc, reads]
  exact result

theorem second_bind (reads : decoder.Reads text value)
    (agrees : (next value).Agrees textA textB expected) :
    (Comparer.second decoder >>= next).Agrees textA (text ++ textB) expected := by
  intro restA restB
  obtain ⟨x, remaining, result, rest⟩ := agrees restA restB
  refine ⟨x, remaining, ?_, rest⟩
  rw [bind_apply, Comparer.second, append_assoc, reads]
  exact result

/-- Two last values, one of each encoding, decide the comparison. -/
theorem last {Other : Type} {otherDecoder : Decoder Other} {text otherText : List UInt8}
    {other : Other} (result : Value → Other → Int) (reads : decoder.Reads text value)
    (otherReads : otherDecoder.Reads otherText other)
    (sameSign : (result value other).sign = expected.sign) :
    (Comparer.first decoder >>= fun value => Comparer.second otherDecoder >>=
      fun other => pure (result value other)).Agrees text otherText expected := by
  rw [← append_nil text, ← append_nil otherText]
  exact first_bind reads (second_bind otherReads (pure_nil sameSign))

/-- The comparison goes on behind two texts without a difference. -/
theorem unless_ne_zero {comparer next : Comparer Int} {textA textB moreA moreB : List UInt8}
    {expected more : Int} (agrees : comparer.Agrees textA textB expected)
    (nextAgrees : expected = 0 → next.Agrees moreA moreB more) :
    (comparer >>= fun x => if x ≠ 0 then pure x else next).Agrees
      (textA ++ moreA) (textB ++ moreB)
      (if expected ≠ 0 then expected else more) := by
  intro restA restB
  obtain ⟨x, remaining, result, sameSign, same⟩ := agrees (moreA ++ restA) (moreB ++ restB)
  have zero : x = 0 ↔ expected = 0 := by
    rw [← Int.sign_eq_zero_iff_zero, sameSign, Int.sign_eq_zero_iff_zero]
  rw [bind_apply, append_assoc, append_assoc, result, Option.bind_some]
  by_cases difference : x = 0
  · rw [if_neg (not_not.2 difference), if_neg (not_not.2 (zero.1 difference)), same difference]
    exact nextAgrees (zero.1 difference) restA restB
  · rw [if_pos difference, if_pos (mt zero.2 difference)]
    exact ⟨x, remaining, rfl, sameSign, fun equal => absurd equal difference⟩

end Agrees

end Comparer

/-! ## Strings -/

theorem memcmp_nil_left (seconds : List UInt8) : memcmp [] seconds = 0 := by
  rw [memcmp]
  simp

theorem memcmp_nil_right (firsts : List UInt8) : memcmp firsts [] = 0 := by
  rw [memcmp]
  simp

/-- Bytes beyond the shorter list do not count. -/
theorem memcmp_take {firsts seconds : List UInt8} {count : Nat}
    (enough : min firsts.length seconds.length ≤ count) :
    memcmp (firsts.take count) (seconds.take count) = memcmp firsts seconds := by
  induction firsts generalizing seconds count with
  | nil => rw [take_nil, memcmp_nil_left, memcmp_nil_left]
  | cons first firsts ih =>
    cases seconds with
    | nil => rw [take_nil, memcmp_nil_right, memcmp_nil_right]
    | cons second seconds =>
      simp only [length_cons] at enough
      obtain ⟨count, rfl⟩ : ∃ below, count = below + 1 :=
        Nat.exists_eq_add_one_of_ne_zero (by omega)
      rw [take_succ_cons, take_succ_cons, memcmp, memcmp, ih (by omega)]

theorem encodeString_nil : encodeString [] = [] := rfl

theorem encodeString_cons (unit : UChar) (text : WString) : encodeString (unit :: text) =
      UInt8.ofNat (unit.toNat / 256) :: UInt8.ofNat (unit.toNat % 256) ::
        encodeString text := rfl

theorem sign_sub_natCast {first second : Nat} (ne : first ≠ second) :
    ((first : Int) - second).sign = if second < first then 1 else -1 := by
  rcases lt_or_gt_of_ne ne with before | after
  · rw [if_neg (lt_asymm before)]
    exact Int.sign_eq_neg_one_of_neg (by omega)
  · rw [if_pos after]
    exact Int.sign_eq_one_of_pos (by omega)

/-- The first two bytes decide as the code units do. -/
theorem sign_memcmp_unit {unit other : UChar} (ne : unit ≠ other)
    (bytes otherBytes : List UInt8) :
    (memcmp (UInt8.ofNat (unit.toNat / 256) :: UInt8.ofNat (unit.toNat % 256) :: bytes)
      (UInt8.ofNat (other.toNat / 256) :: UInt8.ofNat (other.toNat % 256) ::
        otherBytes)).sign = if other < unit then 1 else -1 := by
  have small := unit.toNat_lt
  have otherSmall := other.toNat_lt
  have apart : unit.toNat ≠ other.toNat := mt UInt16.toNat_inj.1 ne
  have high : ∀ number < 65536, (UInt8.ofNat (number / 256)).toNat = number / 256 := by
    intro number below
    rw [UInt8.toNat_ofNat']
    omega
  have low : ∀ number, (UInt8.ofNat (number % 256)).toNat = number % 256 := by
    intro number
    rw [UInt8.toNat_ofNat']
    omega
  simp only [memcmp, ← UInt8.toNat_inj, high _ small, high _ otherSmall, low,
    UInt16.lt_iff_toNat_lt]
  by_cases highs : unit.toNat / 256 = other.toNat / 256
  · have lows : unit.toNat % 256 ≠ other.toNat % 256 := by omega
    rw [if_pos highs, if_neg lows, sign_sub_natCast lows]
    exact if_congr (by omega) rfl rfl
  · rw [if_neg highs, sign_sub_natCast highs]
    exact if_congr (by omega) rfl rfl

theorem compareLengths_succ (lengthA lengthB : Nat) (cmp : Int) :
    compareLengths (lengthA + 1 : Nat) (lengthB + 1 : Nat) cmp =
      compareLengths lengthA lengthB cmp := by
  simp only [compareLengths]
  split_ifs <;> omega

/-- Bytes and then lengths compare as the code points do. -/
theorem sign_compareLengths_memcmp (text other : WString) : (compareLengths text.length other.length
      (memcmp (encodeString text) (encodeString other))).sign =
      (codePointCompare text other).sign := by
  induction text generalizing other with
  | nil =>
    cases other with
    | nil => rfl
    | cons unit other =>
      rw [encodeString_nil, memcmp_nil_left, compareLengths, codePointCompare,
        if_neg (by simp), if_pos (by simp)]
  | cons unit text ih =>
    cases other with
    | nil =>
      rw [encodeString_nil, memcmp_nil_right, compareLengths, codePointCompare,
        if_neg (by simp), if_neg (by simp; omega),
        if_pos (by simp)]
    | cons otherUnit other =>
      rw [encodeString_cons, encodeString_cons, codePointCompare]
      by_cases same : unit = otherUnit
      · subst same
        rw [if_pos rfl, memcmp, if_pos rfl, memcmp, if_pos rfl, length_cons, length_cons,
          compareLengths_succ, ih]
      · have sign := sign_memcmp_unit same (encodeString text)
          (encodeString other)
        rw [if_neg same, compareLengths, if_pos, sign]
        · split_ifs <;> rfl
        · intro zero
          rw [zero] at sign
          split_ifs at sign <;> cases sign

/-- The end of the comparison of two strings. -/
theorem pure_compareLengths (lengthP lengthQ x : Int) : (if x ≠ 0 then pure x
      else if lengthP = lengthQ then pure 0
      else pure (if lengthP > lengthQ then 1 else -1) : Comparer Int) =
      pure (compareLengths lengthP lengthQ x) := by
  rw [compareLengths]
  split_ifs <;> first | rfl | omega

theorem compareEncodedStringsWithLength_agrees {text other : WString} (short : text.length < 2 ^ 32)
    (otherShort : other.length < 2 ^ 32) :
    compareEncodedStringsWithLength.Agrees (encodeStringWithLength text)
      (encodeStringWithLength other) (codePointCompare text other) := by
  have enough : min (encodeString text).length (encodeString other).length ≤
      ((if (text.length : Int) < other.length then (text.length : Int)
        else other.length) * 2).toNat := by
    rw [length_encodeString, length_encodeString]
    split_ifs <;> omega
  rw [encodeStringWithLength, encodeStringWithLength]
  refine .first_bind (decodeVarInt_encodeVarInt_length (by omega)) ?_
  refine .second_bind (decodeVarInt_encodeVarInt_length (by omega)) ?_
  rw [← append_nil (encodeString text), ← append_nil (encodeString other)]
  refine .first_bind (stringBytes_encodeString text) ?_
  refine .second_bind (stringBytes_encodeString other) ?_
  simp only [memcmp_take enough, pure_compareLengths]
  exact .pure_nil (sign_compareLengths_memcmp text other)

/-! ## Arrays -/

/-- The lengths count only when no elements differ. -/
theorem elements_succ_bind (element : Comparer Int) (count lengthA lengthB : Nat) :
    (Comparer.elements element (count + 1) >>= fun cmp =>
      pure (compareLengths (lengthA + 1 : Nat) (lengthB + 1 : Nat) cmp)) =
      element >>= fun cmp =>
        if cmp ≠ 0 then pure cmp
        else Comparer.elements element count >>= fun cmp =>
          pure (compareLengths lengthA lengthB cmp) := by
  simp only [Comparer.elements, bind_assoc, compareLengths_succ]
  refine bind_congr fun cmp => ?_
  by_cases difference : cmp ≠ 0
  · rw [if_pos difference, if_pos difference, pure_bind, compareLengths, if_pos difference]
  · rw [if_neg difference, if_neg difference]

theorem elements_agrees {element : Comparer Int} {keys others : List IDBKey}
    (agrees : ∀ key ∈ keys, ∀ other ∈ others,
      element.Agrees (encodeIDBKey key) (encodeIDBKey other) (key.compare other)) :
    (Comparer.elements element (min keys.length others.length) >>= fun cmp =>
      pure (compareLengths keys.length others.length cmp)).Agrees
      (encodeIDBKeys keys) (encodeIDBKeys others)
      (lexicographic IDBKey.compare keys others) := by
  induction keys generalizing others with
  | nil =>
    cases others with
    | nil => exact .pure_nil rfl
    | cons other others =>
      rw [length_nil, Nat.zero_min, Comparer.elements, pure_bind,
        compareLengths, if_neg (by decide), if_pos (by simp)]
      exact .pure_ne_zero (by decide) rfl _ _
  | cons key keys ih =>
    cases others with
    | nil =>
      rw [length_nil, Nat.min_zero, Comparer.elements, pure_bind,
        compareLengths, if_neg (by decide), if_neg (by simp; omega),
        if_pos (by simp)]
      exact .pure_ne_zero (by decide) rfl _ _
    | cons other others =>
      rw [length_cons, length_cons, Nat.succ_min_succ,
        elements_succ_bind, encodeIDBKeys, encodeIDBKeys, lexicographic]
      refine .unless_ne_zero
        (agrees key (.head _) other (.head _)) fun _ => ?_
      exact ih fun key member other otherMember =>
        agrees key (.tail _ member)
          other (.tail _ otherMember)

/-! ## Keys -/

/-- The byte in front of an encoded key. -/
def typeByte : IDBKey → UInt8
  | .invalid => idbKeyNullTypeByte
  | .array _ => idbKeyArrayTypeByte
  | .string _ => idbKeyStringTypeByte
  | .date _ => idbKeyDateTypeByte
  | .number _ => idbKeyNumberTypeByte

/-- The bytes behind the type. -/
def payload : IDBKey → List UInt8
  | .invalid => []
  | .array keys => encodeVarInt keys.length ++ encodeIDBKeys keys
  | .string value => encodeStringWithLength value
  | .date value => encodeDouble value
  | .number value => encodeDouble value

theorem encodeIDBKey_eq (key : IDBKey) : encodeIDBKey key = [typeByte key] ++ payload key := by
  cases key <;> rfl

theorem keyTypeByteToKeyType_typeByte (key : IDBKey) :
    keyTypeByteToKeyType (typeByte key) = key.type := by
  cases key <;> rfl

variable {key other : IDBKey}

/-- Keys of one type are compared by their payloads. -/
theorem compareEncodedPayloads_agrees {element : Comparer Int} (sameType : other.type = key.type)
    (fits : key.fits = true) (otherFits : other.fits = true)
    (elements : ∀ keys others, key = .array keys → other = .array others →
      ∀ key ∈ keys, ∀ other ∈ others,
        element.Agrees (encodeIDBKey key) (encodeIDBKey other) (key.compare other)) :
    (compareEncodedPayloads (typeByte key) element).Agrees (payload key)
      (payload other) (key.compare other) := by
  cases key with
  | invalid =>
    rw [IDBKey.eq_invalid_of_type sameType]
    exact .pure_nil rfl
  | array keys =>
    obtain ⟨others, rfl⟩ := IDBKey.eq_array_of_type sameType
    have short := decide_eq_true_iff.1 ((Bool.and_eq_true _ _).mp fits).1
    have otherShort := decide_eq_true_iff.1 ((Bool.and_eq_true _ _).mp otherFits).1
    have agrees := elements_agrees (elements keys others rfl rfl)
    rw [IDBKey.compare_array]
    refine .first_bind (decodeVarInt_encodeVarInt_length short) ?_
    refine .second_bind (decodeVarInt_encodeVarInt_length otherShort) ?_
    rw [if_neg (by omega)]
    have count : (min (keys.length : Int) others.length).toNat =
        min keys.length others.length := by omega
    rw [count]
    exact agrees
  | string value =>
    obtain ⟨otherValue, rfl⟩ := IDBKey.eq_string_of_type sameType
    rw [IDBKey.compare_string]
    exact compareEncodedStringsWithLength_agrees (decide_eq_true_iff.1 fits)
      (decide_eq_true_iff.1 otherFits)
  | date value =>
    obtain ⟨otherValue, rfl⟩ := IDBKey.eq_date_of_type sameType
    exact .last Double.compare (decodeDouble_encodeDouble value)
      (decodeDouble_encodeDouble otherValue) rfl
  | number value =>
    obtain ⟨otherValue, rfl⟩ := IDBKey.eq_number_of_type sameType
    exact .last Double.compare (decodeDouble_encodeDouble value)
      (decodeDouble_encodeDouble otherValue) rfl

theorem compareTypes_eq_zero_iff {type other : IDBKeyType} :
    compareTypes type other = 0 ↔ other = type := by
  cases type <;> cases other <;> decide

/-- The difference of the types has the sign of the comparison. -/
theorem sign_compareTypes (ne : other.type ≠ key.type) :
    (compareTypes key.type other.type).sign = (key.compare other).sign := by
  rw [IDBKey.compare_of_type_ne (Ne.symm ne), compareTypes]
  have numbers : key.type.number ≠ other.type.number := fun same =>
    ne (IDBKey.number_type_inj.1 same).symm
  split_ifs with before
  · exact Int.sign_eq_neg_one_of_neg (by omega)
  · exact Int.sign_eq_one_of_pos (by omega)

theorem length_encodeIDBKey_le {key : IDBKey} {keys : List IDBKey} (member : key ∈ keys) :
    (encodeIDBKey key).length ≤ (encodeIDBKeys keys).length := by
  rw [encodeIDBKeys_eq]
  exact (sublist_flatten_of_mem (mem_map_of_mem member)).length_le

/-- Enough depth for the first key is enough for both. -/
theorem compareEncodedIDBKeysWithin_agrees {depth : Nat} (fits : key.fits = true)
    (otherFits : other.fits = true) (deep : (encodeIDBKey key).length ≤ depth) :
    (compareEncodedIDBKeysWithin depth).Agrees (encodeIDBKey key)
      (encodeIDBKey other) (key.compare other) := by
  induction depth generalizing key other with
  | zero =>
    rw [encodeIDBKey_eq] at deep
    simp at deep
  | succ depth ih =>
    rw [encodeIDBKey_eq, encodeIDBKey_eq]
    refine .first_bind (Parser.Reads.token _) (.second_bind (Parser.Reads.token _) ?_)
    rw [keyTypeByteToKeyType_typeByte, keyTypeByteToKeyType_typeByte]
    by_cases sameType : other.type = key.type
    · have noDifference := compareTypes_eq_zero_iff.2 sameType
      simp only [noDifference]
      rw [if_neg (by decide)]
      apply compareEncodedPayloads_agrees sameType fits otherFits
      rintro keys others rfl rfl key member other otherMember
      have below := length_encodeIDBKey_le member
      apply ih
      · exact (IDBKey.allFit_iff keys).1 ((Bool.and_eq_true _ _).mp fits).2 key member
      · exact (IDBKey.allFit_iff others).1 ((Bool.and_eq_true _ _).mp otherFits).2
          other otherMember
      · rw [encodeIDBKey_eq, payload] at deep
        simp at deep
        omega
    · have difference := mt compareTypes_eq_zero_iff.1 sameType
      simp only
      rw [if_pos difference]
      exact .pure_ne_zero difference (sign_compareTypes sameType) _ _

/-! ## The order of the encoded keys -/

/-- A valid key without NaN. -/
structure OrderedKey extends ValidKey where
  noNaN : key.noNaN = true

namespace OrderedKey

/-- The comparison of the encodings of two keys. -/
def compareEncoded (key other : OrderedKey) : Int :=
  compareEncodedIDBKeys (encodeIDBKey key.key) (encodeIDBKey other.key)

variable (key other : OrderedKey)

/-- The comparison runs on whatever follows the two encodings. -/
theorem compareEncodedIDBKeysAt_agrees :
    compareEncodedIDBKeysAt.Agrees (encodeIDBKey key.key) (encodeIDBKey other.key)
      (key.key.compare other.key) := by
  intro restA restB
  apply compareEncodedIDBKeysWithin_agrees key.fits other.fits
  rw [length_append]
  exact Nat.le_add_right _ _

theorem compareEncoded_spec : (key.compareEncoded other).sign = (key.key.compare other.key).sign ∧
      (key.compareEncoded other = 0 →
        compareEncodedIDBKeysAt (encodeIDBKey key.key, encodeIDBKey other.key) =
          some (0, [], [])) := by
  obtain ⟨x, remaining, result, sameSign, same⟩ := compareEncodedIDBKeysAt_agrees key other [] []
  rw [append_nil, append_nil] at result
  rw [compareEncoded, compareEncodedIDBKeys, result]
  refine ⟨sameSign, ?_⟩
  rintro rfl
  rw [same rfl]

theorem compareEncoded_eq_zero_iff :
    key.compareEncoded other = 0 ↔ key.key.compare other.key = 0 := by
  rw [← Int.sign_eq_zero_iff_zero, (compareEncoded_spec key other).1, Int.sign_eq_zero_iff_zero]

theorem compareEncoded_nonpos_iff :
    key.compareEncoded other ≤ 0 ↔ key.key.compare other.key ≤ 0 := by
  rw [← not_lt, ← not_lt, ← Int.sign_eq_one_iff_pos, ← Int.sign_eq_one_iff_pos,
    (compareEncoded_spec key other).1]

theorem compareEncoded_swap :
    (other.compareEncoded key).sign = -(key.compareEncoded other).sign := by
  rw [(compareEncoded_spec other key).1, (compareEncoded_spec key other).1,
    IDBKey.compare_swap key.noNaN other.noNaN, Int.sign_neg]

theorem compareEncoded_transitiveAt (first second third : OrderedKey) :
    TransitiveAt compareEncoded first second third := by
  have keys := IDBKey.compare_transitiveAt first.noNaN second.noNaN third.noNaN
  simpa only [TransitiveAt, compareEncoded_nonpos_iff, compareEncoded_eq_zero_iff]
    using keys

end OrderedKey

/-- The order of the encodings is the order of the keys. -/
structure EncodedOrderIsKeyOrder : Prop where
  sameSign : ∀ key other : OrderedKey,
    (key.compareEncoded other).sign = (key.key.compare other.key).sign
  consumed : ∀ key other : OrderedKey, key.compareEncoded other = 0 →
    compareEncodedIDBKeysAt (encodeIDBKey key.key, encodeIDBKey other.key) = some (0, [], [])
  consumedInFront : ∀ (key other : OrderedKey) (restA restB : List UInt8), ∃ x remaining,
      compareEncodedIDBKeysAt (encodeIDBKey key.key ++ restA,
        encodeIDBKey other.key ++ restB) = some (x, remaining) ∧
      x.sign = (key.key.compare other.key).sign ∧
      (x = 0 → remaining = (restA, restB))
  /-- Keys are equal but for the sign of a zero. -/
  equal : ∀ key other : OrderedKey, key.compareEncoded other = 0 ↔
    key.key.unsignedZeros = other.key.unsignedZeros
  isEqual : ∀ key other : OrderedKey, key.compareEncoded other = 0 ↔
    key.key.isEqual other.key = true
  total : ∀ key other : OrderedKey,
    (other.compareEncoded key).sign = -(key.compareEncoded other).sign
  transitive : ∀ first second third : OrderedKey,
    TransitiveAt OrderedKey.compareEncoded first second third
  ranked : ∀ key other : OrderedKey,
    other.key.type.number < key.key.type.number → key.compareEncoded other < 0

/-- Encoded keys are in the order of the keys. -/
theorem encodedOrder_eq_keyOrder : EncodedOrderIsKeyOrder where
  sameSign key other := (OrderedKey.compareEncoded_spec key other).1
  consumed key other := (OrderedKey.compareEncoded_spec key other).2
  consumedInFront := OrderedKey.compareEncodedIDBKeysAt_agrees
  equal key other := (OrderedKey.compareEncoded_eq_zero_iff key other).trans
    (IDBKey.compare_eq_zero_iff key.noNaN other.noNaN)
  isEqual key other := (OrderedKey.compareEncoded_eq_zero_iff key other).trans
    decide_eq_true_iff.symm
  total := OrderedKey.compareEncoded_swap
  transitive := OrderedKey.compareEncoded_transitiveAt
  ranked key other before := by
    rw [← Int.sign_eq_neg_one_iff_neg, (OrderedKey.compareEncoded_spec key other).1,
      IDBKey.compare_of_type_lt before]
    rfl

end IndexedDB
end PalmWebKit
