import PalmWebKit.IndexedDB.KeyCoding

/-!
# Decoding what was encoded

Integers, strings, doubles and keys are read back from their encodings, in
front of whatever follows, and skipping a key stops where decoding it does.
-/

namespace PalmWebKit
namespace IndexedDB

open List

/-! ## Integers -/

section Integers

/-- A digit or-ed in above the bits found so far is added. -/
theorem toNat_or_shiftLeft {found : BitVec 64} {digit shift : Nat}
    (foundSmall : found.toNat < 2 ^ shift) (noOverflow : found.toNat + digit * 2 ^ shift < 2 ^ 64) :
    (found ||| (BitVec.ofNat 64 digit <<< shift)).toNat =
      found.toNat + digit * 2 ^ shift := by
  have positive : 0 < 2 ^ shift := Nat.two_pow_pos shift
  have digitSmall : digit < 2 ^ 64 :=
    lt_of_le_of_lt (Nat.le_mul_of_pos_right digit positive) (by omega)
  rw [BitVec.toNat_or, BitVec.toNat_shiftLeft, BitVec.toNat_ofNat,
    Nat.mod_eq_of_lt digitSmall, Nat.shiftLeft_eq,
    Nat.mod_eq_of_lt (by omega), Nat.or_comm, ← Nat.shiftLeft_eq,
    ← Nat.shiftLeft_add_eq_or_of_lt foundSmall, Nat.shiftLeft_eq, Nat.add_comm]

/-- The next place after a digit below the base has been added. -/
theorem add_digit_lt {found digit base shift width : Nat} (isBase : base = 2 ^ width)
    (foundSmall : found < 2 ^ shift) (digitSmall : digit < base) :
    found + digit * 2 ^ shift < 2 ^ (shift + width) := by
  have atMost : (digit + 1) * 2 ^ shift ≤ base * 2 ^ shift := Nat.mul_le_mul_right _ digitSmall
  rw [Nat.add_mul, Nat.one_mul] at atMost
  rw [pow_add, ← isBase, Nat.mul_comm (2 ^ shift)]
  omega

/-- The remaining digits stand at the next place. -/
theorem add_digits_eq (found n shift width : Nat) :
    found + n % 2 ^ width * 2 ^ shift + n / 2 ^ width * 2 ^ (shift + width) =
      found + n * 2 ^ shift := by
  have split := Nat.mod_add_div n (2 ^ width)
  calc
    found + n % 2 ^ width * 2 ^ shift + n / 2 ^ width * 2 ^ (shift + width) =
        found + (n % 2 ^ width + 2 ^ width * (n / 2 ^ width)) * 2 ^ shift := by
      rw [pow_add]
      ring
    _ = found + n * 2 ^ shift := by rw [split]

variable {n shift : Nat}

/-- The lowest byte of a number is added, and the others stand at the next
place. -/
theorem decodeIntLoop_lowByte {ret : BitVec 64} (retSmall : ret.toNat < 2 ^ shift)
    (noOverflow : ret.toNat + n * 2 ^ shift < 2 ^ 64) :
    ∃ found : BitVec 64, found.toNat < 2 ^ (shift + 8) ∧
        found.toNat + n / 2 ^ 8 * 2 ^ (shift + 8) = ret.toNat + n * 2 ^ shift ∧
        ∀ bytes, decodeIntLoop ret shift (UInt8.ofNat n :: bytes) =
          decodeIntLoop found (shift + 8) bytes := by
  have digits := add_digits_eq ret.toNat n shift 8
  have found : (ret ||| (BitVec.ofNat 64 (UInt8.ofNat n).toNat <<< shift)).toNat =
      ret.toNat + n % 2 ^ 8 * 2 ^ shift := by
    rw [UInt8.toNat_ofNat']
    exact toNat_or_shiftLeft retSmall (by omega)
  refine ⟨_, ?_, ?_, fun bytes => rfl⟩
  · rw [found]
    exact add_digit_lt rfl retSmall (Nat.mod_lt n (by decide))
  · rw [found, digits]

theorem div_lt_of_lt_pow_succ {n base count : Nat} (enough : n < base ^ (count + 1)) :
    n / base < base ^ count := by
  rw [pow_succ, Nat.mul_comm] at enough
  exact Nat.div_lt_of_lt_mul enough

theorem toNat_decodeIntLoop {count n shift : Nat} {ret : BitVec 64}
    (retSmall : ret.toNat < 2 ^ shift) (noOverflow : ret.toNat + n * 2 ^ shift < 2 ^ 64)
    (enough : n < 256 ^ count) : (decodeIntLoop ret shift (encodeIntLoop count n)).toNat =
      ret.toNat + n * 2 ^ shift := by
  induction count generalizing n shift ret with
  | zero =>
    obtain rfl : n = 0 := by omega
    simp [encodeIntLoop, decodeIntLoop]
  | succ count ih =>
    obtain ⟨found, foundSmall, total, step⟩ := decodeIntLoop_lowByte retSmall noOverflow
    rw [encodeIntLoop, step, Nat.shiftRight_eq_div_pow, ← total]
    by_cases last : n / 2 ^ 8 = 0
    · rw [if_pos last, decodeIntLoop, last, Nat.zero_mul, Nat.add_zero]
    · rw [if_neg last]
      exact ih foundSmall (by rwa [total])
        (div_lt_of_lt_pow_succ enough)

theorem one_le_length_encodeIntLoop (count n : Nat) : 1 ≤ (encodeIntLoop (count + 1) n).length := by
  rw [encodeIntLoop, length_cons]
  exact Nat.le_add_left 1 _

/-- A small number needs few bytes. -/
theorem length_encodeIntLoop_le {count bytes n : Nat} (small : n < 256 ^ (bytes + 1)) :
    (encodeIntLoop count n).length ≤ bytes + 1 := by
  induction count generalizing bytes n with
  | zero => exact Nat.zero_le _
  | succ count ih =>
    rw [encodeIntLoop, length_cons, Nat.shiftRight_eq_div_pow]
    by_cases last : n / 2 ^ 8 = 0
    · rw [if_pos last, length_nil]
      omega
    · rw [if_neg last]
      cases bytes with
      | zero => exact absurd (Nat.div_eq_of_lt small) last
      | succ bytes =>
        apply Nat.succ_le_succ
        exact ih (div_lt_of_lt_pow_succ small)

theorem toNat_emod_of_nonneg {n : Int} (nonnegative : 0 ≤ n) (small : n < 2 ^ 63) :
    (n % 2 ^ 64).toNat = n.toNat := by
  rw [Int.emod_eq_of_lt nonnegative (by omega)]

theorem toInt_eq_of_toNat_eq {found : BitVec 64} {n : Int} (nonnegative : 0 ≤ n)
    (small : n < 2 ^ 63) (same : found.toNat = n.toNat) : found.toInt = n := by
  rw [BitVec.toInt_eq_toNat_of_lt (by omega), same, Int.toNat_of_nonneg nonnegative]

theorem decodeInt_encodeInt {n : Int} (nonnegative : 0 ≤ n) (small : n < 2 ^ 63) :
    decodeInt (encodeInt n) = n := by
  apply toInt_eq_of_toNat_eq nonnegative small
  rw [encodeInt, toNat_emod_of_nonneg nonnegative small, toNat_decodeIntLoop (by decide)]
  · simp
  · have zero : (0 : BitVec 64).toNat = 0 := rfl
    rw [zero, pow_zero, Nat.mul_one]
    omega
  · norm_num
    omega

theorem length_encodeInt {n : Int} {bytes : Nat} (nonnegative : 0 ≤ n) (small : n < 2 ^ 63)
    (fits : n.toNat < 256 ^ (bytes + 1)) :
    1 ≤ (encodeInt n).length ∧ (encodeInt n).length ≤ bytes + 1 := by
  rw [encodeInt, toNat_emod_of_nonneg nonnegative small]
  exact ⟨one_le_length_encodeIntLoop _ _, length_encodeIntLoop_le fits⟩

/-- A byte of a variable-length integer with its continuation bit. -/
theorem varIntByte (n : Nat) : ((UInt8.ofNat (n &&& 0x7F)) &&& 0x7F).toNat = n % 128 ∧
      (UInt8.ofNat (n &&& 0x7F)) &&& 0x80 = 0 ∧
      ((UInt8.ofNat (n &&& 0x7F) ||| 0x80) &&& 0x7F).toNat = n % 128 ∧
      (UInt8.ofNat (n &&& 0x7F) ||| 0x80) &&& 0x80 ≠ 0 := by
  have low : n &&& 0x7F = n % 128 := Nat.and_two_pow_sub_one_eq_mod n 7
  have all : ∀ digit : Fin 128, ((UInt8.ofNat digit.val) &&& 0x7F).toNat = digit.val ∧
        (UInt8.ofNat digit.val) &&& 0x80 = 0 ∧
        ((UInt8.ofNat digit.val ||| 0x80) &&& 0x7F).toNat = digit.val ∧
        (UInt8.ofNat digit.val ||| 0x80) &&& 0x80 ≠ 0 := by
    decide
  rw [low]
  exact all ⟨n % 128, Nat.mod_lt n (by decide)⟩

theorem decodeVarIntLoop_cons (foundInt : BitVec 64) (shift : Nat) (byte : UInt8)
    (bytes : List UInt8) : decodeVarIntLoop foundInt shift (byte :: bytes) =
      if byte &&& 0x80 = 0 then
        some ((foundInt ||| (BitVec.ofNat 64 (byte &&& 0x7F).toNat <<< shift)).toInt, bytes)
      else
        decodeVarIntLoop
          (foundInt ||| (BitVec.ofNat 64 (byte &&& 0x7F).toNat <<< shift))
          (shift + 7) bytes := rfl

/-- The last digit ends the loop. -/
theorem decodeVarIntLoop_last {foundInt : BitVec 64} (foundSmall : foundInt.toNat < 2 ^ shift)
    (noOverflow : foundInt.toNat + n * 2 ^ shift < 2 ^ 63) (small : n < 128) (rest : List UInt8) :
    decodeVarIntLoop foundInt shift (UInt8.ofNat (n &&& 0x7F) :: rest) =
      some (((foundInt.toNat + n * 2 ^ shift : Nat) : Int), rest) := by
  obtain ⟨digit, stop, -, -⟩ := varIntByte n
  rw [Nat.mod_eq_of_lt small] at digit
  have inRange : foundInt.toNat + n * 2 ^ shift < 2 ^ 64 := by omega
  have found := toNat_or_shiftLeft foundSmall inRange
  rw [decodeVarIntLoop_cons, if_pos stop, digit, BitVec.toInt_eq_toNat_of_lt (by omega), found]

/-- A digit with the continuation bit is added to what has been found. -/
theorem decodeVarIntLoop_continue {foundInt : BitVec 64} (foundSmall : foundInt.toNat < 2 ^ shift)
    (noOverflow : foundInt.toNat + n * 2 ^ shift < 2 ^ 63) :
    ∃ found : BitVec 64, found.toNat = foundInt.toNat + n % 2 ^ 7 * 2 ^ shift ∧
        ∀ rest, decodeVarIntLoop foundInt shift
            ((UInt8.ofNat (n &&& 0x7F) ||| 0x80) :: rest) =
          decodeVarIntLoop found (shift + 7) rest := by
  obtain ⟨-, -, digit, more⟩ := varIntByte n
  have fewer : n % 128 * 2 ^ shift ≤ n * 2 ^ shift := Nat.mul_le_mul_right _ (Nat.mod_le n 128)
  have inRange : foundInt.toNat + n % 128 * 2 ^ shift < 2 ^ 64 := by omega
  refine ⟨_, toNat_or_shiftLeft foundSmall inRange, ?_⟩
  intro rest
  rw [decodeVarIntLoop_cons, if_neg more, digit]
  rfl

/-- The loop finds the digits of a number that fits. -/
theorem decodeVarIntLoop_encodeVarIntLoop {count n shift : Nat} {foundInt : BitVec 64}
    (foundSmall : foundInt.toNat < 2 ^ shift) (noOverflow : foundInt.toNat + n * 2 ^ shift < 2 ^ 63)
    (enough : n < 128 ^ (count + 1)) :
    (decodeVarIntLoop foundInt shift).Reads (encodeVarIntLoop (count + 1) n)
      ((foundInt.toNat + n * 2 ^ shift : Nat) : Int) := by
  intro rest
  induction count generalizing n shift foundInt with
  | zero =>
    have small : n < 128 := by simpa using enough
    rw [encodeVarIntLoop, Nat.shiftRight_eq_div_pow, if_pos (Nat.div_eq_of_lt small)]
    exact decodeVarIntLoop_last foundSmall noOverflow small rest
  | succ count ih =>
    rw [encodeVarIntLoop, Nat.shiftRight_eq_div_pow]
    by_cases last : n / 2 ^ 7 = 0
    · rw [if_pos last]
      have small : n < 128 := by omega
      exact decodeVarIntLoop_last foundSmall noOverflow small rest
    · obtain ⟨found, foundEq, step⟩ := decodeVarIntLoop_continue foundSmall noOverflow
      have digits := add_digits_eq foundInt.toNat n shift 7
      have nextSmall := add_digit_lt (rfl : 2 ^ 7 = 2 ^ 7) foundSmall
        (Nat.mod_lt n (by decide))
      rw [← foundEq] at digits nextSmall
      rw [if_neg last, cons_append, step, ← digits]
      apply ih nextSmall
      · rwa [digits]
      · exact div_lt_of_lt_pow_succ enough

theorem decodeVarInt_encodeVarInt {n : Int} (nonnegative : 0 ≤ n) (small : n < 2 ^ 63) :
    decodeVarInt.Reads (encodeVarInt n) n := by
  have zero : (0 : BitVec 64).toNat = 0 := rfl
  have reads := @decodeVarIntLoop_encodeVarIntLoop 9 n.toNat 0 0 (by decide)
    (by rw [zero, pow_zero]; omega) (by norm_num; omega)
  rw [zero, pow_zero, Nat.mul_one, Nat.zero_add, Int.toNat_of_nonneg nonnegative]
    at reads
  rw [encodeVarInt, toNat_emod_of_nonneg nonnegative small]
  exact reads

end Integers

/-! ## Strings and doubles -/

variable (text : WString)

@[simp] theorem length_encodeString : (encodeString text).length = text.length * 2 := by
  induction text with
  | nil => rfl
  | cons unit text ih =>
    rw [encodeString, flatMap_cons, length_append, length_cons, ← encodeString, ih]
    simp only [length_cons, length_nil]
    omega

theorem decodeString_encodeString : decodeString (encodeString text) = text := by
  induction text with
  | nil => rfl
  | cons unit text ih =>
    have high : (UInt8.ofNat (unit.toNat / 256)).toNat = unit.toNat / 256 := by
      have small := unit.toNat_lt
      rw [UInt8.toNat_ofNat']
      omega
    have low : (UInt8.ofNat (unit.toNat % 256)).toNat = unit.toNat % 256 := by
      rw [UInt8.toNat_ofNat']
      omega
    have both : unit.toNat / 256 * 256 + unit.toNat % 256 = unit.toNat :=
      Nat.div_add_mod' unit.toNat 256
    change UInt16.ofNat (_ * 256 + _) :: decodeString (encodeString text) = _
    rw [high, low, both, UInt16.ofNat_toNat, ih]

theorem stringBytes_encodeString :
    (stringBytes text.length).Reads (encodeString text) (encodeString text) := by
  have doubled : ((text.length : Int) * 2).toNat = (encodeString text).length := by
    rw [length_encodeString]
    omega
  rw [stringBytes, if_neg (by omega), doubled]
  exact Parser.Reads.exactly _

theorem decodeStringWithLength_encodeStringWithLength {text : WString}
    (small : text.length < 2 ^ 32) :
    decodeStringWithLength.Reads (encodeStringWithLength text) text := by
  have length : decodeVarInt.Reads (encodeVarInt text.length) text.length :=
    decodeVarInt_encodeVarInt (by omega) (by omega)
  have payload := (stringBytes_encodeString text).bind_pure decodeString
  rw [decodeString_encodeString] at payload
  exact length.bind payload

/-- A fixed number of bytes of a number that has no more. -/
theorem toNat_decodeIntLoop_range {count n shift : Nat} {ret : BitVec 64}
    (retSmall : ret.toNat < 2 ^ shift) (noOverflow : ret.toNat + n * 2 ^ shift < 2 ^ 64)
    (enough : n < 256 ^ count) : (decodeIntLoop ret shift ((List.range count).map fun index =>
        UInt8.ofNat (n >>> (8 * index)))).toNat =
      ret.toNat + n * 2 ^ shift := by
  induction count generalizing n shift ret with
  | zero =>
    obtain rfl : n = 0 := by omega
    simp [decodeIntLoop]
  | succ count ih =>
    obtain ⟨found, foundSmall, total, step⟩ := decodeIntLoop_lowByte retSmall noOverflow
    have later : ∀ index, n >>> (8 * (index + 1)) = (n / 2 ^ 8) >>> (8 * index) := by
      intro index
      rw [Nat.mul_add, Nat.mul_one, Nat.add_comm, Nat.shiftRight_add, Nat.shiftRight_eq_div_pow n 8]
    rw [range_succ_eq_map, map_cons, map_map]
    simp only [Function.comp_def, Nat.mul_zero, Nat.shiftRight_zero, Nat.succ_eq_add_one, later]
    rw [step, ← total]
    exact ih foundSmall (by rwa [total])
      (div_lt_of_lt_pow_succ enough)

theorem decodeIntLoop_encodeDouble (double : Double) :
    decodeIntLoop 0 0 (encodeDouble double) = double.bits.toBitVec := by
  apply BitVec.eq_of_toNat_eq
  have zero : (0 : BitVec 64).toNat = 0 := rfl
  have small := double.bits.toNat_lt
  rw [encodeDouble, toNat_decodeIntLoop_range (by decide), zero, pow_zero,
    Nat.mul_one, Nat.zero_add]
  · rfl
  · rw [zero, pow_zero, Nat.mul_one]
    omega
  · norm_num
    omega

theorem decodeDouble_encodeDouble (double : Double) :
    decodeDouble.Reads (encodeDouble double) double := by
  have bytes : (encodeDouble double).length = 8 := rfl
  have payload := (Parser.Reads.exactly (encodeDouble double)).bind_pure
    fun taken => (⟨UInt64.ofBitVec (decodeIntLoop 0 0 taken)⟩ : Double)
  rw [decodeIntLoop_encodeDouble, bytes] at payload
  exact payload

/-! ## Keys -/

section Keys

/-- What reads each element reads an array of them. -/
theorem times_encodeIDBKeys {Value : Type} {parser : Decoder Value} {keys : List IDBKey}
    {result : IDBKey → Value} (each : ∀ key ∈ keys, parser.Reads (encodeIDBKey key) (result key)) :
    (parser.times keys.length).Reads (encodeIDBKeys keys) (keys.map result) := by
  have all : List.Forall₂ parser.Reads (keys.map encodeIDBKey) (keys.map result) := by
    rw [List.forall₂_map_left_iff, List.forall₂_map_right_iff, List.forall₂_same]
    exact each
  have reads := Parser.Reads.times all
  rwa [length_map, ← encodeIDBKeys_eq] at reads

theorem local_decodeVarIntLoop (foundInt : BitVec 64) (shift : Nat) :
    (decodeVarIntLoop foundInt shift).Local := by
  intro bytes value rest taken
  induction bytes generalizing foundInt shift with
  | nil => cases taken
  | cons byte bytes ih =>
    rw [decodeVarIntLoop_cons] at taken
    by_cases last : byte &&& 0x80 = 0
    · rw [if_pos last] at taken
      obtain ⟨rfl, rfl⟩ := Prod.mk.inj (Option.some.inj taken)
      refine ⟨[byte], rfl, ?_⟩
      intro rest
      rw [cons_append, decodeVarIntLoop_cons, if_pos last]
      rfl
    · rw [if_neg last] at taken
      obtain ⟨text, rfl, reads⟩ := ih _ _ taken
      refine ⟨byte :: text, rfl, ?_⟩
      intro rest
      rw [cons_append, decodeVarIntLoop_cons, if_neg last]
      exact reads rest

theorem local_decodeVarInt : decodeVarInt.Local := local_decodeVarIntLoop 0 0

theorem local_stringBytes (length : Int) : (stringBytes length).Local :=
  Parser.Local.ite Parser.Local.failure (Parser.Local.exactly _)

theorem local_decodeStringWithLength : decodeStringWithLength.Local :=
  local_decodeVarInt.bind fun length => (local_stringBytes length).bind fun _ => Parser.Local.pure _

theorem local_decodeDouble : decodeDouble.Local :=
  (Parser.Local.exactly 8).bind fun _ => Parser.Local.pure _

theorem uses_decodeIDBKeyPayload (type : UInt8) : Parser.Uses (decodeIDBKeyPayload type) := by
  refine Parser.Uses.ite (.of_local (.pure _)) (Parser.Uses.ite ?_
    (.of_local (.ite (local_decodeStringWithLength.bind fun _ => .pure _)
      (.ite (local_decodeDouble.bind fun _ => .pure _)
        (.ite (local_decodeDouble.bind fun _ => .pure _) .failure)))))
  refine (Parser.Uses.of_local local_decodeVarInt).bind fun length =>
    Parser.Uses.ite (.of_local .failure) ?_
  exact (Parser.Uses.times length.toNat).bind fun keys => .of_local (.pure (IDBKey.array keys))

theorem uses_skipIDBKeyPayload (type : UInt8) : Parser.Uses (skipIDBKeyPayload type) := by
  refine Parser.Uses.ite ?_
    (.of_local (.ite (local_decodeVarInt.bind fun length =>
        (local_stringBytes length).bind fun _ => .pure _)
      (.ite ((Parser.Local.exactly 8).bind fun _ => .pure _) (.pure _))))
  refine (Parser.Uses.of_local local_decodeVarInt).bind fun length =>
    Parser.Uses.ite (.of_local .failure) ?_
  exact (Parser.Uses.times length.toNat).bind fun _ => .of_local (.pure ())

theorem local_extractEncodedIDBKey : extractEncodedIDBKey.Local :=
  (Parser.local_nested uses_skipIDBKeyPayload).taken

theorem decodeVarInt_encodeVarInt_length {Value : Type} {values : List Value}
    (small : values.length < 2 ^ 63) :
    decodeVarInt.Reads (encodeVarInt values.length) values.length :=
  decodeVarInt_encodeVarInt (by omega) (by exact_mod_cast small)

variable {key : IDBKey}

theorem decodeIDBKey_encodeIDBKey (valid : key.isValid = true)
    (fits : key.fits = true) : decodeIDBKey.Reads (encodeIDBKey key) key := by
  induction key with
  | invalid => cases valid
  | array keys ih =>
    obtain ⟨short, fitting⟩ := (Bool.and_eq_true _ _).mp fits
    have elements : ∀ key ∈ keys, decodeIDBKey.Reads (encodeIDBKey key) (id key) :=
      fun key member => ih key member
        ((IDBKey.allValid_iff keys).1 valid key member)
        ((IDBKey.allFit_iff keys).1 fitting key member)
    have payload := (times_encodeIDBKeys elements).bind_pure IDBKey.array
    rw [map_id] at payload
    apply Parser.Reads.nested uses_decodeIDBKeyPayload
    rw [decodeIDBKeyPayload, if_neg (by decide), if_pos rfl]
    refine (decodeVarInt_encodeVarInt_length (of_decide_eq_true short)).bind ?_
    rw [if_neg (by omega)]
    exact payload
  | string value =>
    apply Parser.Reads.nested uses_decodeIDBKeyPayload
    rw [decodeIDBKeyPayload, if_neg (by decide), if_neg (by decide), if_pos rfl]
    exact (decodeStringWithLength_encodeStringWithLength (of_decide_eq_true fits)).bind_pure _
  | date value =>
    apply Parser.Reads.nested uses_decodeIDBKeyPayload
    rw [decodeIDBKeyPayload, if_neg (by decide), if_neg (by decide),
      if_neg (by decide), if_pos rfl]
    exact (decodeDouble_encodeDouble value).bind_pure _
  | number value =>
    apply Parser.Reads.nested uses_decodeIDBKeyPayload
    rw [decodeIDBKeyPayload, if_neg (by decide), if_neg (by decide),
      if_neg (by decide), if_neg (by decide), if_pos rfl]
    exact (decodeDouble_encodeDouble value).bind_pure _

theorem skipIDBKey_encodeIDBKey (fits : key.fits = true) :
    (Parser.nested skipIDBKeyPayload).Reads (encodeIDBKey key) () := by
  induction key with
  | invalid =>
    apply Parser.Reads.nested uses_skipIDBKeyPayload
    exact Parser.Reads.pure ()
  | array keys ih =>
    obtain ⟨short, fitting⟩ := (Bool.and_eq_true _ _).mp fits
    have payload := (times_encodeIDBKeys fun key member =>
      ih key member
        ((IDBKey.allFit_iff keys).1 fitting key member)).bind_pure fun _ => ()
    apply Parser.Reads.nested uses_skipIDBKeyPayload
    rw [skipIDBKeyPayload, if_pos rfl]
    refine (decodeVarInt_encodeVarInt_length (of_decide_eq_true short)).bind ?_
    rw [if_neg (by omega)]
    exact payload
  | string value =>
    have small := of_decide_eq_true fits
    apply Parser.Reads.nested uses_skipIDBKeyPayload
    rw [skipIDBKeyPayload, if_neg (by decide), if_pos rfl]
    refine (decodeVarInt_encodeVarInt_length (by omega)).bind ?_
    exact (stringBytes_encodeString value).bind_pure fun _ => ()
  | date value | number value =>
    apply Parser.Reads.nested uses_skipIDBKeyPayload
    rw [skipIDBKeyPayload, if_neg (by decide), if_neg (by decide),
      if_pos (by decide)]
    exact (Parser.Reads.exactly (encodeDouble value)).bind_pure fun _ => ()

theorem extractEncodedIDBKey_encodeIDBKey (fits : key.fits = true) :
    extractEncodedIDBKey.Reads (encodeIDBKey key) (encodeIDBKey key) :=
  (skipIDBKey_encodeIDBKey fits).taken

end Keys

end IndexedDB
end PalmWebKit
