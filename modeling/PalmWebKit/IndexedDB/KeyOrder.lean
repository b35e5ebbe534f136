import PalmWebKit.IndexedDB.KeyRoundTrip
import PalmWebKit.Logic.SignComparison

/-!
# The order of keys

`IDBKey::compare` orders the keys without NaN: by type, then strings by their
code units, doubles by value and arrays element by element.
-/

namespace PalmWebKit
namespace IndexedDB

open SignComparison

/-! ## Doubles and strings -/

namespace Double

variable {first second : Double}

theorem less_iff (firstNumber : first.isNaN = false) (secondNumber : second.isNaN = false) :
    first.less second = true ↔ first.rank < second.rank := by
  rw [less, firstNumber, secondNumber]
  simp

theorem toNat_inj {first second : Double} :
    first.bits.toNat = second.bits.toNat ↔ first = second := by
  rw [UInt64.toNat_inj]
  constructor
  · intro same
    cases first
    cases second
    simpa using same
  · rintro rfl
    rfl

/-- Doubles at the same place are equal but for the sign of a zero. -/
theorem rank_eq_iff : first.rank = second.rank ↔ first.unsignedZero = second.unsignedZero := by
  have firstSmall := first.bits.toNat_lt
  have secondSmall := second.bits.toNat_lt
  have negativeZero : ∀ double : Double,
      double.bits = 0x8000000000000000 ↔ double.bits.toNat = 2 ^ 63 := fun _ =>
    UInt64.toNat_inj.symm
  rw [rank, rank, unsignedZero, unsignedZero, ← toNat_inj]
  simp only [negativeZero]
  split_ifs <;> simp <;> omega

/-- The comparison of two numbers or dates. -/
def compare (first second : Double) : Int :=
  if first.less second then -1 else if second.less first then 1 else 0

theorem compare_eq (firstNumber : first.isNaN = false) (secondNumber : second.isNaN = false) :
    first.compare second = byRank rank first second := by
  rw [compare]
  simp only [less_iff firstNumber secondNumber, less_iff secondNumber firstNumber]
  rfl

end Double

/-- The comparison of two code units. -/
def compareUnits : UChar → UChar → Int := byRank UInt16.toNat

theorem codePointCompare_eq (text other : WString) :
    codePointCompare text other = lexicographic compareUnits text other := by
  induction text generalizing other with
  | nil => cases other <;> rfl
  | cons unit text ih =>
    cases other with
    | nil => rfl
    | cons otherUnit other =>
      rw [codePointCompare, lexicographic, ih]
      rcases lt_trichotomy unit.toNat otherUnit.toNat with before | same | after
      · have units : compareUnits unit otherUnit = -1 := byRank_of_lt before
        rw [units, if_neg (by rintro rfl; exact lt_irrefl _ before),
          if_neg (fun greater => lt_asymm before
            (UInt16.lt_iff_toNat_lt.1 greater)), if_pos (by decide)]
      · have units : compareUnits unit otherUnit = 0 := byRank_of_eq same
        rw [units, if_pos (UInt16.toNat_inj.1 same), if_neg (by decide)]
      · have units : compareUnits unit otherUnit = 1 := byRank_of_gt after
        rw [units, if_neg (by rintro rfl; exact lt_irrefl _ after),
          if_pos (UInt16.lt_iff_toNat_lt.2 after), if_pos (by decide)]

theorem codePointCompare_swap (text other : WString) :
    codePointCompare other text = -codePointCompare text other := by
  rw [codePointCompare_eq, codePointCompare_eq]
  exact lexicographic_swap fun _ _ _ _ => byRank_swap _ _

theorem codePointCompare_eq_zero_iff {text other : WString} :
    codePointCompare text other = 0 ↔ text = other := by
  have units : ∀ first ∈ text, ∀ second ∈ other,
      compareUnits first second = 0 ↔ id first = id second :=
    fun _ _ _ _ => byRank_eq_zero_iff.trans UInt16.toNat_inj
  rw [codePointCompare_eq, lexicographic_eq_zero_iff units, List.map_id, List.map_id]

theorem codePointCompare_transitiveAt (first second third : WString) :
    TransitiveAt codePointCompare first second third := by
  have units : ∀ a b c, TransitiveAt compareUnits a b c := byRank_transitiveAt
  simp only [TransitiveAt, codePointCompare_eq]
  exact lexicographic_transitiveAt fun a _ b _ c _ => units a b c

/-! ## Keys -/

namespace IDBKey

mutual

/-- No number and no date in the key is NaN. -/
def noNaN : IDBKey → Bool
  | .invalid => true
  | .array keys => allNoNaN keys
  | .string _ => true
  | .date value => !value.isNaN
  | .number value => !value.isNaN

def allNoNaN : List IDBKey → Bool
  | [] => true
  | key :: keys => noNaN key && allNoNaN keys

end

mutual

/-- The key with `0.0` for every `-0.0`. -/
def unsignedZeros : IDBKey → IDBKey
  | .invalid => .invalid
  | .array keys => .array (allUnsignedZeros keys)
  | .string value => .string value
  | .date value => .date value.unsignedZero
  | .number value => .number value.unsignedZero

def allUnsignedZeros : List IDBKey → List IDBKey
  | [] => []
  | key :: keys => unsignedZeros key :: allUnsignedZeros keys

end

theorem allNoNaN_iff (keys : List IDBKey) :
    allNoNaN keys = true ↔ ∀ key ∈ keys, key.noNaN = true := by
  induction keys with
  | nil => simp [allNoNaN]
  | cons key keys ih => rw [allNoNaN, Bool.and_eq_true, ih, List.forall_mem_cons]

theorem allUnsignedZeros_eq (keys : List IDBKey) :
    allUnsignedZeros keys = keys.map unsignedZeros := by
  induction keys with
  | nil => rfl
  | cons key keys ih => rw [allUnsignedZeros, ih, List.map_cons]

theorem compareArrays_eq (keys others : List IDBKey) :
    compareArrays keys others = lexicographic compare keys others := by
  induction keys generalizing others with
  | nil => cases others <;> rfl
  | cons key keys ih =>
    cases others with
    | nil => rfl
    | cons other others => rw [compareArrays, lexicographic, ih]

theorem number_type_inj {key other : IDBKey} :
    key.type.number = other.type.number ↔ key.type = other.type := by
  cases key <;> cases other <;> simp [type, IDBKeyType.number]

variable {key other : IDBKey}

/-- Keys of different types are compared by their types. -/
theorem compare_of_type_ne (ne : key.type ≠ other.type) : key.compare other =
      if other.type.number < key.type.number then -1 else 1 := by
  cases key <;> cases other <;> first
    | exact absurd rfl ne
    | rfl

theorem compare_of_type_lt (before : other.type.number < key.type.number) :
    key.compare other = -1 := by
  rw [compare_of_type_ne, if_pos before]
  intro same
  rw [same] at before
  exact lt_irrefl _ before

theorem compare_of_type_gt (after : key.type.number < other.type.number) :
    key.compare other = 1 := by
  rw [compare_of_type_ne, if_neg (lt_asymm after)]
  intro same
  rw [same] at after
  exact lt_irrefl _ after

theorem compare_array (keys others : List IDBKey) :
    (array keys).compare (array others) = lexicographic compare keys others :=
  compareArrays_eq keys others

theorem compare_string (value other : WString) :
    (string value).compare (string other) = codePointCompare value other := by
  rw [codePointCompare_swap other value]
  rfl

theorem compare_date {value other : Double} (valueOrdered : (date value).noNaN = true)
    (otherOrdered : (date other).noNaN = true) :
    (date value).compare (date other) = byRank Double.rank value other :=
  Double.compare_eq (Bool.not_eq_true' _ |>.mp valueOrdered)
    (Bool.not_eq_true' _ |>.mp otherOrdered)

theorem compare_number {value other : Double} (valueOrdered : (number value).noNaN = true)
    (otherOrdered : (number other).noNaN = true) :
    (number value).compare (number other) = byRank Double.rank value other :=
  Double.compare_eq (Bool.not_eq_true' _ |>.mp valueOrdered)
    (Bool.not_eq_true' _ |>.mp otherOrdered)

theorem compare_swap (keyOrdered : key.noNaN = true) (otherOrdered : other.noNaN = true) :
    other.compare key = -key.compare other := by
  induction key generalizing other with
  | invalid => cases other <;> rfl
  | array keys ih =>
    cases other with
    | array others =>
      rw [compare_array, compare_array]
      apply lexicographic_swap
      intro key member other otherMember
      exact ih key member
        ((allNoNaN_iff keys).1 keyOrdered key member)
        ((allNoNaN_iff others).1 otherOrdered other otherMember)
    | _ => rfl
  | string value =>
    cases other with
    | string other => rw [compare_string, compare_string, codePointCompare_swap]
    | _ => rfl
  | date value =>
    cases other with
    | date other =>
      rw [compare_date keyOrdered otherOrdered, compare_date otherOrdered keyOrdered, byRank_swap]
    | _ => rfl
  | number value =>
    cases other with
    | number other =>
      rw [compare_number keyOrdered otherOrdered,
        compare_number otherOrdered keyOrdered, byRank_swap]
    | _ => rfl

/-- Keys compare as equal when they are equal but for the signs of zeros. -/
theorem compare_eq_zero_iff (keyOrdered : key.noNaN = true) (otherOrdered : other.noNaN = true) :
    key.compare other = 0 ↔ key.unsignedZeros = other.unsignedZeros := by
  induction key generalizing other with
  | invalid => cases other <;> simp [compare, unsignedZeros, type, IDBKeyType.number]
  | array keys ih =>
    cases other with
    | array others =>
      rw [compare_array, unsignedZeros, unsignedZeros, array.injEq,
        allUnsignedZeros_eq, allUnsignedZeros_eq]
      apply lexicographic_eq_zero_iff
      intro key member other otherMember
      exact ih key member
        ((allNoNaN_iff keys).1 keyOrdered key member)
        ((allNoNaN_iff others).1 otherOrdered other otherMember)
    | _ => simp [compare, unsignedZeros, type, IDBKeyType.number]
  | string value =>
    cases other with
    | string other =>
      rw [compare_string, codePointCompare_eq_zero_iff, unsignedZeros, unsignedZeros, string.injEq]
    | _ => simp [compare, unsignedZeros, type, IDBKeyType.number]
  | date value =>
    cases other with
    | date other =>
      rw [compare_date keyOrdered otherOrdered, byRank_eq_zero_iff,
        Double.rank_eq_iff, unsignedZeros, unsignedZeros, date.injEq]
    | _ => simp [compare, unsignedZeros, type, IDBKeyType.number]
  | number value =>
    cases other with
    | number other =>
      rw [compare_number keyOrdered otherOrdered, byRank_eq_zero_iff,
        Double.rank_eq_iff, unsignedZeros, unsignedZeros, number.injEq]
    | _ => simp [compare, unsignedZeros, type, IDBKeyType.number]

/-- The types do not increase along a comparison. -/
theorem number_type_le (before : key.compare other ≤ 0) : other.type.number ≤ key.type.number := by
  by_contra increasing
  rw [compare_of_type_gt (not_le.1 increasing)] at before
  exact absurd before (by decide)

variable {first second third : IDBKey}

/-- Only keys of one type need to be looked at for transitivity. -/
theorem transitiveAt_of_types (sameType : second.type = first.type → third.type = first.type →
      TransitiveAt compare first second third) : TransitiveAt compare first second third := by
  intro firstStep secondStep
  have firstTypes := number_type_le firstStep
  have secondTypes := number_type_le secondStep
  rcases lt_or_eq_of_le (secondTypes.trans firstTypes) with decreasing | same
  · rw [compare_of_type_lt decreasing]
    exact ⟨by decide, fun zero => by cases zero⟩
  · have secondType : second.type = first.type :=
      number_type_inj.1 (le_antisymm firstTypes (same ▸ secondTypes))
    exact sameType secondType (number_type_inj.1 same) firstStep secondStep

variable {key : IDBKey}

theorem eq_invalid_of_type (isInvalid : key.type = .invalidType) : key = .invalid := by
  cases key with
  | invalid => rfl
  | _ => cases isInvalid

theorem eq_array_of_type (isArray : key.type = .arrayType) : ∃ keys, key = .array keys := by
  cases key with
  | array keys => exact ⟨keys, rfl⟩
  | _ => cases isArray

theorem eq_string_of_type (isString : key.type = .stringType) : ∃ value, key = .string value := by
  cases key with
  | string value => exact ⟨value, rfl⟩
  | _ => cases isString

theorem eq_date_of_type (isDate : key.type = .dateType) : ∃ value, key = .date value := by
  cases key with
  | date value => exact ⟨value, rfl⟩
  | _ => cases isDate

theorem eq_number_of_type (isNumber : key.type = .numberType) : ∃ value, key = .number value := by
  cases key with
  | number value => exact ⟨value, rfl⟩
  | _ => cases isNumber

/-- The comparison of keys without NaN is transitive. -/
theorem compare_transitiveAt (firstOrdered : first.noNaN = true)
    (secondOrdered : second.noNaN = true) (thirdOrdered : third.noNaN = true) :
    TransitiveAt compare first second third := by
  induction first generalizing second third with
  | invalid =>
    apply transitiveAt_of_types
    intro secondType thirdType
    rw [eq_invalid_of_type secondType, eq_invalid_of_type thirdType]
    exact fun _ _ => ⟨le_refl _, fun _ => ⟨rfl, rfl⟩⟩
  | array keys ih =>
    apply transitiveAt_of_types
    intro secondType thirdType
    obtain ⟨seconds, rfl⟩ := eq_array_of_type secondType
    obtain ⟨thirds, rfl⟩ := eq_array_of_type thirdType
    rw [TransitiveAt, compare_array, compare_array, compare_array]
    apply lexicographic_transitiveAt
    intro key member second secondMember third thirdMember
    exact ih key member
      ((allNoNaN_iff keys).1 firstOrdered key member)
      ((allNoNaN_iff seconds).1 secondOrdered second secondMember)
      ((allNoNaN_iff thirds).1 thirdOrdered third thirdMember)
  | string value =>
    apply transitiveAt_of_types
    intro secondType thirdType
    obtain ⟨second, rfl⟩ := eq_string_of_type secondType
    obtain ⟨third, rfl⟩ := eq_string_of_type thirdType
    rw [TransitiveAt, compare_string, compare_string, compare_string]
    exact codePointCompare_transitiveAt value second third
  | date value =>
    apply transitiveAt_of_types
    intro secondType thirdType
    obtain ⟨second, rfl⟩ := eq_date_of_type secondType
    obtain ⟨third, rfl⟩ := eq_date_of_type thirdType
    rw [TransitiveAt, compare_date firstOrdered secondOrdered, compare_date secondOrdered
      thirdOrdered, compare_date firstOrdered thirdOrdered]
    exact byRank_transitiveAt value second third
  | number value =>
    apply transitiveAt_of_types
    intro secondType thirdType
    obtain ⟨second, rfl⟩ := eq_number_of_type secondType
    obtain ⟨third, rfl⟩ := eq_number_of_type thirdType
    rw [TransitiveAt, compare_number firstOrdered secondOrdered, compare_number secondOrdered
      thirdOrdered, compare_number firstOrdered thirdOrdered]
    exact byRank_transitiveAt value second third

end IDBKey

end IndexedDB
end PalmWebKit
