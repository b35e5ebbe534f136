import PalmWebKit.Text.TextCodecUTF8

/-!
# UTF-8 bytes as characters

The bytes as one character after another.  Between two calls only the bytes of an
incomplete character at the end are left.
-/

namespace PalmWebKit
namespace Text

open List

/-- The character with which bytes begin, and the number of bytes that follow its
first one.  An invalid sequence is a replacement character of one byte. -/
structure Character where
  units : WString
  sawError : Bool
  trailing : Nat
  deriving DecidableEq, Repr

def Character.ofASCII (byte : Byte) : Character := ⟨[UInt16.ofNat byte.toNat], false, 0⟩

def Character.replacement : Character := ⟨[replacementCharacter], true, 0⟩

/-- `none` for an incomplete sequence. -/
def firstCharacter (first : Byte) (rest : List Byte) : Option Character :=
  if isASCII first then
    some (Character.ofASCII first)
  else if nonASCIISequenceLength first = 0 then
    some Character.replacement
  else if nonASCIISequenceLength first > rest.length + 1 then
    none
  else
    match decodeNonASCIISequence ((first :: rest).take (nonASCIISequenceLength first)) with
    | none => some Character.replacement
    | some character => some ⟨characterUnits character, false, nonASCIISequenceLength first - 1⟩

/-- The text of some bytes, whether it has errors, and the bytes behind it. -/
structure Reading where
  text : WString
  sawError : Bool
  rest : List Byte
  deriving DecidableEq, Repr

namespace Reading

def append (text : WString) (sawError : Bool) (reading : Reading) : Reading :=
  ⟨text ++ reading.text, sawError || reading.sawError, reading.rest⟩

@[simp]
theorem append_text (text : WString) (sawError : Bool)
    (reading : Reading) : (append text sawError reading).text = text ++ reading.text := rfl

@[simp]
theorem append_sawError (text : WString) (sawError : Bool) (reading : Reading) :
    (append text sawError reading).sawError = (sawError || reading.sawError) := rfl

@[simp]
theorem append_rest (text : WString) (sawError : Bool)
    (reading : Reading) : (append text sawError reading).rest = reading.rest := rfl

@[simp]
theorem append_nil (reading : Reading) : append [] false reading = reading := by
  simp [append]

theorem append_append (text later : WString) (sawError sawLater : Bool) (reading : Reading) :
    append text sawError (append later sawLater reading) =
      append (text ++ later) (sawError || sawLater) reading := by
  simp [append, append_assoc, Bool.or_assoc]

end Reading

/-- The characters of the bytes.  An incomplete sequence at the end is left, or with
`flush` read byte by byte. -/
def read (flush : Bool) : List Byte → Reading
  | [] => ⟨[], false, []⟩
  | first :: rest =>
    match firstCharacter first rest with
    | none =>
      if flush then
        Reading.append [replacementCharacter] true (read flush rest)
      else
        ⟨[], false, first :: rest⟩
    | some character =>
      Reading.append character.units character.sawError
        (read flush (rest.drop character.trailing))
termination_by bytes => bytes.length
decreasing_by
  · exact Nat.lt_succ_self _
  · rw [length_drop, length_cons]
    omega

/-- Nothing, or an incomplete sequence. -/
def Pending : List Byte → Prop
  | [] => True
  | first :: rest => firstCharacter first rest = none

/-! ## The first character -/

theorem nonASCIISequenceLength_le (byte : Byte) : nonASCIISequenceLength byte ≤ maxLength := by
  unfold nonASCIISequenceLength maxLength
  repeat' split
  all_goals omega

theorem nonASCIISequenceLength_of_ascii {byte : Byte}
    (ascii : isASCII byte = true) : nonASCIISequenceLength byte = 0 := by
  rw [nonASCIISequenceLength, if_pos (of_decide_eq_true ascii)]

variable
  {first : Byte}
  {rest : List Byte}

theorem firstCharacter_none_iff :
    firstCharacter first rest = none ↔ rest.length + 1 < nonASCIISequenceLength first := by
  unfold firstCharacter
  by_cases ascii : isASCII first = true
  · rw [if_pos ascii, nonASCIISequenceLength_of_ascii ascii]
    simp
  · rw [if_neg ascii]
    by_cases zero : nonASCIISequenceLength first = 0
    · rw [zero]
      simp
    · rw [if_neg zero]
      by_cases incomplete : nonASCIISequenceLength first > rest.length + 1
      · rw [if_pos incomplete]
        exact ⟨fun _ => incomplete, fun _ => rfl⟩
      · rw [if_neg incomplete]
        split <;> simp only [reduceCtorEq, false_iff] <;> exact incomplete

variable {character : Character}

/-- A complete character is the same whatever follows it. -/
theorem firstCharacter_append (later : List Byte)
    (isFirst : firstCharacter first rest = some character) :
    firstCharacter first (rest ++ later) = some character := by
  have complete : ¬nonASCIISequenceLength first > rest.length + 1 := by
    intro incomplete
    rw [firstCharacter_none_iff.2 incomplete] at isFirst
    cases isFirst
  have stillComplete : ¬nonASCIISequenceLength first > (rest ++ later).length + 1 := by
    rw [length_append]
    omega
  rw [← isFirst]
  unfold firstCharacter
  rw [if_neg complete, if_neg stillComplete, ← cons_append,
    take_append_of_le_length (by rw [length_cons]; omega)]

theorem firstCharacter_cases (isFirst : firstCharacter first rest = some character) :
    (isASCII first = true ∧ character = Character.ofASCII first) ∨
      character = Character.replacement ∨
      ∃ value, character = ⟨characterUnits value, false, nonASCIISequenceLength first - 1⟩ ∧
        nonASCIISequenceLength first ≠ 0 ∧
        nonASCIISequenceLength first ≤ rest.length + 1 ∧
        decodeNonASCIISequence ((first :: rest).take (nonASCIISequenceLength first)) =
          some value := by
  unfold firstCharacter at isFirst
  split at isFirst
  · next ascii => exact .inl ⟨ascii, (Option.some.inj isFirst).symm⟩
  · split at isFirst
    · exact .inr (.inl (Option.some.inj isFirst).symm)
    · next notZero =>
      split at isFirst
      · cases isFirst
      · next complete =>
        split at isFirst
        · exact .inr (.inl (Option.some.inj isFirst).symm)
        · next value decoded =>
          exact .inr (.inr ⟨value, (Option.some.inj isFirst).symm, notZero,
            Nat.le_of_not_lt complete, decoded⟩)

theorem trailing_le (isFirst : firstCharacter first rest = some character) :
    character.trailing ≤ rest.length := by
  rcases firstCharacter_cases isFirst with ⟨_, rfl⟩ | rfl | ⟨value, rfl, _, complete, _⟩
  · exact Nat.zero_le _
  · exact Nat.zero_le _
  · dsimp only
    omega

/-! ## Reading -/

theorem read_none (incomplete : firstCharacter first rest = none) :
    read false (first :: rest) = ⟨[], false, first :: rest⟩ := by
  rw [read, incomplete]
  rfl

theorem read_flush (incomplete : firstCharacter first rest = none) : read true (first :: rest) =
      Reading.append [replacementCharacter] true (read true rest) := by
  rw [read, incomplete]
  rfl

theorem read_some {flush : Bool} (isFirst : firstCharacter first rest = some character) :
    read flush (first :: rest) = Reading.append character.units character.sawError
        (read flush (rest.drop character.trailing)) := by
  rw [read, isFirst]

theorem read_of_pending {bytes : List Byte}
    (pending : Pending bytes) : read false bytes = ⟨[], false, bytes⟩ := by
  cases bytes with
  | nil => rw [read]
  | cons first rest => exact read_none pending

theorem pending_rest (bytes : List Byte) : Pending (read false bytes).rest := by
  fun_induction read false bytes with
  | case1 => trivial
  | case2 _ _ _ isFlush => cases isFlush
  | case3 _ _ isFirst => exact isFirst
  | case4 => assumption

/-- Bytes are read in one go as their complete characters and then what is left of
them with the later bytes. -/
theorem read_true_append (bytes later : List Byte) :
    read true (bytes ++ later) = Reading.append (read false bytes).text (read false bytes).sawError
        (read true ((read false bytes).rest ++ later)) := by
  fun_induction read false bytes with
  | case1 => rw [Reading.append_nil]
  | case2 _ _ _ isFlush => cases isFlush
  | case3 => rw [Reading.append_nil]
  | case4 first rest character isFirst ih =>
    rw [cons_append, read_some (firstCharacter_append later isFirst),
      drop_append_of_le_length (trailing_le isFirst), ih, Reading.append_append]
    rfl

theorem rest_read_true (bytes : List Byte) : (read true bytes).rest = [] := by
  fun_induction read true bytes with
  | case1 => rfl
  | case2 | case4 => assumption
  | case3 _ _ _ notFlush => exact absurd rfl notFlush

theorem read_ascii {flush : Bool} {bytes : List Byte} (ascii : bytes.all isASCII = true)
    (later : List Byte) : read flush (bytes ++ later) =
      Reading.append (bytesUnits bytes) false (read flush later) := by
  induction bytes with
  | nil => exact (Reading.append_nil _).symm
  | cons first rest ih =>
    rw [all_cons, Bool.and_eq_true] at ascii
    have isFirst : firstCharacter first (rest ++ later) = some (Character.ofASCII first) := by
      rw [firstCharacter, if_pos ascii.1]
    rw [cons_append, read_some isFirst]
    rw [show (Character.ofASCII first).trailing = 0 from rfl, drop_zero, ih ascii.2]
    rfl

/-! ## What is read first -/

theorem isTrail_iff (byte : Byte) :
    isTrail byte = true ↔ 0x80 ≤ byte.toNat ∧ byte.toNat ≤ 0xBF := by
  simp [isTrail, UInt8.le_iff_toNat_le]

theorem isTrail_of_isSecond {first second : Byte}
    (isSecondByte : isSecond first second = true) : isTrail second = true := by
  rw [isTrail_iff]
  unfold isSecond at isSecondByte
  repeat' split at isSecondByte
  all_goals
    simp only [isTrail, Bool.and_eq_true, decide_eq_true_eq, UInt8.le_iff_toNat_le,
      UInt8.reduceToNat] at isSecondByte
    omega

theorem decoded_two {first second : Byte} {character : Nat}
    (decoded : decodeNonASCIISequence [first, second] = some character) :
    0xC2 ≤ first.toNat ∧ isTrail second = true ∧
      character = first.toNat * 64 + second.toNat - 0x3080 := by
  rw [decodeNonASCIISequence] at decoded
  split at decoded
  · cases decoded
  · split at decoded
    · next large trail =>
      have value := Option.some.inj decoded
      change ¬first.toNat < 0xC2 at large
      rw [Nat.shiftLeft_eq] at value
      exact ⟨by omega, trail, value.symm⟩
    · cases decoded

theorem decoded_three {first second third : Byte} {character : Nat}
    (isFirst : 0xE0 ≤ first.toNat ∧ first.toNat < 0xF0)
    (decoded : decodeNonASCIISequence [first, second, third] = some character) :
    isTrail second = true ∧ 0x800 ≤ character ∧ character ≤ 0xFFFF := by
  rw [decodeNonASCIISequence] at decoded
  split at decoded
  · next valid =>
    have value := Option.some.inj decoded
    rw [Bool.and_eq_true, isTrail_iff] at valid
    have trail := isTrail_of_isSecond valid.1
    have bounds := (isTrail_iff second).1 trail
    have low : first.toNat = 0xE0 → 0xA0 ≤ second.toNat := by
      intro isLow
      have isE0 : first = 0xE0 := UInt8.toNat.inj isLow
      have second_ge := valid.1
      rw [isSecond, if_pos isE0, Bool.and_eq_true, decide_eq_true_eq] at second_ge
      exact second_ge.1
    refine ⟨trail, ?_, ?_⟩ <;> omega
  · cases decoded

theorem decoded_four {first second third fourth : Byte} {character : Nat}
    (isFirst : 0xF0 ≤ first.toNat ∧ first.toNat < 0xF5)
    (decoded : decodeNonASCIISequence [first, second, third, fourth] = some character) :
    isTrail second = true ∧ 0x10000 ≤ character ∧ character ≤ 0x10FFFF := by
  rw [decodeNonASCIISequence] at decoded
  split at decoded
  · next valid =>
    have value := Option.some.inj decoded
    rw [Bool.and_eq_true, Bool.and_eq_true, isTrail_iff, isTrail_iff] at valid
    have trail := isTrail_of_isSecond valid.1.1
    have bounds := (isTrail_iff second).1 trail
    have low : first.toNat = 0xF0 → 0x90 ≤ second.toNat := by
      intro isLow
      have isF0 : first = 0xF0 := UInt8.toNat.inj isLow
      have second_ge := valid.1.1
      rw [isSecond, isF0, if_neg (by decide), if_neg (by decide), if_pos rfl,
        Bool.and_eq_true, decide_eq_true_eq] at second_ge
      exact second_ge.1
    have high : first.toNat = 0xF4 → second.toNat ≤ 0x8F := by
      intro isHigh
      have isF4 : first = 0xF4 := UInt8.toNat.inj isHigh
      have second_le := valid.1.1
      rw [isSecond, isF4, if_neg (by decide), if_neg (by decide), if_neg (by decide),
        if_pos rfl, Bool.and_eq_true, decide_eq_true_eq, decide_eq_true_eq] at second_le
      exact second_le.2
    refine ⟨trail, ?_, ?_⟩ <;> omega
  · cases decoded

/-- The first bytes of sequences, by their length. -/
theorem nonASCIISequenceLength_cases {byte : Byte} (notZero : nonASCIISequenceLength byte ≠ 0) :
    (nonASCIISequenceLength byte = 2 ∧ 0x80 ≤ byte.toNat ∧ byte.toNat < 0xE0) ∨
      (nonASCIISequenceLength byte = 3 ∧ 0xE0 ≤ byte.toNat ∧ byte.toNat < 0xF0) ∨
      (nonASCIISequenceLength byte = 4 ∧ 0xF0 ≤ byte.toNat ∧ byte.toNat < 0xF5) := by
  unfold nonASCIISequenceLength at notZero ⊢
  simp only [UInt8.lt_iff_toNat_lt, UInt8.reduceToNat] at notZero ⊢
  split_ifs at notZero ⊢
  all_goals omega

/-- The character of a sequence: the bytes it needs, and its value by their number. -/
theorem decoded_cases {character : Nat} (notZero : nonASCIISequenceLength first ≠ 0)
    (complete : nonASCIISequenceLength first ≤ rest.length + 1)
    (decoded : decodeNonASCIISequence
      ((first :: rest).take (nonASCIISequenceLength first)) = some character) :
    ∃ second more, rest = second :: more ∧ isTrail second = true ∧
      ((nonASCIISequenceLength first = 2 ∧ 0xC2 ≤ first.toNat ∧
          character = first.toNat * 64 + second.toNat - 0x3080) ∨
        (0x800 ≤ character ∧ character ≤ 0x10FFFF)) := by
  rcases nonASCIISequenceLength_cases notZero with two | three | four
  · rw [two.1] at complete decoded
    match rest with
    | [] => simp at complete
    | second :: more =>
      obtain ⟨large, trail, value⟩ := decoded_two decoded
      exact ⟨second, more, rfl, trail, .inl ⟨two.1, large, value⟩⟩
  · rw [three.1] at complete decoded
    match rest with
    | [] | [_] => simp at complete
    | second :: third :: more =>
      obtain ⟨trail, low, high⟩ := decoded_three three.2 decoded
      exact ⟨second, third :: more, rfl, trail, .inr ⟨low, by omega⟩⟩
  · rw [four.1] at complete decoded
    match rest with
    | [] | [_] | [_, _] => simp at complete
    | second :: third :: fourth :: more =>
      obtain ⟨trail, low, high⟩ := decoded_four four.2 decoded
      exact ⟨second, third :: fourth :: more, rfl, trail, .inr ⟨by omega, high⟩⟩

/-- Bytes that no trailing byte follows are errors one by one. -/
theorem read_error (notASCII : isASCII first = false)
    (notTrail : ∀ next ∈ rest.head?, isTrail next = false) : read true (first :: rest) =
      Reading.append [replacementCharacter] true (read true rest) := by
  cases isFirst : firstCharacter first rest with
  | none => exact read_flush isFirst
  | some character =>
    rw [read_some isFirst]
    rcases firstCharacter_cases isFirst with ⟨ascii, _⟩ | rfl |
      ⟨value, _, notZero, complete, decoded⟩
    · rw [notASCII] at ascii
      cases ascii
    · rfl
    · obtain ⟨second, more, rfl, trail, _⟩ := decoded_cases notZero complete decoded
      rw [notTrail second rfl] at trail
      cases trail

theorem toNat_unit {value : Nat} (small : value ≤ 0xFFFF) : (UInt16.ofNat value).toNat = value := by
  rw [UInt16.toNat_ofNat', Nat.mod_eq_of_lt]
  omega

theorem head_characterUnits {character : Nat} (small : character ≤ 0x10FFFF) :
    ∃ unit, (characterUnits character).head? = some unit ∧
      (character ≤ 0xFFFF → unit.toNat = character) ∧
      (0xFFFF < character → 0x800 ≤ unit.toNat) := by
  unfold characterUnits
  split
  · next isBMP =>
    refine ⟨_, rfl, fun _ => toNat_unit isBMP, ?_⟩
    intro large
    omega
  · next notBMP =>
    refine ⟨_, rfl, ?_, fun _ => ?_⟩
    · intro isBMP
      omega
    · rw [toNat_unit (by omega)]
      omega

theorem head_read_some {unit : UChar} (isFirst : firstCharacter first rest = some character)
    (head : character.units.head? = some unit) :
    (read true (first :: rest)).text.head? = some unit := by
  rw [read_some isFirst, Reading.append_text, head?_append, head]
  rfl

/-- A character of two bytes, between U+0080 and U+07FF. -/
theorem head_read_two {first second : Byte} (more : List Byte)
    (two : nonASCIISequenceLength first = 2) (large : 0xC2 ≤ first.toNat)
    (trail : isTrail second = true) :
    ∃ unit, (read true (first :: second :: more)).text.head? = some unit ∧
      unit.toNat = first.toNat * 64 + second.toNat - 0x3080 ∧ unit.toNat < 0x800 := by
  have bounds := (isTrail_iff second).1 trail
  have small : first.toNat < 0xE0 := by
    rcases @nonASCIISequenceLength_cases first (by omega) with cases | cases | cases <;> omega
  obtain ⟨value, isValue⟩ : ∃ value, first.toNat * 64 + second.toNat - 0x3080 = value := ⟨_, rfl⟩
  have decoded : decodeNonASCIISequence [first, second] = some value := by
    have notSmall : ¬first < 0xC2 := by exact Nat.not_lt.2 large
    rw [decodeNonASCIISequence, if_neg notSmall, if_pos trail, Nat.shiftLeft_eq, isValue]
  have isFirst : firstCharacter first (second :: more) =
      some ⟨characterUnits value, false, 1⟩ := by
    have notASCII : ¬isASCII first = true := by
      intro ascii
      have zero := nonASCIISequenceLength_of_ascii ascii
      omega
    rw [firstCharacter, if_neg notASCII, two, if_neg (by decide)]
    change (match decodeNonASCIISequence [first, second] with
      | none => _
      | some character => _) = _
    rw [decoded]
  obtain ⟨unit, head, same, _⟩ := @head_characterUnits value (by omega)
  refine ⟨unit, head_read_some isFirst head, by omega, by omega⟩

/-- The first unit tells an ASCII character, a character of two bytes and everything
else apart. -/
theorem head_read (first : Byte) (rest : List Byte) :
    ∃ unit, (read true (first :: rest)).text.head? = some unit ∧
      ((isASCII first = true ∧ unit.toNat = first.toNat) ∨ 0x800 ≤ unit.toNat ∨
        ∃ second more, rest = second :: more ∧ 0xC2 ≤ first.toNat ∧
          unit.toNat = first.toNat * 64 + second.toNat - 0x3080) := by
  cases isFirst : firstCharacter first rest with
  | none =>
    refine ⟨replacementCharacter, by rw [read_flush isFirst]; rfl, Or.inr (Or.inl ?_)⟩
    decide
  | some character =>
    rcases firstCharacter_cases isFirst with ⟨ascii, rfl⟩ | rfl |
      ⟨value, rfl, notZero, complete, decoded⟩
    · have bound := first.toNat_lt
      exact ⟨_, head_read_some isFirst rfl, .inl ⟨ascii, toNat_unit (by omega)⟩⟩
    · exact ⟨_, head_read_some isFirst rfl, .inr (.inl (by decide))⟩
    · obtain ⟨second, more, rfl, trail, two | large⟩ := decoded_cases notZero complete decoded
      · have isSmall : value ≤ 0xFFFF := by
          have bounds := (isTrail_iff second).1 trail
          have firstBound := first.toNat_lt
          omega
        obtain ⟨unit, head, same, _⟩ := @head_characterUnits value (by omega)
        refine ⟨unit, head_read_some isFirst head, .inr (.inr ⟨second, more, rfl, two.2.1, ?_⟩)⟩
        rw [same isSmall]
        exact two.2.2
      · obtain ⟨unit, head, same, above⟩ := head_characterUnits large.2
        refine ⟨unit, head_read_some isFirst head, .inr (.inl ?_)⟩
        rcases Nat.lt_or_ge 0xFFFF value with notBMP | isBMP
        · exact above notBMP
        · rw [same isBMP]
          exact large.1

end Text
end PalmWebKit
