import PalmWebKit.Text.CodeUnits
import PalmWebKit.Text.StdString

/-!
# UTF-8 and Latin-1

`String::utf8` in its lenient mode, and the Latin-1 reading of bytes.  Reading
the UTF-8 bytes of a text back as Latin-1 gives the text only if it is ASCII.
-/

namespace PalmWebKit
namespace WString

open List

/-- A byte after the first of a sequence. -/
def continuationByte (ch : Nat) : UInt8 := UInt8.ofNat ((ch ||| 0x80) &&& 0xBF)

/-- One step of `convertUTF16ToUTF8`: the bytes of a code point. -/
def utf8Character (ch : Nat) : StdString :=
  if ch < 0x80 then [UInt8.ofNat ch]
  else if ch < 0x800 then
    [UInt8.ofNat ((ch >>> 6) ||| 0xC0), continuationByte ch]
  else if ch < 0x10000 then
    [UInt8.ofNat ((ch >>> 12) ||| 0xE0), continuationByte (ch >>> 6), continuationByte ch]
  else
    [UInt8.ofNat ((ch >>> 18) ||| 0xF0), continuationByte (ch >>> 12),
      continuationByte (ch >>> 6), continuationByte ch]

def isHighSurrogate (unit : UChar) : Bool := 0xD800 ≤ unit && unit ≤ 0xDBFF

def isLowSurrogate (unit : UChar) : Bool := 0xDC00 ≤ unit && unit ≤ 0xDFFF

/-- The code point of a surrogate pair. -/
def surrogatePair (high low : UChar) : Nat :=
  (high.toNat - 0xD800) * 0x400 + (low.toNat - 0xDC00) + 0x10000

/-- `convertUTF16ToUTF8`, not strict: unpaired surrogates are encoded as they
are, a last one by `String::utf8` itself. -/
def convertUTF16ToUTF8 : WString → StdString
  | [] => []
  | [unit] => utf8Character unit.toNat
  | unit :: next :: rest =>
    if isHighSurrogate unit && isLowSurrogate next then
      utf8Character (surrogatePair unit next) ++ convertUTF16ToUTF8 rest
    else
      utf8Character unit.toNat ++ convertUTF16ToUTF8 (next :: rest)

/-- The longest text whose buffer of three bytes a unit can be sized. -/
def utf8LengthLimit : Nat := 0xFFFFFFFF / 3

/-- `String::utf8`; a null `CString` has no bytes. -/
def utf8 (text : WString) : StdString :=
  if utf8LengthLimit < text.length then [] else convertUTF16ToUTF8 text

/-- The string of Latin-1 bytes. -/
def ofLatin1 (text : StdString) : WString := text.map fun byte => UInt16.ofNat byte.toNat

/-- `String::latin1`: a unit above 255 becomes a question mark. -/
def latin1 (text : WString) : StdString :=
  text.map fun unit => if 255 < unit then 63 else UInt8.ofNat unit.toNat

/-- The bytes that `fputc` writes for the units of a string. -/
def lowBytes (text : WString) : StdString := text.map fun unit => UInt8.ofNat unit.toNat

@[simp] theorem length_ofLatin1 (text : StdString) :
    (ofLatin1 text).length = text.length := length_map _

/-- The low byte of a unit below 256 is the unit. -/
theorem ofNat_lowByte {unit : UChar} (small : unit.toNat < 256) :
    UInt16.ofNat (UInt8.ofNat unit.toNat).toNat = unit := by
  apply UInt16.toNat_inj.1
  rw [UInt16.toNat_ofNat', UInt8.toNat_ofNat']
  omega

variable {text : WString}

theorem ofLatin1_lowBytes (small : ∀ unit ∈ text, unit.toNat < 256) :
    ofLatin1 (lowBytes text) = text := by
  rw [ofLatin1, lowBytes, map_map]
  calc text.map _
    _ = text.map id := map_congr_left fun unit member => ofNat_lowByte (small unit member)
    _ = text := map_id text

theorem lowBytes_ofLatin1 (text : StdString) : lowBytes (ofLatin1 text) = text := by
  rw [ofLatin1, lowBytes, map_map]
  calc text.map _
    _ = text.map id := map_congr_left fun byte _ => by
          have bound := byte.toNat_lt
          apply UInt8.toNat_inj.1
          rw [Function.comp_apply, UInt8.toNat_ofNat', UInt16.toNat_ofNat', id]
          omega
    _ = text := map_id text

theorem toNat_lt_of_mem_ofLatin1 {text : StdString} {unit : UChar} (member : unit ∈ ofLatin1 text) :
    unit.toNat < 256 := by
  obtain ⟨byte, -, rfl⟩ := mem_map.1 member
  have bound := byte.toNat_lt
  rw [UInt16.toNat_ofNat']
  omega

theorem zero_mem_of_zero_mem_ofLatin1 {text : StdString} (member : 0 ∈ ofLatin1 text) :
    0 ∈ text := by
  obtain ⟨byte, inText, isZero⟩ := mem_map.1 member
  have bound := byte.toNat_lt
  have value : byte = 0 := by
    have := congrArg UInt16.toNat isZero
    rw [UInt16.toNat_ofNat'] at this
    simp only [UInt16.toNat_zero] at this
    apply UInt8.toNat_inj.1
    rw [UInt8.toNat_zero]
    omega
  rwa [value] at inText

/-! ## The encoding of one character -/

variable {ch : Nat}

theorem utf8Character_of_ascii (ascii : ch < 0x80) : utf8Character ch = [UInt8.ofNat ch] :=
  if_pos ascii

theorem two_le_length_utf8Character (notAscii : 0x80 ≤ ch) : 2 ≤ (utf8Character ch).length := by
  rw [utf8Character, if_neg (by omega)]
  split
  · exact le_refl 2
  · split <;> simp

theorem three_le_length_utf8Character (large : 0x800 ≤ ch) : 3 ≤ (utf8Character ch).length := by
  rw [utf8Character, if_neg (by omega), if_neg (by omega)]
  split <;> simp

theorem one_le_length_utf8Character (ch : Nat) : 1 ≤ (utf8Character ch).length := by
  by_cases ascii : ch < 0x80
  · rw [utf8Character_of_ascii ascii]
    exact le_refl 1
  · exact le_trans (by omega) (two_le_length_utf8Character (not_lt.1 ascii))

/-- A byte with its top bit set is not zero. -/
theorem ofNat_ne_zero_of_testBit {value : Nat} (top : value.testBit 7 = true) :
    UInt8.ofNat value ≠ 0 := by
  intro isZero
  have remainder : value % 2 ^ 8 = 0 := by
    have := congrArg UInt8.toNat isZero
    rwa [UInt8.toNat_ofNat'] at this
  have bit : (value % 2 ^ 8).testBit 7 = true := by
    rw [Nat.testBit_mod_two_pow, top]
    rfl
  rw [remainder] at bit
  simp at bit

theorem continuationByte_ne_zero (ch : Nat) : continuationByte ch ≠ 0 := by
  apply ofNat_ne_zero_of_testBit
  rw [Nat.testBit_and, Nat.testBit_or]
  simp only [show Nat.testBit 0x80 7 = true by decide,
    show Nat.testBit 0xBF 7 = true by decide, Bool.or_true, Bool.and_true]

theorem leadByte_ne_zero {mark : Nat} (top : mark.testBit 7 = true) (ch : Nat) :
    UInt8.ofNat (ch ||| mark) ≠ 0 := by
  apply ofNat_ne_zero_of_testBit
  rw [Nat.testBit_or, top, Bool.or_true]

/-- Only the character zero has a zero byte. -/
theorem zero_notMem_utf8Character (positive : 0 < ch) : 0 ∉ utf8Character ch := by
  rw [utf8Character]
  split
  · rename_i ascii
    rw [mem_singleton]
    intro isZero
    have := congrArg UInt8.toNat isZero
    rw [UInt8.toNat_ofNat'] at this
    simp only [UInt8.toNat_zero] at this
    omega
  · split
    · simp only [mem_cons, not_mem_nil, or_false, not_or]
      exact ⟨(leadByte_ne_zero (by decide) _).symm, (continuationByte_ne_zero _).symm⟩
    · split
      · simp only [mem_cons, not_mem_nil, or_false, not_or]
        exact ⟨(leadByte_ne_zero (by decide) _).symm,
          (continuationByte_ne_zero _).symm, (continuationByte_ne_zero _).symm⟩
      · simp only [mem_cons, not_mem_nil, or_false, not_or]
        exact ⟨(leadByte_ne_zero (by decide) _).symm,
          (continuationByte_ne_zero _).symm, (continuationByte_ne_zero _).symm,
          (continuationByte_ne_zero _).symm⟩

/-! ## The encoding of a text -/

theorem surrogatePair_large (high low : UChar) :
    0x10000 ≤ surrogatePair high low := Nat.le_add_left _ _

/-- The encoding is at least as long as the text, and longer unless the text
is ASCII. -/
theorem length_convertUTF16ToUTF8 (text : WString) :
    text.length ≤ (convertUTF16ToUTF8 text).length ∧
      ((convertUTF16ToUTF8 text).length ≤ text.length →
        ∀ unit ∈ text, unit.toNat < 0x80) := by
  induction text using convertUTF16ToUTF8.induct with
  | case1 => simp [convertUTF16ToUTF8]
  | case2 unit =>
    rw [convertUTF16ToUTF8]
    refine ⟨one_le_length_utf8Character _, fun short => ?_⟩
    rw [forall_mem_singleton]
    by_contra notAscii
    have := two_le_length_utf8Character (not_lt.1 notAscii)
    rw [length_singleton] at short
    omega
  | case3 unit next rest pair ih =>
    have long : 3 ≤ (utf8Character (surrogatePair unit next)).length :=
      three_le_length_utf8Character
        (le_trans (by omega) (surrogatePair_large unit next))
    rw [convertUTF16ToUTF8, if_pos pair, length_append]
    simp only [length_cons]
    exact ⟨by omega, fun short => by omega⟩
  | case4 unit next rest single ih =>
    have positive := one_le_length_utf8Character unit.toNat
    rw [convertUTF16ToUTF8, if_neg single, length_append, length_cons]
    refine ⟨by omega, fun short => ?_⟩
    rw [forall_mem_cons]
    refine ⟨?_, ih.2 (by omega)⟩
    by_contra notAscii
    have := two_le_length_utf8Character (not_lt.1 notAscii)
    omega

theorem convertUTF16ToUTF8_of_ascii (ascii : ∀ unit ∈ text, unit.toNat < 0x80) :
    convertUTF16ToUTF8 text = lowBytes text := by
  induction text using convertUTF16ToUTF8.induct with
  | case1 => rfl
  | case2 unit =>
    rw [forall_mem_singleton] at ascii
    rw [convertUTF16ToUTF8, utf8Character_of_ascii ascii]
    rfl
  | case3 unit next rest pair =>
    have small := ascii unit (.head _)
    rw [Bool.and_eq_true, isHighSurrogate, Bool.and_eq_true, decide_eq_true_eq] at pair
    have large : 0xD800 ≤ unit.toNat := pair.1.1
    omega
  | case4 unit next rest single ih =>
    rw [forall_mem_cons] at ascii
    rw [convertUTF16ToUTF8, if_neg single, utf8Character_of_ascii ascii.1, ih ascii.2]
    rfl

theorem zero_notMem_convertUTF16ToUTF8 (noNul : 0 ∉ text) : 0 ∉ convertUTF16ToUTF8 text := by
  have positive {unit : UChar} (ne : ¬0 = unit) : 0 < unit.toNat := by
    apply Nat.pos_of_ne_zero
    intro isZero
    exact ne (UInt16.toNat_inj.1 isZero.symm)
  induction text using convertUTF16ToUTF8.induct with
  | case1 => exact not_mem_nil
  | case2 unit =>
    rw [mem_singleton] at noNul
    exact zero_notMem_utf8Character (positive noNul)
  | case3 unit next rest pair ih =>
    rw [mem_cons, mem_cons, not_or, not_or] at noNul
    rw [convertUTF16ToUTF8, if_pos pair, mem_append, not_or]
    exact ⟨zero_notMem_utf8Character
      (lt_of_lt_of_le (by omega) (surrogatePair_large unit next)),
      ih noNul.2.2⟩
  | case4 unit next rest single ih =>
    rw [mem_cons, not_or] at noNul
    rw [convertUTF16ToUTF8, if_neg single, mem_append, not_or]
    exact ⟨zero_notMem_utf8Character (positive noNul.1), ih noNul.2⟩

end WString
end PalmWebKit
