import Mathlib

/-!
# UTF-16 strings

`WTF::String` is a sequence of UTF-16 code units.  The operations below are
the ones the network layer applies to hosts, paths and header values.
-/

namespace PalmWebKit

/-- A UTF-16 code unit. -/
abbrev UChar := UInt16

/-- The contents of a non-null `WTF::String`. -/
abbrev WString := List UChar

namespace WString

/-- The code units of a literal in the source. -/
def lit (text : String) : WString := text.toList.map fun character => UInt16.ofNat character.toNat

/-- `'.'` -/
def dot : UChar := 46

/-- `'-'` -/
def dash : UChar := 45

/-- `'/'` -/
def slash : UChar := 47

/-- `'='` -/
def equals : UChar := 61

/-- `';'` -/
def semicolon : UChar := 59

def isASCIISpace (unit : UChar) : Bool := unit ≤ 32 && (unit == 32 || (unit ≤ 13 && 9 ≤ unit))

/-- Code units above U+007F whose bidirectional class is `WS`. -/
def isWhiteSpaceNeutral (unit : UChar) : Bool :=
  unit == 0x1680 || unit == 0x180E || (0x2000 ≤ unit && unit ≤ 0x200A) ||
    unit == 0x2028 || unit == 0x205F || unit == 0x3000

def isSpaceOrNewline (unit : UChar) : Bool :=
  if unit ≤ 0x7F then isASCIISpace unit else isWhiteSpaceNeutral unit

def stripWhiteSpace (text : WString) : WString :=
  ((text.dropWhile isSpaceOrNewline).reverse.dropWhile isSpaceOrNewline).reverse

/-- Case folding of the ASCII letters.  It is applied only to texts that are
then compared with an ASCII keyword. -/
def toASCIILower (unit : UChar) : UChar :=
  if 65 ≤ unit && unit ≤ 90 then unit + 32 else unit

def lower (text : WString) : WString := text.map toASCIILower

/-- Position of the first occurrence of a code unit. -/
def find (text : WString) (unit : UChar) : Option Nat := text.findIdx? (· == unit)

/-- Position of the last occurrence of a code unit. -/
def reverseFind (text : WString) (unit : UChar) : Option Nat :=
  (text.reverse.findIdx? (· == unit)).map fun position => text.length - 1 - position

def left (text : WString) (length : Nat) : WString := text.take length

def substring (text : WString) (start length : Nat) : WString := (text.drop start).take length

def startsWith (text start : WString) : Bool := start.isPrefixOf text

def endsWith (text ending : WString) : Bool := ending.isSuffixOf text

/-- The character at a position, zero past the end. -/
def charAt (text : WString) (position : Nat) : UChar := text.getD position 0

/-- Split at every occurrence of a separator, dropping empty entries. -/
def split (text : WString) (separator : UChar) : List WString :=
  (text.splitOn separator).filter (!·.isEmpty)

@[simp] theorem startsWith_iff (text start : WString) :
    startsWith text start = true ↔ start <+: text := by
  simp [startsWith]

@[simp] theorem endsWith_iff (text ending : WString) :
    endsWith text ending = true ↔ ending <:+ text := by
  simp [endsWith]

theorem left_append_drop (text : WString) (length : Nat) :
    left text length ++ text.drop length = text := List.take_append_drop length text

def isASCIIDigit (unit : UChar) : Bool := 48 ≤ unit && unit ≤ 57

/-- The digit loop of `toIntegralType` in base ten: the value of the leading
digits and the rest, or `none` when the value does not fit. -/
def readDigits (integralMax : Nat) (isNegative : Bool) : Nat → WString → Option (Nat × WString)
  | value, [] => some (value, [])
  | value, unit :: rest =>
    if isASCIIDigit unit then
      let digitValue := unit.toNat - 48
      if value > integralMax / 10 ∨ (value = integralMax / 10 ∧
            digitValue > integralMax % 10 + isNegative.toNat) then
        none
      else
        readDigits integralMax isNegative (10 * value + digitValue) rest
    else
      some (value, unit :: rest)

/-- `toIntegralType` of a signed type with that maximum, with its `ok` flag. -/
def toIntegralType (integralMax : Nat) (text : WString) : Option Int :=
  let trimmed := text.dropWhile isSpaceOrNewline
  let (isNegative, digits) :=
    match trimmed with
    | unit :: rest =>
      if unit == 45 then (true, rest)
      else if unit == 43 then (false, rest)
      else (false, trimmed)
    | [] => (false, [])
  match digits with
  | [] => none
  | unit :: _ =>
    if isASCIIDigit unit then
      match readDigits integralMax isNegative 0 digits with
      | none => none
      | some (value, rest) =>
        if (rest.dropWhile isSpaceOrNewline).isEmpty then
          some (if isNegative then -(value : Int) else value)
        else
          none
    else
      none

/-- Leading spaces, a sign and digits. -/
def lengthOfCharactersAsInteger (text : WString) : Nat :=
  let trimmed := text.dropWhile isSpaceOrNewline
  let unsigned :=
    match trimmed with
    | unit :: rest => if unit == 43 || unit == 45 then rest else trimmed
    | [] => []
  text.length - (unsigned.dropWhile isASCIIDigit).length

/-- `String::toInt64`: the value and the `ok` flag. -/
def toInt64 (text : WString) : Option Int :=
  toIntegralType (2 ^ 63 - 1) (text.take (lengthOfCharactersAsInteger text))

/-- `String::toInt` -/
def toInt (text : WString) : Int :=
  (toIntegralType (2 ^ 31 - 1) (text.take (lengthOfCharactersAsInteger text))).getD 0

example : toInt64 (lit " -42 s") = some (-42) := by decide

end WString

/-- The components of a parsed URL, as the accessors of `KURL` return them. -/
structure KURL where
  /-- The scheme, in lower case. -/
  protocol : WString
  host : WString
  port : Nat
  path : WString
  deriving DecidableEq, Repr

end PalmWebKit
