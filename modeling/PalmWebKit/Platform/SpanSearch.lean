import PalmWebKit.Text.CodeUnits

/-!
# Spans of phone numbers and URLs

`searchLeft` and `searchRight` of `PhoneNumberParser` and `UrlParser`.  The
loops of both parsers are the same but for the characters they know.
-/

namespace PalmWebKit
namespace Platform

/-- `String::operator[]`, which is zero outside of the text. -/
def charAt (str : WString) (index : Int) : UChar :=
  if 0 ≤ index then str.getD index.toNat 0 else 0

/-- The positions of the first and the last character. -/
structure ParserSpan where
  start : Int
  finish : Int
  deriving DecidableEq, Repr

/-- What a parser knows of characters. -/
structure CharacterTests where
  /-- `isNumeralChar`, or `isUrlChar`. -/
  isCandidate : UChar → Bool
  isDelimiter : UChar → Bool
  isPrefix : UChar → Bool

namespace CharacterTests

variable (tests : CharacterTests) (str : WString)

/-- A character that is left in a span. -/
def isValid (ch : UChar) : Bool := tests.isPrefix ch || tests.isCandidate ch || tests.isDelimiter ch

/-! ## Searching to the left -/

/-- `span.start`, `candidateFound` and `firstValidCharPos` behind the loop. -/
structure Expansion where
  start : Int
  candidateFound : Bool
  firstValidCharPos : Int
  deriving DecidableEq, Repr

/-- The loop of `searchLeft` from the position before a number. -/
def expandLeft (cursorPos : Int) : Nat → Bool → Int → Expansion
  | 0, candidateFound, firstValidCharPos => ⟨-1, candidateFound, firstValidCharPos⟩
  | start + 1, candidateFound, firstValidCharPos =>
    let ch := charAt str start
    let first := if firstValidCharPos = -1 then (start : Int) else firstValidCharPos
    if tests.isCandidate ch then expandLeft cursorPos start true first
    else if tests.isDelimiter ch then expandLeft cursorPos start candidateFound first
    else if candidateFound then ⟨start, candidateFound, firstValidCharPos⟩
    -- One invalid character is allowed.
    else if (start : Int) = cursorPos - 1 then
      expandLeft cursorPos start candidateFound firstValidCharPos
    else ⟨start, candidateFound, firstValidCharPos⟩

/-- The loop that moves the start to a valid character, for the positions that
are left to the cursor. -/
def skipInvalid : Nat → Int → Int
  | 0, start => start
  | left + 1, start =>
    if !tests.isValid (charAt str start) then skipInvalid left (start + 1) else start

/-- `trimFromCursorToStart`, for the positions that are left to the limit. -/
def trimFromCursorToStart : Nat → Int → Int
  | 0, boundary => boundary
  | left + 1, boundary =>
    if !tests.isValid (charAt str boundary) then trimFromCursorToStart left (boundary - 1)
    else boundary

/-- `(int) str.length()` -/
def intLength : Int := (str.length : Int).bmod (2 ^ 32)

def searchLeft (cursorPos : Int) : Bool × ParserSpan :=
  if cursorPos - 1 < -1 ∨ cursorPos > intLength str then
    (false, ⟨cursorPos - 1, cursorPos - 1⟩)
  else
    let expanded := tests.expandLeft str cursorPos cursorPos.toNat false (-1)
    let candidateFound := expanded.candidateFound ||
      (decide (expanded.start < 0) && tests.isDelimiter (charAt str 0))
    let start := if expanded.start < 0 then 0 else expanded.start
    let finish := if expanded.firstValidCharPos ≠ -1 then expanded.firstValidCharPos
      else cursorPos - 1
    if candidateFound then
      let trimmed := tests.skipInvalid str (cursorPos - start).toNat start
      (true, ⟨trimmed, tests.trimFromCursorToStart str (finish - trimmed).toNat finish⟩)
    else (false, ⟨start, finish⟩)

/-! ## Searching to the right -/

/-- The loop of `searchRight`, for the characters that are left. -/
def expandRight : Nat → Int → Bool → Int × Bool
  | 0, finish, candidateFound => (finish, candidateFound)
  | left + 1, finish, candidateFound =>
    let ch := charAt str finish
    if tests.isCandidate ch then expandRight left (finish + 1) true
    else if tests.isDelimiter ch then expandRight left (finish + 1) candidateFound
    else (finish, candidateFound)

/-- The loop that moves the end back to a candidate, for the positions that are
left to the start. -/
def trimRight : Nat → Int → Bool → Int × Bool
  | 0, finish, candidateFound => (finish, candidateFound)
  | left + 1, finish, candidateFound =>
    if !tests.isCandidate (charAt str finish) then trimRight left (finish - 1) candidateFound
    else (finish, true)

/-- `searchRight` at a valid cursor, for the characters behind it. -/
def spanRight (left : Nat) (cursorPos : Int) : Bool × ParserSpan :=
  let expanded := tests.expandRight str left cursorPos false
  let trimmed := tests.trimRight str (expanded.1 - cursorPos + 1).toNat expanded.1 expanded.2
  (trimmed.2, ⟨cursorPos, trimmed.1⟩)

def searchRight (cursorPos : Int) : Bool × ParserSpan :=
  if cursorPos < 0 ∨ cursorPos ≥ intLength str then (false, ⟨cursorPos, cursorPos⟩)
  else tests.spanRight str (intLength str - cursorPos).toNat cursorPos

end CharacterTests

/-! ## The parsers -/

namespace PhoneNumberParser

def isPrefixChar (ch : UChar) : Bool := ch = 40 || ch = 41 || ch = 43

def isNumeralChar (ch : UChar) : Bool := 47 < ch && ch < 58

def isDelimiterChar (ch : UChar) : Bool :=
  ch = 32 || ch = 0xA0 || ch = 40 || ch = 41 || ch = 43 || ch = 42 || ch = 45 || ch = 35 ||
    ch = 47 || ch = 46

def tests : CharacterTests where
  isCandidate := isNumeralChar
  isDelimiter := isDelimiterChar
  isPrefix := isPrefixChar

def searchLeft (str : WString) (cursorPos : Int) : Bool × ParserSpan :=
  tests.searchLeft str cursorPos

def searchRight (str : WString) (cursorPos : Int) : Bool × ParserSpan :=
  tests.searchRight str cursorPos

end PhoneNumberParser

namespace UrlParser

/-- `isUrlChar`, with the `iswalnum` of the C library. -/
def isUrlChar (iswalnum : UChar → Bool) (c : UChar) : Bool :=
  iswalnum c ||
    (WString.lit ":/-_&.?%=#~[]@!*+,;()").contains c

/-- There are no delimiters or prefixes of their own. -/
def tests (iswalnum : UChar → Bool) : CharacterTests where
  isCandidate := isUrlChar iswalnum
  isDelimiter _ := false
  isPrefix _ := false

def searchLeft (iswalnum : UChar → Bool) (str : WString) (cursorPos : Int) : Bool × ParserSpan :=
  (tests iswalnum).searchLeft str cursorPos

def searchRight (iswalnum : UChar → Bool) (str : WString) (cursorPos : Int) : Bool × ParserSpan :=
  (tests iswalnum).searchRight str cursorPos

end UrlParser

example : PhoneNumberParser.searchLeft (WString.lit "ph555 1212. ") 12 = (true, ⟨2, 11⟩) := by
  decide +kernel

end Platform
end PalmWebKit
