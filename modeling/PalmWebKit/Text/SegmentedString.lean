import PalmWebKit.Text.CodeUnits

/-!
# Segmented strings

`SegmentedString` is the input of the HTML tokenizer: a deque of substrings
with up to two characters pushed back in front.  The routines that advance it
are selected by two function pointers and two flags that are cached in the
string.  A pointer into the characters of a string is an index; reading through
a null pointer or past the end gives zero here, and neither happens in the runs
that are considered.
-/

namespace PalmWebKit
namespace Text

open WString

/-- `'\n'` -/
def newline : UChar := 10

/-- A `WTF::String` with the width of its characters. -/
structure SourceString where
  units : WString
  is8Bit : Bool
  deriving DecidableEq, Repr

structure SegmentedSubstring where
  /-- `m_data`: the character pointed to, `none` for a null pointer. -/
  data : Option Nat
  length : Nat
  doNotExcludeLineNumbers : Bool
  is8Bit : Bool
  string : SourceString
  deriving DecidableEq, Repr

namespace SegmentedSubstring

/-- The default constructor. -/
def default : SegmentedSubstring where
  data := none
  length := 0
  doNotExcludeLineNumbers := true
  is8Bit := false
  string := ⟨[], false⟩

/-- The constructor from a string.  The pointer of an empty one is not set. -/
def create (string : SourceString) : SegmentedSubstring where
  data := if string.units.length = 0 then none else some 0
  length := string.units.length
  doNotExcludeLineNumbers := true
  is8Bit := if string.units.length = 0 then false else string.is8Bit
  string := string

def clear (substring : SegmentedSubstring) : SegmentedSubstring :=
  { substring with length := 0, data := none, is8Bit := false }

def excludeLineNumbers (substring : SegmentedSubstring) : Bool := !substring.doNotExcludeLineNumbers

def setExcludeLineNumbers (substring : SegmentedSubstring) : SegmentedSubstring :=
  { substring with doNotExcludeLineNumbers := false }

def numberOfCharactersConsumed (substring : SegmentedSubstring) : Int :=
  (substring.string.units.length : Int) - substring.length

def appendTo (substring : SegmentedSubstring) (builder : WString) : WString :=
  let offset := substring.string.units.length - substring.length
  if offset = 0 then
    if substring.length ≠ 0 then builder ++ substring.string.units else builder
  else
    builder ++ WString.substring substring.string.units offset substring.length

/-- The character pointed to, of either width. -/
def read (substring : SegmentedSubstring) : UChar :=
  match substring.data with
  | none => 0
  | some position => charAt substring.string.units position

def getCurrentChar8 (substring : SegmentedSubstring) : UChar := substring.read

def getCurrentChar16 (substring : SegmentedSubstring) : UChar := substring.read

def getCurrentChar (substring : SegmentedSubstring) : UChar :=
  if substring.is8Bit then substring.getCurrentChar8 else substring.getCurrentChar16

@[simp] theorem getCurrentChar_eq_read (substring : SegmentedSubstring) :
    substring.getCurrentChar = substring.read := by
  rw [getCurrentChar, getCurrentChar8, getCurrentChar16, ite_self]

/-- The increment of `incrementAndGetCurrentChar8` and
`incrementAndGetCurrentChar16`. -/
def increment (substring : SegmentedSubstring) : SegmentedSubstring :=
  { substring with data := substring.data.map (· + 1) }

def currentSubString (substring : SegmentedSubstring) (length : Nat) : WString :=
  WString.substring substring.string.units
    (substring.string.units.length - substring.length) length

end SegmentedSubstring

/-- The functions that the two cached pointers point to. -/
inductive AdvanceFunction
  | advanceEmpty
  | advanceSlowCase
  | advanceAndUpdateLineNumberSlowCase
  | advance8
  | advance16
  | advanceAndUpdateLineNumber8
  | advanceAndUpdateLineNumber16
  deriving DecidableEq, Repr

structure FastPathFlags where
  use8BitAdvanceAndUpdateLineNumbers : Bool
  use8BitAdvance : Bool
  deriving DecidableEq, Repr

def FastPathFlags.noFastPath : FastPathFlags where
  use8BitAdvanceAndUpdateLineNumbers := false
  use8BitAdvance := false

structure SegmentedString where
  pushedChar1 : UChar
  pushedChar2 : UChar
  currentString : SegmentedSubstring
  currentChar : UChar
  numberOfCharactersConsumedPriorToCurrentString : Int
  numberOfCharactersConsumedPriorToCurrentLine : Int
  currentLine : Int
  substrings : List SegmentedSubstring
  empty : Bool
  fastPathFlags : FastPathFlags
  advanceFunc : AdvanceFunction
  advanceAndUpdateLineNumberFunc : AdvanceFunction
  deriving DecidableEq, Repr

namespace SegmentedString

/-- The default constructor. -/
def default : SegmentedString where
  pushedChar1 := 0
  pushedChar2 := 0
  currentString := .default
  currentChar := 0
  numberOfCharactersConsumedPriorToCurrentString := 0
  numberOfCharactersConsumedPriorToCurrentLine := 0
  currentLine := 0
  substrings := []
  empty := true
  fastPathFlags := .noFastPath
  advanceFunc := .advanceEmpty
  advanceAndUpdateLineNumberFunc := .advanceEmpty

def isComposite (string : SegmentedString) : Bool := !string.substrings.isEmpty

def escaped (string : SegmentedString) : Bool := string.pushedChar1 ≠ 0

def isEmpty (string : SegmentedString) : Bool := string.empty

/-- The sum is an `unsigned`. -/
def length (string : SegmentedString) : Nat :=
  let length := string.currentString.length
  let length :=
    if string.pushedChar1 ≠ 0 then
      if string.pushedChar2 ≠ 0 then length + 1 + 1 else length + 1
    else length
  (string.substrings.foldl (fun length substring => length + substring.length) length) % 2 ^ 32

def numberOfCharactersConsumed (string : SegmentedString) : Int :=
  let numberOfPushedCharacters : Int :=
    if string.pushedChar1 ≠ 0 then if string.pushedChar2 ≠ 0 then 2 else 1 else 0
  string.numberOfCharactersConsumedPriorToCurrentString +
    string.currentString.numberOfCharactersConsumed - numberOfPushedCharacters

def toString (string : SegmentedString) : WString :=
  let result :=
    if string.pushedChar1 ≠ 0 then
      if string.pushedChar2 ≠ 0 then [string.pushedChar1, string.pushedChar2]
      else [string.pushedChar1]
    else []
  string.substrings.foldl (fun result substring => substring.appendTo result)
    (string.currentString.appendTo result)

/-! ## The cached functions -/

def updateSlowCaseFunctionPointers (string : SegmentedString) : SegmentedString :=
  { string with
    fastPathFlags := .noFastPath
    advanceFunc := .advanceSlowCase
    advanceAndUpdateLineNumberFunc := .advanceAndUpdateLineNumberSlowCase }

/-- The functions for an empty string, as several routines set them. -/
def setAdvanceEmpty (string : SegmentedString) : SegmentedString :=
  { string with
    fastPathFlags := .noFastPath
    advanceFunc := .advanceEmpty
    advanceAndUpdateLineNumberFunc := .advanceEmpty }

/-- The functions of an exhausted string are set and then overwritten by those
of the slow case. -/
def updateAdvanceFunctionPointers (string : SegmentedString) : SegmentedString :=
  if 1 < string.currentString.length ∧ string.pushedChar1 = 0 then
    if string.currentString.is8Bit then
      if string.currentString.doNotExcludeLineNumbers then
        { string with
          fastPathFlags := ⟨true, true⟩
          advanceFunc := .advance8
          advanceAndUpdateLineNumberFunc := .advanceAndUpdateLineNumber8 }
      else
        { string with
          fastPathFlags := ⟨false, true⟩
          advanceFunc := .advance8
          advanceAndUpdateLineNumberFunc := .advance8 }
    else
      { string with
        fastPathFlags := .noFastPath
        advanceFunc := .advance16
        advanceAndUpdateLineNumberFunc :=
          if string.currentString.doNotExcludeLineNumbers then .advanceAndUpdateLineNumber16
          else .advance16 }
  else
    let string :=
      if string.currentString.length = 0 ∧ string.isComposite = false then string.setAdvanceEmpty
      else string
    string.updateSlowCaseFunctionPointers

/-- The constructor from a string. -/
def create (source : SourceString) : SegmentedString :=
  let string : SegmentedString :=
    { default with
      currentString := .create source
      empty := source.units.length = 0 }
  let string :=
    if string.currentString.length ≠ 0 then
      { string with currentChar := string.currentString.getCurrentChar }
    else string
  string.updateAdvanceFunctionPointers

/-- What the memory of a copy held before: the copy constructor leaves out
these members. -/
structure Uninitialized where
  numberOfCharactersConsumedPriorToCurrentString : Int
  numberOfCharactersConsumedPriorToCurrentLine : Int
  currentLine : Int
  deriving DecidableEq, Repr

/-- The current character as copies set it. -/
def copiedCurrentChar (other : SegmentedString) : UChar :=
  if other.pushedChar2 ≠ 0 then other.pushedChar2
  else if other.pushedChar1 ≠ 0 then other.pushedChar1
  else if other.currentString.length ≠ 0 then other.currentString.getCurrentChar
  else 0

/-- The copy constructor. -/
def copy (other : SegmentedString) (memory : Uninitialized) : SegmentedString :=
  { other with
    currentChar := other.copiedCurrentChar
    numberOfCharactersConsumedPriorToCurrentString :=
      memory.numberOfCharactersConsumedPriorToCurrentString
    numberOfCharactersConsumedPriorToCurrentLine :=
      memory.numberOfCharactersConsumedPriorToCurrentLine
    currentLine := memory.currentLine }

/-- `operator=` -/
def assign (other : SegmentedString) : SegmentedString :=
  { other with currentChar := other.copiedCurrentChar }

def setExcludeLineNumbers (string : SegmentedString) : SegmentedString :=
  { string with
    currentString := string.currentString.setExcludeLineNumbers
    substrings := string.substrings.map SegmentedSubstring.setExcludeLineNumbers }

/-! ## Growing -/

/-- The current character behind no or one pushed character. -/
def refreshCurrentChar (string : SegmentedString) : SegmentedString :=
  { string with
    currentChar :=
      if string.pushedChar1 ≠ 0 then string.pushedChar1
      else if string.currentString.length ≠ 0 then string.currentString.getCurrentChar
      else 0 }

def appendSubstring (string : SegmentedString) (substring : SegmentedSubstring) : SegmentedString :=
  if substring.length = 0 then string
  else if string.currentString.length = 0 then
    let string := updateAdvanceFunctionPointers
      { string with
        numberOfCharactersConsumedPriorToCurrentString :=
          string.numberOfCharactersConsumedPriorToCurrentString +
            string.currentString.numberOfCharactersConsumed
        currentString := substring }
    { string with empty := false }
  else
    { string with
      substrings := string.substrings ++ [substring]
      empty := false }

def append (string other : SegmentedString) : SegmentedString :=
  (other.substrings.foldl appendSubstring
    (string.appendSubstring other.currentString)).refreshCurrentChar

def prependSubstring (string : SegmentedString)
    (substring : SegmentedSubstring) : SegmentedString :=
  if substring.length = 0 then string
  else
    let prior := string.numberOfCharactersConsumedPriorToCurrentString +
      string.currentString.numberOfCharactersConsumed - substring.length
    let string := updateAdvanceFunctionPointers
      { string with
        numberOfCharactersConsumedPriorToCurrentString := prior
        substrings :=
          if string.currentString.length = 0 then string.substrings
          else string.currentString :: string.substrings
        currentString := substring }
    { string with empty := false }

def prepend (string other : SegmentedString) : SegmentedString :=
  ((other.substrings.reverse.foldl prependSubstring string).prependSubstring
    other.currentString).refreshCurrentChar

def push (string : SegmentedString) (unit : UChar) : SegmentedString :=
  if string.pushedChar1 = 0 then
    updateSlowCaseFunctionPointers
      { string with
        pushedChar1 := unit
        currentChar := if unit ≠ 0 then unit else string.currentString.getCurrentChar }
  else
    { string with pushedChar2 := unit }

/-! ## Advancing -/

def decrementAndCheckLength (string : SegmentedString) : SegmentedString :=
  let string :=
    { string with
      currentString := { string.currentString with length := string.currentString.length - 1 } }
  if string.currentString.length = 1 then string.updateSlowCaseFunctionPointers else string

/-- `m_currentChar = m_currentString.incrementAndGetCurrentChar()`, of either
width. -/
def incrementAndGetCurrentChar (string : SegmentedString) : SegmentedString :=
  { string with
    currentString := string.currentString.increment
    currentChar := string.currentString.increment.read }

/-- The current line ends with the character that is about to be consumed. -/
def countLine (string : SegmentedString) : SegmentedString :=
  { string with
    currentLine := string.currentLine + 1
    numberOfCharactersConsumedPriorToCurrentLine := string.numberOfCharactersConsumed + 1 }

/-- Advancing inside a substring, which the fast path of `advance` also does. -/
def advanceFast (string : SegmentedString) : SegmentedString :=
  string.decrementAndCheckLength.incrementAndGetCurrentChar

def advance8 (string : SegmentedString) : SegmentedString := string.advanceFast

def advance16 (string : SegmentedString) : SegmentedString := string.advanceFast

/-- The same with line numbers, which the fast path of
`advanceAndUpdateLineNumber` also does where its flag is set. -/
def advanceAndUpdateLineNumberFast (string : SegmentedString) : SegmentedString :=
  let string := if string.currentChar = newline then string.countLine else string
  string.advanceFast

def advanceAndUpdateLineNumber8 (string : SegmentedString) : SegmentedString :=
  string.advanceAndUpdateLineNumberFast

def advanceAndUpdateLineNumber16 (string : SegmentedString) : SegmentedString :=
  string.advanceAndUpdateLineNumberFast

/-- The end of the last substring. -/
def exhaust (string : SegmentedString) : SegmentedString :=
  setAdvanceEmpty
    { string with
      currentString := string.currentString.clear
      empty := true }

def advanceSubstring (string : SegmentedString) : SegmentedString :=
  match string.substrings with
  | first :: rest =>
    updateAdvanceFunctionPointers
      { string with
        numberOfCharactersConsumedPriorToCurrentString :=
          string.numberOfCharactersConsumedPriorToCurrentString +
            string.currentString.numberOfCharactersConsumed - first.numberOfCharactersConsumed
        currentString := first
        substrings := rest }
  | [] => string.exhaust

/-- The current character at the end of the slow cases. -/
def readCurrentChar (string : SegmentedString) : SegmentedString :=
  { string with
    currentChar :=
      if string.currentString.length ≠ 0 then string.currentString.getCurrentChar else 0 }

/-- The first branch of the slow cases: a pushed character is consumed. -/
def popPushedChar (string : SegmentedString) : SegmentedString :=
  let string := { string with pushedChar1 := string.pushedChar2, pushedChar2 := 0 }
  if string.pushedChar1 ≠ 0 then { string with currentChar := string.pushedChar1 }
  else string.updateAdvanceFunctionPointers.readCurrentChar

/-- Where characters remain the pointer is left behind: only the sibling below
moves it. -/
def advanceSlowCase (string : SegmentedString) : SegmentedString :=
  if string.pushedChar1 ≠ 0 then string.popPushedChar
  else if string.currentString.length ≠ 0 then
    let string :=
      { string with
        currentString := { string.currentString with length := string.currentString.length - 1 } }
    if string.currentString.length = 0 then string.advanceSubstring.readCurrentChar
    else string.readCurrentChar
  else if string.isComposite = false then string.exhaust.readCurrentChar
  else string.readCurrentChar

def advanceAndUpdateLineNumberSlowCase (string : SegmentedString) : SegmentedString :=
  if string.pushedChar1 ≠ 0 then string.popPushedChar
  else if string.currentString.length ≠ 0 then
    let string :=
      if string.currentString.getCurrentChar = newline ∧
          string.currentString.doNotExcludeLineNumbers = true then string.countLine
      else string
    let string :=
      { string with
        currentString := { string.currentString with length := string.currentString.length - 1 } }
    if string.currentString.length = 0 then string.advanceSubstring.readCurrentChar
    else { string with currentString := string.currentString.increment }.readCurrentChar
  else if string.isComposite = false then string.exhaust.readCurrentChar
  else string.readCurrentChar

def advanceEmpty (string : SegmentedString) : SegmentedString :=
  { string with currentChar := 0 }

/-- A call through one of the cached pointers. -/
def call (string : SegmentedString) : AdvanceFunction → SegmentedString
  | .advanceEmpty => string.advanceEmpty
  | .advanceSlowCase => string.advanceSlowCase
  | .advanceAndUpdateLineNumberSlowCase => string.advanceAndUpdateLineNumberSlowCase
  | .advance8 => string.advance8
  | .advance16 => string.advance16
  | .advanceAndUpdateLineNumber8 => string.advanceAndUpdateLineNumber8
  | .advanceAndUpdateLineNumber16 => string.advanceAndUpdateLineNumber16

def advance (string : SegmentedString) : SegmentedString :=
  if string.fastPathFlags.use8BitAdvance then string.advanceFast
  else string.call string.advanceFunc

def advanceAndUpdateLineNumber (string : SegmentedString) : SegmentedString :=
  if string.fastPathFlags.use8BitAdvance then
    if string.fastPathFlags.use8BitAdvanceAndUpdateLineNumbers then
      string.advanceAndUpdateLineNumberFast
    else string.advanceFast
  else string.call string.advanceAndUpdateLineNumberFunc

/-- `advance(count, consumedCharacters)`: the characters and the string behind
them. -/
def advanceCount (string : SegmentedString) : Nat → WString × SegmentedString
  | 0 => ([], string)
  | count + 1 =>
    let (consumedCharacters, rest) := advanceCount string.advance count
    (string.currentChar :: consumedCharacters, rest)

/-! ## Looking ahead -/

inductive LookAheadResult
  | didNotMatch
  | didMatch
  | notEnoughCharacters
  deriving DecidableEq, Repr

section LookAhead

/-- `String::startsWith` with its flag: `foldCase` is the case folding of ICU. -/
def startsWithFolded (foldCase : UChar → UChar) (text start : WString)
    (caseSensitive : Bool) : Bool :=
  if caseSensitive then startsWith text start
  else startsWith (text.map foldCase) (start.map foldCase)

variable (foldCase : UChar → UChar)

/-- The comparison of a lookahead. -/
def compareAhead (ahead text : WString) (caseSensitive : Bool) : LookAheadResult :=
  if startsWithFolded foldCase ahead text caseSensitive then .didMatch else .didNotMatch

def lookAheadSlowCase (string : SegmentedString) (text : WString)
    (caseSensitive : Bool) : LookAheadResult × SegmentedString :=
  if string.length < text.length then (.notEnoughCharacters, string)
  else
    let (consumedString, rest) := string.advanceCount text.length
    (compareAhead foldCase consumedString text caseSensitive,
      rest.prepend (create ⟨consumedString, false⟩))

/-- `lookAhead` and `lookAheadIgnoringCase`. -/
def lookAhead (string : SegmentedString) (text : WString)
    (caseSensitive : Bool) : LookAheadResult × SegmentedString :=
  if string.pushedChar1 = 0 ∧ text.length ≤ string.currentString.length then
    (compareAhead foldCase (string.currentString.currentSubString text.length) text caseSensitive,
      string)
  else
    string.lookAheadSlowCase foldCase text caseSensitive

end LookAhead

end SegmentedString
end Text
end PalmWebKit
