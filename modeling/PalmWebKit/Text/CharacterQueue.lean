import PalmWebKit.Text.SegmentedString

/-!
# Character queues

What a segmented string stands for: the characters to come, the pushed ones
first, each with the note whether consuming it ends a line that counts.  Under
the invariant of a segmented string its routines act on that sequence.
-/

namespace PalmWebKit
namespace Text

open List WString

/-- A character to come, and whether a call that updates the line number counts
a line when it consumes it. -/
structure QueuedChar where
  unit : UChar
  countsLine : Bool
  deriving DecidableEq, Repr

/-- The abstract sequence.  Pushed characters come first, in the order in which
they were pushed, and never count. -/
structure CharacterQueue where
  pushed : WString
  rest : List QueuedChar
  line : Int
  deriving DecidableEq, Repr

/-- Pushed characters in the queue. -/
def uncounted (units : WString) : List QueuedChar := units.map fun unit => ⟨unit, false⟩

/-- Consuming the first character counts a line. -/
def startsCountedLine (items : List QueuedChar) : Bool := items.head?.any QueuedChar.countsLine

namespace CharacterQueue

def empty : CharacterQueue where
  pushed := []
  rest := []
  line := 0

def items (queue : CharacterQueue) : List QueuedChar := uncounted queue.pushed ++ queue.rest

def units (queue : CharacterQueue) : WString := queue.items.map QueuedChar.unit

/-- The next character, zero at the end. -/
def currentChar (queue : CharacterQueue) : UChar := queue.units.headD 0

/-- A fresh queue over a text whose lines count. -/
def create (units : WString) : CharacterQueue where
  pushed := []
  rest := units.map fun unit => ⟨unit, unit = newline⟩
  line := 0

def append (queue other : CharacterQueue) : CharacterQueue :=
  { queue with rest := queue.rest ++ other.items }

def prepend (queue other : CharacterQueue) : CharacterQueue :=
  { queue with rest := other.items ++ queue.rest }

def push (queue : CharacterQueue) (unit : UChar) : CharacterQueue :=
  { queue with pushed := queue.pushed ++ [unit] }

/-- The first character is consumed. -/
def advance (queue : CharacterQueue) : CharacterQueue :=
  match queue.pushed with
  | _ :: pushed => { queue with pushed }
  | [] => { queue with rest := queue.rest.tail }

/-- The first character is consumed, and its line counted. -/
def advanceAndUpdateLineNumber (queue : CharacterQueue) : CharacterQueue :=
  { queue.advance with
    line := if startsCountedLine queue.items then queue.line + 1 else queue.line }

/-- No line of the rest counts. -/
def excludeLineNumbers (queue : CharacterQueue) : CharacterQueue :=
  { queue with rest := queue.rest.map fun item => { item with countsLine := false } }

variable (queue : CharacterQueue)

@[simp] theorem items_advance : queue.advance.items = queue.items.tail := by
  obtain ⟨pushed, rest, line⟩ := queue
  cases pushed with
  | nil | cons unit pushed => rfl

@[simp] theorem items_advanceAndUpdateLineNumber :
    queue.advanceAndUpdateLineNumber.items = queue.items.tail := items_advance queue

@[simp] theorem items_append (queue other : CharacterQueue) :
    (queue.append other).items = queue.items ++ other.items := by
  simp [append, items]

@[simp] theorem items_push (unit : UChar) :
    (queue.push unit).items = uncounted queue.pushed ++ ⟨unit, false⟩ :: queue.rest := by
  simp [push, items, uncounted]

theorem items_prepend {queue : CharacterQueue} (unescaped : queue.pushed = [])
    (other : CharacterQueue) : (queue.prepend other).items = other.items ++ queue.items := by
  simp [prepend, items, uncounted, unescaped]

@[simp] theorem items_create (units : WString) :
    (create units).items = units.map fun unit => ⟨unit, unit = newline⟩ := by
  simp [create, items, uncounted]

@[simp] theorem items_excludeLineNumbers : queue.excludeLineNumbers.items =
      queue.items.map fun item => { item with countsLine := false } := by
  simp [excludeLineNumbers, items, uncounted]

@[simp] theorem line_advance : queue.advance.line = queue.line := by
  unfold advance
  split <;> rfl

end CharacterQueue

/-! ## The sequence of a segmented string -/

namespace SegmentedSubstring

/-- The characters that are left. -/
def remaining (substring : SegmentedSubstring) : WString :=
  substring.string.units.drop (substring.string.units.length - substring.length)

def items (substring : SegmentedSubstring) : List QueuedChar :=
  substring.remaining.map fun unit => ⟨unit, substring.doNotExcludeLineNumbers && unit = newline⟩

/-- Pointer and length of a substring agree. -/
structure Fits (substring : SegmentedSubstring) : Prop where
  bounded : substring.length ≤ substring.string.units.length
  pointer : substring.length ≠ 0 →
    substring.data = some (substring.string.units.length - substring.length)

section Substring

variable {substring : SegmentedSubstring}

theorem Fits.length_remaining (fits : substring.Fits) :
    substring.remaining.length = substring.length := by
  have := fits.bounded
  rw [remaining, length_drop]
  omega

theorem Fits.length_items (fits : substring.Fits) : substring.items.length = substring.length := by
  rw [items, length_map, fits.length_remaining]

theorem items_eq_nil (exhausted : substring.length = 0) : substring.items = [] := by
  rw [items, remaining, exhausted, Nat.sub_zero, drop_length, map_nil]

variable (fits : substring.Fits)
include fits

/-- The first character of a substring is the one pointed to. -/
theorem Fits.remaining_eq_cons (nonempty : substring.length ≠ 0) :
    substring.remaining =
      substring.read :: { substring with length := substring.length - 1 }.remaining := by
  have bounded := fits.bounded
  have inside : substring.string.units.length - substring.length <
      substring.string.units.length := by omega
  have next : substring.string.units.length - substring.length + 1 =
      substring.string.units.length - (substring.length - 1) := by omega
  rw [remaining, drop_eq_getElem_cons inside, next]
  congr 1
  rw [read, fits.pointer nonempty]
  dsimp only
  rw [charAt, getD_eq_getElem?_getD, getElem?_eq_getElem inside, Option.getD_some]

theorem Fits.items_eq_cons (nonempty : substring.length ≠ 0) :
    substring.items =
      ⟨substring.read, substring.doNotExcludeLineNumbers && substring.read = newline⟩ ::
        { substring with length := substring.length - 1 }.items := by
  rw [items, fits.remaining_eq_cons nonempty, map_cons, items]

/-- Moving pointer and length together. -/
theorem Fits.next (nonempty : substring.length ≠ 0) :
    ({ substring with length := substring.length - 1 }.increment).Fits where
  bounded := (Nat.sub_le _ _).trans fits.bounded
  pointer := by
    intro more
    have bounded := fits.bounded
    dsimp only [increment] at more ⊢
    rw [fits.pointer nonempty, Option.map_some]
    congr 1
    omega

theorem appendTo_eq (builder : WString) :
    substring.appendTo builder = builder ++ substring.remaining := by
  unfold appendTo remaining
  by_cases whole : substring.string.units.length - substring.length = 0
  · rw [if_pos whole, whole, drop_zero]
    by_cases some : substring.length = 0
    · have noUnits : substring.string.units = [] := length_eq_zero_iff.1 (by omega)
      rw [if_neg (not_not.2 some), noUnits, append_nil]
    · rw [if_pos some]
  · rw [if_neg whole, WString.substring, take_of_length_le]
    rw [length_drop]
    omega

omit fits

theorem fits_create (string : SourceString) : (create string).Fits where
  bounded := le_refl _
  pointer := by
    intro nonempty
    dsimp only [create] at nonempty ⊢
    rw [if_neg nonempty, Nat.sub_self]

theorem items_create (string : SourceString) :
    (create string).items = string.units.map fun unit => ⟨unit, unit = newline⟩ := by
  have all : (create string).remaining = string.units := by
    dsimp only [create, remaining]
    rw [Nat.sub_self, drop_zero]
  have counts : (create string).doNotExcludeLineNumbers = true := rfl
  simp only [items, all, counts, Bool.true_and]

theorem items_setExcludeLineNumbers (substring : SegmentedSubstring) :
    substring.setExcludeLineNumbers.items =
      substring.items.map fun item => { item with countsLine := false } := by
  rw [items, items, map_map]
  rfl

theorem Fits.setExcludeLineNumbers (fits : substring.Fits) :
    substring.setExcludeLineNumbers.Fits := ⟨fits.bounded, fits.pointer⟩

end Substring

end SegmentedSubstring
end Text
end PalmWebKit
