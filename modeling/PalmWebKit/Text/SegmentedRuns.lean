import PalmWebKit.Logic.Runs
import PalmWebKit.Text.SegmentedOperations

/-!
# Runs over segmented strings

A program holds any number of segmented strings and works on them in any order.
Next to each string stands the queue it is meant to be, and in a run whose
steps meet their conditions the two agree in every state.
-/

namespace PalmWebKit
namespace Text

open List WString

/-- A string with the sequence it stands for. -/
structure Tracked where
  string : SegmentedString
  queue : CharacterQueue

/-- The strings of a program, by number. -/
abbrev Store := Nat → Tracked

/-- Default-constructed strings. -/
def Store.start : Store := fun _ => ⟨.default, .empty⟩

/-- The operations.  The second number names the other string. -/
inductive SegmentedOperation
  | create (target : Nat) (source : SourceString)
  | append (target other : Nat)
  | prepend (target other : Nat)
  | push (target : Nat) (unit : UChar)
  | advance (target : Nat)
  | advanceAndUpdateLineNumber (target : Nat)
  | lookAhead (target : Nat) (text : WString) (caseSensitive : Bool)
  | setExcludeLineNumbers (target : Nat)
  | copy (target other : Nat) (memory : SegmentedString.Uninitialized)
  | assign (target other : Nat)

namespace Store

variable (foldCase : UChar → UChar)

/-- One operation, on the strings and on the sequences. -/
def step (store : Store) : SegmentedOperation → Store
  | .create target source => Function.update store target ⟨.create source, .create source.units⟩
  | .append target other =>
    Function.update store target
      ⟨(store target).string.append (store other).string,
        (store target).queue.append (store other).queue⟩
  | .prepend target other =>
    Function.update store target
      ⟨(store target).string.prepend (store other).string,
        (store target).queue.prepend (store other).queue⟩
  | .push target unit =>
    Function.update store target
      ⟨(store target).string.push unit, (store target).queue.push unit⟩
  | .advance target =>
    Function.update store target
      ⟨(store target).string.advance, (store target).queue.advance⟩
  | .advanceAndUpdateLineNumber target =>
    Function.update store target
      ⟨(store target).string.advanceAndUpdateLineNumber,
        (store target).queue.advanceAndUpdateLineNumber⟩
  | .lookAhead target text caseSensitive =>
    Function.update store target
      ⟨((store target).string.lookAhead foldCase text caseSensitive).2, (store target).queue⟩
  | .setExcludeLineNumbers target =>
    Function.update store target
      ⟨(store target).string.setExcludeLineNumbers, (store target).queue.excludeLineNumbers⟩
  | .copy target other memory =>
    Function.update store target ⟨(store other).string.copy memory, (store other).queue⟩
  | .assign target other =>
    Function.update store target ⟨(store other).string.assign, (store other).queue⟩

/-- The condition of an operation.

* Lengths fit their types, a string is not added to itself, and what is
  asserted holds: no pushed characters where a string is prepended to or added,
  at most two of them.
* A pushed character is not NUL, the string has characters left, and pushed
  characters before it were not looked past.
* A line-updating call does not meet a newline through a function that still
  counts lines, cached before the line numbers were excluded.
* A lookahead that has enough characters reaches all pushed ones; one that is not
  answered from the current substring passes only newlines that count.
* A string is not copied with two different pushed characters, and the memory
  of a new copy happens to hold the line of the original. -/
def Allowed (store : Store) : SegmentedOperation → Prop
  | .create _ source => source.units.length < 2 ^ 31
  | .append target other =>
    target ≠ other ∧ (store other).string.pushedChar1 = 0 ∧
      (store target).queue.items.length + (store other).queue.items.length < 2 ^ 32
  | .prepend target other =>
    target ≠ other ∧ (store other).string.pushedChar1 = 0 ∧
      (store target).string.pushedChar1 = 0 ∧ (store target).queue.pushed = [] ∧
        (store target).queue.items.length + (store other).queue.items.length < 2 ^ 32
  | .push target unit =>
    unit ≠ 0 ∧ (store target).queue.items ≠ [] ∧ (store target).queue.pushed.length < 2 ∧
      (store target).string.pushedChars = (store target).queue.pushed ∧
        (store target).queue.items.length + 1 < 2 ^ 32
  | .advance _ => True
  | .advanceAndUpdateLineNumber target =>
    (store target).string.CountsLines → (store target).string.currentChar = newline →
      (store target).string.currentString.doNotExcludeLineNumbers = true
  | .lookAhead target text _ =>
    text.length ≤ (store target).queue.items.length → (store target).string.ReachesPushed text ∧
        ((store target).string.LooksPast text →
          ∀ item ∈ (store target).queue.items.take text.length,
            item.unit = newline → item.countsLine = true)
  | .setExcludeLineNumbers _ => True
  | .copy _ other memory =>
    ((store other).string.pushedChar2 ≠ 0 →
      (store other).string.pushedChar1 = (store other).string.pushedChar2) ∧
        memory.currentLine = (store other).string.currentLine
  | .assign _ other =>
    (store other).string.pushedChar2 ≠ 0 →
      (store other).string.pushedChar1 = (store other).string.pushedChar2

end Store

/-! ## Agreement -/

/-- What can be seen of a string is that of its sequence. -/
structure Tracked.Agrees (foldCase : UChar → UChar) (tracked : Tracked) : Prop where
  currentChar : tracked.string.currentChar = tracked.queue.currentChar
  toString : tracked.string.toString = tracked.queue.units
  length : tracked.string.length = tracked.queue.items.length
  isEmpty : tracked.string.isEmpty = tracked.queue.items.isEmpty
  currentLine : tracked.string.currentLine = tracked.queue.line
  lookAhead : ∀ text caseSensitive, (tracked.string.lookAhead foldCase text caseSensitive).1 =
      if tracked.queue.items.length < text.length then .notEnoughCharacters
      else SegmentedString.compareAhead foldCase (tracked.queue.units.take text.length) text
        caseSensitive

/-- The invariant of a run: a lookahead may have turned the pushed characters
into a substring. -/
structure Tracked.Follows (tracked : Tracked) : Prop where
  sound : tracked.string.Sound
  items : tracked.string.items = tracked.queue.items
  line : tracked.string.currentLine = tracked.queue.line
  pushed : tracked.string.pushedChars = tracked.queue.pushed ∨ tracked.string.pushedChars = []
  small : tracked.queue.items.length < 2 ^ 32

section Steps

variable {tracked other : Tracked}

theorem Tracked.Follows.agrees (follows : tracked.Follows) (foldCase : UChar → UChar) :
    tracked.Agrees foldCase := by
  have small : tracked.string.items.length < 2 ^ 32 := by
    rw [follows.items]
    exact follows.small
  refine ⟨?_, ?_, ?_, ?_, follows.line, fun text caseSensitive => ?_⟩
  · rw [follows.sound.currentChar, follows.items]
    rfl
  · rw [SegmentedString.toString_eq follows.sound.shape, follows.items]
    rfl
  · rw [SegmentedString.length_of_lt follows.sound small, follows.items]
  · rw [SegmentedString.isEmpty, follows.sound.empty, follows.items]
  · rw [follows.sound.lookAhead_result small, follows.items]
    rfl

theorem Tracked.follows_create {source : SourceString} (short : source.units.length < 2 ^ 31) :
    Tracked.Follows ⟨.create source, .create source.units⟩ := by
  obtain ⟨sound, items, unescaped, line⟩ := SegmentedString.sound_create source
  refine ⟨sound, ?_, line, .inl (SegmentedString.pushedChars_of_unescaped unescaped), ?_⟩
  · rw [items, CharacterQueue.items_create]
  · rw [CharacterQueue.items_create, length_map]
    omega

theorem Tracked.Follows.append (follows : tracked.Follows) (otherFollows : other.Follows)
    (unescaped : other.string.pushedChar1 = 0)
    (small : tracked.queue.items.length + other.queue.items.length < 2 ^ 32) : Tracked.Follows
      ⟨tracked.string.append other.string, tracked.queue.append other.queue⟩ := by
  obtain ⟨sound, items, pushed, line⟩ := follows.sound.append otherFollows.sound unescaped
  refine ⟨sound, ?_, line.trans follows.line, ?_, ?_⟩
  · rw [items, follows.items, otherFollows.items, CharacterQueue.items_append]
  · rw [pushed]
    exact follows.pushed
  · rwa [CharacterQueue.items_append, length_append]

theorem Tracked.Follows.prepend (follows : tracked.Follows) (otherFollows : other.Follows)
    (unescaped : other.string.pushedChar1 = 0) (targetUnescaped : tracked.string.pushedChar1 = 0)
    (noPushed : tracked.queue.pushed = [])
    (small : tracked.queue.items.length + other.queue.items.length < 2 ^ 32) : Tracked.Follows
      ⟨tracked.string.prepend other.string, tracked.queue.prepend other.queue⟩ := by
  obtain ⟨sound, items, pushed, line⟩ :=
    follows.sound.prepend targetUnescaped otherFollows.sound unescaped
  have all := CharacterQueue.items_prepend noPushed other.queue
  refine ⟨sound, ?_, line.trans follows.line, ?_, ?_⟩
  · rw [items, follows.items, otherFollows.items, all]
  · rw [pushed]
    exact follows.pushed
  · rw [all, length_append]
    omega

theorem Tracked.Follows.push (follows : tracked.Follows) {unit : UChar} (notNul : unit ≠ 0)
    (more : tracked.queue.items ≠ []) (room : tracked.queue.pushed.length < 2)
    (inStep : tracked.string.pushedChars = tracked.queue.pushed)
    (small : tracked.queue.items.length + 1 < 2 ^ 32) :
    Tracked.Follows ⟨tracked.string.push unit, tracked.queue.push unit⟩ := by
  have noSecond : tracked.string.pushedChar2 = 0 := by
    by_contra second
    have escaped : tracked.string.pushedChar1 ≠ 0 := mt follows.sound.shape.pushed second
    rw [← inStep, SegmentedString.pushedChars, if_pos escaped, if_pos second] at room
    exact absurd room (Nat.lt_irrefl 2)
  rw [← follows.items] at more
  obtain ⟨sound, items, pushed, line⟩ := follows.sound.push more noSecond notNul
  have behind : tracked.string.segmentItems = tracked.queue.rest := by
    have all := follows.items
    rw [SegmentedString.items, inStep] at all
    exact append_cancel_left all
  refine ⟨sound, ?_, line.trans follows.line, .inl ?_, ?_⟩
  · rw [items, inStep, behind]
    rfl
  · rw [pushed, inStep]
    rfl
  · rw [CharacterQueue.items_push, length_append]
    rw [CharacterQueue.items, length_append] at small
    omega

/-- What is left of the pushed characters after one is consumed. -/
theorem pushed_tail {before after : SegmentedString} {queue : CharacterQueue}
    (pushed : before.pushedChars = queue.pushed ∨ before.pushedChars = [])
    (next : after.pushedChars = before.pushedChars.tail) :
    after.pushedChars = queue.advance.pushed ∨ after.pushedChars = [] := by
  rcases pushed with same | none
  · left
    rw [next, same, CharacterQueue.advance]
    split
    next isPushed => rw [isPushed, tail_cons]
    next isPushed => rw [isPushed, tail_nil]
  · right
    rw [next, none, tail_nil]

theorem Tracked.Follows.advance (follows : tracked.Follows) :
    Tracked.Follows ⟨tracked.string.advance, tracked.queue.advance⟩ := by
  have consumes := follows.sound.advance
  refine ⟨consumes.sound, ?_, ?_, pushed_tail follows.pushed consumes.pushed, ?_⟩
  · rw [consumes.items, follows.items, CharacterQueue.items_advance]
  · rw [consumes.currentLine, follows.line, CharacterQueue.line_advance]
  · rw [CharacterQueue.items_advance, length_tail]
    exact lt_of_le_of_lt (Nat.sub_le _ _) follows.small

theorem Tracked.Follows.advanceAndUpdateLineNumber (follows : tracked.Follows)
    (counts : tracked.string.CountsLines → tracked.string.currentChar = newline →
      tracked.string.currentString.doNotExcludeLineNumbers = true) : Tracked.Follows
      ⟨tracked.string.advanceAndUpdateLineNumber, tracked.queue.advanceAndUpdateLineNumber⟩ := by
  have consumes := follows.sound.advanceAndUpdateLineNumber counts
  refine ⟨consumes.sound, ?_, ?_, pushed_tail follows.pushed consumes.pushed, ?_⟩
  · rw [consumes.items, follows.items, CharacterQueue.items_advanceAndUpdateLineNumber]
  · rw [consumes.currentLine, follows.items, follows.line]
    rfl
  · rw [CharacterQueue.items_advanceAndUpdateLineNumber, length_tail]
    exact lt_of_le_of_lt (Nat.sub_le _ _) follows.small

theorem Tracked.Follows.lookAhead (follows : tracked.Follows) (foldCase : UChar → UChar)
    {text : WString} (caseSensitive : Bool)
    (allowed : text.length ≤ tracked.queue.items.length → tracked.string.ReachesPushed text ∧
        (tracked.string.LooksPast text → ∀ item ∈ tracked.queue.items.take text.length,
            item.unit = newline → item.countsLine = true)) : Tracked.Follows
      ⟨(tracked.string.lookAhead foldCase text caseSensitive).2, tracked.queue⟩ := by
  have small : tracked.string.items.length < 2 ^ 32 := by
    rw [follows.items]
    exact follows.small
  rw [← follows.items] at allowed
  obtain ⟨sound, items, line, pushed⟩ := follows.sound.lookAhead small foldCase caseSensitive
    (fun enough => (allowed enough).1) (fun enough => (allowed enough).2)
  refine ⟨sound, items.trans follows.items, line.trans follows.line, ?_, follows.small⟩
  rcases pushed with same | none
  · rw [same]
    exact follows.pushed
  · exact .inr none

theorem Tracked.Follows.setExcludeLineNumbers (follows : tracked.Follows) : Tracked.Follows
      ⟨tracked.string.setExcludeLineNumbers, tracked.queue.excludeLineNumbers⟩ := by
  obtain ⟨sound, items⟩ := follows.sound.setExcludeLineNumbers
  refine ⟨sound, ?_, follows.line, follows.pushed, ?_⟩
  · rw [items, follows.items, CharacterQueue.items_excludeLineNumbers]
  · rw [CharacterQueue.items_excludeLineNumbers, length_map]
    exact follows.small

theorem Tracked.Follows.copy (follows : tracked.Follows) {memory : SegmentedString.Uninitialized}
    (same : tracked.string.pushedChar2 ≠ 0 →
      tracked.string.pushedChar1 = tracked.string.pushedChar2)
    (line : memory.currentLine = tracked.string.currentLine) :
    Tracked.Follows ⟨tracked.string.copy memory, tracked.queue⟩ :=
  ⟨follows.sound.copy same memory, follows.items, line.trans follows.line, follows.pushed,
    follows.small⟩

theorem Tracked.Follows.assign (follows : tracked.Follows)
    (same : tracked.string.pushedChar2 ≠ 0 →
      tracked.string.pushedChar1 = tracked.string.pushedChar2) :
    Tracked.Follows ⟨tracked.string.assign, tracked.queue⟩ := by
  rw [follows.sound.assign same]
  exact follows

/-- One allowed operation keeps every string in step with its sequence. -/
theorem Store.follows_step (foldCase : UChar → UChar) {store : Store}
    (follows : ∀ name, (store name).Follows) {op : SegmentedOperation}
    (allowed : store.Allowed op) : ∀ name, (store.step foldCase op name).Follows := by
  have update {target : Nat} {next : Tracked} (nextFollows : next.Follows) (name : Nat) :
      (Function.update store target next name).Follows := by
    by_cases same : name = target
    · subst same
      rw [Function.update_self]
      exact nextFollows
    · rw [Function.update_of_ne same]
      exact follows name
  cases op with
  | create target source => exact update (Tracked.follows_create allowed)
  | append target other =>
    exact update ((follows target).append (follows other) allowed.2.1 allowed.2.2)
  | prepend target other =>
    obtain ⟨-, unescaped, targetUnescaped, noPushed, small⟩ := allowed
    exact update ((follows target).prepend (follows other) unescaped targetUnescaped noPushed small)
  | push target unit =>
    obtain ⟨notNul, more, room, inStep, small⟩ := allowed
    exact update ((follows target).push notNul more room inStep small)
  | advance target => exact update (follows target).advance
  | advanceAndUpdateLineNumber target =>
    exact update ((follows target).advanceAndUpdateLineNumber allowed)
  | lookAhead target text caseSensitive =>
    exact update ((follows target).lookAhead foldCase caseSensitive allowed)
  | setExcludeLineNumbers target => exact update (follows target).setExcludeLineNumbers
  | copy target other memory => exact update ((follows other).copy allowed.1 allowed.2)
  | assign target other => exact update ((follows other).assign allowed)

theorem Store.follows_start (name : Nat) : (Store.start name).Follows :=
  ⟨SegmentedString.sound_default, rfl, rfl, .inl rfl, Nat.two_pow_pos 32⟩

end Steps

/-! ## Runs -/

/-- In every run of allowed operations over any number of strings, every string
agrees with its sequence in every state. -/
theorem Store.agrees_run (foldCase : UChar → UChar) (ops : List SegmentedOperation)
    (allowed : Runs.StepsMeet (Store.step foldCase) Store.Allowed Store.start ops) :
    ∀ reached ∈ Runs.visited (Store.step foldCase) Store.start ops,
      ∀ name, (reached name).Agrees foldCase := by
  intro reached visited name
  have follows := @Runs.visited_of_stepsMeet _ _ (Store.step foldCase)
    (fun store : Store => ∀ name, (store name).Follows) Store.Allowed
    (fun _ _ follows allowed => Store.follows_step foldCase follows allowed)
    ops _ Store.follows_start allowed reached visited name
  exact follows.agrees foldCase

/-- The theorem on a string with a pushed character that is looked past. -/
theorem Store.agrees_run_pushed : (Runs.final (Store.step id) Store.start
      [.create 0 ⟨lit "bc", true⟩, .push 0 97, .lookAhead 0 (lit "ab") true,
        .advance 0] 0).Agrees id :=
  Store.agrees_run id
    [.create 0 ⟨lit "bc", true⟩, .push 0 97, .lookAhead 0 (lit "ab") true, .advance 0]
    ⟨show (lit "bc").length < 2 ^ 31 by decide,
      ⟨by decide, by decide, by decide, by decide, by decide⟩,
      fun _ => ⟨.inr (by decide), fun _ => by decide⟩, trivial, trivial⟩
    _ (Runs.final_mem_visited _ _) 0

/-- A string with two pushed characters and its assigned copy show different
characters. -/
theorem Store.assigned_copy_differs :
    let store := Runs.final (Store.step id) Store.start
      [.create 0 ⟨lit "c", true⟩, .push 0 97, .push 0 98, .assign 1 0]
    (store 0).string.currentChar = 97 ∧ (store 0).queue.currentChar = 97 ∧
      (store 1).queue.currentChar = 97 ∧ (store 1).string.currentChar = 98 ∧
        ¬ (store 1).Agrees id := by
  refine ⟨by decide, by decide, by decide, by decide, fun agrees => ?_⟩
  exact absurd agrees.currentChar (by decide)

end Text
end PalmWebKit
