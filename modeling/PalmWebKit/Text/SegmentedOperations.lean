import PalmWebKit.Text.SegmentedRefinement

/-!
# Lines, growth and lookahead of a segmented string

The calls that update the line number, the operations that make a string longer
and the copies, on the sequence of the string.
-/

namespace PalmWebKit
namespace Text
namespace SegmentedString

open List WString

/-! ## Line numbers -/

section Lines

variable {string : SegmentedString}

/-- A step consumes the first character and counts its line. -/
structure ConsumesLine (before after : SegmentedString) : Prop where
  sound : after.Sound
  items : after.items = before.items.tail
  currentLine : after.currentLine =
    if startsCountedLine before.items then before.currentLine + 1 else before.currentLine
  pushed : after.pushedChars = before.pushedChars.tail

theorem Sound.countLine (sound : string.Sound) : string.countLine.Sound :=
  ⟨⟨sound.shape.current, sound.shape.others, sound.shape.exhausted, sound.shape.pushed,
    sound.shape.backed⟩, ⟨sound.routine.narrow, sound.routine.wide, sound.routine.slow⟩,
    sound.currentChar, sound.empty⟩

/-- A line is counted before the character is consumed. -/
theorem ConsumesLine.of_countLine {after : SegmentedString}
    (counts : startsCountedLine string.items = true) (consumes : Consumes string.countLine after) :
    ConsumesLine string after := by
  refine ⟨consumes.sound, consumes.items, ?_, consumes.pushed⟩
  rw [consumes.currentLine, if_pos counts]
  rfl

theorem ConsumesLine.of_consumes {after : SegmentedString}
    (counts : startsCountedLine string.items = false) (consumes : Consumes string after) :
    ConsumesLine string after := by
  refine ⟨consumes.sound, consumes.items, ?_, consumes.pushed⟩
  rw [consumes.currentLine, counts, if_neg Bool.false_ne_true]

theorem Sound.startsCountedLine_eq (sound : string.Sound) (unescaped : string.pushedChar1 = 0)
    (nonempty : string.currentString.length ≠ 0) :
    startsCountedLine string.items = (string.currentString.doNotExcludeLineNumbers &&
        string.currentString.read = newline) := by
  rw [sound.items_eq_cons unescaped nonempty]
  rfl

theorem Sound.advanceAndUpdateLineNumberFast (sound : string.Sound) (fast : string.Fast)
    (counts : string.currentChar = newline → string.currentString.doNotExcludeLineNumbers = true) :
    ConsumesLine string string.advanceAndUpdateLineNumberFast := by
  have nonempty : string.currentString.length ≠ 0 := Nat.ne_of_gt (Nat.lt_of_succ_lt fast.1)
  have starts := sound.startsCountedLine_eq fast.2 nonempty
  rw [← sound.currentChar_eq_read fast.2 nonempty] at starts
  rw [SegmentedString.advanceAndUpdateLineNumberFast]
  by_cases isNewline : string.currentChar = newline
  · rw [if_pos isNewline]
    rw [counts isNewline, isNewline, decide_eq_true rfl] at starts
    exact .of_countLine starts (sound.countLine.advanceFast fast)
  · rw [if_neg isNewline]
    rw [decide_eq_false isNewline, Bool.and_false] at starts
    exact .of_consumes starts (sound.advanceFast fast)

/-- The slow case counts a line and goes on as the other slow case. -/
theorem advanceAndUpdateLineNumberSlowCase_eq (unescaped : string.pushedChar1 = 0)
    (one : string.currentString.length ≤ 1) : string.advanceAndUpdateLineNumberSlowCase =
      (if string.currentString.length ≠ 0 ∧ string.currentString.read = newline ∧
          string.currentString.doNotExcludeLineNumbers = true then string.countLine
        else string).advanceSlowCase := by
  have noPush : ¬ string.pushedChar1 ≠ 0 := not_not.2 unescaped
  by_cases nonempty : string.currentString.length ≠ 0
  · have last : string.currentString.length - 1 = 0 := by omega
    by_cases counts : string.currentString.read = newline ∧
        string.currentString.doNotExcludeLineNumbers = true
    · have sameLast : string.countLine.currentString.length - 1 = 0 := last
      have sameNonempty : string.countLine.currentString.length ≠ 0 := nonempty
      have sameNoPush : ¬ string.countLine.pushedChar1 ≠ 0 := noPush
      have counting : string.currentString.length ≠ 0 ∧ string.currentString.read = newline ∧
          string.currentString.doNotExcludeLineNumbers = true := ⟨nonempty, counts⟩
      rw [if_pos counting, advanceSlowCase, if_neg sameNoPush, if_pos sameNonempty,
        advanceAndUpdateLineNumberSlowCase, if_neg noPush, if_pos nonempty,
        SegmentedSubstring.getCurrentChar_eq_read]
      rw [if_pos counts, if_pos sameLast, if_pos sameLast]
    · rw [if_neg fun all => counts all.2, advanceSlowCase, if_neg noPush, if_pos nonempty,
        advanceAndUpdateLineNumberSlowCase, if_neg noPush, if_pos nonempty,
        SegmentedSubstring.getCurrentChar_eq_read]
      rw [if_neg counts, if_pos last, if_pos last]
  · rw [if_neg fun all => nonempty all.1, advanceSlowCase, if_neg noPush, if_neg nonempty,
      advanceAndUpdateLineNumberSlowCase, if_neg noPush, if_neg nonempty]

theorem Sound.advanceAndUpdateLineNumberSlowCase (sound : string.Sound) (slow : ¬ string.Fast) :
    ConsumesLine string string.advanceAndUpdateLineNumberSlowCase := by
  by_cases escaped : string.pushedChar1 ≠ 0
  · have uncountedFirst : startsCountedLine string.items = false := by
      rw [SegmentedString.items, pushedChars]
      split_ifs <;> rfl
    refine .of_consumes uncountedFirst ?_
    rw [SegmentedString.advanceAndUpdateLineNumberSlowCase, if_pos escaped]
    exact sound.popPushedChar escaped
  · have unescaped := not_not.1 escaped
    have one : string.currentString.length ≤ 1 := by
      by_contra long
      exact slow ⟨by omega, unescaped⟩
    rw [advanceAndUpdateLineNumberSlowCase_eq unescaped one]
    by_cases counts : string.currentString.length ≠ 0 ∧ string.currentString.read = newline ∧
        string.currentString.doNotExcludeLineNumbers = true
    · rw [if_pos counts]
      refine .of_countLine ?_ (sound.countLine.advanceSlowCase slow)
      rw [sound.startsCountedLine_eq unescaped counts.1, counts.2.1, counts.2.2]
      rfl
    · rw [if_neg counts]
      refine .of_consumes ?_ (sound.advanceSlowCase slow)
      by_cases nonempty : string.currentString.length ≠ 0
      · rw [sound.startsCountedLine_eq unescaped nonempty, Bool.and_eq_false_iff,
          decide_eq_false_iff_not, ← Bool.not_eq_true]
        by_contra both
        push Not at both
        exact counts ⟨nonempty, both.2, both.1⟩
      · rw [items_of_unescaped unescaped, sound.shape.segmentItems_eq_nil (not_not.1 nonempty)]
        rfl

/-- `advanceAndUpdateLineNumber` consumes the first character and counts its
line, unless the cached function is one that counts in an excluded substring. -/
theorem Sound.advanceAndUpdateLineNumber (sound : string.Sound)
    (counts : string.CountsLines → string.currentChar = newline →
      string.currentString.doNotExcludeLineNumbers = true) :
    ConsumesLine string string.advanceAndUpdateLineNumber := by
  rw [SegmentedString.advanceAndUpdateLineNumber]
  by_cases fast : string.Fast
  · have nonempty : string.currentString.length ≠ 0 := Nat.ne_of_gt (Nat.lt_of_succ_lt fast.1)
    have excluded (exclude : string.currentString.doNotExcludeLineNumbers = false) :
        startsCountedLine string.items = false := by
      rw [sound.startsCountedLine_eq fast.2 nonempty, exclude, Bool.false_and]
    cases width : string.currentString.is8Bit with
    | true =>
      obtain ⟨flag, counting⟩ := sound.routine.narrow fast width
      rw [if_pos flag]
      by_cases lines : string.fastPathFlags.use8BitAdvanceAndUpdateLineNumbers = true
      · rw [if_pos lines]
        exact sound.advanceAndUpdateLineNumberFast fast (counts ⟨fast, .inl lines⟩)
      · rw [if_neg lines]
        exact .of_consumes (excluded (Bool.eq_false_iff.2 (mt counting lines)))
          (sound.advanceFast fast)
    | false =>
      obtain ⟨noFlag, -, function | ⟨function, exclude⟩⟩ := sound.routine.wide fast width
      · rw [noFlag]
        have fits := sound.advanceAndUpdateLineNumberFast fast
          (counts ⟨fast, .inr function⟩)
        rw [function]
        exact fits
      · rw [noFlag, function]
        exact .of_consumes (excluded exclude) (sound.advanceFast fast)
  · obtain ⟨noFlag, ⟨-, function⟩ | ⟨-, function, exhausted, unescaped⟩⟩ := sound.routine.slow fast
    · rw [noFlag, function]
      exact sound.advanceAndUpdateLineNumberSlowCase fast
    · rw [noFlag, function]
      refine .of_consumes ?_ (sound.advanceEmpty exhausted unescaped)
      rw [items_of_unescaped unescaped, sound.shape.segmentItems_eq_nil exhausted]
      rfl

end Lines

/-! ## Growth -/

section Growth

variable {string other : SegmentedString} {substring : SegmentedSubstring}

/-- The invariant but for the current character, which growth sets last. -/
structure Steady (string : SegmentedString) : Prop where
  shape : string.Shape
  routine : string.RoutineFits
  empty : string.empty = string.items.isEmpty

/-- Growth keeps the pushed characters and the line. -/
structure Grows (before after : SegmentedString) (items : List QueuedChar) : Prop where
  steady : after.Steady
  items : after.items = items
  pushedChar1 : after.pushedChar1 = before.pushedChar1
  pushedChar2 : after.pushedChar2 = before.pushedChar2
  currentLine : after.currentLine = before.currentLine

theorem Sound.steady (sound : string.Sound) : string.Steady :=
  ⟨sound.shape, sound.routine, sound.empty⟩

theorem Steady.grows (steady : string.Steady) : Grows string string string.items :=
  ⟨steady, rfl, rfl, rfl, rfl⟩

theorem Grows.trans {middle after : SegmentedString} {middleItems items : List QueuedChar}
    (first : Grows string middle middleItems) (second : Grows middle after items) :
    Grows string after items :=
  ⟨second.steady, second.items, second.pushedChar1.trans first.pushedChar1,
    second.pushedChar2.trans first.pushedChar2, second.currentLine.trans first.currentLine⟩

theorem Steady.appendSubstring (steady : string.Steady) (fits : substring.Fits) :
    Grows string (string.appendSubstring substring) (string.items ++ substring.items) := by
  rw [SegmentedString.appendSubstring]
  by_cases nothing : substring.length = 0
  · rw [if_pos nothing, SegmentedSubstring.items_eq_nil nothing, append_nil]
    exact steady.grows
  rw [if_neg nothing]
  by_cases exhausted : string.currentString.length = 0
  · have unescaped : string.pushedChar1 = 0 := by
      by_contra escaped
      exact steady.shape.backed escaped exhausted
    have noSubstrings := steady.shape.exhausted exhausted
    rw [if_pos exhausted]
    have same := sameBut_updateAdvanceFunctionPointers
      { string with
        numberOfCharactersConsumedPriorToCurrentString :=
          string.numberOfCharactersConsumedPriorToCurrentString +
            string.currentString.numberOfCharactersConsumed
        currentString := substring }
    have routine := routineFits_updateAdvanceFunctionPointers
      { string with
        numberOfCharactersConsumedPriorToCurrentString :=
          string.numberOfCharactersConsumedPriorToCurrentString +
            string.currentString.numberOfCharactersConsumed
        currentString := substring }
    have shape := same.shape ⟨fits, steady.shape.others, fun _ => noSubstrings,
      steady.shape.pushed, fun _ => nothing⟩
    refine ⟨⟨⟨shape.current, shape.others, shape.exhausted, shape.pushed, shape.backed⟩,
      ⟨routine.narrow, routine.wide, routine.slow⟩, ?_⟩, ?_, same.pushedChar1,
      same.pushedChar2, same.currentLine⟩
    · exact (isEmpty_items_of_length shape (by rw [same.currentString]; exact nothing)).symm
    · rw [items_of_unescaped unescaped, steady.shape.segmentItems_eq_nil exhausted]
      refine same.items.trans ((@items_of_unescaped { string with currentString := substring }
        unescaped).trans ?_)
      change substring.items ++ string.substrings.flatMap SegmentedSubstring.items =
        [] ++ substring.items
      rw [noSubstrings, flatMap_nil, append_nil, nil_append]
  · rw [if_neg exhausted]
    have all : SegmentedString.items
        { string with substrings := string.substrings ++ [substring], empty := false } =
          string.items ++ substring.items := by
      rw [SegmentedString.items, SegmentedString.items, segmentItems, segmentItems]
      rw [flatMap_append, flatMap_singleton, append_assoc, append_assoc]
      rfl
    refine ⟨⟨⟨steady.shape.current, ?_, fun none => absurd none exhausted,
      steady.shape.pushed, steady.shape.backed⟩,
      ⟨steady.routine.narrow, steady.routine.wide, steady.routine.slow⟩, ?_⟩, all, rfl, rfl, rfl⟩
    · intro other member
      rcases mem_append.1 member with old | new
      · exact steady.shape.others other old
      · rw [mem_singleton.1 new]
        exact ⟨fits, nothing⟩
    · rw [all]
      have notEmpty := isEmpty_items_of_length steady.shape exhausted
      rw [isEmpty_eq_false_iff] at notEmpty
      exact (isEmpty_eq_false_iff.2 (append_ne_nil_of_left_ne_nil notEmpty _)).symm

variable {substrings : List SegmentedSubstring}

theorem Steady.foldl_appendSubstring
    (fit : ∀ substring ∈ substrings, substring.Fits ∧ substring.length ≠ 0) (steady : string.Steady) :
    Grows string (substrings.foldl SegmentedString.appendSubstring string)
      (string.items ++ substrings.flatMap SegmentedSubstring.items) := by
  induction substrings generalizing string with
  | nil =>
    rw [flatMap_nil, append_nil]
    exact steady.grows
  | cons substring substrings ih =>
    obtain ⟨⟨fits, -⟩, others⟩ := forall_mem_cons.1 fit
    have first := steady.appendSubstring fits
    have rest := ih others first.steady
    rw [first.items, append_assoc] at rest
    exact first.trans rest

/-- A grown string with its current character. -/
theorem Grows.refreshed {after : SegmentedString} {items : List QueuedChar}
    (grows : Grows string after items) :
    after.refreshCurrentChar.Sound ∧ after.refreshCurrentChar.items = items ∧
      after.refreshCurrentChar.pushedChars = string.pushedChars ∧
      after.refreshCurrentChar.currentLine = string.currentLine := by
  refine ⟨sound_refreshCurrentChar grows.steady.shape grows.steady.routine grows.steady.empty,
    grows.items, ?_, grows.currentLine⟩
  rw [pushedChars, pushedChars, ← grows.pushedChar1, ← grows.pushedChar2]
  rfl

/-- `append` puts the other sequence behind. -/
theorem Sound.append (sound : string.Sound) (otherSound : other.Sound)
    (unescaped : other.pushedChar1 = 0) :
    (string.append other).Sound ∧ (string.append other).items = string.items ++ other.items ∧
      (string.append other).pushedChars = string.pushedChars ∧
      (string.append other).currentLine = string.currentLine := by
  have first := sound.steady.appendSubstring otherSound.shape.current
  have rest := first.steady.foldl_appendSubstring otherSound.shape.others
  rw [first.items, append_assoc] at rest
  rw [items_of_unescaped unescaped]
  exact (first.trans rest).refreshed

theorem Steady.prependSubstring (steady : string.Steady) (unescaped : string.pushedChar1 = 0)
    (fits : substring.Fits) :
    Grows string (string.prependSubstring substring) (substring.items ++ string.items) := by
  rw [SegmentedString.prependSubstring]
  by_cases nothing : substring.length = 0
  · rw [if_pos nothing, SegmentedSubstring.items_eq_nil nothing]
    exact steady.grows
  rw [if_neg nothing]
  have others : ∀ other ∈ (if string.currentString.length = 0 then string.substrings
      else string.currentString :: string.substrings), other.Fits ∧ other.length ≠ 0 := by
    split_ifs with exhausted
    · exact steady.shape.others
    · exact forall_mem_cons.2 ⟨⟨steady.shape.current, exhausted⟩, steady.shape.others⟩
  have behind : (if string.currentString.length = 0 then string.substrings
      else string.currentString :: string.substrings).flatMap SegmentedSubstring.items =
        string.segmentItems := by
    split_ifs with exhausted
    · rw [steady.shape.segmentItems_eq_nil exhausted, steady.shape.exhausted exhausted]
      rfl
    · rw [flatMap_cons, segmentItems]
  have same := sameBut_updateAdvanceFunctionPointers
    { string with
      numberOfCharactersConsumedPriorToCurrentString :=
        string.numberOfCharactersConsumedPriorToCurrentString +
          string.currentString.numberOfCharactersConsumed - substring.length
      substrings :=
        if string.currentString.length = 0 then string.substrings
        else string.currentString :: string.substrings
      currentString := substring }
  have routine := routineFits_updateAdvanceFunctionPointers
    { string with
      numberOfCharactersConsumedPriorToCurrentString :=
        string.numberOfCharactersConsumedPriorToCurrentString +
          string.currentString.numberOfCharactersConsumed - substring.length
      substrings :=
        if string.currentString.length = 0 then string.substrings
        else string.currentString :: string.substrings
      currentString := substring }
  have shape := same.shape ⟨fits, others, fun none => absurd none nothing,
    steady.shape.pushed, fun _ => nothing⟩
  refine ⟨⟨⟨shape.current, shape.others, shape.exhausted, shape.pushed, shape.backed⟩,
    ⟨routine.narrow, routine.wide, routine.slow⟩, ?_⟩, ?_, same.pushedChar1,
    same.pushedChar2, same.currentLine⟩
  · exact (isEmpty_items_of_length shape (by rw [same.currentString]; exact nothing)).symm
  · rw [items_of_unescaped unescaped, ← behind]
    refine same.items.trans ?_
    exact @items_of_unescaped
      { string with
        substrings :=
          if string.currentString.length = 0 then string.substrings
          else string.currentString :: string.substrings
        currentString := substring } unescaped

theorem Steady.foldr_prependSubstring
    (fit : ∀ substring ∈ substrings, substring.Fits ∧ substring.length ≠ 0) (steady : string.Steady)
    (unescaped : string.pushedChar1 = 0) : Grows string
      (substrings.foldr (fun substring string => string.prependSubstring substring) string)
      (substrings.flatMap SegmentedSubstring.items ++ string.items) := by
  induction substrings with
  | nil => exact steady.grows
  | cons substring substrings ih =>
    obtain ⟨⟨fits, -⟩, others⟩ := forall_mem_cons.1 fit
    have behind := ih others
    have first := behind.steady.prependSubstring (behind.pushedChar1.trans unescaped) fits
    rw [behind.items, ← append_assoc] at first
    exact behind.trans first

/-- `prepend` puts the other sequence in front. -/
theorem Sound.prepend (sound : string.Sound) (unescaped : string.pushedChar1 = 0)
    (otherSound : other.Sound) (otherUnescaped : other.pushedChar1 = 0) :
    (string.prepend other).Sound ∧ (string.prepend other).items = other.items ++ string.items ∧
      (string.prepend other).pushedChars = string.pushedChars ∧
      (string.prepend other).currentLine = string.currentLine := by
  have behind := sound.steady.foldr_prependSubstring otherSound.shape.others unescaped
  have first := behind.steady.prependSubstring (behind.pushedChar1.trans unescaped)
    otherSound.shape.current
  rw [behind.items, ← append_assoc] at first
  rw [SegmentedString.prepend, foldl_reverse, items_of_unescaped otherUnescaped]
  exact (behind.trans first).refreshed

end Growth

/-! ## Pushing, copying and excluding -/

section Copies

variable {string : SegmentedString}

theorem Sound.nonempty_of_items (sound : string.Sound) (more : string.items ≠ []) :
    string.currentString.length ≠ 0 := by
  by_cases escaped : string.pushedChar1 ≠ 0
  · exact sound.shape.backed escaped
  · intro exhausted
    rw [items_of_unescaped (not_not.1 escaped), sound.shape.segmentItems_eq_nil exhausted] at more
    exact more rfl

/-- A character is pushed behind the pushed ones, in front of the rest. -/
theorem Sound.push (sound : string.Sound) (more : string.items ≠ []) (room : string.pushedChar2 = 0)
    {unit : UChar} (notNul : unit ≠ 0) : (string.push unit).Sound ∧ (string.push unit).items =
        uncounted (string.pushedChars ++ [unit]) ++ string.segmentItems ∧
      (string.push unit).pushedChars = string.pushedChars ++ [unit] ∧
      (string.push unit).currentLine = string.currentLine := by
  have nonempty := sound.nonempty_of_items more
  have notEmpty : string.empty = false := by
    rw [sound.empty, isEmpty_items_of_length sound.shape nonempty]
  rw [SegmentedString.push]
  by_cases unescaped : string.pushedChar1 = 0
  · rw [if_pos unescaped, pushedChars_of_unescaped unescaped]
    have pushed : pushedChars (updateSlowCaseFunctionPointers
        { string with
          pushedChar1 := unit
          currentChar := if unit ≠ 0 then unit else string.currentString.getCurrentChar }) =
            [unit] := by
      rw [pushedChars, updateSlowCaseFunctionPointers]
      rw [if_pos notNul, room, if_neg (not_not.2 rfl)]
    have items_eq : SegmentedString.items (updateSlowCaseFunctionPointers
        { string with
          pushedChar1 := unit
          currentChar := if unit ≠ 0 then unit else string.currentString.getCurrentChar }) =
            uncounted ([] ++ [unit]) ++ string.segmentItems := by
      rw [SegmentedString.items, pushed]
      rfl
    refine ⟨⟨⟨sound.shape.current, sound.shape.others, sound.shape.exhausted, fun _ => room,
      fun _ => nonempty⟩, routineFits_updateSlowCaseFunctionPointers fun fast => notNul fast.2,
      ?_, ?_⟩, items_eq, pushed, rfl⟩
    · rw [items_eq]
      rw [if_pos notNul]
      rfl
    · rw [items_eq]
      exact notEmpty
  · rw [if_neg unescaped]
    have before : string.pushedChars = [string.pushedChar1] := by
      rw [pushedChars, if_pos unescaped, if_neg (not_not.2 room)]
    have pushed : pushedChars { string with pushedChar2 := unit } =
        string.pushedChars ++ [unit] := by
      rw [before, pushedChars, if_pos unescaped, if_pos notNul]
      rfl
    have items_eq : SegmentedString.items { string with pushedChar2 := unit } =
        uncounted (string.pushedChars ++ [unit]) ++ string.segmentItems := by
      rw [SegmentedString.items, pushed]
      rfl
    refine ⟨⟨⟨sound.shape.current, sound.shape.others, sound.shape.exhausted,
      fun none => absurd none unescaped, sound.shape.backed⟩,
      ⟨sound.routine.narrow, sound.routine.wide, sound.routine.slow⟩, ?_, ?_⟩,
      items_eq, pushed, rfl⟩
    · rw [items_eq, before]
      have first := sound.currentChar
      rw [SegmentedString.items, before] at first
      exact first
    · rw [items_eq, before]
      exact notEmpty

/-- Copies take the second pushed character for the current one. -/
theorem Sound.copiedCurrentChar_eq (sound : string.Sound)
    (same : string.pushedChar2 ≠ 0 → string.pushedChar1 = string.pushedChar2) :
    string.copiedCurrentChar = string.currentChar := by
  have refreshed := currentChar_refreshCurrentChar sound.shape
  rw [sound.currentChar, ← refreshed, copiedCurrentChar, refreshCurrentChar]
  by_cases second : string.pushedChar2 ≠ 0
  · have escaped : string.pushedChar1 ≠ 0 := mt sound.shape.pushed second
    rw [if_pos second, if_pos escaped, same second]
  · rw [if_neg second]

theorem Sound.assign (sound : string.Sound)
    (same : string.pushedChar2 ≠ 0 → string.pushedChar1 = string.pushedChar2) :
    string.assign = string := by
  rw [SegmentedString.assign, sound.copiedCurrentChar_eq same]

/-- A copy is sound; its line is what its memory held. -/
theorem Sound.copy (sound : string.Sound)
    (same : string.pushedChar2 ≠ 0 → string.pushedChar1 = string.pushedChar2)
    (memory : Uninitialized) : (string.copy memory).Sound :=
  ⟨⟨sound.shape.current, sound.shape.others, sound.shape.exhausted, sound.shape.pushed,
    sound.shape.backed⟩, ⟨sound.routine.narrow, sound.routine.wide, sound.routine.slow⟩,
    (sound.copiedCurrentChar_eq same).trans sound.currentChar, sound.empty⟩

theorem sound_default : default.Sound where
  shape := ⟨⟨le_refl _, fun nonempty => absurd rfl nonempty⟩,
    fun _ member => absurd member not_mem_nil, fun _ => rfl, fun _ => rfl,
    fun escaped => absurd rfl escaped⟩
  routine := by
    have slow : ¬ default.Fast := fun fast => absurd fast.1 (Nat.not_lt_zero 1)
    exact ⟨fun fast => absurd fast slow, fun fast => absurd fast slow,
      fun _ => ⟨rfl, .inr ⟨rfl, rfl, rfl, rfl⟩⟩⟩
  currentChar := rfl
  empty := rfl

/-- The string under construction, before its functions are selected. -/
def fresh (source : SourceString) : SegmentedString :=
  { default with currentString := .create source, empty := source.units.length = 0 }

theorem create_eq (source : SourceString) :
    create source = (fresh source).readCurrentChar.updateAdvanceFunctionPointers := by
  rw [create, readCurrentChar]
  by_cases nonempty : (SegmentedSubstring.create source).length ≠ 0
  · have same : (fresh source).currentString.length ≠ 0 := nonempty
    rw [if_pos nonempty, if_pos same]
    rfl
  · have same : ¬ (fresh source).currentString.length ≠ 0 := nonempty
    rw [if_neg nonempty, if_neg same]
    rfl

/-- A fresh string has the characters of its source, all of whose lines count. -/
theorem sound_create (source : SourceString) : (create source).Sound ∧
      (create source).items = source.units.map (fun unit => ⟨unit, unit = newline⟩) ∧
      (create source).pushedChar1 = 0 ∧
      (create source).currentLine = 0 := by
  have same := sameBut_updateAdvanceFunctionPointers (fresh source).readCurrentChar
  have routine := routineFits_updateAdvanceFunctionPointers (fresh source).readCurrentChar
  rw [← create_eq] at same routine
  have shape : (fresh source).Shape :=
    ⟨SegmentedSubstring.fits_create source, fun _ member => absurd member not_mem_nil,
      fun _ => rfl, fun _ => rfl, fun escaped => absurd rfl escaped⟩
  have items_eq : (fresh source).items =
      source.units.map (fun unit => ⟨unit, unit = newline⟩) := by
    rw [← SegmentedSubstring.items_create]
    exact append_nil _
  have empty : (fresh source).empty = (fresh source).items.isEmpty := by
    have given : (fresh source).empty = decide (source.units.length = 0) := rfl
    rw [given, items_eq]
    cases source.units with
    | nil | cons unit units => rfl
  have shapeRead : (fresh source).readCurrentChar.Shape :=
    ⟨shape.current, shape.others, shape.exhausted, shape.pushed, shape.backed⟩
  refine ⟨⟨same.shape shapeRead, routine, ?_, ?_⟩, same.items.trans items_eq, same.pushedChar1,
    same.currentLine⟩
  · rw [same.currentChar, same.items]
    exact currentChar_readCurrentChar shape rfl
  · rw [same.empty, same.items]
    exact empty

/-- Excluding line numbers leaves the characters and takes their lines away. -/
theorem Sound.setExcludeLineNumbers (sound : string.Sound) :
    string.setExcludeLineNumbers.Sound ∧ string.setExcludeLineNumbers.items =
        string.items.map fun item => { item with countsLine := false } := by
  have items_eq : string.setExcludeLineNumbers.items =
      string.items.map fun item => { item with countsLine := false } := by
    have pushed : string.setExcludeLineNumbers.pushedChars = string.pushedChars := rfl
    have others : string.substrings.flatMap (fun substring =>
        substring.setExcludeLineNumbers.items) =
          (string.substrings.flatMap SegmentedSubstring.items).map fun item =>
            { item with countsLine := false } := by
      rw [map_flatMap]
      simp only [SegmentedSubstring.items_setExcludeLineNumbers]
    rw [SegmentedString.items, SegmentedString.items, pushed, segmentItems, segmentItems,
      map_append, map_append, SegmentedString.setExcludeLineNumbers]
    rw [SegmentedSubstring.items_setExcludeLineNumbers, flatMap_map, others]
    congr 1
    rw [uncounted, map_map]
    rfl
  refine ⟨⟨⟨sound.shape.current.setExcludeLineNumbers, ?_, ?_, sound.shape.pushed,
    sound.shape.backed⟩, ?_, ?_, ?_⟩, items_eq⟩
  · intro substring member
    obtain ⟨old, oldMember, rfl⟩ := mem_map.1 member
    obtain ⟨fits, nonempty⟩ := sound.shape.others old oldMember
    exact ⟨fits.setExcludeLineNumbers, nonempty⟩
  · intro exhausted
    have none := sound.shape.exhausted exhausted
    rw [SegmentedString.setExcludeLineNumbers]
    rw [none, map_nil]
  · refine ⟨fun fast narrow => ⟨(sound.routine.narrow fast narrow).1,
      fun counts => absurd counts Bool.false_ne_true⟩, fun fast wide => ?_, sound.routine.slow⟩
    obtain ⟨noFlag, function, lines⟩ := sound.routine.wide fast wide
    refine ⟨noFlag, function, ?_⟩
    rcases lines with counting | ⟨plain, -⟩
    · exact .inl counting
    · exact .inr ⟨plain, rfl⟩
  · have same : string.setExcludeLineNumbers.currentChar = string.currentChar := rfl
    rw [same, sound.currentChar, items_eq, map_map]
    rfl
  · have same : string.setExcludeLineNumbers.empty = string.empty := rfl
    rw [same, sound.empty, items_eq, isEmpty_map]

end Copies

/-! ## Looking ahead -/

section LookAhead

variable {string : SegmentedString}

/-- Only newlines count. -/
theorem unit_eq_newline_of_countsLine {item : QueuedChar} (member : item ∈ string.items)
    (counts : item.countsLine = true) : item.unit = newline := by
  have ofSubstring (substring : SegmentedSubstring) (inside : item ∈ substring.items) :
      item.unit = newline := by
    obtain ⟨unit, -, rfl⟩ := mem_map.1 inside
    exact of_decide_eq_true (Bool.and_eq_true_iff.1 counts).2
  rcases mem_append.1 member with pushed | segment
  · obtain ⟨unit, -, rfl⟩ := mem_map.1 pushed
    exact absurd counts Bool.false_ne_true
  · rcases mem_append.1 segment with current | others
    · exact ofSubstring _ current
    · obtain ⟨substring, -, inside⟩ := mem_flatMap.1 others
      exact ofSubstring substring inside

/-- What consuming a number of characters leaves. -/
structure ConsumesCount (before after : SegmentedString) (count : Nat)
    (consumed : WString) : Prop where
  sound : after.Sound
  consumed : consumed = (before.items.take count).map QueuedChar.unit
  items : after.items = before.items.drop count
  currentLine : after.currentLine = before.currentLine
  pushed : after.pushedChars = before.pushedChars.drop count

theorem Sound.advanceCount (sound : string.Sound) {count : Nat}
    (enough : count ≤ string.items.length) :
    ConsumesCount string (string.advanceCount count).2 count (string.advanceCount count).1 := by
  induction count generalizing string with
  | zero => exact ⟨sound, rfl, rfl, rfl, rfl⟩
  | succ count ih =>
    have first := sound.advance
    have more : string.items ≠ [] := ne_nil_of_length_pos (by omega)
    obtain ⟨item, rest, items_eq⟩ := exists_cons_of_ne_nil more
    have next := ih first.sound (by
      rw [first.items, length_tail]
      omega)
    have char : string.currentChar = item.unit := by
      rw [sound.currentChar, items_eq]
      rfl
    refine ⟨next.sound, ?_, ?_, next.currentLine.trans first.currentLine, ?_⟩
    · rw [SegmentedString.advanceCount]
      dsimp only
      rw [next.consumed, first.items, items_eq, char]
      rfl
    · rw [SegmentedString.advanceCount]
      rw [next.items, first.items, items_eq]
      rfl
    · rw [SegmentedString.advanceCount]
      rw [next.pushed, first.pushed, drop_tail]

theorem pushedChar1_of_pushedChars (none : string.pushedChars = []) : string.pushedChar1 = 0 := by
  by_contra escaped
  rw [pushedChars] at none
  split_ifs at none

theorem length_of_lt (sound : string.Sound) (small : string.items.length < 2 ^ 32) :
    string.length = string.items.length := by
  rw [length_eq sound.shape, Nat.mod_eq_of_lt small]

/-- A lookahead compares the characters to come. -/
theorem Sound.lookAhead_result (sound : string.Sound) (small : string.items.length < 2 ^ 32)
    (foldCase : UChar → UChar) (text : WString) (caseSensitive : Bool) :
    (string.lookAhead foldCase text caseSensitive).1 =
      if string.items.length < text.length then .notEnoughCharacters
      else compareAhead foldCase ((string.items.map QueuedChar.unit).take text.length) text
        caseSensitive := by
  rw [lookAhead]
  by_cases inside : string.pushedChar1 = 0 ∧ text.length ≤ string.currentString.length
  · have current := sound.shape.current
    have whole : string.currentString.currentSubString text.length =
        (string.items.map QueuedChar.unit).take text.length := by
      have units : string.currentString.items.map QueuedChar.unit =
          string.currentString.remaining := by
        rw [SegmentedSubstring.items, map_map]
        exact map_id _
      rw [items_of_unescaped inside.1, segmentItems, map_append, units,
        take_append_of_le_length (current.length_remaining ▸ inside.2)]
      rfl
    have enough : ¬ string.items.length < text.length := by
      rw [items_of_unescaped inside.1, segmentItems, length_append, current.length_items]
      omega
    rw [if_pos inside, if_neg enough, whole]
  · rw [if_neg inside, lookAheadSlowCase, length_of_lt sound small]
    by_cases short : string.items.length < text.length
    · rw [if_pos short, if_pos short]
    · rw [if_neg short, if_neg short]
      dsimp only
      rw [(sound.advanceCount (Nat.le_of_not_lt short)).consumed, map_take]

/-- Looking ahead does not reach over a pushed character that would remain. -/
def ReachesPushed (string : SegmentedString) (text : WString) : Prop :=
  text = [] ∨ string.pushedChars.length ≤ text.length

/-- The lookahead is not answered from the current substring. -/
def LooksPast (string : SegmentedString) (text : WString) : Prop :=
  ¬ (string.pushedChar1 = 0 ∧ text.length ≤ string.currentString.length)

/-- Looking ahead leaves the sequence as it is where it reaches all pushed
characters, and where the lines of the characters it passes count. -/
theorem Sound.lookAhead (sound : string.Sound) (small : string.items.length < 2 ^ 32)
    (foldCase : UChar → UChar) {text : WString} (caseSensitive : Bool)
    (reaches : text.length ≤ string.items.length → ReachesPushed string text)
    (counts : text.length ≤ string.items.length → LooksPast string text →
      ∀ item ∈ string.items.take text.length, item.unit = newline → item.countsLine = true) :
    (string.lookAhead foldCase text caseSensitive).2.Sound ∧
      (string.lookAhead foldCase text caseSensitive).2.items = string.items ∧
      (string.lookAhead foldCase text caseSensitive).2.currentLine = string.currentLine ∧
      ((string.lookAhead foldCase text caseSensitive).2.pushedChars = string.pushedChars ∨
        (string.lookAhead foldCase text caseSensitive).2.pushedChars = []) := by
  rw [SegmentedString.lookAhead]
  by_cases inside : string.pushedChar1 = 0 ∧ text.length ≤ string.currentString.length
  · rw [if_pos inside]
    exact ⟨sound, rfl, rfl, .inl rfl⟩
  rw [if_neg inside, lookAheadSlowCase, length_of_lt sound small]
  by_cases short : string.items.length < text.length
  · rw [if_pos short]
    exact ⟨sound, rfl, rfl, .inl rfl⟩
  rw [if_neg short]
  have enough := Nat.le_of_not_lt short
  have consumes := sound.advanceCount enough
  obtain ⟨fresh, freshItems, freshUnescaped, -⟩ :=
    sound_create ⟨(string.advanceCount text.length).1, false⟩
  have restored : (create ⟨(string.advanceCount text.length).1, false⟩).items =
      string.items.take text.length := by
    rw [freshItems]
    rw [consumes.consumed, map_map]
    refine (map_congr_left ?_).trans (map_id _)
    rintro ⟨unit, countsLine⟩ member
    have ofNewline := counts enough inside ⟨unit, countsLine⟩ member
    have ofCounts := @unit_eq_newline_of_countsLine string ⟨unit, countsLine⟩
      (mem_of_mem_take member)
    cases countsLine with
    | true =>
      rw [Function.comp_apply, decide_eq_true (ofCounts rfl)]
      rfl
    | false =>
      rw [Function.comp_apply, decide_eq_false fun isNewline =>
        Bool.false_ne_true (ofNewline isNewline)]
      rfl
  rcases reaches enough with nothing | all
  · subst nothing
    have same := consumes.sound.steady.grows.refreshed
    rw [length_nil] at same ⊢
    rw [SegmentedString.advanceCount] at same ⊢
    exact ⟨same.1, same.2.1, same.2.2.2, .inl same.2.2.1⟩
  · have unescaped : (string.advanceCount text.length).2.pushedChar1 = 0 := by
      apply pushedChar1_of_pushedChars
      rw [consumes.pushed, drop_eq_nil_iff]
      exact all
    obtain ⟨after, itemsAfter, pushedAfter, lineAfter⟩ :=
      consumes.sound.prepend unescaped fresh freshUnescaped
    refine ⟨after, ?_, lineAfter.trans consumes.currentLine, .inr ?_⟩
    · rw [itemsAfter, restored, consumes.items, take_append_drop]
    · rw [pushedAfter, pushedChars_of_unescaped unescaped]

end LookAhead

end SegmentedString
end Text
end PalmWebKit
