import PalmWebKit.Text.CharacterQueue

/-!
# The routines of a segmented string on its sequence

The invariant of a segmented string: pointers and lengths agree, only the last
substring is ever exhausted, and the cached functions fit.  Under it every
routine does to the sequence what its name says.
-/

namespace PalmWebKit
namespace Text
namespace SegmentedString

open List WString

/-! ## The sequence and the invariant -/

def pushedChars (string : SegmentedString) : WString :=
  if string.pushedChar1 ≠ 0 then
    if string.pushedChar2 ≠ 0 then [string.pushedChar1, string.pushedChar2]
    else [string.pushedChar1]
  else []

/-- The sequence of the substrings. -/
def segmentItems (string : SegmentedString) : List QueuedChar :=
  string.currentString.items ++ string.substrings.flatMap SegmentedSubstring.items

def items (string : SegmentedString) : List QueuedChar :=
  uncounted string.pushedChars ++ string.segmentItems

/-- Pointers and lengths; characters are pushed in front of others only. -/
structure Shape (string : SegmentedString) : Prop where
  current : string.currentString.Fits
  others : ∀ substring ∈ string.substrings, substring.Fits ∧ substring.length ≠ 0
  exhausted : string.currentString.length = 0 → string.substrings = []
  pushed : string.pushedChar1 = 0 → string.pushedChar2 = 0
  backed : string.pushedChar1 ≠ 0 → string.currentString.length ≠ 0

/-- The next character can be consumed inside the current substring. -/
def Fast (string : SegmentedString) : Prop :=
  1 < string.currentString.length ∧ string.pushedChar1 = 0

/-- The cached functions fit.  A function that counts lines may stay behind when
the line numbers are excluded later. -/
structure RoutineFits (string : SegmentedString) : Prop where
  narrow : string.Fast → string.currentString.is8Bit = true →
    string.fastPathFlags.use8BitAdvance = true ∧
      (string.currentString.doNotExcludeLineNumbers = true →
        string.fastPathFlags.use8BitAdvanceAndUpdateLineNumbers = true)
  wide : string.Fast → string.currentString.is8Bit = false →
    string.fastPathFlags.use8BitAdvance = false ∧ string.advanceFunc = .advance16 ∧
      (string.advanceAndUpdateLineNumberFunc = .advanceAndUpdateLineNumber16 ∨
        (string.advanceAndUpdateLineNumberFunc = .advance16 ∧
          string.currentString.doNotExcludeLineNumbers = false))
  slow : ¬ string.Fast → string.fastPathFlags.use8BitAdvance = false ∧
      ((string.advanceFunc = .advanceSlowCase ∧
          string.advanceAndUpdateLineNumberFunc = .advanceAndUpdateLineNumberSlowCase) ∨
        (string.advanceFunc = .advanceEmpty ∧
          string.advanceAndUpdateLineNumberFunc = .advanceEmpty ∧
            string.currentString.length = 0 ∧ string.pushedChar1 = 0))

/-- The invariant. -/
structure Sound (string : SegmentedString) : Prop where
  shape : string.Shape
  routine : string.RoutineFits
  currentChar : string.currentChar = (string.items.map QueuedChar.unit).headD 0
  empty : string.empty = string.items.isEmpty

/-- The cached function counts lines. -/
def CountsLines (string : SegmentedString) : Prop :=
  string.Fast ∧ (string.fastPathFlags.use8BitAdvanceAndUpdateLineNumbers = true ∨
      string.advanceAndUpdateLineNumberFunc = .advanceAndUpdateLineNumber16)

section Observations

variable {string : SegmentedString}

theorem items_of_unescaped (unescaped : string.pushedChar1 = 0) :
    string.items = string.segmentItems := by
  rw [items, pushedChars, if_neg (not_not.2 unescaped)]
  rfl

theorem Shape.segmentItems_eq_nil (shape : string.Shape)
    (exhausted : string.currentString.length = 0) : string.segmentItems = [] := by
  rw [segmentItems, SegmentedSubstring.items_eq_nil exhausted, shape.exhausted exhausted]
  rfl

variable {substrings : List SegmentedSubstring}

theorem foldl_appendTo (fit : ∀ substring ∈ substrings, substring.Fits ∧ substring.length ≠ 0)
    (result : WString) :
    substrings.foldl (fun result substring => substring.appendTo result) result =
      result ++ (substrings.flatMap SegmentedSubstring.items).map QueuedChar.unit := by
  induction substrings generalizing result with
  | nil => simp
  | cons substring substrings ih =>
    obtain ⟨⟨fits, -⟩, others⟩ := forall_mem_cons.1 fit
    rw [foldl_cons, ih others, SegmentedSubstring.appendTo_eq fits]
    have units : substring.items.map QueuedChar.unit = substring.remaining := by
      rw [SegmentedSubstring.items, map_map]
      exact map_id _
    rw [flatMap_cons, map_append, units, append_assoc]

theorem toString_eq (shape : string.Shape) :
    string.toString = string.items.map QueuedChar.unit := by
  have units : string.currentString.items.map QueuedChar.unit =
      string.currentString.remaining := by
    rw [SegmentedSubstring.items, map_map]
    exact map_id _
  have pushed : (uncounted string.pushedChars).map QueuedChar.unit = string.pushedChars := by
    rw [uncounted, map_map]
    exact map_id _
  rw [toString, foldl_appendTo shape.others, SegmentedSubstring.appendTo_eq shape.current, items,
    segmentItems, map_append, map_append, units, pushed, append_assoc]
  rfl

theorem foldl_length (fit : ∀ substring ∈ substrings, substring.Fits ∧ substring.length ≠ 0)
    (length : Nat) : substrings.foldl (fun length substring => length + substring.length) length =
      length + (substrings.flatMap SegmentedSubstring.items).length := by
  induction substrings generalizing length with
  | nil => rfl
  | cons substring substrings ih =>
    obtain ⟨⟨fits, -⟩, others⟩ := forall_mem_cons.1 fit
    rw [foldl_cons, ih others, flatMap_cons, length_append,
      fits.length_items, Nat.add_assoc]

theorem length_eq (shape : string.Shape) : string.length = string.items.length % 2 ^ 32 := by
  have pushed : (if string.pushedChar1 ≠ 0 then
      if string.pushedChar2 ≠ 0 then string.currentString.length + 1 + 1
      else string.currentString.length + 1
    else string.currentString.length) =
      string.pushedChars.length + string.currentString.length := by
    unfold pushedChars
    split_ifs
    · exact Nat.add_comm _ 2
    · exact Nat.add_comm _ 1
    · exact (Nat.zero_add _).symm
  rw [length, foldl_length shape.others, pushed, items, segmentItems, length_append,
    length_append, shape.current.length_items, uncounted, length_map, Nat.add_assoc]

end Observations

/-! ## The cached functions -/

section Functions

variable (string : SegmentedString)

/-- Updating the functions leaves everything else as it is. -/
structure SameBut (before after : SegmentedString) : Prop where
  pushedChar1 : after.pushedChar1 = before.pushedChar1
  pushedChar2 : after.pushedChar2 = before.pushedChar2
  currentString : after.currentString = before.currentString
  substrings : after.substrings = before.substrings
  currentChar : after.currentChar = before.currentChar
  currentLine : after.currentLine = before.currentLine
  empty : after.empty = before.empty

theorem sameBut_updateAdvanceFunctionPointers :
    SameBut string string.updateAdvanceFunctionPointers := by
  unfold updateAdvanceFunctionPointers
  split_ifs
  all_goals exact ⟨rfl, rfl, rfl, rfl, rfl, rfl, rfl⟩

variable {string}

variable {before after : SegmentedString}

theorem SameBut.segmentItems (same : SameBut before after) :
    after.segmentItems = before.segmentItems := by
  rw [SegmentedString.segmentItems, SegmentedString.segmentItems, same.currentString,
    same.substrings]

theorem SameBut.items (same : SameBut before after) : after.items = before.items := by
  rw [SegmentedString.items, SegmentedString.items, same.segmentItems, pushedChars, pushedChars,
    same.pushedChar1, same.pushedChar2]

theorem SameBut.shape (same : SameBut before after) (shape : before.Shape) : after.Shape := by
  constructor
  · rw [same.currentString]
    exact shape.current
  · rw [same.substrings]
    exact shape.others
  · rw [same.currentString, same.substrings]
    exact shape.exhausted
  · rw [same.pushedChar1, same.pushedChar2]
    exact shape.pushed
  · rw [same.pushedChar1, same.currentString]
    exact shape.backed

theorem routineFits_updateSlowCaseFunctionPointers (slow : ¬ string.Fast) :
    string.updateSlowCaseFunctionPointers.RoutineFits where
  narrow := fun fast => absurd fast slow
  wide := fun fast => absurd fast slow
  slow := fun _ => ⟨rfl, .inl ⟨rfl, rfl⟩⟩

theorem routineFits_updateAdvanceFunctionPointers (string : SegmentedString) :
    string.updateAdvanceFunctionPointers.RoutineFits := by
  have same := sameBut_updateAdvanceFunctionPointers string
  by_cases fast : 1 < string.currentString.length ∧ string.pushedChar1 = 0
  · have isFast : string.updateAdvanceFunctionPointers.Fast := by
      rw [Fast, same.currentString, same.pushedChar1]
      exact fast
    refine ⟨fun _ narrow => ?_, fun _ wide => ?_, fun slow => absurd isFast slow⟩
    · rw [same.currentString] at narrow ⊢
      rw [updateAdvanceFunctionPointers, if_pos fast, if_pos narrow]
      by_cases counts : string.currentString.doNotExcludeLineNumbers = true
      · rw [if_pos counts]
        exact ⟨rfl, fun _ => rfl⟩
      · rw [if_neg counts]
        exact ⟨rfl, fun counting => absurd counting counts⟩
    · rw [same.currentString] at wide ⊢
      have notNarrow : ¬ string.currentString.is8Bit = true := by
        rw [wide]
        exact Bool.false_ne_true
      rw [updateAdvanceFunctionPointers, if_pos fast, if_neg notNarrow]
      refine ⟨rfl, rfl, ?_⟩
      by_cases counts : string.currentString.doNotExcludeLineNumbers = true
      · exact .inl (if_pos counts)
      · exact .inr ⟨if_neg counts, Bool.eq_false_iff.2 counts⟩
  · have isSlow : ¬ string.updateAdvanceFunctionPointers.Fast := by
      rw [Fast, same.currentString, same.pushedChar1]
      exact fast
    refine ⟨fun isFast => absurd isFast isSlow, fun isFast => absurd isFast isSlow, fun _ => ?_⟩
    rw [updateAdvanceFunctionPointers, if_neg fast]
    exact ⟨rfl, .inl ⟨rfl, rfl⟩⟩

variable (shape : string.Shape)
include shape

theorem currentChar_refreshCurrentChar :
    string.refreshCurrentChar.currentChar =
      (string.items.map QueuedChar.unit).headD 0 := by
  rw [refreshCurrentChar, items, pushedChars]
  by_cases escaped : string.pushedChar1 ≠ 0
  · split_ifs <;> rfl
  · rw [if_neg escaped, if_neg escaped, SegmentedSubstring.getCurrentChar_eq_read]
    by_cases nonempty : string.currentString.length ≠ 0
    · rw [if_pos nonempty, segmentItems, shape.current.items_eq_cons nonempty]
      rfl
    · rw [if_neg nonempty, shape.segmentItems_eq_nil (not_not.1 nonempty)]
      rfl

theorem currentChar_readCurrentChar (unescaped : string.pushedChar1 = 0) :
    string.readCurrentChar.currentChar = (string.items.map QueuedChar.unit).headD 0 := by
  rw [← currentChar_refreshCurrentChar shape, refreshCurrentChar, readCurrentChar]
  rw [if_neg (not_not.2 unescaped)]

/-- A refreshed string is sound. -/
theorem sound_refreshCurrentChar (routine : string.RoutineFits)
    (empty : string.empty = string.items.isEmpty) : string.refreshCurrentChar.Sound where
  shape := ⟨shape.current, shape.others, shape.exhausted, shape.pushed, shape.backed⟩
  routine := ⟨routine.narrow, routine.wide, routine.slow⟩
  currentChar := currentChar_refreshCurrentChar shape
  empty := empty

theorem sound_readCurrentChar (routine : string.RoutineFits) (unescaped : string.pushedChar1 = 0)
    (empty : string.empty = string.items.isEmpty) :
    string.readCurrentChar.Sound where
  shape := ⟨shape.current, shape.others, shape.exhausted, shape.pushed, shape.backed⟩
  routine := ⟨routine.narrow, routine.wide, routine.slow⟩
  currentChar := currentChar_readCurrentChar shape unescaped
  empty := empty

omit shape

theorem items_readCurrentChar (string : SegmentedString) :
    string.readCurrentChar.items = string.items := rfl

end Functions

/-! ## Advancing -/

section Advancing

variable {string : SegmentedString}

/-- A step consumes the first character and keeps the invariant. -/
structure Consumes (before after : SegmentedString) : Prop where
  sound : after.Sound
  items : after.items = before.items.tail
  currentLine : after.currentLine = before.currentLine
  pushed : after.pushedChars = before.pushedChars.tail

theorem pushedChars_of_unescaped (unescaped : string.pushedChar1 = 0) :
    string.pushedChars = [] := by
  rw [pushedChars, if_neg (not_not.2 unescaped)]

/-- Without pushed characters before and after none is consumed. -/
theorem pushedChars_eq_tail {before after : SegmentedString} (unescaped : before.pushedChar1 = 0)
    (same : after.pushedChar1 = before.pushedChar1) :
    after.pushedChars = before.pushedChars.tail := by
  rw [pushedChars_of_unescaped unescaped, pushedChars_of_unescaped (same.trans unescaped)]
  rfl

theorem Sound.items_eq_cons (sound : string.Sound) (unescaped : string.pushedChar1 = 0)
    (nonempty : string.currentString.length ≠ 0) :
    string.items = ⟨string.currentString.read, string.currentString.doNotExcludeLineNumbers &&
          string.currentString.read = newline⟩ ::
        ({ string.currentString with length := string.currentString.length - 1 }.items ++
          string.substrings.flatMap SegmentedSubstring.items) := by
  rw [items_of_unescaped unescaped, segmentItems,
    sound.shape.current.items_eq_cons nonempty, cons_append]

theorem Sound.currentChar_eq_read (sound : string.Sound) (unescaped : string.pushedChar1 = 0)
    (nonempty : string.currentString.length ≠ 0) :
    string.currentChar = string.currentString.read := by
  rw [sound.currentChar, sound.items_eq_cons unescaped nonempty]
  rfl

theorem isEmpty_items_of_length (shape : string.Shape)
    (nonempty : string.currentString.length ≠ 0) : string.items.isEmpty = false := by
  rw [items, segmentItems, shape.current.items_eq_cons nonempty, isEmpty_eq_false_iff]
  exact append_ne_nil_of_right_ne_nil _ (cons_ne_nil _ _)

/-- Advancing inside the current substring. -/
theorem Sound.advanceFast (sound : string.Sound) (fast : string.Fast) :
    Consumes string string.advanceFast := by
  obtain ⟨long, unescaped⟩ := fast
  have nonempty : string.currentString.length ≠ 0 := by omega
  have fits := sound.shape.current.next nonempty
  have fields : string.advanceFast.currentString =
        { string.currentString with length := string.currentString.length - 1 }.increment ∧
      string.advanceFast.pushedChar1 = string.pushedChar1 ∧
      string.advanceFast.pushedChar2 = string.pushedChar2 ∧
      string.advanceFast.substrings = string.substrings ∧
      string.advanceFast.currentChar = string.advanceFast.currentString.read ∧
      string.advanceFast.currentLine = string.currentLine ∧
      string.advanceFast.empty = string.empty := by
    rw [SegmentedString.advanceFast, decrementAndCheckLength]
    split_ifs
    all_goals exact ⟨rfl, rfl, rfl, rfl, rfl, rfl, rfl⟩
  obtain ⟨current, pushed1, pushed2, substrings, currentChar, currentLine, empty⟩ := fields
  have left : string.advanceFast.currentString.length = string.currentString.length - 1 := by
    rw [current]
    rfl
  have more : string.advanceFast.currentString.length ≠ 0 := by omega
  have shape : string.advanceFast.Shape := by
    refine ⟨current ▸ fits, substrings ▸ sound.shape.others, fun exhausted => absurd exhausted more,
      ?_, fun _ => more⟩
    rw [pushed1, pushed2]
    exact sound.shape.pushed
  have items : string.advanceFast.items = string.items.tail := by
    rw [items_of_unescaped (pushed1.trans unescaped), segmentItems, current, substrings,
      sound.items_eq_cons unescaped nonempty]
    rfl
  refine ⟨⟨shape, ?_, ?_, ?_⟩, items, currentLine, pushedChars_eq_tail unescaped pushed1⟩
  · by_cases last : string.currentString.length - 1 = 1
    · have slow : ¬ string.advanceFast.Fast := by
        rw [Fast]
        omega
      refine ⟨fun fast => absurd fast slow, fun fast => absurd fast slow, fun _ => ?_⟩
      rw [SegmentedString.advanceFast, decrementAndCheckLength]
      rw [if_pos last]
      exact ⟨rfl, .inl ⟨rfl, rfl⟩⟩
    · have stillFast : string.advanceFast.Fast := by
        rw [Fast, pushed1]
        exact ⟨by omega, unescaped⟩
      have same : string.advanceFast.fastPathFlags = string.fastPathFlags ∧
          string.advanceFast.advanceFunc = string.advanceFunc ∧
          string.advanceFast.advanceAndUpdateLineNumberFunc =
            string.advanceAndUpdateLineNumberFunc := by
        rw [SegmentedString.advanceFast, decrementAndCheckLength]
        rw [if_neg last]
        exact ⟨rfl, rfl, rfl⟩
      refine ⟨fun _ narrow => ?_, fun _ wide => ?_, fun slow => absurd stillFast slow⟩
      · rw [current] at narrow ⊢
        rw [same.1]
        exact sound.routine.narrow ⟨long, unescaped⟩ narrow
      · rw [current] at wide ⊢
        rw [same.1, same.2.1, same.2.2]
        exact sound.routine.wide ⟨long, unescaped⟩ wide
  · rw [SegmentedString.items, pushedChars, pushed1, if_neg (not_not.2 unescaped),
      segmentItems, shape.current.items_eq_cons more]
    rfl
  · rw [empty, sound.empty, isEmpty_items_of_length sound.shape nonempty,
      isEmpty_items_of_length shape more]

/-- A pushed character is consumed. -/
theorem Sound.popPushedChar (sound : string.Sound) (escaped : string.pushedChar1 ≠ 0) :
    Consumes string string.popPushedChar := by
  have nonempty := sound.shape.backed escaped
  have notEmpty : string.empty = false := by
    rw [sound.empty, isEmpty_items_of_length sound.shape nonempty]
  have items_eq : string.items = uncounted (if string.pushedChar2 ≠ 0 then
      [string.pushedChar1, string.pushedChar2] else [string.pushedChar1]) ++
        string.segmentItems := by
    rw [SegmentedString.items, pushedChars, if_pos escaped]
  rw [SegmentedString.popPushedChar]
  by_cases second : string.pushedChar2 ≠ 0
  · rw [if_pos second]
    rw [if_pos second] at items_eq
    have next : SegmentedString.items
        { string with
          pushedChar1 := string.pushedChar2
          pushedChar2 := 0
          currentChar := string.pushedChar2 } = string.items.tail := by
      rw [items_eq, SegmentedString.items, pushedChars]
      rw [if_pos second]
      rfl
    refine ⟨⟨⟨sound.shape.current, sound.shape.others, sound.shape.exhausted,
      fun _ => rfl, fun _ => nonempty⟩, ?_, ?_, ?_⟩, next, rfl, ?_⟩
    · have notFast : ¬ string.Fast := fun fast => escaped fast.2
      obtain ⟨noFlag, ⟨slow, slowLines⟩ | ⟨-, -, -, unescaped⟩⟩ := sound.routine.slow notFast
      · exact ⟨fun fast => absurd fast.2 second, fun fast => absurd fast.2 second,
          fun _ => ⟨noFlag, .inl ⟨slow, slowLines⟩⟩⟩
      · exact absurd unescaped escaped
    · rw [next, items_eq]
      rfl
    · rw [next, items_eq]
      exact notEmpty
    · rw [pushedChars, pushedChars, if_pos escaped, if_pos second]
      rw [if_pos second]
      rfl
  · rw [if_neg second]
    rw [if_neg second] at items_eq
    have shape : Shape { string with pushedChar1 := string.pushedChar2, pushedChar2 := 0 } :=
      ⟨sound.shape.current, sound.shape.others, sound.shape.exhausted, fun _ => rfl,
        fun pushed => absurd pushed second⟩
    have same := sameBut_updateAdvanceFunctionPointers
      { string with pushedChar1 := string.pushedChar2, pushedChar2 := 0 }
    have next : SegmentedString.items
        { string with pushedChar1 := string.pushedChar2, pushedChar2 := 0 } =
          string.items.tail := by
      rw [items_eq, items_of_unescaped (not_not.1 second)]
      rfl
    refine ⟨sound_readCurrentChar (same.shape shape) (routineFits_updateAdvanceFunctionPointers _)
      (same.pushedChar1.trans (not_not.1 second)) ?_, ?_, same.currentLine, ?_⟩
    · rw [same.empty, same.items, isEmpty_items_of_length shape nonempty]
      exact notEmpty
    · rw [items_readCurrentChar, same.items, next]
    · have before : string.pushedChars = [string.pushedChar1] := by
        rw [pushedChars, if_pos escaped, if_neg second]
      rw [before]
      exact pushedChars_of_unescaped (same.pushedChar1.trans (not_not.1 second))

/-- The last substring is exhausted. -/
theorem consumes_exhaust (noSubstrings : string.substrings = [])
    (unescaped : string.pushedChar1 = 0) (unescaped2 : string.pushedChar2 = 0) :
    string.exhaust.readCurrentChar.Sound ∧ string.exhaust.readCurrentChar.items = [] := by
  have exhausted : string.exhaust.currentString.length = 0 := rfl
  have shape : string.exhaust.Shape := by
    refine ⟨⟨Nat.zero_le _, fun nonempty => absurd rfl nonempty⟩, ?_, fun _ => noSubstrings,
      fun _ => unescaped2, fun escaped => absurd unescaped escaped⟩
    intro substring member
    have none : string.exhaust.substrings = [] := noSubstrings
    rw [none] at member
    cases member
  have nothing : string.exhaust.items = [] := by
    rw [@items_of_unescaped string.exhaust unescaped, shape.segmentItems_eq_nil exhausted]
  refine ⟨sound_readCurrentChar shape ?_ unescaped ?_, nothing⟩
  · have slow : ¬ string.exhaust.Fast := fun fast => absurd fast.1 (Nat.not_lt_zero 1)
    exact ⟨fun fast => absurd fast slow, fun fast => absurd fast slow,
      fun _ => ⟨rfl, .inr ⟨rfl, rfl, rfl, unescaped⟩⟩⟩
  · rw [nothing]
    rfl

/-- The next substring becomes the current one. -/
theorem sound_advanceSubstring
    (others : ∀ substring ∈ string.substrings, substring.Fits ∧ substring.length ≠ 0)
    (unescaped : string.pushedChar1 = 0) (unescaped2 : string.pushedChar2 = 0)
    (notEmpty : string.empty = false) :
    string.advanceSubstring.readCurrentChar.Sound ∧ string.advanceSubstring.readCurrentChar.items =
        string.substrings.flatMap SegmentedSubstring.items ∧
      string.advanceSubstring.readCurrentChar.currentLine = string.currentLine ∧
      string.advanceSubstring.readCurrentChar.pushedChar1 = string.pushedChar1 := by
  unfold advanceSubstring
  split
  next first rest substrings =>
    rw [substrings] at others ⊢
    obtain ⟨⟨firstFits, firstNonempty⟩, restFits⟩ := forall_mem_cons.1 others
    have same := sameBut_updateAdvanceFunctionPointers
      { string with
        numberOfCharactersConsumedPriorToCurrentString :=
          string.numberOfCharactersConsumedPriorToCurrentString +
            string.currentString.numberOfCharactersConsumed - first.numberOfCharactersConsumed
        currentString := first
        substrings := rest }
    have shape := same.shape ⟨firstFits, restFits,
      fun exhausted => absurd exhausted firstNonempty, fun _ => unescaped2,
      fun _ => firstNonempty⟩
    refine ⟨sound_readCurrentChar shape (routineFits_updateAdvanceFunctionPointers _)
      (same.pushedChar1.trans unescaped) ?_, ?_, same.currentLine, same.pushedChar1⟩
    · rw [same.empty, isEmpty_items_of_length shape
        (by rw [same.currentString]; exact firstNonempty)]
      exact notEmpty
    · rw [items_readCurrentChar, same.items]
      exact @items_of_unescaped { string with currentString := first, substrings := rest }
        unescaped
  next substrings =>
    obtain ⟨after, nothing⟩ := consumes_exhaust substrings unescaped unescaped2
    refine ⟨after, ?_, rfl, rfl⟩
    rw [nothing, substrings]
    rfl

/-- The slow case, where it is not one of the others. -/
theorem Sound.advanceSlowCase (sound : string.Sound) (slow : ¬ string.Fast) :
    Consumes string string.advanceSlowCase := by
  rw [SegmentedString.advanceSlowCase]
  by_cases escaped : string.pushedChar1 ≠ 0
  · rw [if_pos escaped]
    exact sound.popPushedChar escaped
  rw [if_neg escaped]
  have unescaped := not_not.1 escaped
  by_cases nonempty : string.currentString.length ≠ 0
  · have one : string.currentString.length = 1 := by
      have := mt (fun long => ⟨long, unescaped⟩) slow
      omega
    have items_eq := sound.items_eq_cons unescaped nonempty
    rw [SegmentedSubstring.items_eq_nil (Nat.sub_eq_zero_of_le (Nat.le_of_eq one))] at items_eq
    rw [if_pos nonempty]
    rw [if_pos (Nat.sub_eq_zero_of_le (Nat.le_of_eq one))]
    have notEmpty : string.empty = false := by
      rw [sound.empty, isEmpty_items_of_length sound.shape nonempty]
    obtain ⟨after, itemsAfter, lineAfter, pushedAfter⟩ := @sound_advanceSubstring
      { string with
        currentString := { string.currentString with length := string.currentString.length - 1 } }
      sound.shape.others unescaped (sound.shape.pushed unescaped) notEmpty
    refine ⟨after, ?_, lineAfter, pushedChars_eq_tail unescaped pushedAfter⟩
    rw [itemsAfter, items_eq]
    rfl
  · have exhausted := not_not.1 nonempty
    have noSubstrings := sound.shape.exhausted exhausted
    have simple : string.isComposite = false := by
      rw [isComposite, noSubstrings]
      rfl
    rw [if_neg nonempty, if_pos simple]
    obtain ⟨after, nothing⟩ := consumes_exhaust noSubstrings unescaped
      (sound.shape.pushed unescaped)
    refine ⟨after, ?_, rfl, pushedChars_eq_tail unescaped rfl⟩
    rw [nothing, items_of_unescaped unescaped, sound.shape.segmentItems_eq_nil exhausted]
    rfl

theorem Sound.advanceEmpty (sound : string.Sound) (exhausted : string.currentString.length = 0)
    (unescaped : string.pushedChar1 = 0) : Consumes string string.advanceEmpty := by
  have nothing : string.items = [] := by
    rw [items_of_unescaped unescaped, sound.shape.segmentItems_eq_nil exhausted]
  have same : string.advanceEmpty.items = string.items := rfl
  refine ⟨⟨⟨sound.shape.current, sound.shape.others, sound.shape.exhausted, sound.shape.pushed,
    sound.shape.backed⟩, ⟨sound.routine.narrow, sound.routine.wide, sound.routine.slow⟩, ?_,
    sound.empty⟩, ?_, rfl, pushedChars_eq_tail unescaped rfl⟩
  · rw [same, nothing]
    rfl
  · rw [same, nothing]
    rfl

/-- `advance` consumes the first character. -/
theorem Sound.advance (sound : string.Sound) : Consumes string string.advance := by
  rw [SegmentedString.advance]
  by_cases fast : string.Fast
  · cases width : string.currentString.is8Bit with
    | true =>
      rw [if_pos (sound.routine.narrow fast width).1]
      exact sound.advanceFast fast
    | false =>
      obtain ⟨noFlag, function, -⟩ := sound.routine.wide fast width
      rw [noFlag, function]
      exact sound.advanceFast fast
  · obtain ⟨noFlag, ⟨function, -⟩ | ⟨function, -, exhausted, unescaped⟩⟩ := sound.routine.slow fast
    · rw [noFlag, function]
      exact sound.advanceSlowCase fast
    · rw [noFlag, function]
      exact sound.advanceEmpty exhausted unescaped

end Advancing

end SegmentedString
end Text
end PalmWebKit
