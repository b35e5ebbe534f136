import PalmWebKit.Text.CharacterReading

/-!
# A call that decodes UTF-8

What a call writes is what the partial sequence and then the source are read as.
Writing 8-bit characters first makes no difference.
-/

namespace PalmWebKit
namespace Text

open List

theorem bytesUnits_append (bytes later : List Byte) :
    bytesUnits (bytes ++ later) = bytesUnits bytes ++ bytesUnits later := map_append

/-- A character that fits is the same in both kinds of string. -/
theorem characterUnits_of_le {character : Nat} (small : ¬character > 0xFF) :
    characterUnits character = bytesUnits [UInt8.ofNat character] := by
  rw [characterUnits, if_pos (by omega), bytesUnits, map_singleton, UInt8.toNat_ofNat',
    Nat.mod_eq_of_lt (by omega)]

/-! ## The loops over the source -/

section Complete

variable {first : Byte} {rest : List Byte}

theorem firstCharacter_of_error (notASCII : ¬isASCII first = true)
    (complete : ¬(nonASCIISequenceLength first ≠ 0 ∧
      nonASCIISequenceLength first > (first :: rest).length))
    (decoded : (if nonASCIISequenceLength first = 0 then none
      else decodeNonASCIISequence ((first :: rest).take (nonASCIISequenceLength first))) =
        none) : firstCharacter first rest = some Character.replacement := by
  rw [firstCharacter, if_neg notASCII]
  by_cases zero : nonASCIISequenceLength first = 0
  · rw [if_pos zero]
  · have longEnough : ¬nonASCIISequenceLength first > rest.length + 1 :=
      fun incomplete => complete ⟨zero, incomplete⟩
    rw [if_neg zero] at decoded
    rw [if_neg zero, if_neg longEnough, decoded]

theorem firstCharacter_of_decoded {character : Nat} (notASCII : ¬isASCII first = true)
    (complete : ¬(nonASCIISequenceLength first ≠ 0 ∧
      nonASCIISequenceLength first > (first :: rest).length))
    (decoded : (if nonASCIISequenceLength first = 0 then none
      else decodeNonASCIISequence ((first :: rest).take (nonASCIISequenceLength first))) =
        some character) : firstCharacter first rest =
      some ⟨characterUnits character, false, nonASCIISequenceLength first - 1⟩ := by
  rw [firstCharacter, if_neg notASCII]
  by_cases zero : nonASCIISequenceLength first = 0
  · rw [if_pos zero] at decoded
    cases decoded
  · have longEnough : ¬nonASCIISequenceLength first > rest.length + 1 :=
      fun incomplete => complete ⟨zero, incomplete⟩
    rw [if_neg zero] at decoded
    rw [if_neg zero, if_neg longEnough, decoded]

end Complete

theorem decodeSource16_eq (placement : Placement) (destination : WString) (source : List Byte)
    (sawError : Bool) : decodeSource16 placement false destination source sawError =
      ⟨destination ++ (read false source).text, (read false source).rest, [],
        sawError || (read false source).sawError, false⟩ := by
  fun_induction decodeSource16 placement false destination source sawError with
  | case1 => simp [read]
  | case2 destination sawError first rest isFirst ih =>
    obtain ⟨append, ascii, _⟩ := @Placement.copyASCII_spec placement _ rest isFirst
    rw [ih]
    conv_rhs => rw [← append, read_ascii ascii]
    simp [append_assoc]
  | case3 destination sawError first rest notASCII count incomplete =>
    rw [read_none (firstCharacter_none_iff.2 incomplete.2)]
    simp
  | case4 => contradiction
  | case5 destination sawError first rest notASCII count complete decoded _ ih =>
    rw [ih, read_some (firstCharacter_of_error notASCII complete decoded)]
    simp [Character.replacement, append_assoc]
  | case6 destination sawError first rest notASCII count complete character decoded
      ih =>
      rw [ih, read_some (firstCharacter_of_decoded notASCII complete decoded)]
      simp [count, append_assoc]

/-- The loop that writes 8-bit characters stops where the bytes that it leaves are
read as if it had written 16-bit ones. -/
theorem decodeSource8_spec (placement : Placement) (destination source : List Byte)
    (sawError : Bool) :
    ∀ flush, Reading.append (bytesUnits destination) sawError (read flush source) = Reading.append
        (bytesUnits (decodeSource8 placement false destination source sawError).destination)
        (decodeSource8 placement false destination source sawError).sawError
        (read flush
          ((decodeSource8 placement false destination source sawError).partialSequence ++
            (decodeSource8 placement false destination source sawError).source)) := by
  intro flush
  fun_induction decodeSource8 placement false destination source sawError with
  | case1 | case3 | case6 => simp
  | case2 destination first rest isFirst ih =>
    obtain ⟨append, ascii, _⟩ := @Placement.copyASCII_spec placement _ rest isFirst
    rw [← ih]
    conv_lhs => rw [← append, read_ascii ascii]
    rw [Reading.append_append, bytesUnits_append, Bool.or_false]
  | case4 => contradiction
  | case5 destination first rest notASCII count complete decoded _ =>
    rw [nil_append, read_some (firstCharacter_of_error notASCII complete decoded)]
    simp [Character.replacement, Reading.append]
  | case7 destination first rest notASCII count complete character decoded small
      ih =>
      rw [← ih, read_some (firstCharacter_of_decoded notASCII complete decoded),
        Reading.append_append, bytesUnits_append, characterUnits_of_le small, Bool.or_false]

theorem decodeSource8_left (placement : Placement) (destination source : List Byte)
    (sawError : Bool) :
    if (decodeSource8 placement false destination source sawError).upConvert = true then
      (decodeSource8 placement false destination source sawError).partialSequence = []
    else
      Pending (decodeSource8 placement false destination source sawError).partialSequence ∧
        (decodeSource8 placement false destination source sawError).source = [] := by
  fun_induction decodeSource8 placement false destination source sawError with
  | case1 => exact ⟨trivial, rfl⟩
  | case2 | case7 => assumption
  | case3 destination first rest notASCII count incomplete =>
    exact ⟨firstCharacter_none_iff.2 incomplete.2, rfl⟩
  | case4 => contradiction
  | case5 | case6 => rfl

/-! ## The partial sequence -/

/-- What `handlePartialSequence` writes, and the partial sequence and the source that
it leaves. -/
structure Settled where
  text : WString
  sawError : Bool
  partialSequence : List Byte
  source : List Byte
  deriving DecidableEq, Repr

def Settled.append (text : WString) (sawError : Bool) (settled : Settled) : Settled :=
  { settled with text := text ++ settled.text, sawError := sawError || settled.sawError }

/-- The bytes in the buffer when it has as many as its first one asks for. -/
def stored (first : Byte) (rest source : List Byte) : List Byte :=
  (first :: rest) ++ source.take (nonASCIISequenceLength first - (rest.length + 1))

/-- The source behind those bytes. -/
def unstored (first : Byte) (rest source : List Byte) : List Byte :=
  source.drop (nonASCIISequenceLength first - (rest.length + 1))

theorem stored_append (first : Byte) (rest source : List Byte) :
    stored first rest source ++ unstored first rest source = first :: (rest ++ source) := by
  rw [stored, unstored, append_assoc, take_append_drop, cons_append]

/-- `handlePartialSequence` as it takes one character after another.  A byte that is
not part of a sequence is moved out of the buffer.  Behind a sequence the buffer is
cut at its other end. -/
def settle (flush : Bool) (partialSequence source : List Byte) : Settled :=
  match partialSequence with
  | [] => ⟨[], false, [], source⟩
  | first :: rest =>
    match firstCharacter first (rest ++ source) with
    | none =>
      if flush then
        Settled.append [replacementCharacter] true (settle flush rest source)
      else
        ⟨[], false, (first :: rest) ++ source, source⟩
    | some character =>
      if character.trailing = 0 then
        Settled.append character.units character.sawError
          (settle flush (stored first rest source).tail (unstored first rest source))
      else
        Settled.append character.units character.sawError
          (settle flush
            ((stored first rest source).take
              ((stored first rest source).length - (character.trailing + 1)))
            (unstored first rest source))
termination_by partialSequence.length + source.length
decreasing_by
  all_goals
    simp only [stored, unstored, length_cons, length_append, length_take,
      length_drop, length_tail]
    omega

section Settle

variable {flush : Bool} {first : Byte} {rest source : List Byte}

theorem settle_incomplete (incomplete : firstCharacter first (rest ++ source) = none) :
    settle false (first :: rest) source = ⟨[], false, (first :: rest) ++ source, source⟩ := by
  rw [settle, incomplete]
  rfl

theorem settle_incomplete_flush (incomplete : firstCharacter first (rest ++ source) = none) :
    settle true (first :: rest) source =
      Settled.append [replacementCharacter] true (settle true rest source) := by
  rw [settle, incomplete]
  rfl

theorem settle_single {character : Character}
    (isFirst : firstCharacter first (rest ++ source) = some character)
    (single : character.trailing = 0) :
    settle flush (first :: rest) source = Settled.append character.units character.sawError
        (settle flush (stored first rest source).tail (unstored first rest source)) := by
  rw [settle, isFirst]
  exact if_pos single

theorem settle_sequence {character : Character}
    (isFirst : firstCharacter first (rest ++ source) = some character)
    (several : character.trailing ≠ 0) :
    settle flush (first :: rest) source = Settled.append character.units character.sawError
        (settle flush
          ((stored first rest source).take
            ((stored first rest source).length - (character.trailing + 1)))
          (unstored first rest source)) := by
  rw [settle, isFirst]
  exact if_neg several

theorem stored_of_zero
    (zero : nonASCIISequenceLength first = 0) : stored first rest source = first :: rest := by
  rw [stored, zero, Nat.zero_sub, take_zero, append_nil]

theorem unstored_of_zero
    (zero : nonASCIISequenceLength first = 0) : unstored first rest source = source := by
  rw [unstored, zero, Nat.zero_sub, drop_zero]

theorem length_stored (complete : nonASCIISequenceLength first ≤ rest.length + 1 + source.length) :
    (stored first rest source).length =
      max (rest.length + 1) (nonASCIISequenceLength first) := by
  rw [stored, length_append, length_cons, length_take]
  omega

theorem take_stored (complete : nonASCIISequenceLength first ≤ rest.length + 1 + source.length) :
    (stored first rest source).take (nonASCIISequenceLength first) =
      (first :: (rest ++ source)).take (nonASCIISequenceLength first) := by
  rw [← stored_append, take_append_of_le_length]
  rw [length_stored complete]
  exact Nat.le_max_right _ _

theorem firstCharacter_of_ascii (ascii : isASCII first = true) :
    firstCharacter first rest = some (Character.ofASCII first) := by
  rw [firstCharacter, if_pos ascii]

theorem firstCharacter_of_zero (notASCII : ¬isASCII first = true)
    (zero : nonASCIISequenceLength first = 0) :
    firstCharacter first rest = some Character.replacement := by
  rw [firstCharacter, if_neg notASCII, if_pos zero]

section Stored

variable
  (notASCII : ¬isASCII first = true)
  (notZero : ¬nonASCIISequenceLength first = 0)
  (complete : nonASCIISequenceLength first ≤ rest.length + 1 + source.length)

include notASCII notZero complete

theorem firstCharacter_of_stored_error
    (decoded : decodeNonASCIISequence
      ((stored first rest source).take (nonASCIISequenceLength first)) = none) :
    firstCharacter first (rest ++ source) = some Character.replacement := by
  refine firstCharacter_of_error notASCII ?_ ?_
  · rw [length_cons, length_append]
    omega
  · rw [if_neg notZero, ← take_stored complete, decoded]

theorem firstCharacter_of_stored_decoded {character : Nat}
    (decoded : decodeNonASCIISequence
      ((stored first rest source).take (nonASCIISequenceLength first)) = some character) :
    firstCharacter first (rest ++ source) =
      some ⟨characterUnits character, false, nonASCIISequenceLength first - 1⟩ := by
  refine firstCharacter_of_decoded notASCII ?_ ?_
  · rw [length_cons, length_append]
    omega
  · rw [if_neg notZero, ← take_stored complete, decoded]

end Stored

/-- A sequence has more than one byte. -/
theorem nonASCIISequenceLength_ne_one (byte : Byte) : nonASCIISequenceLength byte ≠ 1 := by
  unfold nonASCIISequenceLength
  repeat' split
  all_goals omega

end Settle

/-- Filling the buffer first makes no difference. -/
theorem settle_stored {flush : Bool} {first : Byte} {rest source : List Byte}
    (complete : nonASCIISequenceLength first ≤ rest.length + 1 + source.length) :
    settle flush (stored first rest source) (unstored first rest source) =
      settle flush (first :: rest) source := by
  have full := length_stored complete
  have append := stored_append first rest source
  obtain ⟨more, isStored⟩ : ∃ more, stored first rest source = first :: more := ⟨_, rfl⟩
  rw [isStored, cons_append, cons_inj_right] at append
  rw [isStored, length_cons] at full
  have nothing : nonASCIISequenceLength first - (more.length + 1) = 0 := by omega
  have storedAgain : stored first more (unstored first rest source) =
      stored first rest source := by
    rw [isStored, stored, nothing, take_zero, append_nil]
  have unstoredAgain : unstored first more (unstored first rest source) =
      unstored first rest source := by
    rw [unstored, nothing, drop_zero]
  conv_rhs => rw [settle]
  rw [isStored, settle, append, storedAgain, unstoredAgain]
  cases isFirst : firstCharacter first (rest ++ source) with
  | none =>
    have incomplete := firstCharacter_none_iff.1 isFirst
    rw [length_append] at incomplete
    omega
  | some character => rw [isStored]

theorem handlePartialSequence16_eq (flush : Bool) (destination : WString)
    (partialSequence source : List Byte) (sawError : Bool)
    (fits : partialSequence.length ≤ maxLength) :
    handlePartialSequence16 flush false destination partialSequence source sawError =
      some ⟨destination ++ (settle flush partialSequence source).text,
        (settle flush partialSequence source).partialSequence,
        (settle flush partialSequence source).source,
        sawError || (settle flush partialSequence source).sawError, false⟩ := by
  fun_induction handlePartialSequence16 flush false destination partialSequence source
    sawError with
  | case1 => simp [settle]
  | case2 destination source sawError first rest isFirst ih =>
    have zero := nonASCIISequenceLength_of_ascii isFirst
    rw [ih (Nat.le_of_succ_le fits), settle_single (firstCharacter_of_ascii isFirst) rfl,
      stored_of_zero zero, unstored_of_zero zero]
    simp [Settled.append, Character.ofASCII, append_assoc]
  | case3 | case5 | case9 => contradiction
  | case4 destination source sawError first rest notASCII count zero _ ih =>
    rw [ih (Nat.le_of_succ_le fits), settle_single (firstCharacter_of_zero notASCII zero) rfl,
      stored_of_zero zero, unstored_of_zero zero]
    simp [Settled.append, Character.replacement, append_assoc]
  | case6 destination source sawError first rest notASCII count size notZero incomplete isFlush _
      ih =>
      cases isFlush
      have isNone : firstCharacter first (rest ++ source) = none := by
        rw [firstCharacter_none_iff, length_append]
        omega
      rw [ih (Nat.le_of_succ_le fits), settle_incomplete_flush isNone]
      simp [Settled.append, append_assoc]
  | case7 destination source sawError first rest notASCII count size notZero incomplete isFlush =>
    cases eq_false_of_ne_true isFlush
    have isNone : firstCharacter first (rest ++ source) = none := by
      rw [firstCharacter_none_iff, length_append]
      omega
    rw [settle_incomplete isNone]
    simp
  | case8 destination source sawError first rest notASCII count size notZero incomplete _ tooLong =>
    have bound := nonASCIISequenceLength_le first
    omega
  | case10 destination source sawError first rest notASCII count size notZero complete _ buffer
      decoded _ ih =>
      have shorter : buffer.tail.length ≤ maxLength := by
        change (stored first rest source).tail.length ≤ maxLength
        rw [length_tail, length_stored (by omega)]
        omega
      rw [ih shorter, settle_single
        (firstCharacter_of_stored_error notASCII notZero (by omega) decoded) rfl]
      simp [Settled.append, Character.replacement, append_assoc, buffer, stored, unstored,
        count, size]
  | case11 destination source sawError first rest notASCII count size notZero complete _ buffer
      character decoded ih =>
      have shorter : (buffer.take (buffer.length - count)).length ≤ maxLength := by
        change ((stored first rest source).take
          ((stored first rest source).length - count)).length ≤ maxLength
        rw [length_take, length_stored (by omega)]
        omega
      have notOne := nonASCIISequenceLength_ne_one first
      have back : nonASCIISequenceLength first - 1 + 1 = nonASCIISequenceLength first := by omega
      have several : nonASCIISequenceLength first - 1 ≠ 0 := by omega
      rw [ih shorter, settle_sequence
        (firstCharacter_of_stored_decoded notASCII notZero (by omega) decoded) several]
      simp only [Settled.append, append_assoc, back]
      rfl
  | case12 destination source sawError first rest notASCII count size notZero complete tooLong =>
    have bound := nonASCIISequenceLength_le first
    rw [length_cons] at fits
    omega

/-! ## A call -/

/-- The call goes on with the source when the partial sequence is empty. -/
def Settled.reading (flush : Bool) (settled : Settled) : Reading :=
  if settled.partialSequence ≠ [] then
    ⟨settled.text, settled.sawError, settled.partialSequence⟩
  else
    Reading.append settled.text settled.sawError (read flush settled.source)

theorem Settled.reading_append (flush : Bool) (text : WString) (sawError : Bool)
    (settled : Settled) : (Settled.append text sawError settled).reading flush =
      Reading.append text sawError (settled.reading flush) := by
  unfold Settled.reading
  by_cases isLeft : settled.partialSequence ≠ []
  · rw [if_pos isLeft]
    exact if_pos isLeft
  · rw [if_neg isLeft, Reading.append_append]
    exact if_neg isLeft

/-- What a call reads, without its way over 8-bit characters. -/
def call (flush : Bool) (partialSequence source : List Byte) : Reading :=
  (settle flush partialSequence source).reading flush

theorem call_nil (flush : Bool) (source : List Byte) :
    call flush [] source = read flush source := by
  rw [call, settle, Settled.reading]
  exact Reading.append_nil _

variable {bytes : List Byte}

theorem length_le_of_pending (pending : Pending bytes) : bytes.length < maxLength := by
  cases bytes with
  | nil => exact Nat.succ_pos _
  | cons first rest =>
    have shorter := firstCharacter_none_iff.1 pending
    have bound := nonASCIISequenceLength_le first
    rw [length_cons]
    omega

/-- Behind the last bytes, a buffer of two is read like a source. -/
theorem settle_short (bytes : List Byte) (short : bytes.length ≤ 2) :
    settle true bytes [] = ⟨(read true bytes).text, (read true bytes).sawError, [], []⟩ := by
  induction size : bytes.length using Nat.strongRecOn generalizing bytes with
  | ind size ih =>
    cases bytes with
    | nil => rw [settle, read]
    | cons first rest =>
      rw [length_cons] at short size
      cases isFirst : firstCharacter first rest with
      | none =>
        rw [settle_incomplete_flush (by rw [append_nil]; exact isFirst), read_flush isFirst,
          ih rest.length (by omega) rest (by omega) rfl]
        rfl
      | some character =>
        have isFirst' : firstCharacter first (rest ++ []) = some character := by
          rw [append_nil]
          exact isFirst
        have buffer : stored first rest [] = first :: rest := by
          rw [stored, take_nil, append_nil]
        have behind : unstored first rest [] = [] := drop_nil
        rw [read_some isFirst]
        by_cases single : character.trailing = 0
        · rw [settle_single isFirst' single, buffer, behind, tail_cons, single,
            ih rest.length (by omega) rest (by omega) rfl]
          rfl
        · have nothing : (first :: rest).length - (character.trailing + 1) = 0 := by
            rw [length_cons]
            omega
          rw [settle_sequence isFirst' single, buffer, behind, nothing,
            drop_eq_nil_of_le (by omega), take_zero, settle, read]
          rfl

/-- An incomplete sequence at the end of the last bytes, too. -/
theorem settle_pending (pending : Pending bytes) :
    settle true bytes [] = ⟨(read true bytes).text, (read true bytes).sawError, [], []⟩ := by
  cases bytes with
  | nil => exact settle_short [] (Nat.zero_le _)
  | cons first rest =>
    have bound := length_le_of_pending pending
    rw [length_cons, maxLength] at bound
    rw [settle_incomplete_flush (by rw [append_nil]; exact pending),
      read_flush pending, settle_short rest (by omega)]
    rfl

variable {placement : Placement}

theorem decode16_of_handled {flush stopOnError sawError : Bool} {destination : WString}
    {partialSequence source : List Byte} {handled : Decoding UChar}
    (result : handlePartialSequence16 flush stopOnError destination partialSequence source
      sawError = some handled) :
    decode16 placement flush stopOnError destination partialSequence source sawError =
      if handled.partialSequence ≠ [] then
        some handled
      else
        let decoded := decodeSource16 placement stopOnError handled.destination handled.source
          handled.sawError
        if flush = true ∧ decoded.partialSequence ≠ [] then
          decode16 placement flush stopOnError decoded.destination decoded.partialSequence
            decoded.source decoded.sawError
        else
          some decoded := by
  rw [decode16]
  split
  next isNone => rw [isNone] at result; cases result
  next other isSome =>
    rw [isSome] at result
    cases result
    rfl

theorem decode8_of_handled {flush stopOnError sawError : Bool}
    {destination partialSequence source : List Byte} {handled : Decoding Byte}
    (result : handlePartialSequence8 flush destination partialSequence source sawError =
      some handled) :
    decode8 placement flush stopOnError destination partialSequence source sawError =
      if handled.upConvert then
        some { handled with destination := destination }
      else if handled.partialSequence ≠ [] then
        some handled
      else
        let decoded := decodeSource8 placement stopOnError handled.destination handled.source
          handled.sawError
        if decoded.upConvert then
          some decoded
        else if flush = true ∧ decoded.partialSequence ≠ [] then
          decode8 placement flush stopOnError decoded.destination decoded.partialSequence
            decoded.source decoded.sawError
        else
          some decoded := by
  rw [decode8]
  split
  next isNone => rw [isNone] at result; cases result
  next other isSome =>
    rw [isSome] at result
    cases result
    rfl

theorem read_true_eq (bytes : List Byte) :
    read true bytes = Reading.append (read false bytes).text (read false bytes).sawError
        (read true (read false bytes).rest) := by
  have appended := read_true_append bytes []
  rwa [append_nil, append_nil] at appended

theorem decode16_spec (placement : Placement) (flush : Bool) (destination : WString)
    (partialSequence source : List Byte) (sawError : Bool)
    (fits : partialSequence.length ≤ maxLength) :
    ∃ decoded, decode16 placement flush false destination partialSequence source sawError =
        some decoded ∧
      decoded.destination = destination ++ (call flush partialSequence source).text ∧
      decoded.partialSequence = (call flush partialSequence source).rest ∧
      decoded.sawError = (sawError || (call flush partialSequence source).sawError) := by
  rw [decode16_of_handled (handlePartialSequence16_eq flush destination partialSequence source
    sawError fits)]
  unfold call Settled.reading
  generalize settle flush partialSequence source = settled
  by_cases isLeft : settled.partialSequence ≠ []
  · rw [if_pos isLeft, if_pos isLeft]
    exact ⟨_, rfl, rfl, rfl, rfl⟩
  · rw [if_neg isLeft, if_neg isLeft, decodeSource16_eq]
    have pending := pending_rest settled.source
    by_cases again : flush = true ∧ (read false settled.source).rest ≠ []
    · rw [if_pos again, decode16_of_handled (handlePartialSequence16_eq _ _ _ _ _
        (length_le_of_pending pending).le)]
      obtain ⟨rfl, _⟩ := again
      rw [settle_pending pending]
      rw [if_neg (not_not.2 rfl), decodeSource16_eq, if_neg (fun left => left.2 (by rw [read]))]
      refine ⟨_, rfl, ?_, ?_, ?_⟩
      · conv_rhs => rw [read_true_eq]
        simp [read, append_assoc]
      · rw [Reading.append_rest, rest_read_true, read]
      · conv_rhs => rw [read_true_eq]
        simp [read, Bool.or_assoc]
    · rw [if_neg again]
      have same : read flush settled.source = read false settled.source := by
        cases flush with
        | false => rfl
        | true =>
          have nothing : (read false settled.source).rest = [] := by
            by_contra isLeft
            exact again ⟨rfl, isLeft⟩
          rw [read_true_eq, nothing, read]
          simp only [Reading.append, append_nil, Bool.or_false]
          rw [← nothing]
      rw [same]
      exact ⟨_, rfl, (append_assoc _ _ _), rfl, Bool.or_assoc _ _ _⟩

theorem lead_of_pending {first : Byte} {rest : List Byte} (pending : Pending (first :: rest)) :
    ¬isASCII first = true ∧ ¬nonASCIISequenceLength first = 0 ∧
      rest.length + 1 < nonASCIISequenceLength first := by
  have shorter := firstCharacter_none_iff.1 pending
  refine ⟨fun ascii => ?_, by omega, shorter⟩
  rw [nonASCIISequenceLength_of_ascii ascii] at shorter
  omega

/-- `handlePartialSequence<LChar>` does what the one with 16-bit characters does, or
leaves it to that. -/
structure Handles8 (flush : Bool) (destination partialSequence source : List Byte) (sawError : Bool)
    (handled : Decoding Byte) : Prop where
  sawError_eq : handled.sawError = sawError
  fits : handled.partialSequence.length ≤ maxLength
  later : handled.upConvert = true → settle flush handled.partialSequence handled.source =
      settle flush partialSequence source
  done : handled.upConvert = false → ∃ written, handled.destination = destination ++ written ∧
      settle flush partialSequence source =
        ⟨bytesUnits written, false, handled.partialSequence, handled.source⟩

theorem handlePartialSequence8_spec (flush : Bool) (destination partialSequence source : List Byte)
    (sawError : Bool) (pending : Pending partialSequence) :
    ∃ handled, handlePartialSequence8 flush destination partialSequence source sawError =
        some handled ∧
      Handles8 flush destination partialSequence source sawError handled := by
  cases partialSequence with
  | nil =>
    refine ⟨_, by rw [handlePartialSequence8], ⟨rfl, Nat.zero_le _, ?_, ?_⟩⟩
    · intro upConvert
      cases upConvert
    · intro _
      exact ⟨[], (append_nil _).symm, by rw [settle]; rfl⟩
  | cons first rest =>
    obtain ⟨notASCII, notZero, shorter⟩ := lead_of_pending pending
    have bound := nonASCIISequenceLength_le first
    rw [handlePartialSequence8, if_neg notASCII, dif_neg notZero]
    by_cases incomplete : nonASCIISequenceLength first > rest.length + 1 ∧
        nonASCIISequenceLength first - (rest.length + 1) > source.length
    · have isNone : firstCharacter first (rest ++ source) = none := by
        rw [firstCharacter_none_iff, length_append]
        omega
      rw [if_pos incomplete]
      cases flush with
      | true =>
        refine ⟨_, rfl, ⟨rfl, by rw [length_cons]; omega, fun _ => rfl, ?_⟩⟩
        intro upConvert
        cases upConvert
      | false =>
        rw [if_neg Bool.false_ne_true, if_pos (by omega)]
        refine ⟨_, rfl, ⟨rfl, ?_, ?_, fun _ => ⟨[], (append_nil _).symm, ?_⟩⟩⟩
        · rw [length_append, length_cons]
          omega
        · intro upConvert
          cases upConvert
        · rw [settle_incomplete isNone]
          rfl
    · have complete : nonASCIISequenceLength first ≤ rest.length + 1 + source.length := by
        omega
      have full := length_stored complete
      rw [Nat.max_eq_right shorter.le] at full
      have upConverted : Handles8 flush destination (first :: rest) source sawError
          ⟨destination, stored first rest source, unstored first rest source, sawError,
            true⟩ := by
        refine ⟨rfl, by rw [full]; exact bound, fun _ => settle_stored complete, ?_⟩
        intro upConvert
        cases upConvert
      rw [if_neg incomplete, if_pos (by omega)]
      dsimp only
      rw [← stored, ← unstored]
      split
      next decoded => exact ⟨_, rfl, upConverted⟩
      next character decoded =>
        split
        · exact ⟨_, rfl, upConverted⟩
        · next small =>
          have isFirst := firstCharacter_of_stored_decoded notASCII notZero complete decoded
          have several : nonASCIISequenceLength first - 1 ≠ 0 := by omega
          rw [full, Nat.sub_self, take_zero, handlePartialSequence8]
          refine ⟨_, rfl, ⟨rfl, Nat.zero_le _, ?_, fun _ => ⟨_, rfl, ?_⟩⟩⟩
          · intro upConvert
            cases upConvert
          · rw [settle_sequence isFirst several]
            rw [full, Nat.sub_add_cancel (by omega), Nat.sub_self, take_zero, settle,
              characterUnits_of_le small]
            simp [Settled.append]

/-- The part of `decode` with 8-bit characters ends the call, or leaves bytes that are
read as if it had written 16-bit ones. -/
structure Decodes8 (flush : Bool) (destination partialSequence source : List Byte) (sawError : Bool)
    (decoded : Decoding Byte) : Prop where
  fits : decoded.partialSequence.length ≤ maxLength
  later : decoded.upConvert = true →
    Reading.append (bytesUnits destination) sawError (call flush partialSequence source) =
      Reading.append (bytesUnits decoded.destination) decoded.sawError
        (call flush decoded.partialSequence decoded.source)
  done : decoded.upConvert = false →
    Reading.append (bytesUnits destination) sawError (call flush partialSequence source) =
      ⟨bytesUnits decoded.destination, decoded.sawError, decoded.partialSequence⟩

theorem handlePartialSequence8_flush {destination partialSequence : List Byte} {sawError : Bool}
    (pending : Pending partialSequence) (isLeft : partialSequence ≠ []) :
    handlePartialSequence8 true destination partialSequence [] sawError =
      some ⟨destination, partialSequence, [], sawError, true⟩ := by
  cases partialSequence with
  | nil => exact absurd rfl isLeft
  | cons first rest =>
    obtain ⟨notASCII, notZero, shorter⟩ := lead_of_pending pending
    have incomplete : nonASCIISequenceLength first > rest.length + 1 ∧
        nonASCIISequenceLength first - (rest.length + 1) > ([] : List Byte).length := by
      rw [length_nil]
      omega
    rw [handlePartialSequence8, if_neg notASCII, dif_neg notZero, if_pos incomplete, if_pos rfl]

theorem call_pending (pending : Pending bytes) : call true bytes [] = read true bytes := by
  have nothing := rest_read_true bytes
  rw [call, settle_pending pending, Settled.reading, if_neg (not_not.2 rfl), read]
  simp only [Reading.append, append_nil, Bool.or_false]
  rw [← nothing]

/-- The source behind the partial sequence. -/
theorem decode8_behind {flush sawError : Bool} {destination partialSequence source : List Byte}
    {decoded : Decoding Byte}
    (read_eq :
      Reading.append (bytesUnits destination) sawError (call flush partialSequence source) =
        Reading.append (bytesUnits decoded.destination) decoded.sawError
          (read flush (decoded.partialSequence ++ decoded.source)))
    (left : if decoded.upConvert = true then
        decoded.partialSequence = []
      else
        Pending decoded.partialSequence ∧ decoded.source = []) :
    ∃ ended, (if decoded.upConvert = true then
        some decoded
      else if flush = true ∧ decoded.partialSequence ≠ [] then
        decode8 placement flush false decoded.destination decoded.partialSequence
          decoded.source decoded.sawError
      else
        some decoded) = some ended ∧
      Decodes8 flush destination partialSequence source sawError ended := by
  cases upConvert : decoded.upConvert with
  | true =>
    rw [if_pos upConvert] at left
    refine ⟨_, rfl, ⟨by rw [left]; exact Nat.zero_le _, fun _ => ?_, ?_⟩⟩
    · rw [read_eq, left, call_nil, nil_append]
    · intro isDone
      rw [upConvert] at isDone
      cases isDone
  | false =>
    rw [upConvert] at left
    obtain ⟨pending, ended⟩ := left
    rw [ended, append_nil] at read_eq
    rw [if_neg Bool.false_ne_true, ended]
    by_cases again : flush = true ∧ decoded.partialSequence ≠ []
    · obtain ⟨rfl, isLeft⟩ := again
      rw [if_pos ⟨rfl, isLeft⟩, decode8_of_handled (handlePartialSequence8_flush pending isLeft)]
      refine ⟨_, rfl, ⟨(length_le_of_pending pending).le, fun _ => ?_, ?_⟩⟩
      · rw [read_eq, call_pending pending]
      · intro isDone
        cases isDone
    · rw [if_neg again]
      refine ⟨_, rfl, ⟨(length_le_of_pending pending).le, ?_, fun _ => ?_⟩⟩
      · intro isUpConverted
        rw [upConvert] at isUpConverted
        cases isUpConverted
      · have unread : read flush decoded.partialSequence =
            ⟨[], false, decoded.partialSequence⟩ := by
          cases flush with
          | false => exact read_of_pending pending
          | true =>
            have nothing : decoded.partialSequence = [] := by
              by_contra isLeft
              exact again ⟨rfl, isLeft⟩
            rw [nothing, read]
        rw [read_eq, unread]
        simp [Reading.append]

theorem decode8_spec (placement : Placement) (flush : Bool)
    (destination partialSequence source : List Byte) (sawError : Bool)
    (pending : Pending partialSequence) :
    ∃ decoded, decode8 placement flush false destination partialSequence source sawError =
        some decoded ∧
      Decodes8 flush destination partialSequence source sawError decoded := by
  obtain ⟨handled, result, spec⟩ :=
    handlePartialSequence8_spec flush destination partialSequence source sawError pending
  rw [decode8_of_handled result]
  cases upConvert : handled.upConvert with
  | true =>
    refine ⟨_, rfl, ⟨spec.fits, fun _ => ?_, ?_⟩⟩
    · rw [call, call, spec.later upConvert, spec.sawError_eq]
    · intro isDone
      cases isDone
  | false =>
    obtain ⟨written, isWritten, isSettled⟩ := spec.done upConvert
    have called : Reading.append (bytesUnits destination) sawError
        (call flush partialSequence source) =
        if handled.partialSequence ≠ [] then
          ⟨bytesUnits handled.destination, handled.sawError, handled.partialSequence⟩
        else
          Reading.append (bytesUnits handled.destination) handled.sawError
            (read flush handled.source) := by
      rw [call, isSettled, isWritten, spec.sawError_eq, bytesUnits_append, Settled.reading]
      split
      · simp [Reading.append]
      · rw [Reading.append_append, Bool.or_false]
    by_cases isLeft : handled.partialSequence ≠ []
    · rw [if_pos isLeft]
      rw [if_pos isLeft] at called
      refine ⟨_, rfl, ⟨spec.fits, ?_, fun _ => called⟩⟩
      intro isUpConverted
      rw [upConvert] at isUpConverted
      cases isUpConverted
    · rw [if_neg isLeft]
      rw [if_neg isLeft, decodeSource8_spec placement] at called
      exact decode8_behind called (decodeSource8_left placement _ _ _)

/-- What a call returns and leaves. -/
theorem TextCodecUTF8.decode_eq (codec : TextCodecUTF8) (placement : Placement) (bytes : List Byte)
    (flush sawError : Bool) (pending : Pending codec.partialSequence) :
    codec.decode placement bytes flush false sawError =
      some ⟨⟨(call flush codec.partialSequence bytes).rest⟩,
        (call flush codec.partialSequence bytes).text,
        sawError || (call flush codec.partialSequence bytes).sawError⟩ := by
  obtain ⟨decoded8, result8, spec⟩ :=
    decode8_spec placement flush [] codec.partialSequence bytes sawError pending
  rw [decode, result8]
  dsimp only [Option.bind_eq_bind, Option.bind_some]
  cases upConvert : decoded8.upConvert with
  | true =>
    have read_eq := spec.later upConvert
    obtain ⟨decoded16, result16, text, rest, error⟩ := decode16_spec placement flush
      (bytesUnits decoded8.destination) decoded8.partialSequence decoded8.source
      decoded8.sawError spec.fits
    have texts := congrArg Reading.text read_eq
    have errors := congrArg Reading.sawError read_eq
    have rests := congrArg Reading.rest read_eq
    dsimp only [Reading.append_text, Reading.append_sawError, Reading.append_rest] at *
    rw [result16, Option.bind_some, text, rest, error, ← texts, ← errors, rests]
    rfl
  | false =>
    have read_eq := spec.done upConvert
    have texts := congrArg Reading.text read_eq
    have errors := congrArg Reading.sawError read_eq
    have rests := congrArg Reading.rest read_eq
    dsimp only [Reading.append_text, Reading.append_sawError, Reading.append_rest] at *
    rw [← texts, ← errors, ← rests]
    rfl

end Text
end PalmWebKit
