import PalmWebKit.Text.PartialSequences

/-!
# Decoding UTF-8 in chunks

The chunks of a text against the text in one call.  Behind a sequence of two bytes
that completes in the buffer after an error, a third byte is left there; cutting the
buffer at its end keeps the first byte in the place of the third.
-/

namespace PalmWebKit
namespace Text

open List

/-- The bytes of a call, and where they are. -/
structure Chunk where
  placement : Placement
  bytes : List Byte

def chunkBytes (chunks : List Chunk) : List Byte := chunks.flatMap Chunk.bytes

/-- The calls without `flush`: the codec that they leave, their texts and `sawError`. -/
def decodeParts (codec : TextCodecUTF8) (sawError : Bool) : List Chunk → Option Decoded
  | [] => some ⟨codec, [], sawError⟩
  | chunk :: later => do
      let decoded ← codec.decode chunk.placement chunk.bytes false false sawError
      let rest ← decodeParts decoded.codec decoded.sawError later
      pure { rest with text := decoded.text ++ rest.text }

/-- All calls on a new codec. -/
def decodeChunks (chunks : List Chunk) (last : Chunk) : Option Decoded := do
  let parts ← decodeParts {} false chunks
  let decoded ← parts.codec.decode last.placement last.bytes true false parts.sawError
  pure { decoded with text := parts.text ++ decoded.text }

/-! ## Bytes that are left in the buffer -/

/-- Keeping the first byte of the buffer in the place of the one that is lost reads the
same: it is the same byte, or both are errors where the next byte does not continue
them. -/
def Harmless (kept : Byte) (lost following : List Byte) : Prop :=
  ∀ byte ∈ lost, byte = kept ∨
    (isASCII byte = false ∧ ∀ next ∈ following.head?, isTrail next = false)

/-- What is lost in the turns of the loop of `handlePartialSequence` is harmless.
`following` is what the later calls get. -/
def HarmlessPartial (flush : Bool) (following partialSequence source : List Byte) : Prop :=
  match partialSequence with
  | [] => True
  | first :: rest =>
    match firstCharacter first (rest ++ source) with
    | none => if flush then HarmlessPartial flush following rest source else True
    | some character =>
      if character.trailing = 0 then
        HarmlessPartial flush following (stored first rest source).tail
          (unstored first rest source)
      else
        Harmless first ((stored first rest source).drop (character.trailing + 1))
            (unstored first rest source ++ following) ∧
          HarmlessPartial flush following
            ((stored first rest source).take
              ((stored first rest source).length - (character.trailing + 1)))
            (unstored first rest source)
termination_by partialSequence.length + source.length
decreasing_by
  all_goals
    simp only [stored, unstored, length_cons, length_append, length_take,
      length_drop, length_tail]
    omega

/-! ## Calls one after another -/

def callChunks (partialSequence source : List Byte) : List (List Byte) → Reading
  | [] => call true partialSequence source
  | next :: later =>
    Reading.append (call false partialSequence source).text
      (call false partialSequence source).sawError
      (callChunks (call false partialSequence source).rest next later)

def HarmlessChunks (partialSequence source : List Byte) : List (List Byte) → Prop
  | [] => HarmlessPartial true [] partialSequence source
  | next :: later =>
    HarmlessPartial false (next :: later).flatten partialSequence source ∧
      HarmlessChunks (call false partialSequence source).rest next later

section Turns

variable {first : Byte} {rest source : List Byte} {character : Character}

variable (isFirst : firstCharacter first (rest ++ source) = some character)
include isFirst

theorem call_single {flush : Bool} (single : character.trailing = 0) :
    call flush (first :: rest) source = Reading.append character.units character.sawError
        (call flush (stored first rest source).tail (unstored first rest source)) := by
  rw [call, settle_single isFirst single, Settled.reading_append, call]

theorem call_sequence {flush : Bool} (several : character.trailing ≠ 0) :
    call flush (first :: rest) source = Reading.append character.units character.sawError
        (call flush
          ((stored first rest source).take
            ((stored first rest source).length - (character.trailing + 1)))
          (unstored first rest source)) := by
  rw [call, settle_sequence isFirst several, Settled.reading_append, call]

omit isFirst

theorem call_incomplete (incomplete : firstCharacter first (rest ++ source) = none) :
    call false (first :: rest) source = ⟨[], false, (first :: rest) ++ source⟩ := by
  rw [call, settle_incomplete incomplete]
  rfl

theorem call_incomplete_flush (incomplete : firstCharacter first (rest ++ source) = none) :
    call true (first :: rest) source =
      Reading.append [replacementCharacter] true (call true rest source) := by
  rw [call, settle_incomplete_flush incomplete, Settled.reading_append, call]

variable (isFirst : firstCharacter first (rest ++ source) = some character)
include isFirst

theorem callChunks_single (single : character.trailing = 0) (later : List (List Byte)) :
    callChunks (first :: rest) source later = Reading.append character.units character.sawError
        (callChunks (stored first rest source).tail (unstored first rest source) later) := by
  cases later with
  | nil => exact call_single isFirst single
  | cons next later =>
    rw [callChunks, callChunks, call_single isFirst single, Reading.append_append]
    rfl

theorem callChunks_sequence (several : character.trailing ≠ 0) (later : List (List Byte)) :
    callChunks (first :: rest) source later = Reading.append character.units character.sawError
        (callChunks
          ((stored first rest source).take
            ((stored first rest source).length - (character.trailing + 1)))
          (unstored first rest source) later) := by
  cases later with
  | nil => exact call_sequence isFirst several
  | cons next later =>
    rw [callChunks, callChunks, call_sequence isFirst several, Reading.append_append]
    rfl

theorem harmlessChunks_single (single : character.trailing = 0) (later : List (List Byte)) :
    HarmlessChunks (first :: rest) source later ↔
      HarmlessChunks (stored first rest source).tail (unstored first rest source) later := by
  cases later with
  | nil =>
    rw [HarmlessChunks, HarmlessChunks, HarmlessPartial, isFirst]
    dsimp only
    rw [if_pos single]
  | cons next later =>
    rw [HarmlessChunks, HarmlessChunks, call_single isFirst single, Reading.append_rest,
      HarmlessPartial, isFirst]
    dsimp only
    rw [if_pos single]

theorem harmlessChunks_sequence (several : character.trailing ≠ 0) (later : List (List Byte)) :
    HarmlessChunks (first :: rest) source later ↔
      Harmless first ((stored first rest source).drop (character.trailing + 1))
          (unstored first rest source ++ later.flatten) ∧
        HarmlessChunks
          ((stored first rest source).take
            ((stored first rest source).length - (character.trailing + 1)))
          (unstored first rest source) later := by
  cases later with
  | nil =>
    rw [HarmlessChunks, HarmlessPartial, isFirst]
    dsimp only
    rw [if_neg several]
    rfl
  | cons next later =>
    rw [HarmlessChunks, HarmlessChunks, call_sequence isFirst several, Reading.append_rest,
      HarmlessPartial, isFirst]
    dsimp only
    rw [if_neg several, and_assoc]

end Turns

/-! ## A byte in the place of another -/

section Exchange

variable
  {kept lost : Byte}
  {following : List Byte}
  (two : nonASCIISequenceLength kept = 2)
  (large : 0xC2 ≤ kept.toNat)

include two

theorem isASCII_of_two : isASCII kept = false := by
  rw [Bool.eq_false_iff]
  intro ascii
  rw [nonASCIISequenceLength_of_ascii ascii] at two
  cases two

theorem read_of_harmless (harmless : Harmless kept [lost] following) :
    read true (kept :: following) = read true (lost :: following) := by
  rcases harmless lost (.head _) with same | ⟨notASCII, notTrail⟩
  · rw [same]
  · rw [read_error (isASCII_of_two two) notTrail, read_error notASCII notTrail]

include large

theorem head_ne_of_not_harmless (harmful : ¬Harmless kept [lost] following) :
    (read true (kept :: following)).text.head? ≠
      (read true (lost :: following)).text.head? := by
  have ne : lost ≠ kept := by
    intro same
    apply harmful
    intro byte mem
    exact .inl ((mem_singleton.1 mem).trans same)
  obtain ⟨lostUnit, lostHead, lostValue⟩ := head_read lost following
  rw [lostHead]
  by_cases next : ∃ second more, following = second :: more ∧ isTrail second = true
  · obtain ⟨second, more, rfl, trail⟩ := next
    obtain ⟨unit, head, value, small⟩ := head_read_two more two large trail
    have bounds := (isTrail_iff second).1 trail
    rw [head]
    intro same
    cases Option.some.inj same
    rcases lostValue with ⟨ascii, isLost⟩ | isLarge | ⟨_, _, equal, lostLarge, isLost⟩
    · have isSmall := UInt8.lt_iff_toNat_lt.1 (of_decide_eq_true ascii)
      change lost.toNat < 0x80 at isSmall
      omega
    · omega
    · cases equal
      apply ne
      apply UInt8.toNat.inj
      omega
  · have notTrail : ∀ byte ∈ following.head?, isTrail byte = false := by
      intro byte mem
      rw [Bool.eq_false_iff]
      intro trail
      obtain ⟨more, equal⟩ := head?_eq_some_iff.1 mem
      exact next ⟨byte, more, equal, trail⟩
    cases ascii : isASCII lost with
    | false =>
      refine absurd ?_ harmful
      intro byte mem
      rw [mem_singleton.1 mem]
      exact .inr ⟨ascii, notTrail⟩
    | true =>
      have isSmall := UInt8.lt_iff_toNat_lt.1 (of_decide_eq_true ascii)
      change lost.toNat < 0x80 at isSmall
      have head := head_read_some (@firstCharacter_of_ascii lost following ascii) rfl
      rw [head] at lostHead
      rw [read_error (isASCII_of_two two) notTrail, ← lostHead]
      intro same
      have value := congrArg UInt16.toNat (Option.some.inj same)
      rw [toNat_unit (by omega)] at value
      change 0xFFFD = lost.toNat at value
      omega

end Exchange

/-! ## Chunks against the whole -/

/-- What the chunks read against what the whole reads, behind an error or not. -/
structure Agrees (sawError : Bool) (chunks whole : Reading) (harmless : Prop) : Prop where
  head : chunks.text.head? = whole.text.head?
  error : (sawError || chunks.sawError) = (sawError || whole.sawError)
  text : chunks.text = whole.text ↔ harmless

/-- The buffer between two turns: more bytes than its first one asks for are left of
an error. -/
structure Buffered (sawError : Bool) (partialSequence : List Byte) : Prop where
  fits : ∀ first rest, partialSequence = first :: rest →
    rest.length + 1 ≤ max 3 (nonASCIISequenceLength first)
  noError : sawError = false → ∀ first rest, partialSequence = first :: rest →
    rest.length + 1 ≤ nonASCIISequenceLength first

theorem Agrees.append {sawError sawHere : Bool} {chunks whole : Reading} {harmless : Prop}
    {units : WString} (agrees : Agrees (sawError || sawHere) chunks whole harmless) :
    Agrees sawError (Reading.append units sawHere chunks) (Reading.append units sawHere whole)
      harmless := by
  refine ⟨?_, ?_, ?_⟩
  · rw [Reading.append_text, Reading.append_text, head?_append, head?_append, agrees.head]
  · rw [Reading.append_sawError, Reading.append_sawError, ← Bool.or_assoc, ← Bool.or_assoc,
      agrees.error]
  · rw [Reading.append_text, Reading.append_text, append_cancel_left_eq, agrees.text]

theorem Buffered.nil (sawError : Bool) : Buffered sawError [] := by
  refine ⟨?_, fun _ => ?_⟩
  · intro first rest equal
    cases equal
  · intro first rest equal
    cases equal

theorem Buffered.of_error {partialSequence : List Byte}
    (short : partialSequence.length ≤ 3) : Buffered true partialSequence := by
  refine ⟨?_, fun noError => by cases noError⟩
  rintro first rest rfl
  rw [length_cons] at short
  omega

theorem Buffered.of_pending {sawError : Bool} {partialSequence : List Byte}
    (pending : Pending partialSequence) : Buffered sawError partialSequence := by
  refine ⟨?_, fun _ => ?_⟩
  all_goals
    rintro first rest rfl
    have shorter := firstCharacter_none_iff.1 pending
    omega

theorem complete_of_firstCharacter {first : Byte} {rest source : List Byte} {character : Character}
    (isFirst : firstCharacter first (rest ++ source) = some character) :
    nonASCIISequenceLength first ≤ rest.length + 1 + source.length := by
  by_contra incomplete
  have isNone : firstCharacter first (rest ++ source) = none := by
    rw [firstCharacter_none_iff, length_append]
    omega
  rw [isNone] at isFirst
  cases isFirst

section Turn

variable
  {sawError : Bool}
  {first : Byte}
  {rest source : List Byte}
  {character : Character}
  (buffered : Buffered sawError (first :: rest))
  (isFirst : firstCharacter first (rest ++ source) = some character)

include buffered isFirst

/-- A turn that moves a byte out of the buffer. -/
theorem Buffered.single (single : character.trailing = 0) :
    Buffered (sawError || character.sawError) (stored first rest source).tail := by
  have bound := nonASCIISequenceLength_le first
  have fits := buffered.fits first rest rfl
  have short : (stored first rest source).tail.length ≤ 3 := by
    rw [length_tail, length_stored (complete_of_firstCharacter isFirst)]
    rw [maxLength] at bound
    omega
  have isError : (sawError || character.sawError) = true := by
    cases isSaw : sawError with
    | true => rfl
    | false =>
      have few := buffered.noError isSaw first rest rfl
      rcases firstCharacter_cases isFirst with ⟨ascii, _⟩ | rfl | ⟨value, rfl, notZero, _⟩
      · rw [nonASCIISequenceLength_of_ascii ascii] at few
        omega
      · rfl
      · have notOne := nonASCIISequenceLength_ne_one first
        dsimp only at single
        omega
  rw [isError]
  exact Buffered.of_error short

/-- A turn behind which nothing is left in the buffer, or one byte after an error. -/
theorem Buffered.sequence (several : character.trailing ≠ 0) :
    (stored first rest source).length = character.trailing + 1 ∨
    (sawError = true ∧ nonASCIISequenceLength first = 2 ∧ 0xC2 ≤ first.toNat ∧
      ∃ second lost, rest = [second, lost] ∧ character.trailing = 1) := by
  have bound := nonASCIISequenceLength_le first
  have fits := buffered.fits first rest rfl
  have full := length_stored (complete_of_firstCharacter isFirst)
  rcases firstCharacter_cases isFirst with ⟨_, rfl⟩ | rfl |
    ⟨value, rfl, notZero, complete, decoded⟩
  · exact absurd rfl several
  · exact absurd rfl several
  · have notOne := nonASCIISequenceLength_ne_one first
    have back : nonASCIISequenceLength first - 1 + 1 = nonASCIISequenceLength first := by omega
    rw [back]
    rcases Nat.lt_or_ge (nonASCIISequenceLength first) (rest.length + 1) with more | enough
    · right
      have two : nonASCIISequenceLength first = 2 := by omega
      have isError : sawError = true := by
        rw [← Bool.not_eq_false]
        intro noError
        have few := buffered.noError noError first rest rfl
        omega
      have restLength : rest.length = 2 := by omega
      obtain ⟨second, lost, rfl⟩ := length_eq_two.1 restLength
      rw [two] at decoded
      exact ⟨isError, two, (decoded_two decoded).1, second, lost, rfl, by rw [two]⟩
    · left
      rw [full, Nat.max_eq_right enough]

end Turn

theorem units_ne_nil {first : Byte} {rest : List Byte} {character : Character}
    (isFirst : firstCharacter first rest = some character) : character.units ≠ [] := by
  rcases firstCharacter_cases isFirst with ⟨_, rfl⟩ | rfl | ⟨value, rfl, _⟩
  · exact cons_ne_nil _ _
  · exact cons_ne_nil _ _
  · unfold characterUnits
    split <;> exact cons_ne_nil _ _

/-- A turn that leaves `kept` in the place of `lost`. -/
theorem Agrees.exchange {kept lost : Byte} {following : List Byte} {chunks : Reading}
    {harmless : Prop} {units : WString} {sawHere : Bool} (notEmpty : units ≠ [])
    (two : nonASCIISequenceLength kept = 2) (large : 0xC2 ≤ kept.toNat)
    (agrees : Agrees true chunks (read true (kept :: following)) harmless) :
    Agrees true (Reading.append units sawHere chunks)
      (Reading.append units sawHere (read true (lost :: following)))
      (Harmless kept [lost] following ∧ harmless) := by
  by_cases isHarmless : Harmless kept [lost] following
  · rw [← read_of_harmless two isHarmless, and_iff_right isHarmless]
    refine Agrees.append ?_
    exact agrees
  · obtain ⟨unit, more, rfl⟩ := exists_cons_of_ne_nil notEmpty
    refine ⟨rfl, rfl, ?_⟩
    rw [Reading.append_text, Reading.append_text, append_cancel_left_eq]
    constructor
    · intro same
      refine absurd ?_ (head_ne_of_not_harmless two large isHarmless)
      rw [← agrees.head, same]
    · rintro ⟨isHarmless', _⟩
      exact absurd isHarmless' isHarmless

/-- The turns of the loop in one call. -/
theorem agrees_turns (later : List (List Byte))
    (fromSource : ∀ sawError source,
      Agrees sawError (callChunks [] source later) (read true (source ++ later.flatten))
        (HarmlessChunks [] source later))
    (fromIncomplete : ∀ sawError first rest source, firstCharacter first (rest ++ source) = none →
      Agrees true (callChunks rest source later)
        (read true (rest ++ source ++ later.flatten)) (HarmlessChunks rest source later) →
      Agrees sawError (callChunks (first :: rest) source later)
        (read true (first :: rest ++ source ++ later.flatten))
        (HarmlessChunks (first :: rest) source later))
    (sawError : Bool)
    (partialSequence source : List Byte)
    (buffered : Buffered sawError partialSequence) :
    Agrees sawError (callChunks partialSequence source later)
      (read true (partialSequence ++ source ++ later.flatten))
      (HarmlessChunks partialSequence source later) := by
  induction isSize : partialSequence.length + source.length using Nat.strongRecOn
    generalizing sawError partialSequence source with
  | ind size ih =>
    cases partialSequence with
    | nil => exact fromSource sawError source
    | cons first rest =>
      cases isFirst : firstCharacter first (rest ++ source) with
      | none =>
        refine fromIncomplete sawError first rest source isFirst
          (ih _ ?_ true rest source (Buffered.of_error ?_) rfl)
        · rw [← isSize, length_cons]
          omega
        · have shorter := firstCharacter_none_iff.1 isFirst
          have bound := nonASCIISequenceLength_le first
          rw [length_append] at shorter
          rw [maxLength] at bound
          omega
      | some character =>
        have appended := stored_append first rest source
        have lengths := congrArg List.length appended
        rw [length_append, length_cons, length_append] at lengths
        rw [length_cons] at isSize
        have positive : 0 < (stored first rest source).length := Nat.succ_pos _
        have whole : read true (first :: rest ++ source ++ later.flatten) =
            Reading.append character.units character.sawError
              (read true ((rest ++ source ++ later.flatten).drop character.trailing)) := by
          exact read_some (firstCharacter_append _ isFirst)
        rw [whole]
        by_cases single : character.trailing = 0
        · have bytes : (stored first rest source).tail ++ unstored first rest source =
              rest ++ source := (cons_inj_right first).1 appended
          rw [callChunks_single isFirst single, harmlessChunks_single isFirst single,
            single, ← bytes]
          refine Agrees.append (ih _ ?_ _ _ _ (buffered.single isFirst single) rfl)
          rw [length_tail]
          omega
        · rw [callChunks_sequence isFirst single, harmlessChunks_sequence isFirst single]
          rcases buffered.sequence isFirst single with full |
            ⟨isError, two, large, second, lost, rfl, trailing⟩
          · have behind : (rest ++ source ++ later.flatten).drop character.trailing =
                unstored first rest source ++ later.flatten := by
              rw [← @drop_succ_cons _ first, ← cons_append, ← appended,
                append_assoc, drop_append_of_le_length full.ge,
                drop_eq_nil_of_le full.le, nil_append]
            have noneLost : Harmless first
                ((stored first rest source).drop (character.trailing + 1))
                (unstored first rest source ++ later.flatten) := by
              intro byte mem
              rw [drop_eq_nil_of_le full.le] at mem
              cases mem
            rw [and_iff_right noneLost, behind, full, Nat.sub_self]
            exact (ih _ (by rw [length_nil]; omega) _ []
              (unstored first rest source) (Buffered.nil _) rfl).append
          · have buffer : stored first [second, lost] source =
                [first, second, lost] := by
              rw [stored, two]
              exact append_nil _
            have behind : unstored first [second, lost] source = source := by
              rw [unstored, two]
              rfl
            have fewer : ([first] : List Byte).length + source.length < size := by
              rw [← isSize]
              simp only [length_cons, length_nil]
              omega
            rw [buffer, behind, trailing, isError]
            exact Agrees.exchange (units_ne_nil isFirst) two large
              (ih _ fewer true [first] source
                (Buffered.of_error (Nat.succ_le_succ (Nat.zero_le _))) rfl)

/-- The calls read what one call with all bytes reads if and only if what is lost is
harmless.  The first unit and `sawError` are always the same. -/
theorem agrees_callChunks (later : List (List Byte)) :
    ∀ (sawError : Bool) (partialSequence source : List Byte), Buffered sawError partialSequence →
      Agrees sawError (callChunks partialSequence source later)
        (read true (partialSequence ++ source ++ later.flatten))
        (HarmlessChunks partialSequence source later) := by
  induction later with
  | nil =>
    refine agrees_turns [] ?_ ?_
    · intro sawError source
      rw [callChunks, call_nil, flatten_nil, append_nil]
      refine ⟨rfl, rfl, fun _ => ?_, fun _ => rfl⟩
      rw [HarmlessChunks, HarmlessPartial]
      trivial
    · intro sawError first rest source incomplete agrees
      rw [flatten_nil, append_nil] at agrees ⊢
      rw [callChunks] at agrees ⊢
      rw [HarmlessChunks] at agrees ⊢
      rw [call_incomplete_flush incomplete, cons_append, read_flush incomplete,
        HarmlessPartial, incomplete]
      refine Agrees.append ?_
      rw [Bool.or_true]
      exact agrees
  | cons next later ih =>
    refine agrees_turns (next :: later) ?_ ?_
    · intro sawError source
      have nothing : HarmlessPartial false (next :: later).flatten [] source := by
        rw [HarmlessPartial]
        trivial
      rw [callChunks, read_true_append, HarmlessChunks, and_iff_right nothing,
        call_nil, flatten_cons, ← append_assoc]
      exact (ih _ _ next (Buffered.of_pending (pending_rest source))).append
    · intro sawError first rest source incomplete _
      have nothing : HarmlessPartial false (next :: later).flatten (first :: rest) source := by
        rw [HarmlessPartial, incomplete]
        trivial
      rw [callChunks, call_incomplete incomplete, HarmlessChunks, and_iff_right nothing,
        call_incomplete incomplete, flatten_cons, ← append_assoc]
      exact ih _ _ next (Buffered.of_pending incomplete)

/-! ## The calls of the codec -/

/-- Every call, with the partial sequence that the calls before it leave, is harmless. -/
def HarmlessCalls (codec : TextCodecUTF8) (sawError : Bool) (chunks : List Chunk)
    (last : Chunk) : Prop :=
  match chunks with
  | [] => HarmlessPartial true [] codec.partialSequence last.bytes
  | chunk :: later =>
    HarmlessPartial false (chunkBytes later ++ last.bytes) codec.partialSequence
        chunk.bytes ∧
      ∀ decoded, codec.decode chunk.placement chunk.bytes false false sawError = some decoded →
        HarmlessCalls decoded.codec decoded.sawError later last

/-- The text and `sawError` are those of one call with all bytes, and the partial
sequence always fits. -/
def DecodesAsOne (chunks : List Chunk) (last : Chunk) : Prop :=
  (∃ decoded, decodeChunks chunks last = some decoded ∧
      decoded.codec.partialSequence.length ≤ maxLength ∧
      ∀ placement, ∃ whole,
        TextCodecUTF8.decode {} placement (chunkBytes chunks ++ last.bytes) true false false =
          some whole ∧
        decoded.text = whole.text ∧ decoded.sawError = whole.sawError) ∧
    ∀ done later, chunks = done ++ later → ∃ parts, decodeParts {} false done = some parts ∧
        parts.codec.partialSequence.length ≤ maxLength

variable (partialSequence source : List Byte)

theorem pending_settle : Pending (settle false partialSequence source).partialSequence := by
  fun_induction settle false partialSequence source with
  | case1 => trivial
  | case2 _ _ _ _ isFlush => cases isFlush
  | case3 _ _ _ incomplete => exact incomplete
  | case4 | case5 => assumption

theorem pending_call : Pending (call false partialSequence source).rest := by
  rw [call, Settled.reading]
  split
  · exact pending_settle partialSequence source
  · exact pending_rest _

/-- The calls of the chunks, as `callChunks` takes them. -/
def callParts (partialSequence : List Byte) (last : List Byte) : List Chunk → Reading
  | [] => callChunks partialSequence last []
  | chunk :: later => callChunks partialSequence chunk.bytes (later.map Chunk.bytes ++ [last])

def HarmlessParts (partialSequence : List Byte) (last : List Byte) : List Chunk → Prop
  | [] => HarmlessChunks partialSequence last []
  | chunk :: later => HarmlessChunks partialSequence chunk.bytes (later.map Chunk.bytes ++ [last])

variable (chunks : List Chunk)

theorem flatten_bytes (last : List Byte) :
    (chunks.map Chunk.bytes ++ [last]).flatten = chunkBytes chunks ++ last := by
  rw [flatten_append, flatten_singleton]
  rfl

theorem agrees_callParts (last : List Byte) :
    Agrees false (callParts [] last chunks) (read true (chunkBytes chunks ++ last))
      (HarmlessParts [] last chunks) := by
  cases chunks with
  | nil =>
    have agrees := agrees_callChunks [] false [] last (Buffered.nil false)
    rw [flatten_nil, append_nil] at agrees
    exact agrees
  | cons chunk later =>
    have agrees := agrees_callChunks (later.map Chunk.bytes ++ [last]) false [] chunk.bytes
      (Buffered.nil false)
    rw [flatten_bytes, ← append_assoc] at agrees
    exact agrees

theorem harmlessParts_cons (partialSequence last : List Byte) (chunk : Chunk) (later : List Chunk) :
    HarmlessParts partialSequence last (chunk :: later) ↔
      HarmlessPartial false (chunkBytes later ++ last) partialSequence chunk.bytes ∧
        HarmlessParts (call false partialSequence chunk.bytes).rest last later := by
  rw [← flatten_bytes]
  cases later with
  | nil | cons next later => rfl

theorem callParts_cons (partialSequence last : List Byte) (chunk : Chunk) (later : List Chunk) :
    callParts partialSequence last (chunk :: later) =
      Reading.append (call false partialSequence chunk.bytes).text
        (call false partialSequence chunk.bytes).sawError
        (callParts (call false partialSequence chunk.bytes).rest last later) := by
  cases later with
  | nil | cons next later => rfl

theorem decodeParts_spec (codec : TextCodecUTF8) (sawError : Bool)
    (pending : Pending codec.partialSequence) :
    ∃ parts, decodeParts codec sawError chunks = some parts ∧ Pending parts.codec.partialSequence ∧
      ∀ last, Reading.append [] sawError (callParts codec.partialSequence last chunks) =
        Reading.append parts.text parts.sawError
          (call true parts.codec.partialSequence last) := by
  induction chunks generalizing codec sawError with
  | nil => exact ⟨_, rfl, pending, fun _ => rfl⟩
  | cons chunk later ih =>
    obtain ⟨parts, result, pendingParts, reading⟩ := ih
      ⟨(call false codec.partialSequence chunk.bytes).rest⟩
      (sawError || (call false codec.partialSequence chunk.bytes).sawError)
      (pending_call _ _)
    obtain ⟨called, isCalled⟩ : ∃ called, call false codec.partialSequence chunk.bytes = called :=
      ⟨_, rfl⟩
    rw [isCalled] at result reading
    refine ⟨{ parts with text := called.text ++ parts.text }, ?_, pendingParts,
      fun last => ?_⟩
    · rw [decodeParts, codec.decode_eq chunk.placement chunk.bytes false sawError pending]
      dsimp only [Option.bind_eq_bind, Option.bind_some]
      rw [isCalled, result]
      rfl
    · rw [callParts_cons, isCalled]
      calc
        _ = Reading.append called.text false
              (Reading.append [] (sawError || called.sawError)
                (callParts called.rest last later)) := by
          rw [Reading.append_append, Reading.append_append, nil_append,
            append_nil, Bool.false_or]
        _ = _ := by rw [reading last, Reading.append_append, Bool.false_or]

theorem harmlessCalls_iff (last : Chunk) (codec : TextCodecUTF8) (sawError : Bool)
    (pending : Pending codec.partialSequence) : HarmlessCalls codec sawError chunks last ↔
      HarmlessParts codec.partialSequence last.bytes chunks := by
  induction chunks generalizing codec sawError with
  | nil => rfl
  | cons chunk later ih =>
    rw [HarmlessCalls, harmlessParts_cons,
      codec.decode_eq chunk.placement chunk.bytes false sawError pending]
    refine and_congr_right fun _ => ?_
    rw [← ih ⟨(call false codec.partialSequence chunk.bytes).rest⟩ (sawError || (call false
      codec.partialSequence chunk.bytes).sawError) (pending_call _ _)]
    constructor
    · intro harmless
      exact harmless _ rfl
    · intro harmless decoded isDecoded
      cases isDecoded
      exact harmless

theorem decodeChunks_eq (last : Chunk) : decodeChunks chunks last =
      some ⟨⟨(callParts [] last.bytes chunks).rest⟩, (callParts [] last.bytes chunks).text,
        (callParts [] last.bytes chunks).sawError⟩ := by
  obtain ⟨parts, result, pending, reading⟩ :=
    decodeParts_spec chunks {} false (show Pending [] from trivial)
  have isReading := reading last.bytes
  rw [Reading.append_nil] at isReading
  rw [decodeChunks, result]
  dsimp only [Option.bind_eq_bind, Option.bind_some]
  rw [TextCodecUTF8.decode_eq _ _ _ _ _ pending, isReading]
  rfl

theorem decode_whole (placement : Placement) (bytes : List Byte) :
    TextCodecUTF8.decode {} placement bytes true false false =
      some ⟨⟨[]⟩, (read true bytes).text, (read true bytes).sawError⟩ := by
  rw [TextCodecUTF8.decode_eq _ _ _ _ _ (show Pending [] from trivial), call_nil,
    rest_read_true, Bool.false_or]

theorem settle_flush : (settle true partialSequence source).partialSequence = [] := by
  fun_induction settle true partialSequence source with
  | case1 => rfl
  | case2 | case4 | case5 => assumption
  | case3 _ _ _ _ notFlush => exact absurd rfl notFlush

theorem rest_callParts (partialSequence last : List Byte)
    (chunks : List Chunk) : (callParts partialSequence last chunks).rest = [] := by
  induction chunks generalizing partialSequence with
  | nil =>
    rw [callParts, callChunks, call, Settled.reading, settle_flush,
      if_neg (not_not.2 rfl), Reading.append_rest, rest_read_true]
  | cons chunk later ih => rw [callParts_cons, Reading.append_rest, ih]

/-- Only the text can differ. -/
theorem decodesAsOne_iff_text (last : Chunk) :
    DecodesAsOne chunks last ↔ (callParts [] last.bytes chunks).text =
        (read true (chunkBytes chunks ++ last.bytes)).text := by
  have agrees := agrees_callParts chunks last.bytes
  constructor
  · rintro ⟨⟨decoded, isDecoded, _, same⟩, _⟩
    obtain ⟨whole, isWhole, text, _⟩ := same last.placement
    rw [decodeChunks_eq] at isDecoded
    rw [decode_whole] at isWhole
    cases isDecoded
    cases isWhole
    exact text
  · intro text
    refine ⟨⟨_, decodeChunks_eq chunks last, ?_, fun placement => ⟨_, decode_whole _ _, text, ?_⟩⟩,
      ?_⟩
    · rw [rest_callParts]
      exact Nat.zero_le _
    · exact agrees.error
    · intro done later _
      obtain ⟨parts, result, pending, _⟩ :=
        decodeParts_spec done {} false (show Pending [] from trivial)
      exact ⟨parts, result, (length_le_of_pending pending).le⟩

/-- Chunks are decoded as their bytes in one call if and only if every byte that is
lost behind a sequence in the buffer is harmless. -/
theorem decodesAsOne_iff (chunks : List Chunk) (last : Chunk) :
    DecodesAsOne chunks last ↔ HarmlessCalls {} false chunks last := by
  rw [decodesAsOne_iff_text, harmlessCalls_iff chunks last {} false (show Pending [] from trivial)]
  exact (agrees_callParts chunks last.bytes).text

/-- A chunk of memory at an aligned address. -/
def Chunk.aligned (bytes : List Byte) : Chunk := ⟨⟨bytes.length, 8, Nat.succ_pos 7⟩, bytes⟩

/-- Behind `F1` in a chunk of its own, the `A` of `C3 A9 41 42` is lost. -/
theorem third_byte_lost :
    ¬DecodesAsOne [Chunk.aligned [0xF1]] (Chunk.aligned [0xC3, 0xA9, 0x41, 0x42]) := by
  rw [decodesAsOne_iff_text]
  decide +kernel

end Text
end PalmWebKit
