import PalmWebKit.Text.CodeUnits

/-!
# Decoding UTF-8 in chunks

`TextCodecUTF8` keeps the bytes of an incomplete sequence between two calls of
`decode`.  A call writes 8-bit characters as long as it can and then goes on with
16-bit ones.
-/

namespace PalmWebKit
namespace Text

open List

abbrev Byte := UInt8

/-- `U8_MAX_LENGTH`, the capacity of `m_partialSequence`. -/
def maxLength : Nat := 4

/-- U+FFFD -/
def replacementCharacter : UChar := 0xFFFD

def isASCII (byte : Byte) : Bool := byte < 0x80

/-- The table of `nonASCIISequenceLength`, which has 2 for trailing bytes, too. -/
def nonASCIISequenceLength (firstByte : Byte) : Nat :=
  if firstByte < 0x80 then 0
  else if firstByte < 0xE0 then 2
  else if firstByte < 0xF0 then 3
  else if firstByte < 0xF5 then 4
  else 0

/-- A trailing byte of a sequence. -/
def isTrail (byte : Byte) : Bool := 0x80 ≤ byte && byte ≤ 0xBF

/-- The bytes that may be second in a sequence of three or four. -/
def isSecond (first second : Byte) : Bool :=
  if first = 0xE0 then 0xA0 ≤ second && second ≤ 0xBF
  else if first = 0xED then 0x80 ≤ second && second ≤ 0x9F
  else if first = 0xF0 then 0x90 ≤ second && second ≤ 0xBF
  else if first = 0xF4 then 0x80 ≤ second && second ≤ 0x8F
  else isTrail second

/-- `none` is `nonCharacter`. -/
def decodeNonASCIISequence : List Byte → Option Nat
  | [first, second] =>
    if first < 0xC2 then none
    else if isTrail second then
      some ((first.toNat <<< 6) + second.toNat - 0x00003080)
    else none
  | [first, second, third] =>
    if isSecond first second && isTrail third then
      some ((first.toNat <<< 12) + (second.toNat <<< 6) + third.toNat - 0x000E2080)
    else none
  | [first, second, third, fourth] =>
    if isSecond first second && isTrail third && isTrail fourth then
      some ((first.toNat <<< 18) + (second.toNat <<< 12) + (third.toNat <<< 6) +
        fourth.toNat - 0x03C82080)
    else none
  | _ => none

/-- 8-bit characters in a 16-bit string. -/
def bytesUnits (bytes : List Byte) : WString :=
  bytes.map fun byte => UInt16.ofNat byte.toNat

/-- What `appendCharacter` writes. -/
def characterUnits (character : Nat) : WString :=
  if character ≤ 0xFFFF then [UInt16.ofNat character]
  else [UInt16.ofNat ((character >>> 10) + 0xD7C0), UInt16.ofNat ((character &&& 0x3FF) ||| 0xDC00)]

/-! ## Partial sequences -/

/-- The locals of `decode` with `m_partialSequence`; `upConvert` is the way to its
16-bit part. -/
structure Decoding (Unit : Type) where
  destination : List Unit
  partialSequence : List Byte
  source : List Byte
  sawError : Bool
  upConvert : Bool
  deriving DecidableEq, Repr

section Handling

variable (flush : Bool)

/-- `handlePartialSequence<LChar>`.  The partial sequence is the bytes that
`m_partialSequenceSize` counts; `none` is a `memcpy` behind the end of its
buffer. -/
def handlePartialSequence8 (destination partialSequence source : List Byte)
    (sawError : Bool) : Option (Decoding Byte) :=
  match partialSequence with
  | [] => some ⟨destination, [], source, sawError, false⟩
  | first :: rest =>
    if isASCII first then
      handlePartialSequence8 (destination ++ [first]) rest source sawError
    else
      let count := nonASCIISequenceLength first
      let size := rest.length + 1
      if _ : count = 0 then
        some ⟨destination, first :: rest, source, sawError, true⟩
      else if count > size ∧ count - size > source.length then
        if flush then
          some ⟨destination, first :: rest, source, sawError, true⟩
        else if size + source.length ≤ maxLength then
          some ⟨destination, (first :: rest) ++ source, source, sawError, false⟩
        else
          none
      else if size + (count - size) ≤ maxLength then
        let stored := (first :: rest) ++ source.take (count - size)
        match decodeNonASCIISequence (stored.take count) with
        | none => some ⟨destination, stored, source.drop (count - size), sawError, true⟩
        | some character =>
          if character > 0xFF then
            some ⟨destination, stored, source.drop (count - size), sawError, true⟩
          else
            -- The size is reduced, and the bytes are not moved.
            handlePartialSequence8 (destination ++ [UInt8.ofNat character])
              (stored.take (stored.length - count)) (source.drop (count - size)) sawError
      else
        none
termination_by partialSequence.length + source.length
decreasing_by
  all_goals
    simp only [length_cons, length_append, length_take, length_drop]
    omega

/-- `handlePartialSequence<UChar>` -/
def handlePartialSequence16 (stopOnError : Bool) (destination : WString)
    (partialSequence source : List Byte) (sawError : Bool) : Option (Decoding UChar) :=
  match partialSequence with
  | [] => some ⟨destination, [], source, sawError, false⟩
  | first :: rest =>
    if isASCII first then
      handlePartialSequence16 stopOnError (destination ++ [UInt16.ofNat first.toNat]) rest
        source sawError
    else
      let count := nonASCIISequenceLength first
      let size := rest.length + 1
      if _ : count = 0 then
        if stopOnError then
          some ⟨destination, first :: rest, source, true, false⟩
        else
          handlePartialSequence16 stopOnError (destination ++ [replacementCharacter]) rest
            source true
      else if count > size ∧ count - size > source.length then
        if flush then
          if stopOnError then
            some ⟨destination, first :: rest, source, true, false⟩
          else
            handlePartialSequence16 stopOnError (destination ++ [replacementCharacter]) rest
              source true
        else if size + source.length ≤ maxLength then
          some ⟨destination, (first :: rest) ++ source, source, sawError, false⟩
        else
          none
      else if size + (count - size) ≤ maxLength then
        let stored := (first :: rest) ++ source.take (count - size)
        match decodeNonASCIISequence (stored.take count) with
        | none =>
          if stopOnError then
            some ⟨destination, stored, source.drop (count - size), true, false⟩
          else
            handlePartialSequence16 stopOnError (destination ++ [replacementCharacter])
              stored.tail (source.drop (count - size)) true
        | some character =>
          handlePartialSequence16 stopOnError (destination ++ characterUnits character)
            (stored.take (stored.length - count)) (source.drop (count - size)) sawError
      else
        none
termination_by partialSequence.length + source.length
decreasing_by
  all_goals
    simp only [length_cons, length_append, length_take, length_drop,
      length_tail]
    omega

end Handling

/-! ## The source -/

/-- Where the bytes of a call are: the address behind them and the size of a
machine word. -/
structure Placement where
  endAddress : Nat
  wordSize : Nat
  wordSize_pos : 0 < wordSize

namespace Placement

variable (placement : Placement)

/-- `isAlignedToMachineWord` of the first byte of the source. -/
def isAligned (source : List Byte) : Bool :=
  (placement.endAddress - source.length) % placement.wordSize = 0

def alignedEnd : Nat := placement.endAddress - placement.endAddress % placement.wordSize

/-- The loop over machine words: what is copied, and the source behind it. -/
def copyASCIIWords (source : List Byte) : List Byte × List Byte :=
  if _ : placement.endAddress - source.length < placement.alignedEnd ∧
      (source.take placement.wordSize).all isASCII then
    let (copied, rest) := copyASCIIWords (source.drop placement.wordSize)
    (source.take placement.wordSize ++ copied, rest)
  else
    ([], source)
termination_by source.length
decreasing_by
  rename_i isBefore
  have before := isBefore.1
  have positive := placement.wordSize_pos
  rw [alignedEnd] at before
  rw [length_drop]
  omega

/-- One turn of the loop at an ASCII character: what is copied, and the source
behind it. -/
def copyASCII (source : List Byte) : List Byte × List Byte :=
  let (words, behind) :=
    if placement.isAligned source then placement.copyASCIIWords source else ([], source)
  match behind with
  | [] => (words, [])
  | next :: later => if isASCII next then (words ++ [next], later) else (words, next :: later)

theorem copyASCIIWords_append (source : List Byte) :
    (placement.copyASCIIWords source).1 ++ (placement.copyASCIIWords source).2 = source := by
  induction size : source.length using Nat.strongRecOn generalizing source with
  | ind size ih =>
    rw [copyASCIIWords]
    split
    next isBefore =>
      have before := isBefore.1
      have positive := placement.wordSize_pos
      rw [alignedEnd] at before
      have rest := ih _ (by rw [length_drop]; omega)
        (source.drop placement.wordSize) rfl
      rw [append_assoc, rest, take_append_drop]
    next => rfl

theorem all_copyASCIIWords (source : List Byte) :
    (placement.copyASCIIWords source).1.all isASCII = true := by
  induction size : source.length using Nat.strongRecOn generalizing source with
  | ind size ih =>
    rw [copyASCIIWords]
    split
    next isBefore =>
      have before := isBefore.1
      have positive := placement.wordSize_pos
      rw [alignedEnd] at before
      have rest := ih _ (by rw [← size, length_drop]; omega)
        (source.drop placement.wordSize) rfl
      rw [all_append, isBefore.2, rest]
      rfl
    next => rfl

/-- A turn copies ASCII characters, and at least one where one is. -/
theorem copyASCII_spec {first : Byte} {rest : List Byte} (isFirst : isASCII first = true) :
    (placement.copyASCII (first :: rest)).1 ++ (placement.copyASCII (first :: rest)).2 =
        first :: rest ∧
      (placement.copyASCII (first :: rest)).1.all isASCII = true ∧
      (placement.copyASCII (first :: rest)).2.length < (first :: rest).length := by
  obtain ⟨words, behind, split, append, allWords⟩ : ∃ words behind,
      (if placement.isAligned (first :: rest) then placement.copyASCIIWords (first :: rest)
        else ([], first :: rest)) = (words, behind) ∧
      words ++ behind = first :: rest ∧ words.all isASCII = true := by
    split
    · exact ⟨_, _, rfl, placement.copyASCIIWords_append _, placement.all_copyASCIIWords _⟩
    · exact ⟨_, _, rfl, rfl, rfl⟩
  have lengths := congrArg List.length append
  simp only [copyASCII, split]
  cases behind with
  | nil =>
    rw [append_nil] at append
    exact ⟨by rw [append_nil, append], allWords, Nat.succ_pos _⟩
  | cons next later =>
    rw [length_append, length_cons] at lengths
    by_cases isNext : isASCII next = true
    · simp only [if_pos isNext]
      refine ⟨by rw [append_assoc]; exact append, ?_, ?_⟩
      · rw [all_append, allWords, all_cons, isNext]
        rfl
      · omega
    · simp only [if_neg isNext]
      refine ⟨append, allWords, ?_⟩
      rw [← lengths]
      cases words with
      | nil =>
        cases append
        exact absurd isFirst isNext
      | cons => simp only [length_cons]; omega

end Placement

section Source

variable (placement : Placement) (stopOnError : Bool)

/-- The loop of `decode` that writes 8-bit characters. -/
def decodeSource8 (destination source : List Byte) (sawError : Bool) : Decoding Byte :=
  match source with
  | [] => ⟨destination, [], [], sawError, false⟩
  | first :: rest =>
    if _ : isASCII first = true then
      decodeSource8 (destination ++ (placement.copyASCII (first :: rest)).1)
        (placement.copyASCII (first :: rest)).2 sawError
    else
      let count := nonASCIISequenceLength first
      if count ≠ 0 ∧ count > (first :: rest).length then
        ⟨destination, first :: rest, [], sawError, false⟩
      else
        match if count = 0 then none
            else decodeNonASCIISequence ((first :: rest).take count) with
        | none =>
          if stopOnError then
            ⟨destination, [], first :: rest, true, false⟩
          else
            ⟨destination, [], first :: rest, true, true⟩
        | some character =>
          if character > 0xFF then
            ⟨destination, [], first :: rest, sawError, true⟩
          else
            decodeSource8 (destination ++ [UInt8.ofNat character])
              (rest.drop (count - 1)) sawError
termination_by source.length
decreasing_by
  · exact (placement.copyASCII_spec ‹_›).2.2
  · rw [length_drop, length_cons]
    omega

/-- The loop of `decode` that writes 16-bit characters. -/
def decodeSource16 (destination : WString) (source : List Byte)
    (sawError : Bool) : Decoding UChar :=
  match source with
  | [] => ⟨destination, [], [], sawError, false⟩
  | first :: rest =>
    if _ : isASCII first = true then
      decodeSource16 (destination ++ bytesUnits (placement.copyASCII (first :: rest)).1)
        (placement.copyASCII (first :: rest)).2 sawError
    else
      let count := nonASCIISequenceLength first
      if count ≠ 0 ∧ count > (first :: rest).length then
        ⟨destination, first :: rest, [], sawError, false⟩
      else
        match if count = 0 then none
            else decodeNonASCIISequence ((first :: rest).take count) with
        | none =>
          if stopOnError then
            ⟨destination, [], first :: rest, true, false⟩
          else
            decodeSource16 (destination ++ [replacementCharacter]) rest true
        | some character =>
          decodeSource16 (destination ++ characterUnits character)
            (rest.drop (count - 1)) sawError
termination_by source.length
decreasing_by
  · exact (placement.copyASCII_spec ‹_›).2.2
  · exact Nat.lt_succ_self _
  · rw [length_drop, length_cons]
    omega

end Source

/-! ## A call -/

section Lengths

variable {flush stopOnError : Bool} {placement : Placement}

theorem length_handlePartialSequence8_le {destination partialSequence source : List Byte}
    {sawError : Bool} {handled : Decoding Byte}
    (result : handlePartialSequence8 flush destination partialSequence source sawError =
      some handled) : handled.source.length ≤ source.length := by
  fun_induction handlePartialSequence8 flush destination partialSequence source sawError with
  | case1 | case3 | case4 | case5 | case7 | case8 =>
    cases result
    simp only [length_drop]
    omega
  | case2 _ _ _ _ _ ih => exact ih result
  | case6 | case10 => cases result
  | case9 =>
    rename_i ih
    have shorter := ih result
    rw [length_drop] at shorter
    omega

theorem length_handlePartialSequence16_le {destination : WString}
    {partialSequence source : List Byte} {sawError : Bool} {handled : Decoding UChar}
    (result : handlePartialSequence16 flush stopOnError destination partialSequence source
      sawError = some handled) : handled.source.length ≤ source.length := by
  fun_induction handlePartialSequence16 flush stopOnError destination partialSequence source
    sawError with
  | case1 | case3 | case5 | case7 | case9 =>
    cases result
    simp only [length_drop]
    omega
  | case2 | case4 | case6 =>
    rename_i ih
    exact ih result
  | case8 | case12 => cases result
  | case10 | case11 =>
    rename_i ih
    have shorter := ih result
    rw [length_drop] at shorter
    omega

theorem length_decodeSource8_le (destination source : List Byte) (sawError : Bool) :
    (decodeSource8 placement stopOnError destination source sawError).partialSequence.length +
        (decodeSource8 placement stopOnError destination source sawError).source.length ≤
      source.length := by
  fun_induction decodeSource8 placement stopOnError destination source sawError with
  | case1 | case3 | case4 | case5 | case6 =>
    simp only [length_nil, length_cons]
    omega
  | case2 =>
    rename_i isFirst ih
    exact ih.trans (placement.copyASCII_spec isFirst).2.2.le
  | case7 =>
    rename_i ih
    refine ih.trans ?_
    rw [length_drop, length_cons]
    omega

theorem length_decodeSource16_le (destination : WString) (source : List Byte) (sawError : Bool) :
    (decodeSource16 placement stopOnError destination source sawError).partialSequence.length +
        (decodeSource16 placement stopOnError destination source sawError).source.length ≤
      source.length := by
  fun_induction decodeSource16 placement stopOnError destination source sawError with
  | case1 | case3 | case4 =>
    simp only [length_nil, length_cons]
    omega
  | case2 _ _ _ _ isFirst =>
    rename_i ih
    exact ih.trans (placement.copyASCII_spec isFirst).2.2.le
  | case5 =>
    rename_i ih
    exact ih.trans (Nat.le_succ _)
  | case6 =>
    rename_i ih
    refine ih.trans ?_
    rw [length_drop, length_cons]
    omega

end Lengths

/-- A partial sequence that the source leaves is shorter than what the turn of the
loop began with. -/
theorem length_again_lt {partialSequence source left later : List Byte} (isLeft : left ≠ [])
    (shorter : left.length + later.length ≤ source.length) :
    (2 * (left.length + later.length) + if left = [] then 1 else 0) <
      2 * (partialSequence.length + source.length) +
        if partialSequence = [] then 1 else 0 := by
  rw [if_neg isLeft]
  cases partialSequence with
  | nil =>
    rw [if_pos rfl]
    omega
  | cons =>
    rw [length_cons]
    omega

section Decode

variable (placement : Placement) (flush stopOnError : Bool)

/-- The part of `decode` that writes 8-bit characters.  `handlePartialSequence`
without a partial sequence does nothing.  On the way to the 16-bit part
`destination` is the one from before the partial sequence. -/
def decode8 (destination partialSequence source : List Byte)
    (sawError : Bool) : Option (Decoding Byte) :=
  match _ : handlePartialSequence8 flush destination partialSequence source sawError with
  | none => none
  | some handled =>
    if handled.upConvert then
      some { handled with destination := destination }
    else if handled.partialSequence ≠ [] then
      some handled
    else
      let decoded := decodeSource8 placement stopOnError handled.destination handled.source
        handled.sawError
      if decoded.upConvert then
        some decoded
      else if _ : flush = true ∧ decoded.partialSequence ≠ [] then
        decode8 decoded.destination decoded.partialSequence decoded.source decoded.sawError
      else
        some decoded
termination_by
  2 * (partialSequence.length + source.length) + if partialSequence = [] then 1 else 0
decreasing_by
  rename_i result _ _ _ again
  exact length_again_lt again.2 ((length_decodeSource8_le _ _ _).trans
    (length_handlePartialSequence8_le result))

/-- The part of `decode` that writes 16-bit characters. -/
def decode16 (destination : WString) (partialSequence source : List Byte)
    (sawError : Bool) : Option (Decoding UChar) :=
  match _ : handlePartialSequence16 flush stopOnError destination partialSequence source
      sawError with
  | none => none
  | some handled =>
    if handled.partialSequence ≠ [] then
      some handled
    else
      let decoded := decodeSource16 placement stopOnError handled.destination handled.source
        handled.sawError
      if _ : flush = true ∧ decoded.partialSequence ≠ [] then
        decode16 decoded.destination decoded.partialSequence decoded.source decoded.sawError
      else
        some decoded
termination_by
  2 * (partialSequence.length + source.length) + if partialSequence = [] then 1 else 0
decreasing_by
  rename_i result _ again
  exact length_again_lt again.2 ((length_decodeSource16_le _ _ _).trans
    (length_handlePartialSequence16_le result))

end Decode

/-- The codec: `m_partialSequence`. -/
structure TextCodecUTF8 where
  partialSequence : List Byte := []
  deriving DecidableEq, Repr

/-- What a call returns, and the codec and `sawError` that it leaves. -/
structure Decoded where
  codec : TextCodecUTF8
  text : WString
  sawError : Bool
  deriving DecidableEq, Repr

namespace TextCodecUTF8

/-- `TextCodecUTF8::decode`; `none` when it writes behind the end of
`m_partialSequence`. -/
def decode (codec : TextCodecUTF8) (placement : Placement) (bytes : List Byte)
    (flush stopOnError sawError : Bool) : Option Decoded := do
  let decoded8 ← decode8 placement flush stopOnError [] codec.partialSequence bytes sawError
  if decoded8.upConvert then
    let decoded16 ← decode16 placement flush stopOnError (bytesUnits decoded8.destination)
      decoded8.partialSequence decoded8.source decoded8.sawError
    pure ⟨⟨decoded16.partialSequence⟩, decoded16.destination, decoded16.sawError⟩
  else
    pure ⟨⟨decoded8.partialSequence⟩, bytesUnits decoded8.destination, decoded8.sawError⟩

end TextCodecUTF8

end Text
end PalmWebKit
