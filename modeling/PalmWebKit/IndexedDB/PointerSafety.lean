import PalmWebKit.IndexedDB.PointerDecoder

/-!
# When the decoders of keys are safe

On bytes that fit, the machine does what the parsers of the format do; on others
it runs into a fault.
-/

namespace PalmWebKit
namespace IndexedDB
namespace PointerDecoder

variable
  {Value Result : Type}
  {size : SizeType}
  {limit bound : Nat}
  {decoder : PointerDecoder Value}
  {parser : Decoder Value}
  {fits other : List UInt8 → Prop}

/-- On bytes that fit the decoder follows a parser, on others there is a fault. -/
def Follows (bound : Nat) (decoder : PointerDecoder Value) (parser : Decoder Value)
    (fits : List UInt8 → Prop) : Prop :=
  ∀ bytes, bytes.length ≤ bound → (fits bytes ∧ decoder bytes = OptionT.mk (.ok (parser bytes))) ∨
      (¬fits bytes ∧ ∃ reason, decoder bytes = OptionT.mk (.error reason))

namespace Follows

theorem congr (follows : Follows bound decoder parser fits)
    (same : ∀ bytes, other bytes ↔ fits bytes) : Follows bound decoder parser other := by
  intro bytes within
  rw [same]
  exact follows bytes within

theorem pure (value : Value) : Follows bound (Pure.pure value) (Pure.pure value) fun _ => True :=
  fun _ _ => .inl ⟨trivial, rfl⟩

theorem failure : Follows bound (Alternative.failure : PointerDecoder Value) Alternative.failure
      fun _ => True :=
  fun _ _ => .inl ⟨trivial, rfl⟩

/-- The second decoder has to fit where the first one leaves it. -/
theorem bind {next : Value → PointerDecoder Result} {nextParser : Value → Decoder Result}
    {nextFits : Value → List UInt8 → Prop} (follows : Follows bound decoder parser fits)
    (isLocal : parser.Local)
    (nextFollows : ∀ value, Follows bound (next value) (nextParser value) (nextFits value)) :
    Follows bound (decoder >>= next) (parser >>= nextParser) fun bytes =>
      fits bytes ∧ ∀ value rest, parser bytes = some (value, rest) → nextFits value rest := by
  intro bytes within
  rw [Parser.bind_apply]
  change _ ∧ OptionT.bind (decoder bytes) (fun result => next result.1 result.2) = _ ∨
    _ ∧ ∃ reason, OptionT.bind (decoder bytes) (fun result => next result.1 result.2) = _
  dsimp only
  rcases follows bytes within with ⟨isFit, runs⟩ | ⟨notFit, reason, fails⟩
  · rw [runs]
    cases taken : parser bytes with
    | none => exact .inl ⟨⟨isFit, fun _ _ same => nomatch same⟩, rfl⟩
    | some result =>
      obtain ⟨value, rest⟩ := result
      obtain ⟨text, split, -⟩ := isLocal _ _ _ taken
      have shorter : rest.length ≤ bound := by
        rw [split, List.length_append] at within
        omega
      rcases nextFollows value rest shorter with ⟨isNext, runsNext⟩ | ⟨notNext, failure⟩
      · refine .inl ⟨⟨isFit, ?_⟩, runsNext⟩
        intro other otherRest same
        cases same
        exact isNext
      · exact .inr ⟨fun both => notNext (both.2 value rest rfl), failure⟩
  · rw [fails]
    exact .inr ⟨fun both => notFit both.1, reason, rfl⟩

/-- The last step makes a value and reads nothing. -/
theorem bind_pure (make : Value → Result) (follows : Follows bound decoder parser fits)
    (isLocal : parser.Local) : Follows bound (decoder >>= fun value => Pure.pure (make value))
      (parser >>= fun value => Pure.pure (make value)) fits :=
  (follows.bind isLocal fun value => pure (make value)).congr fun _ =>
    ⟨fun isFit => ⟨isFit, fun _ _ _ => trivial⟩, And.left⟩

theorem times (follows : Follows bound decoder parser fits) (isLocal : parser.Local)
    (timesLocal : ∀ count, (parser.times count).Local) (count : Nat) :
    Follows bound (times decoder count) (parser.times count) (EachFits parser fits count) := by
  induction count with
  | zero => exact pure []
  | succ count ih =>
    exact follows.bind isLocal fun value =>
      ih.bind_pure (fun values => value :: values) (timesLocal count)

/-- Fitting is what the safety of a decoder comes down to. -/
theorem returnsInside_iff {bytes : List UInt8} (follows : Follows bound decoder parser fits)
    (isLocal : parser.Local) (within : bytes.length ≤ bound) :
    ReturnsInside decoder bytes ↔ fits bytes := by
  rcases follows bytes within with ⟨isFit, runs⟩ | ⟨notFit, reason, fails⟩
  · refine ⟨fun _ => isFit, fun _ => ⟨_, runs, fun value rest taken => ?_⟩⟩
    obtain ⟨text, rfl, -⟩ := isLocal _ _ _ taken
    refine ⟨text.length, ?_, List.drop_left.symm⟩
    rw [List.length_append]
    exact Nat.le_add_right _ _
  · refine ⟨?_, fun isFit => absurd isFit notFit⟩
    rintro ⟨result, runs, -⟩
    rw [fails] at runs
    cases runs

end Follows

/-! ## Integers -/

theorem decodeVarIntLoop_follows (foundInt : BitVec 64) {shift count : Nat}
    (isShift : shift + 7 * count = 70) :
    Follows bound (decodeVarIntLoop foundInt shift) (IndexedDB.decodeVarIntLoop foundInt shift)
      (EndsWithin count) := by
  intro bytes within
  induction bytes generalizing foundInt shift count with
  | nil => exact .inl ⟨.inl (Nat.zero_le _), rfl⟩
  | cons byte bytes ih =>
    rw [decodeVarIntLoop, decodeVarIntLoop_cons]
    cases count with
    | zero =>
      rw [if_pos (by omega)]
      refine .inr ⟨?_, .shift, rfl⟩
      rintro (tooShort | ⟨_, member, -⟩)
      · exact absurd tooShort (Nat.not_succ_le_zero _)
      · exact List.not_mem_nil member
    | succ count =>
      have step : EndsWithin (count + 1) (byte :: bytes) ↔
          byte &&& 0x80 = 0 ∨ EndsWithin count bytes := by
        rw [EndsWithin, EndsWithin, List.take_succ_cons, List.exists_mem_cons_iff,
          List.length_cons, Nat.add_le_add_iff_right]
        exact or_left_comm
      rw [if_neg (by omega)]
      by_cases isLast : byte &&& 0x80 = 0
      · rw [if_pos isLast, if_pos isLast]
        exact .inl ⟨step.2 (.inl isLast), rfl⟩
      · have nextShift : shift + 7 + 7 * count = 70 := by omega
        rw [if_neg isLast, if_neg isLast, step, or_iff_right isLast]
        exact ih _ nextShift (Nat.le_of_succ_le within)

theorem decodeVarInt_follows : Follows bound decodeVarInt IndexedDB.decodeVarInt (EndsWithin 10) :=
  decodeVarIntLoop_follows 0 rfl

/-! ## Byte counts -/

/-- The bytes are an object in memory, behind the first address. -/
structure IsObject (size : SizeType) (limit bound : Nat) : Prop where
  address : bound ≤ limit
  range : limit ≤ size.max
  object : bound ≤ size.largestObject

theorem SizeType.max_eq (size : SizeType) : size.max + 1 = 2 * (size.largestObject + 1) := by
  cases size <;> rfl

theorem advance_follows (isObject : IsObject size limit bound) (count : Int) :
    Follows bound (advance size limit count)
      (if count < 0 then Alternative.failure else Parser.exactly count.toNat)
      (CountFits size limit count) := by
  intro bytes within
  have inMemory := isObject.address
  have inRange := isObject.range
  have isSmall := isObject.object
  have width := SizeType.max_eq size
  simp only [advance, CountFits]
  generalize isAddress : limit - bytes.length = p
  obtain ⟨turn, isTurn⟩ : ∃ turn, turn = (size.max : Int) + 1 := ⟨_, rfl⟩
  rw [← isTurn]
  have isTurn : turn = 2 * (size.largestObject + 1) := by omega
  generalize size.largestObject = half at *
  have lower : 0 ≤ (p + count) % turn := Int.emod_nonneg _ (by omega)
  by_cases isRange : count < -(half + 1) ∨ half < count
  · rw [if_pos isRange]
    refine .inr ⟨?_, .overflow, rfl⟩
    rintro ⟨above, below, -⟩
    omega
  · rw [if_neg isRange]
    by_cases reaches : (p : Int) ≤ (p + count) % turn
    · refine .inl ⟨⟨by omega, by omega, reaches⟩, ?_⟩
      by_cases isNegative : count < 0
      · have inFront : p + count < 0 := by
          by_contra behind
          rw [Int.emod_eq_of_lt (by omega) (by omega)] at reaches
          omega
        have around : (p + count) % turn = p + count + turn := by
          rw [← Int.add_emod_right]
          exact Int.emod_eq_of_lt (by omega) (by omega)
        rw [if_pos isNegative, if_pos (by omega)]
        rfl
      · have below : p + count < turn := by
          by_contra above
          rw [← Int.sub_emod_right, Int.emod_eq_of_lt (by omega) (by omega)] at reaches
          omega
        have straight : (p + count) % turn = p + count := Int.emod_eq_of_lt (by omega) below
        rw [if_neg isNegative, straight, Parser.exactly]
        by_cases isShort : bytes.length < count.toNat
        · rw [if_pos (by omega), if_pos isShort]
        · have distance : (p + count : Int).toNat - p = count.toNat := by omega
          rw [if_neg (by omega), if_neg (by omega), distance, if_neg isShort, if_neg isShort]
    · refine .inr ⟨fun fits => reaches fits.2.2, .reversed, ?_⟩
      rw [if_neg (by omega), if_pos (by omega)]

theorem stringLength_follows (isObject : IsObject size limit bound) :
    Follows bound (decodeVarInt >>= fun length => advance size limit (length * 2))
      (IndexedDB.decodeVarInt >>= stringBytes) (StringFits size limit) := by
  refine decodeVarInt_follows.bind local_decodeVarInt fun length => ?_
  have follows := advance_follows isObject (length * 2)
  rw [stringBytes]
  by_cases isNegative : length < 0
  · rwa [if_pos (by omega)] at follows ⊢
  · rwa [if_neg (by omega)] at follows ⊢

theorem local_stringLength : (IndexedDB.decodeVarInt >>= stringBytes).Local :=
  local_decodeVarInt.bind local_stringBytes

theorem decodeStringWithLength_follows (isObject : IsObject size limit bound) :
    Follows bound (decodeStringWithLength size limit) IndexedDB.decodeStringWithLength
      (StringFits size limit) := by
  rw [decodeStringWithLength, IndexedDB.decodeStringWithLength, ← bind_assoc, ← bind_assoc]
  exact (stringLength_follows isObject).bind_pure decodeString local_stringLength

theorem decodeDouble_follows (isObject : IsObject size limit bound) :
    Follows bound (decodeDouble size limit) IndexedDB.decodeDouble (CountFits size limit 8) :=
  (advance_follows isObject 8).bind_pure _ (Parser.Local.exactly 8)

/-! ## Keys -/

/-- An array: its length, and each of its elements. -/
theorem array_follows {make : List Value → Result} (follows : Follows bound decoder parser fits)
    (isLocal : parser.Local) : Follows bound
      (decodeVarInt >>= fun length => if length < 0 then Alternative.failure
        else times decoder length.toNat >>= fun values => Pure.pure (make values))
      (IndexedDB.decodeVarInt >>= fun length => if length < 0 then Alternative.failure
        else parser.times length.toNat >>= fun values => Pure.pure (make values))
      fun bytes => EndsWithin 10 bytes ∧ ∀ length rest,
        IndexedDB.decodeVarInt bytes = some (length, rest) →
          EachFits parser fits length.toNat rest := by
  refine decodeVarInt_follows.bind local_decodeVarInt fun length => ?_
  split
  next isNegative =>
    refine Follows.failure.congr fun bytes => ?_
    rw [Int.toNat_of_nonpos (Int.le_of_lt isNegative), EachFits]
  next =>
    exact (follows.times isLocal (Parser.Local.times isLocal) length.toNat).bind_pure make
      (Parser.Local.times isLocal length.toNat)

/-- Where a payload of one kind fits. -/
theorem payloadFits_iff (type : UInt8) (element : Decoder Value) (bytes : List UInt8) :
    PayloadFits size limit type element fits bytes ↔
      if type = idbKeyArrayTypeByte then EndsWithin 10 bytes ∧ ∀ length rest,
        IndexedDB.decodeVarInt bytes = some (length, rest) → EachFits element fits length.toNat rest
      else if type = idbKeyStringTypeByte then StringFits size limit bytes
      else if type = idbKeyDateTypeByte ∨ type = idbKeyNumberTypeByte then
        CountFits size limit 8 bytes
      else True := by
  split_ifs with isArray isString isDouble
  · subst isArray
    exact ⟨fun fits => fits.array rfl, fun each =>
      ⟨fun _ => each, fun same => absurd same (by decide), fun same => absurd same (by decide)⟩⟩
  · subst isString
    exact ⟨fun fits => fits.string rfl, fun string =>
      ⟨fun same => absurd same (by decide), fun _ => string,
        fun same => absurd same (by decide)⟩⟩
  · exact ⟨fun fits => fits.double isDouble, fun double =>
      ⟨fun same => absurd same isArray, fun same => absurd same isString, fun _ => double⟩⟩
  · exact ⟨fun _ => trivial, fun _ => ⟨fun same => absurd same isArray,
      fun same => absurd same isString, fun same => absurd same isDouble⟩⟩

theorem decodeIDBKeyPayload_follows {element : PointerDecoder IDBKey}
    {elementParser : Decoder IDBKey} (isObject : IsObject size limit bound) (type : UInt8)
    (follows : Follows bound element elementParser fits) (isLocal : elementParser.Local) :
    Follows bound (decodeIDBKeyPayload size limit type element)
      (IndexedDB.decodeIDBKeyPayload type elementParser)
      (PayloadFits size limit type elementParser fits) := by
  refine Follows.congr ?_ (payloadFits_iff type elementParser)
  rw [decodeIDBKeyPayload, IndexedDB.decodeIDBKeyPayload]
  by_cases isNull : type = idbKeyNullTypeByte
  · subst isNull
    exact Follows.pure IDBKey.invalid
  · rw [if_neg isNull, if_neg isNull]
    by_cases isArray : type = idbKeyArrayTypeByte
    · simp only [if_pos isArray]
      exact array_follows follows isLocal
    simp only [if_neg isArray]
    by_cases isString : type = idbKeyStringTypeByte
    · simp only [if_pos isString]
      exact (decodeStringWithLength_follows isObject).bind_pure IDBKey.string
        local_decodeStringWithLength
    simp only [if_neg isString]
    by_cases isDate : type = idbKeyDateTypeByte
    · simp only [if_pos isDate, if_pos (Or.inl isDate)]
      exact (decodeDouble_follows isObject).bind_pure IDBKey.date local_decodeDouble
    by_cases isNumber : type = idbKeyNumberTypeByte
    · simp only [if_neg isDate, if_pos isNumber, if_pos (Or.inr isNumber)]
      exact (decodeDouble_follows isObject).bind_pure IDBKey.number local_decodeDouble
    · simp only [if_neg isDate, if_neg isNumber, if_neg (not_or.2 ⟨isDate, isNumber⟩)]
      exact Follows.failure

theorem skipIDBKeyPayload_follows {element : PointerDecoder Unit} {elementParser : Decoder Unit}
    (isObject : IsObject size limit bound) (type : UInt8)
    (follows : Follows bound element elementParser fits) (isLocal : elementParser.Local) :
    Follows bound (skipIDBKeyPayload size limit type element)
      (IndexedDB.skipIDBKeyPayload type elementParser)
      (PayloadFits size limit type elementParser fits) := by
  refine Follows.congr ?_ (payloadFits_iff type elementParser)
  rw [skipIDBKeyPayload, IndexedDB.skipIDBKeyPayload]
  by_cases isArray : type = idbKeyArrayTypeByte
  · simp only [if_pos isArray]
    exact array_follows follows isLocal
  simp only [if_neg isArray]
  by_cases isString : type = idbKeyStringTypeByte
  · simp only [if_pos isString, ← bind_assoc]
    exact (stringLength_follows isObject).bind_pure (fun _ => ()) local_stringLength
  simp only [if_neg isString]
  by_cases isDouble : type = idbKeyDateTypeByte ∨ type = idbKeyNumberTypeByte
  · simp only [if_pos isDouble]
    exact (advance_follows isObject 8).bind_pure (fun _ => ()) (Parser.Local.exactly 8)
  · simp only [if_neg isDouble]
    exact Follows.pure ()

/-- The nesting: each level has one byte less. -/
theorem nestedWithin_follows {payload : UInt8 → PointerDecoder Value → PointerDecoder Value}
    {payloadParser : UInt8 → Decoder Value → Decoder Value} {depth : Nat}
    (isObject : IsObject size limit depth) (uses : ∀ type, Parser.Uses (payloadParser type))
    (follows : ∀ (bound : Nat) (type : UInt8) (element : PointerDecoder Value)
      (elementParser : Decoder Value) (fits : List UInt8 → Prop), IsObject size limit bound →
        Follows bound element elementParser fits → elementParser.Local →
          Follows bound (payload type element) (payloadParser type elementParser)
            (PayloadFits size limit type elementParser fits)) :
    Follows depth (nestedWithin payload (depth + 1)) (Parser.nestedWithin payloadParser depth)
      (KeyFits size limit payloadParser depth) := by
  induction depth with
  | zero =>
    intro bytes within
    rw [List.length_eq_zero_iff.1 (Nat.le_zero.1 within)]
    exact .inl ⟨trivial, rfl⟩
  | succ depth ih =>
    intro bytes within
    have inner : IsObject size limit depth :=
      ⟨Nat.le_of_succ_le isObject.address, isObject.range, Nat.le_of_succ_le isObject.object⟩
    cases bytes with
    | nil => exact .inl ⟨trivial, rfl⟩
    | cons type bytes =>
      exact follows depth type _ _ _ inner (ih inner)
        (Parser.local_nestedWithin uses depth) bytes (Nat.le_of_succ_le_succ within)

/-! ## Safety -/

theorem extract_returnsInside_iff {bytes : List UInt8} :
    ReturnsInside (extractEncodedIDBKey size limit) bytes ↔
      ReturnsInside (nested (skipIDBKeyPayload size limit)) bytes := by
  have runs : extractEncodedIDBKey size limit bytes =
      OptionT.bind (nested (skipIDBKeyPayload size limit) bytes) fun result =>
        OptionT.mk (.ok (some (bytes.take (bytes.length - result.2.length), result.2))) := rfl
  rw [ReturnsInside, ReturnsInside, runs]
  rcases nested (skipIDBKeyPayload size limit) bytes with reason | _ | ⟨value, rest⟩
  · constructor
    all_goals
      rintro ⟨result, same, -⟩
      cases same
  · exact ⟨fun _ => ⟨none, rfl, nofun⟩, fun _ => ⟨none, rfl, nofun⟩⟩
  · constructor
    all_goals
      rintro ⟨result, same, inside⟩
      cases same
      exact ⟨_, rfl, fun _ later same => by cases same; exact inside _ rest rfl⟩

/-- Each decoder returns null or a pointer up to the limit, without a fault, exactly on
the bytes that fit. -/
theorem decoders_safe_iff {bytes : List UInt8} (isObject : IsObject size limit bytes.length) :
    (ReturnsInside decodeVarInt bytes ↔ EndsWithin 10 bytes) ∧
      (ReturnsInside (decodeStringWithLength size limit) bytes ↔ StringFits size limit bytes) ∧
      (ReturnsInside (decodeIDBKey size limit) bytes ↔
        KeyFits size limit IndexedDB.decodeIDBKeyPayload bytes.length bytes) ∧
      (ReturnsInside (extractEncodedIDBKey size limit) bytes ↔
        KeyFits size limit IndexedDB.skipIDBKeyPayload bytes.length bytes) := by
  have within := Nat.le_refl bytes.length
  refine ⟨decodeVarInt_follows.returnsInside_iff local_decodeVarInt within,
    (decodeStringWithLength_follows isObject).returnsInside_iff local_decodeStringWithLength
      within, ?_, extract_returnsInside_iff.trans ?_⟩
  · exact (nestedWithin_follows isObject uses_decodeIDBKeyPayload
      fun _ type _ _ _ inner => decodeIDBKeyPayload_follows inner type).returnsInside_iff
        (Parser.local_nestedWithin uses_decodeIDBKeyPayload _) within
  · exact (nestedWithin_follows isObject uses_skipIDBKeyPayload
      fun _ type _ _ _ inner => skipIDBKeyPayload_follows inner type).returnsInside_iff
        (Parser.local_nestedWithin uses_skipIDBKeyPayload _) within

/-- A string of one code unit, and an integer without an end. -/
theorem decoders_safe_iff_string : ReturnsInside (decodeStringWithLength .bits32 4096) [1, 0, 65] ∧
      ¬ReturnsInside decodeVarInt (List.replicate 11 0x80) := by
  have isString : IsObject .bits32 4096 [(1 : UInt8), 0, 65].length :=
    ⟨by decide, by decide, by decide⟩
  have isInteger : IsObject .bits32 4096 (List.replicate 11 (0x80 : UInt8)).length :=
    ⟨by decide, by decide, by decide⟩
  refine ⟨(decoders_safe_iff isString).2.1.2 ⟨.inl (by decide), fun length rest taken => ?_⟩,
    fun returns => ?_⟩
  · have read : IndexedDB.decodeVarInt [1, 0, 65] = some (1, [0, 65]) := by decide
    cases read.symm.trans taken
    exact ⟨by decide, by decide, by decide⟩
  · have ends := (decoders_safe_iff isInteger).1.1 returns
    revert ends
    unfold EndsWithin
    decide

/-- Ten bytes that go on shift the eleventh by 70, and a string of -1 code units ends in
front of its start. -/
theorem not_decoders_safe : ¬ReturnsInside decodeVarInt (List.replicate 11 0x80) ∧
      ¬ReturnsInside (decodeStringWithLength .bits64 4096) (List.replicate 9 0xFF ++ [1]) := by
  constructor
  · rintro ⟨result, runs, -⟩
    have fails : decodeVarInt (List.replicate 11 0x80) = OptionT.mk (.error .shift) := by rfl
    cases fails.symm.trans runs
  · rintro ⟨result, runs, -⟩
    have fails : decodeStringWithLength .bits64 4096 (List.replicate 9 0xFF ++ [1]) =
        OptionT.mk (.error .reversed) := by rfl
    cases fails.symm.trans runs

end PointerDecoder
end IndexedDB
end PalmWebKit
