import PalmWebKit.CoreIPC.ArgumentCoding
import PalmWebKit.Logic.Runs

/-!
# Safety of the decoder

Whatever the buffer holds and whatever is read, the decoder touches only its
buffer and stays invalid after a failure; its sums fit a word of the machine
exactly when the lengths that it reads do.
-/

namespace PalmWebKit
namespace CoreIPC
namespace ArgumentDecoder

open List

/-- The position is inside the buffer or just past its end. -/
structure Placed (decoder : ArgumentDecoder) : Prop where
  bufferEnd_eq : decoder.bufferEnd = decoder.buffer + decoder.contents.length
  buffer_le : decoder.buffer ≤ decoder.bufferPos
  bufferPos_le : decoder.bufferPos ≤ decoder.bufferEnd + 1

/-- An alignment behind the buffer stays inside the address space. -/
def Room (width exponent : Nat) (decoder : ArgumentDecoder) : Prop :=
  decoder.bufferEnd + 2 ^ exponent < 2 ^ width

/-- Every range that was touched lies in the buffer. -/
def Within (decoder : ArgumentDecoder) : Prop :=
  ∀ range ∈ decoder.touched, decoder.buffer ≤ range.1 ∧ range.1 + range.2 ≤ decoder.bufferEnd

/-- No sum was too large for a word. -/
def NoWrap (width : Nat) (decoder : ArgumentDecoder) : Prop :=
  ∀ sum ∈ decoder.computed, sum < 2 ^ width

/-- The next multiple of the alignment. -/
def alignedPosition (address exponent : Nat) : Nat :=
  (address + (2 ^ exponent - 1)) / 2 ^ exponent * 2 ^ exponent

theorem roundUpToAlignment_eq {width address exponent : Nat}
    (fits : address + (2 ^ exponent - 1) < 2 ^ width) :
    roundUpToAlignment width address exponent = alignedPosition address exponent := by
  rw [roundUpToAlignment, Nat.mod_eq_of_lt fits, Nat.shiftLeft_eq, Nat.shiftRight_eq_div_pow,
    alignedPosition]

theorem le_alignedPosition (address exponent : Nat) :
    address ≤ alignedPosition address exponent := by
  have positive : 0 < 2 ^ exponent := Nat.two_pow_pos exponent
  have split := Nat.div_add_mod (address + (2 ^ exponent - 1)) (2 ^ exponent)
  rw [alignedPosition, Nat.mul_comm]
  omega

theorem alignedPosition_le (address exponent : Nat) :
    alignedPosition address exponent ≤ address + (2 ^ exponent - 1) := Nat.div_mul_le_self _ _

/-! ## One copy -/

/-- What reading some bytes does: the aligned bytes are inside the buffer and
taken, or the position goes past the end. -/
inductive Outcome (size exponent : Nat) (decoder : ArgumentDecoder) :
    Option (List UInt8) → ArgumentDecoder → Prop
  | taken
      (enough : alignedPosition decoder.bufferPos exponent + size ≤ decoder.bufferEnd) :
      Outcome size exponent decoder
        (some ((decoder.contents.drop
          (alignedPosition decoder.bufferPos exponent - decoder.buffer)).take size))
        { decoder with
          bufferPos := alignedPosition decoder.bufferPos exponent + size
          touched := decoder.touched ++ [(alignedPosition decoder.bufferPos exponent, size)]
          computed := decoder.computed ++ [decoder.bufferPos + (2 ^ exponent - 1)] ++
            [alignedPosition decoder.bufferPos exponent + size] }
  | failed
      (short : decoder.bufferEnd < alignedPosition decoder.bufferPos exponent + size) :
      Outcome size exponent decoder none
        { decoder with
          bufferPos := decoder.bufferEnd + 1
          computed := decoder.computed ++ [decoder.bufferPos + (2 ^ exponent - 1)] ++
            [decoder.bufferEnd + 1] }

variable {decoder : ArgumentDecoder}

theorem bufferPos_add_lt {width exponent : Nat} (placed : Placed decoder)
    (room : Room width exponent decoder) : decoder.bufferPos + (2 ^ exponent - 1) < 2 ^ width := by
  have := placed.bufferPos_le
  have := Nat.two_pow_pos exponent
  unfold Room at room
  omega

theorem decodeFixedLengthData_outcome {width size exponent : Nat} {decoder : ArgumentDecoder}
    (placed : Placed decoder) (room : Room width exponent decoder) :
    Outcome size exponent decoder (decoder.decodeFixedLengthData width size exponent).1
      (decoder.decodeFixedLengthData width size exponent).2 := by
  have aligned := roundUpToAlignment_eq (bufferPos_add_lt placed room)
  unfold Room at room
  have endSmall : decoder.bufferEnd + 1 < 2 ^ width := by
    have := Nat.two_pow_pos exponent
    omega
  rw [decodeFixedLengthData, alignBufferPosition, aligned]
  by_cases enough : alignedBufferIsLargeEnoughToContain
      (alignedPosition decoder.bufferPos exponent) decoder.bufferEnd size = true
  · rw [if_pos enough]
    rw [alignedBufferIsLargeEnoughToContain, Bool.and_eq_true, decide_eq_true_eq,
      decide_eq_true_eq] at enough
    have posSmall : alignedPosition decoder.bufferPos exponent + size < 2 ^ width := by omega
    simp only [take, Nat.mod_eq_of_lt posSmall]
    exact .taken (by omega)
  · rw [if_neg enough]
    rw [alignedBufferIsLargeEnoughToContain, Bool.and_eq_true, decide_eq_true_eq,
      decide_eq_true_eq] at enough
    simp only [markInvalid, Nat.mod_eq_of_lt endSmall]
    exact .failed (by omega)

/-- The buffer is the same after a read. -/
structure SameBuffer (before after : ArgumentDecoder) : Prop where
  buffer_eq : after.buffer = before.buffer
  bufferEnd_eq : after.bufferEnd = before.bufferEnd
  contents_eq : after.contents = before.contents

theorem SameBuffer.trans {first second third : ArgumentDecoder} (early : SameBuffer first second)
    (late : SameBuffer second third) : SameBuffer first third where
  buffer_eq := late.buffer_eq.trans early.buffer_eq
  bufferEnd_eq := late.bufferEnd_eq.trans early.bufferEnd_eq
  contents_eq := late.contents_eq.trans early.contents_eq

variable {before after : ArgumentDecoder}

theorem SameBuffer.room {width exponent : Nat} (same : SameBuffer before after)
    (room : Room width exponent before) : Room width exponent after := by
  unfold Room
  rw [same.bufferEnd_eq]
  exact room

/-- A read that keeps the decoder in its buffer; it fails when it is invalid
before, and leaves it invalid when it fails. -/
structure Kept {Result : Type} (before : ArgumentDecoder) (result : Option Result)
    (after : ArgumentDecoder) : Prop where
  same : SameBuffer before after
  placed : Placed after
  within : Within before → Within after
  invalid_of_none : result = none → after.isInvalid = true
  none_of_invalid : before.isInvalid = true → result = none

variable {result : Option (List UInt8)}

theorem Outcome.kept {size exponent : Nat} (outcome : Outcome size exponent before result after)
    (placed : Placed before) : Kept before result after := by
  have forward := le_alignedPosition before.bufferPos exponent
  have start := placed.buffer_le
  cases outcome with
  | taken enough =>
    refine ⟨⟨rfl, rfl, rfl⟩, ⟨placed.bufferEnd_eq, ?_, ?_⟩, ?_, ?_, ?_⟩
    · dsimp only
      omega
    · dsimp only
      omega
    · intro within range member
      rcases mem_append.1 member with earlier | now
      · exact within range earlier
      · rw [mem_singleton.1 now]
        exact ⟨Nat.le_trans start forward, enough⟩
    · exact fun isNone => absurd isNone (Option.some_ne_none _)
    · intro invalid
      have past : before.bufferEnd < before.bufferPos := of_decide_eq_true invalid
      omega
  | failed short =>
    refine ⟨⟨rfl, rfl, rfl⟩, ⟨placed.bufferEnd_eq, ?_, Nat.le_refl _⟩, fun within => within,
      fun _ => ?_, fun _ => rfl⟩
    · have := placed.bufferPos_le
      dsimp only
      omega
    · exact decide_eq_true (Nat.lt_succ_self _)

/-- The sums of one copy are those before it and others that fit. -/
theorem Outcome.noWrap_iff {width size exponent : Nat}
    (outcome : Outcome size exponent before result after) (placed : Placed before)
    (room : Room width exponent before) : NoWrap width after ↔ NoWrap width before := by
  have alignFits := bufferPos_add_lt placed room
  have endFits : before.bufferEnd + 1 < 2 ^ width := by
    have := Nat.two_pow_pos exponent
    unfold Room at room
    omega
  cases outcome with
  | taken enough =>
    simp only [NoWrap, forall_mem_append, forall_mem_singleton]
    constructor
    · exact fun all => all.1.1
    · exact fun all => ⟨⟨all, alignFits⟩, by omega⟩
  | failed short =>
    simp only [NoWrap, forall_mem_append, forall_mem_singleton]
    constructor
    · exact fun all => all.1.1
    · exact fun all => ⟨⟨all, alignFits⟩, endFits⟩

/-! ## One read -/

/-- The length of a byte array, if it is read, is a word of the machine. -/
def LengthFits (width : Nat) (decoder : ArgumentDecoder) : ValueType → Prop
  | .variableLengthByteArray =>
    ∀ size ∈ (decoder.decodePrimitive width .uint64).1, size.toNat < 2 ^ width
  | _ => True

theorem Kept.map {First Second : Type} {result : Option First} (kept : Kept before result after)
    (function : First → Second) : Kept before (result.map function) after where
  same := kept.same
  placed := kept.placed
  within := kept.within
  invalid_of_none := fun isNone => kept.invalid_of_none (Option.map_eq_none_iff.1 isNone)
  none_of_invalid := fun invalid => Option.map_eq_none_iff.2 (kept.none_of_invalid invalid)

theorem Room.mono {width small large : Nat} (room : Room width large decoder)
    (le : small ≤ large) : Room width small decoder := by
  have := Nat.pow_le_pow_right (Nat.zero_lt_two) le
  unfold Room at *
  omega

variable {width : Nat}

theorem decodePrimitive_kept {type : Primitive} (placed : Placed decoder)
    (room : Room width type.exponent decoder) :
    Kept decoder (decoder.decodePrimitive width type).1 (decoder.decodePrimitive width type).2 ∧
      (NoWrap width (decoder.decodePrimitive width type).2 ↔ NoWrap width decoder) := by
  have outcome := @decodeFixedLengthData_outcome width type.size type.exponent decoder placed room
  exact ⟨(outcome.kept placed).map _, outcome.noWrap_iff placed room⟩

theorem decodeVariableLengthByteArray_kept (placed : Placed decoder)
    (room : Room width Primitive.uint64.exponent decoder) :
    Kept decoder (decoder.decodeVariableLengthByteArray width).1
        (decoder.decodeVariableLengthByteArray width).2 ∧
      (NoWrap width (decoder.decodeVariableLengthByteArray width).2 ↔
        NoWrap width decoder ∧ LengthFits width decoder .variableLengthByteArray) := by
  obtain ⟨kept, noWrap⟩ := decodePrimitive_kept placed room
  unfold decodeVariableLengthByteArray LengthFits
  generalize decoder.decodePrimitive width .uint64 = decoded at kept noWrap
  obtain ⟨result, counted⟩ := decoded
  cases result with
  | none =>
    refine ⟨⟨kept.same, kept.placed, kept.within, fun _ => kept.invalid_of_none rfl,
      fun _ => rfl⟩, ?_⟩
    simp [noWrap]
  | some size =>
    have convertedPlaced : Placed { counted with computed := counted.computed ++ [size.toNat] } :=
      ⟨kept.placed.bufferEnd_eq, kept.placed.buffer_le, kept.placed.bufferPos_le⟩
    have convertedRoom :
        Room width 0 { counted with computed := counted.computed ++ [size.toNat] } :=
      (kept.same.room room).mono (Nat.zero_le _)
    have outcome := @decodeFixedLengthData_outcome width (size.toNat % 2 ^ width) 0
      { counted with computed := counted.computed ++ [size.toNat] } convertedPlaced
      convertedRoom
    have later := outcome.kept convertedPlaced
    refine ⟨⟨⟨later.same.buffer_eq.trans kept.same.buffer_eq,
      later.same.bufferEnd_eq.trans kept.same.bufferEnd_eq,
      later.same.contents_eq.trans kept.same.contents_eq⟩, later.placed,
      fun within => later.within (kept.within within), later.invalid_of_none, ?_⟩, ?_⟩
    · intro invalid
      exact absurd (kept.none_of_invalid invalid) (Option.some_ne_none size)
    · rw [outcome.noWrap_iff convertedPlaced convertedRoom]
      simp only [NoWrap, forall_mem_append, forall_mem_singleton, Option.mem_def,
        Option.some.injEq, forall_eq']
      exact and_congr_left' noWrap

theorem read_kept {type : ValueType} (placed : Placed decoder)
    (room : Room width type.exponent decoder) :
    Kept decoder (decoder.read width type).1 (decoder.read width type).2 ∧
      (NoWrap width (decoder.read width type).2 ↔
        NoWrap width decoder ∧ LengthFits width decoder type) := by
  cases type with
  | primitive type =>
    obtain ⟨kept, noWrap⟩ := decodePrimitive_kept placed room
    exact ⟨kept.map _, noWrap.trans (and_iff_left trivial).symm⟩
  | fixedLengthData exponent size =>
    have outcome := @decodeFixedLengthData_outcome width size exponent decoder placed room
    exact ⟨(outcome.kept placed).map _,
      (outcome.noWrap_iff placed room).trans (and_iff_left trivial).symm⟩
  | variableLengthByteArray =>
    obtain ⟨kept, noWrap⟩ := decodeVariableLengthByteArray_kept placed room
    exact ⟨kept.map _, noWrap⟩

/-! ## Runs of reads -/

/-- The decoder after a read. -/
def next (width : Nat) (decoder : ArgumentDecoder) (type : ValueType) : ArgumentDecoder :=
  (decoder.read width type).2

/-- A failed read is followed by failed reads only. -/
def Sticky (results : List (Option Value)) : Prop :=
  results.Pairwise fun earlier later => earlier = none → later = none

variable {types : List ValueType}

/-- The reads of an invalid decoder fail. -/
theorem readAll_of_invalid (placed : Placed decoder)
    (room : ∀ type ∈ types, Room width type.exponent decoder) (invalid : decoder.isInvalid = true) :
    ∀ result ∈ (decoder.readAll width types).1, result = none := by
  induction types generalizing decoder with
  | nil => exact fun result member => absurd member not_mem_nil
  | cons type types ih =>
    obtain ⟨kept, _⟩ := read_kept placed (room type (.head _))
    have failed := kept.none_of_invalid invalid
    rw [readAll, forall_mem_cons]
    refine ⟨failed, ih kept.placed (fun later member =>
      kept.same.room (room later (.tail _ member)))
      (kept.invalid_of_none failed)⟩

theorem readAll_safe (placed : Placed decoder) (within : Within decoder)
    (room : ∀ type ∈ types, Room width type.exponent decoder) :
    Within (decoder.readAll width types).2 ∧ Sticky (decoder.readAll width types).1 ∧
      (NoWrap width (decoder.readAll width types).2 ↔ NoWrap width decoder ∧
          Runs.StepsMeet (next width) (LengthFits width) decoder types) := by
  induction types generalizing decoder with
  | nil => exact ⟨within, .nil, (and_iff_left trivial).symm⟩
  | cons type types ih =>
    obtain ⟨kept, noWrap⟩ := read_kept placed (room type (.head _))
    have laterRoom : ∀ later ∈ types, Room width later.exponent (decoder.read width type).2 :=
      fun later member => kept.same.room (room later (.tail _ member))
    obtain ⟨laterWithin, sticky, laterNoWrap⟩ := ih kept.placed (kept.within within) laterRoom
    refine ⟨laterWithin, ?_, ?_⟩
    · rw [readAll, Sticky, pairwise_cons]
      refine ⟨fun later member failed => ?_, sticky⟩
      exact readAll_of_invalid kept.placed laterRoom (kept.invalid_of_none failed) later member
    · rw [readAll, laterNoWrap, noWrap, and_assoc]
      rfl

/-! ## A new decoder -/

/-- The block of a new decoder, and the alignments behind it, lie in the address
space of the machine. -/
structure BlockFits (width allocatedBase size : Nat) (types : List ValueType) : Prop where
  block : allocatedBase + (size + 8) < 2 ^ width
  room : ∀ type ∈ types, allocatedBase + (size + 8) + 2 ^ type.exponent ≤ 2 ^ width

theorem create_placed {width allocatedBase : Nat} {bytes : List UInt8}
    (fits : BlockFits width allocatedBase bytes.length types) :
    Placed (create width allocatedBase bytes) ∧
      (∀ type ∈ types, Room width type.exponent (create width allocatedBase bytes)) ∧
      Within (create width allocatedBase bytes) ∧
      NoWrap width (create width allocatedBase bytes) ∧
      (create width allocatedBase bytes).buffer = alignedPosition allocatedBase 3 := by
  have block := fits.block
  have bufferEq : roundUpToAlignment width allocatedBase 3 = alignedPosition allocatedBase 3 :=
    roundUpToAlignment_eq (by omega)
  have upper := alignedPosition_le allocatedBase 3
  have endFits : alignedPosition allocatedBase 3 + bytes.length < 2 ^ width := by omega
  rw [create, bufferEq, Nat.mod_eq_of_lt endFits]
  refine ⟨⟨rfl, Nat.le_refl _, ?_⟩, fun type member => ?_, ?_, ?_, rfl⟩
  · dsimp only
    omega
  · have := fits.room type member
    rw [Room]
    dsimp only
    omega
  · exact fun range member => absurd member not_mem_nil
  · intro sum member
    simp only [mem_cons, not_mem_nil, or_false] at member
    rcases member with rfl | rfl | rfl
    · omega
    · omega
    · exact endFits

end ArgumentDecoder
end CoreIPC
end PalmWebKit
