import PalmWebKit.Loader.BufferReads

/-!
# Runs of calls on shared buffers

A buffer refines the string of the bytes appended to it as long as its sizes can
be counted and no buffer is copied while its last segment is used in part.
-/

namespace PalmWebKit
namespace Loader
namespace SharedBuffer

variable {shared : SharedBuffer} {content : List Byte}

/-! ## Copies -/

/-- The last segment is full, or there is none. -/
def CopyFits (shared : SharedBuffer) : Prop :=
  (shared.size - shared.buffer.length) % segmentSize = 0

theorem Denotes.copyFits_iff (denotes : Denotes shared content) : CopyFits shared ↔
      shared.buffer.length + segmentSize * shared.segments.length = content.length := by
  obtain ⟨rest, short, lengths⟩ := denotes.length_bytes
  have bufferLe := denotes.bufferLe
  rw [CopyFits, denotes.size]
  simp only [segmentSize] at lengths short ⊢
  omega

theorem Denotes.copy (denotes : Denotes shared content)
    (fits : CopyFits shared) : Denotes shared.copy content := by
  obtain ⟨rest, same, short⟩ := denotes.bytes
  have lengths := congrArg List.length same
  rw [List.length_append, length_segmentBytes, denotes.copyFits_iff.1 fits,
    List.length_append] at lengths
  have full : rest = [] := List.eq_nil_of_length_eq_zero (by omega)
  rw [SharedBuffer.copy, same, full, List.append_nil, denotes.size]
  exact denotes_of_no_segments denotes.small

theorem getSomeData_of_no_segments (noSegments : shared.segments = []) (position : Nat) :
    (shared.getSomeData position).2 =
      if position ≥ shared.size then 0 else shared.buffer.length % unsignedRange - position := by
  rw [getSomeData, noSegments]
  by_cases atEnd : position ≥ shared.size
  · rw [if_pos atEnd, if_pos atEnd]
  · rw [if_neg atEnd, if_neg atEnd]
    by_cases inBuffer : position < shared.buffer.length % unsignedRange
    · rw [if_pos inBuffer]
    · rw [if_neg inBuffer]
      exact (Nat.sub_eq_zero_of_le (not_lt.1 inBuffer)).symm

/-- Without segments, what the first call of `getSomeData` does not give is not
given at all. -/
theorem length_readFrom_of_no_segments {bytes : List Byte} {calls : Nat}
    (noSegments : shared.segments = []) (read : shared.readFrom calls 0 = some bytes) :
    bytes.length = if shared.size = 0 then 0 else shared.buffer.length % unsignedRange := by
  have lengths := getSomeData_of_no_segments noSegments
  cases calls with
  | zero => cases read
  | succ calls =>
    rw [readFrom] at read
    have first := lengths 0
    simp only [ge_iff_le, Nat.le_zero, Nat.sub_zero] at first
    rw [← first]
    rcases given : shared.getSomeData 0 with ⟨pointer, length⟩
    rw [given] at read first
    dsimp only at read first ⊢
    by_cases ended : length = 0
    · rw [if_pos ended] at read
      cases read
      exact ended.symm
    · rw [if_neg ended] at read
      by_cases beyond : pointer.length < length
      · rw [if_pos beyond] at read
        cases read
      · have small : length < unsignedRange := by
          rw [first]
          split_ifs
          · decide
          · exact Nat.mod_lt _ (by decide)
        rw [if_neg beyond, Nat.zero_add, Nat.mod_eq_of_lt small] at read
        obtain ⟨rest, later, rfl⟩ := Option.map_eq_some_iff.1 read
        have noMore : (shared.getSomeData length).2 = 0 := by
          have nonempty : shared.size ≠ 0 := fun isEmpty => ended (first.trans (if_pos isEmpty))
          rw [if_neg nonempty] at first
          rw [lengths, ← first, Nat.sub_self]
          exact ite_self 0
        cases calls with
        | zero => cases later
        | succ calls =>
          rw [readFrom] at later
          dsimp only at later
          rw [if_pos noMore] at later
          cases later
          rw [List.append_nil, List.length_take, Nat.min_eq_left (not_lt.1 beyond)]

/-- A copy has too many bytes or, when these cannot be counted, too few. -/
theorem Denotes.copyFits_of_reads (denotes : Denotes shared content)
    (reads : Reads shared.copy content) : CopyFits shared := by
  rw [denotes.copyFits_iff]
  obtain ⟨rest, short, lengths⟩ := denotes.length_bytes
  have read := length_readFrom_of_no_segments rfl reads.someData
  have small := denotes.small
  by_cases noSegments : shared.segments = []
  · rw [noSegments, denotes.buffer_eq_of_no_segments noSegments]
    rfl
  · have large := denotes.large noSegments
    rw [SharedBuffer.copy, List.length_append, length_segmentBytes] at read
    simp only [segmentSize, unsignedRange] at large read small short lengths ⊢
    split at read <;> omega

/-! ## Too many segments -/

theorem Holds.getSomeData_of_many_segments {position : Nat} (holds : Holds shared content)
    (many : segmentSize * shared.segments.length = unsignedRange)
    (inside : position < content.length) : 0 < (shared.getSomeData position).2 ∧
      (content.length < position + (shared.getSomeData position).2 ∨
        position + (shared.getSomeData position).2 < content.length) := by
  obtain ⟨rest, short, lengths⟩ := holds.length_bytes
  have small := holds.small
  rw [getSomeData, holds.bufferSize_eq, holds.size, if_neg (not_le.2 inside)]
  by_cases inBuffer : position < shared.buffer.length
  · rw [if_pos inBuffer]
    simp only [unsignedRange, segmentSize] at many lengths short small ⊢
    omega
  · rw [if_neg inBuffer]
    dsimp only
    have inSegments : segmentIndex (position - shared.buffer.length) <
        shared.segments.length := by
      rw [segmentIndex]
      simp only [segmentSize] at lengths short ⊢
      omega
    have division := Nat.div_add_mod (position - shared.buffer.length) segmentSize
    have offsetLt := Nat.mod_lt (position - shared.buffer.length)
      (show segmentSize > 0 by decide)
    rw [← segmentIndex] at division
    rw [List.getElem?_eq_getElem inSegments, Nat.mul_comm, many, Nat.mod_self, offsetInSegment_eq]
    by_cases isLast : segmentIndex (position - shared.buffer.length) = shared.segments.length - 1
    · rw [if_pos isLast, unsignedSub]
      simp only [unsignedRange, segmentSize] at many lengths short small division offsetLt ⊢
      omega
    · rw [if_neg isLast]
      simp only [unsignedRange, segmentSize] at many lengths short small division offsetLt ⊢
      omega

/-- With as many segments as there are values of `unsigned`, the bytes that are
read go on behind the end. -/
theorem length_readFrom_of_many_segments {bytes : List Byte} {calls position : Nat}
    (holds : Holds shared content) (many : segmentSize * shared.segments.length = unsignedRange)
    (inside : position < content.length) (read : shared.readFrom calls position = some bytes) :
    content.length < position + bytes.length := by
  induction calls generalizing position bytes with
  | zero => cases read
  | succ calls ih =>
    have goesOn := holds.getSomeData_of_many_segments many inside
    have small := holds.small
    rw [readFrom] at read
    rcases given : shared.getSomeData position with ⟨pointer, length⟩
    rw [given] at read goesOn
    dsimp only at read goesOn
    rw [if_neg goesOn.1.ne'] at read
    by_cases beyond : pointer.length < length
    · rw [if_pos beyond] at read
      cases read
    · rw [if_neg beyond] at read
      obtain ⟨rest, later, rfl⟩ := Option.map_eq_some_iff.1 read
      rw [List.length_append, List.length_take]
      rcases goesOn.2 with isBehind | isInside
      · omega
      · rw [Nat.mod_eq_of_lt (isInside.trans small)] at later
        have behind := ih isInside later
        omega

theorem size_of_append {data : Data} {fresh : Nat → Segment} {after : SharedBuffer}
    (some_data : data.1.length ≠ 0) (appended : shared.append data fresh = some after) :
    after.size = (shared.size + data.1.length) % unsignedRange := by
  rw [append, if_neg some_data] at appended
  dsimp only at appended
  split at appended
  · cases appended
    rfl
  · split at appended
    · cases appended
      rfl
    · split at appended
      · cases appended
      · cases appended
        rfl

/-- What does not fit cannot be read. -/
theorem Denotes.appendFits_of_reads {data : Data} {fresh : Nat → Segment} {after : SharedBuffer}
    (denotes : Denotes shared content) (appended : shared.append data fresh = some after)
    (reads : Reads after (content ++ data.1)) : AppendFits shared data := by
  by_cases nothing : data.1.length = 0
  · exact .inl nothing
  · right
    have size := reads.size
    rw [size_of_append nothing appended, List.length_append] at size
    have small : content.length + data.1.length < unsignedRange := size ▸ Nat.mod_lt _ (by decide)
    rw [denotes.size]
    refine ⟨small, ?_⟩
    obtain ⟨other, same, holds, few_iff⟩ := @Holds.append _ _ data fresh
      denotes.toHolds (fun isNil => nothing (by rw [isNil]; rfl)) small
    rw [appended] at same
    cases same
    rw [← few_iff]
    by_contra many
    obtain ⟨rest, short, lengths⟩ := holds.length_bytes
    have exactly_ : segmentSize * after.segments.length = unsignedRange := by
      rw [List.length_append] at lengths
      simp only [segmentSize, unsignedRange] at many short lengths small ⊢
      omega
    have behind := length_readFrom_of_many_segments holds exactly_
      (by rw [List.length_append]; omega) reads.someData
    omega

/-! ## Runs -/

/-- The calls on some buffers, which are named by the order of their creation. -/
inductive BufferCall
  | create
  | append (index : Nat) (data : Data) (fresh : Nat → Segment)
  | clear (index : Nat)
  | merge (index : Nat) (grown : Nat → Byte)
  | getSomeData (index position : Nat)
  | copy (index : Nat)

end SharedBuffer

/-- A buffer, unless memory was accessed that it does not have, and the bytes
appended to it since it was cleared. -/
structure ObservedBuffer where
  buffer : Option SharedBuffer
  appended : List Byte

namespace ObservedBuffer

open SharedBuffer

def created : ObservedBuffer := ⟨some empty, []⟩

def step (buffers : List ObservedBuffer) : BufferCall → List ObservedBuffer
  | .create => buffers ++ [created]
  | .append index data fresh => buffers.modify index fun observed =>
    ⟨observed.buffer.bind fun shared => shared.append data fresh, observed.appended ++ data.1⟩
  | .clear index => buffers.modify index fun observed =>
    ⟨observed.buffer.map SharedBuffer.clear, []⟩
  | .merge index grown => buffers.modify index fun observed =>
    ⟨observed.buffer.map fun shared => shared.merge grown, observed.appended⟩
  | .getSomeData _ _ => buffers
  | .copy index =>
    match buffers[index]? with
    | none => buffers
    | some observed => buffers ++ [⟨observed.buffer.map SharedBuffer.copy, observed.appended⟩]

/-- Every buffer reads as the bytes appended to it. -/
def Refines (buffers : List ObservedBuffer) : Prop :=
  ∀ observed ∈ buffers, ∃ shared, observed.buffer = some shared ∧ Reads shared observed.appended

/-- The sizes of what is appended can be counted, and what is copied has no
segment that is used in part. -/
def StepFits (buffers : List ObservedBuffer) : BufferCall → Prop
  | .append index data _ => ∀ observed shared, buffers[index]? = some observed →
      observed.buffer = some shared → AppendFits shared data
  | .copy index => ∀ observed shared, buffers[index]? = some observed →
      observed.buffer = some shared → CopyFits shared
  | _ => True

/-- Every buffer has the bytes appended to it. -/
def Invariant (buffers : List ObservedBuffer) : Prop :=
  ∀ observed ∈ buffers, ∃ shared, observed.buffer = some shared ∧ Denotes shared observed.appended

variable {buffers : List ObservedBuffer}

theorem forall_mem_modify {holds : ObservedBuffer → Prop} {change : ObservedBuffer → ObservedBuffer}
    {index : Nat} (others : ∀ observed ∈ buffers, holds observed)
    (changed : ∀ observed ∈ buffers, buffers[index]? = some observed → holds (change observed)) :
    ∀ observed ∈ buffers.modify index change, holds observed := by
  intro observed member
  obtain ⟨position, found⟩ := List.mem_iff_getElem?.1 member
  rw [List.getElem?_modify] at found
  obtain ⟨old, isOld, rfl⟩ := Option.map_eq_some_iff.1 found
  by_cases here : index = position
  · subst here
    rw [if_pos rfl]
    exact changed old (List.mem_of_getElem? isOld) isOld
  · rw [if_neg here]
    exact others old (List.mem_of_getElem? isOld)

theorem mem_modify_self {change : ObservedBuffer → ObservedBuffer} {index : Nat}
    {observed : ObservedBuffer} (found : buffers[index]? = some observed) :
    change observed ∈ buffers.modify index change := by
  refine List.mem_iff_getElem?.2 ⟨index, ?_⟩
  rw [List.getElem?_modify, found]
  exact congrArg some (if_pos rfl)

theorem Invariant.refines (inv : Invariant buffers) : Refines buffers := by
  intro observed member
  obtain ⟨shared, isBuffer, denotes⟩ := inv observed member
  exact ⟨shared, isBuffer, denotes.reads⟩

/-- A call that fits keeps the bytes of every buffer. -/
theorem Invariant.step {call : BufferCall} (inv : Invariant buffers)
    (fits : StepFits buffers call) : Invariant (step buffers call) := by
  cases call with
  | create =>
    refine List.forall_mem_append.2 ⟨inv, fun observed member => ?_⟩
    rw [List.mem_singleton.1 member]
    exact ⟨empty, rfl, denotes_empty⟩
  | append index data fresh =>
    refine forall_mem_modify inv fun observed member found => ?_
    obtain ⟨shared, isBuffer, denotes⟩ := inv observed member
    obtain ⟨after, appended, grown⟩ :=
      @Denotes.append _ _ data fresh denotes (fits observed shared found isBuffer)
    refine ⟨after, ?_, grown⟩
    rw [isBuffer]
    exact appended
  | clear index =>
    refine forall_mem_modify inv fun observed member _ => ?_
    obtain ⟨shared, isBuffer, -⟩ := inv observed member
    refine ⟨empty, ?_, denotes_empty⟩
    rw [isBuffer]
    rfl
  | merge index grown =>
    refine forall_mem_modify inv fun observed member _ => ?_
    obtain ⟨shared, isBuffer, denotes⟩ := inv observed member
    refine ⟨shared.merge grown, ?_, denotes.merge grown⟩
    rw [isBuffer]
    rfl
  | getSomeData index position => exact inv
  | copy index =>
    rw [ObservedBuffer.step]
    cases found : buffers[index]? with
    | none => exact inv
    | some observed =>
      obtain ⟨shared, isBuffer, denotes⟩ := inv observed (List.mem_of_getElem? found)
      refine List.forall_mem_append.2 ⟨inv, fun copied member => ?_⟩
      rw [List.mem_singleton.1 member]
      refine ⟨shared.copy, ?_, denotes.copy (fits observed shared found isBuffer)⟩
      rw [isBuffer]
      rfl

/-- A call after which every buffer can be read has fitted. -/
theorem Invariant.stepFits {call : BufferCall} (inv : Invariant buffers)
    (refines : Refines (ObservedBuffer.step buffers call)) : StepFits buffers call := by
  cases call with
  | append index data fresh =>
    intro observed shared found isBuffer
    obtain ⟨other, isOther, denotes⟩ := inv observed (List.mem_of_getElem? found)
    rw [isBuffer] at isOther
    cases isOther
    obtain ⟨after, appended, reads⟩ := refines _ (mem_modify_self found)
    rw [isBuffer] at appended
    exact denotes.appendFits_of_reads appended reads
  | copy index =>
    intro observed shared found isBuffer
    obtain ⟨other, isOther, denotes⟩ := inv observed (List.mem_of_getElem? found)
    rw [isBuffer] at isOther
    cases isOther
    rw [ObservedBuffer.step, found] at refines
    obtain ⟨copied, isCopy, reads⟩ := refines _ (List.mem_append_right buffers
      (List.mem_singleton_self _))
    rw [isBuffer] at isCopy
    cases isCopy
    exact denotes.copyFits_of_reads reads
  | create | clear index | merge index grown | getSomeData index position => trivial

/-- Over a run of calls every buffer reads as the bytes appended to it since it
was cleared, exactly when all sizes can be counted and no buffer is copied while
its last segment is used in part. -/
theorem refines_run_iff (calls : List BufferCall) :
    (∀ buffers ∈ Runs.visited step [] calls, Refines buffers) ↔
      Runs.StepsMeet step StepFits [] calls :=
  @Runs.visited_iff_stepsMeet_of_invariant _ _ step Invariant Refines StepFits
    (fun _ inv => inv.refines)
    (fun _ _ inv fits => inv.step fits)
    (fun _ _ inv refines => inv.stepFits refines)
    calls [] fun _ member => absurd member List.not_mem_nil

/-- What is longer than a segment goes to segments from the start. -/
theorem append_empty {data : Data} {fresh : Nat → Segment} (large : segmentSize < data.1.length) :
    ∃ segments, empty.append data fresh = some ⟨data.1.length, [], segments⟩ := by
  have small := Nat.mod_eq_of_lt data.2
  have first : offsetInSegment (unsignedSub 0 0) = 0 := rfl
  rw [append, if_neg (by omega)]
  simp only [empty, List.length_nil, Nat.zero_add, small, first]
  rw [if_neg (not_le.2 large)]
  exact ⟨_, rfl⟩

/-- One byte more than a segment. -/
theorem exists_segmentAndByte : ∃ data : Data, data.1.length = segmentSize + 1 :=
  ⟨⟨List.replicate (segmentSize + 1) 0, by
    rw [List.length_replicate]
    decide⟩, List.length_replicate⟩

/-- The copy of a buffer with one segment full and one byte in the next has the
rest of that segment, too. -/
theorem copy_with_unused_bytes :
    ¬∀ calls, ∀ buffers ∈ Runs.visited step [] calls, Refines buffers := by
  intro always
  let zeros : Nat → Segment := fun _ => ⟨List.replicate segmentSize 0, List.length_replicate⟩
  obtain ⟨data, length⟩ := exists_segmentAndByte
  have fits : StepFits [created] (.append 0 data zeros) := by
    intro observed shared found isBuffer
    cases found
    cases isBuffer
    right
    rw [length]
    decide
  have inv : Invariant [created] :=
    fun _ member => ⟨empty, by rw [List.mem_singleton.1 member]; rfl, by
      rw [List.mem_singleton.1 member]; exact denotes_empty⟩
  have refines := always [.create, .append 0 data zeros, .copy 0] _
    (Runs.final_mem_visited _ _)
  have copyFits : StepFits _ (.copy 0) := (inv.step fits).stepFits refines
  obtain ⟨segments, appended⟩ := @append_empty data zeros (by
    rw [length]
    decide)
  have found : (step [created] (.append 0 data zeros))[0]? =
      some ⟨empty.append data zeros, [] ++ data.1⟩ := rfl
  have partly := copyFits _ _ found appended
  rw [CopyFits] at partly
  simp only [length, List.length_nil, segmentSize] at partly
  omega

end ObservedBuffer

end Loader
end PalmWebKit
