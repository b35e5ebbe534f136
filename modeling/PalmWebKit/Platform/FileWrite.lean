import PalmWebKit.Text.StdString

/-!
# Writing a buffer to a file

`writeToFile` of `FileSystemPalm` calls `write` until all bytes are reported as
written, each time with the beginning of the buffer.
-/

namespace PalmWebKit
namespace Platform

/-- What `write` returns, for the number of the call and the bytes asked for. -/
abbrev WriteResults := Nat → Nat → Int

/-- The loop of `writeToFile` for some number of turns: what the file holds
behind it and what is returned. -/
def writeLoop (write : WriteResults) (data : StdString) :
    Nat → Nat → StdString → Int → Option (StdString × Int)
  | 0, _, _, _ => none
  | turns + 1, call, file, totalBytesWritten =>
    if totalBytesWritten < data.length then
      let bytesWritten := write call (data.length - totalBytesWritten).toNat
      if bytesWritten < 0 then some (file, -1)
      else
        writeLoop write data turns (call + 1) (file ++ data.take bytesWritten.toNat)
          (totalBytesWritten + bytesWritten)
    else some (file, totalBytesWritten)

/-- `writeToFile`, behind what the file holds. -/
def writeToFile (write : WriteResults) (data : StdString) (turns : Nat)
    (file : StdString) : Option (StdString × Int) := writeLoop write data turns 0 file 0

/-- Every result is an error or between 1 and the number of bytes asked for. -/
def PartialResults (write : WriteResults) : Prop :=
  ∀ call asked, 0 < asked → write call asked < 0 ∨ (1 ≤ write call asked ∧ write call asked ≤ asked)

/-! ## The calls -/

section Calls

variable (write : WriteResults) (length : Nat)

/-- The bytes that a call reports behind some others; none is made at the end. -/
def reportedBehind (call position : Nat) : Nat :=
  if position < length then (write call (length - position)).toNat else 0

/-- The bytes that are reported as written before a call. -/
def offset : Nat → Nat
  | 0 => 0
  | call + 1 => offset call + reportedBehind write length call (offset call)

/-- The bytes that a call reports. -/
def reported (call : Nat) : Nat := reportedBehind write length call (offset write length call)

/-- A call that is made returns an error. -/
def FailsAt (call : Nat) : Prop :=
  offset write length call < length ∧ write call (length - offset write length call) < 0

variable {write length}

theorem offset_succ (call : Nat) :
    offset write length (call + 1) = offset write length call + reported write length call := rfl

variable {call : Nat}

theorem reported_of_lt (isLess : offset write length call < length) :
    reported write length call = (write call (length - offset write length call)).toNat :=
  if_pos isLess

theorem reported_of_le (isEnd : length ≤ offset write length call) :
    reported write length call = 0 :=
  if_neg (Nat.not_lt.2 isEnd)

section Bounds

variable (partialResults : PartialResults write)

include partialResults

theorem offset_le (call : Nat) : offset write length call ≤ length := by
  induction call with
  | zero => exact Nat.zero_le _
  | succ call ih =>
    rw [offset_succ]
    by_cases isLess : offset write length call < length
    · have result := partialResults call (length - offset write length call) (by omega)
      rw [reported_of_lt isLess]
      omega
    · rw [reported_of_le (Nat.not_lt.1 isLess)]
      exact ih

/-- A call that is made and does not fail reports something. -/
theorem reported_pos {call : Nat} (isLess : offset write length call < length)
    (succeeds : ¬FailsAt write length call) : 0 < reported write length call := by
  have result := partialResults call (length - offset write length call) (by omega)
  have noError : ¬write call (length - offset write length call) < 0 :=
    fun isError => succeeds ⟨isLess, isError⟩
  rw [reported_of_lt isLess]
  omega

end Bounds

/-! ## The loop -/

/-- More turns do not change what is returned. -/
theorem writeLoop_mono {data : StdString} {turns more : Nat} (isLess : turns ≤ more)
    {file : StdString} {total : Int} {result : StdString × Int}
    (returned : writeLoop write data turns call file total = some result) :
    writeLoop write data more call file total = some result := by
  induction turns generalizing more call file total with
  | zero => cases returned
  | succ turns ih =>
    cases more with
    | zero => exact absurd isLess (Nat.not_succ_le_zero _)
    | succ more =>
      rw [writeLoop] at returned ⊢
      simp only [] at returned ⊢
      split_ifs at returned ⊢ with goesOn isError
      · exact returned
      · exact ih (Nat.le_of_succ_le_succ isLess) returned
      · exact returned

/-- What the calls before one leave in the file. -/
def pieces (write : WriteResults) (data : StdString) : Nat → StdString
  | 0 => []
  | call + 1 => pieces write data call ++ data.take (reported write data.length call)

variable {data file : StdString}

variable {turns call : Nat}

theorem writeLoop_of_fails (fails : FailsAt write data.length call) :
    writeLoop write data (turns + 1) call file (offset write data.length call) =
      some (file, -1) := by
  obtain ⟨isLess, isError⟩ := fails
  have asked : ((data.length : Int) - offset write data.length call).toNat =
      data.length - offset write data.length call := by
    omega
  rw [writeLoop, if_pos (by omega), asked]
  exact if_pos isError

theorem writeLoop_of_succeeds (isLess : offset write data.length call < data.length)
    (succeeds : ¬FailsAt write data.length call) :
    writeLoop write data (turns + 1) call file (offset write data.length call) =
      writeLoop write data turns (call + 1)
        (file ++ data.take (reported write data.length call))
        (offset write data.length (call + 1)) := by
  have asked : ((data.length : Int) - offset write data.length call).toNat =
      data.length - offset write data.length call := by
    omega
  have noError : ¬write call (data.length - offset write data.length call) < 0 :=
    fun isError => succeeds ⟨isLess, isError⟩
  rw [writeLoop, if_pos (by omega), asked]
  simp only [if_neg noError]
  rw [offset_succ, reported_of_lt isLess]
  congr 1
  omega

theorem writeLoop_of_end (isEnd : offset write data.length call = data.length) :
    writeLoop write data (turns + 1) call file (offset write data.length call) =
      some (file, (data.length : Int)) := by
  rw [writeLoop, isEnd, if_neg (by omega)]

/-- The loop gets as far as no call fails and something is left. -/
theorem writeToFile_eq (data file : StdString) (turns : Nat)
    (goesOn : ∀ earlier < call, offset write data.length earlier < data.length ∧
      ¬FailsAt write data.length earlier) : writeToFile write data (call + turns) file =
      writeLoop write data turns call (file ++ pieces write data call)
        (offset write data.length call) := by
  induction call generalizing turns with
  | zero => simp [writeToFile, pieces, offset]
  | succ call ih =>
    have here := goesOn call (Nat.lt_succ_self _)
    rw [Nat.succ_add_eq_add_succ,
      ih (turns + 1) fun earlier isLess =>
        goesOn earlier (Nat.lt_succ_of_lt isLess),
      writeLoop_of_succeeds here.1 here.2, pieces, List.append_assoc]

section Stop

variable (partialResults : PartialResults write)

include partialResults

theorem le_offset {call : Nat}
    (goesOn : ∀ earlier < call, offset write length earlier < length ∧
      ¬FailsAt write length earlier) : call ≤ offset write length call := by
  induction call with
  | zero => exact Nat.zero_le _
  | succ call ih =>
    have here := goesOn call (Nat.lt_succ_self _)
    have before := ih fun earlier isLess => goesOn earlier (Nat.lt_succ_of_lt isLess)
    have some := reported_pos partialResults here.1 here.2
    rw [offset_succ]
    omega

/-- The first call that fails, or at which nothing is left. -/
theorem exists_stop : ∃ call, (offset write length call = length ∨ FailsAt write length call) ∧
      ∀ earlier < call, offset write length earlier < length ∧ ¬FailsAt write length earlier := by
  classical
  have some : ∃ call, offset write length call = length ∨ FailsAt write length call := by
    by_contra none
    push Not at none
    have goesOn : ∀ earlier < length + 1, offset write length earlier < length ∧
        ¬FailsAt write length earlier := fun earlier _ =>
      ⟨Nat.lt_of_le_of_ne (offset_le partialResults earlier) (none earlier).1, (none earlier).2⟩
    have many := le_offset partialResults goesOn
    have few := @offset_le write length partialResults (length + 1)
    omega
  refine ⟨Nat.find some, Nat.find_spec some, fun earlier isLess => ?_⟩
  have goesOn := Nat.find_min some isLess
  push Not at goesOn
  exact ⟨Nat.lt_of_le_of_ne (offset_le partialResults earlier) goesOn.1, goesOn.2⟩

end Stop

end Calls

/-! ## Completeness -/

section Complete

variable (write : WriteResults) (data : StdString)

/-- Some call fails. -/
def Fails : Prop := ∃ call, FailsAt write data.length call

/-- The file has all of the buffer behind what it held, and the length is
returned; after an error the result is -1, or the number of bytes written. -/
def WritesCompletely : Prop :=
  ∀ file, ∃ turns after result, writeToFile write data turns file = some (after, result) ∧
    (¬Fails write data → after = file ++ data ∧ result = data.length) ∧
    (Fails write data → result = -1 ∨ result = (after.length : Int) - file.length)

/-- What a call takes from the beginning of the buffer is what stands at the
position it should write. -/
def RepeatsBeginning (call : Nat) : Prop :=
  data.take (reported write data.length call) =
    (data.drop (offset write data.length call)).take (reported write data.length call)

variable {write data}

theorem length_pieces (partialResults : PartialResults write) (call : Nat) :
    (pieces write data call).length = offset write data.length call := by
  induction call with
  | zero => rfl
  | succ call ih =>
    have bound := @offset_le write data.length partialResults (call + 1)
    rw [offset_succ] at bound
    rw [pieces, List.length_append, ih, List.length_take, offset_succ, Nat.min_eq_left (by omega)]

/-- The file holds the buffer so far exactly if every call was given what stands
at its position. -/
theorem pieces_eq_take_iff (partialResults : PartialResults write) (call : Nat) :
    pieces write data call = data.take (offset write data.length call) ↔
      ∀ earlier < call, RepeatsBeginning write data earlier := by
  induction call with
  | zero => simp [pieces, offset]
  | succ call ih =>
    rw [pieces, offset_succ, List.take_add]
    constructor
    · intro same earlier isLess
      have lengths : (pieces write data call).length =
          (data.take (offset write data.length call)).length := by
        rw [length_pieces partialResults, List.length_take,
          Nat.min_eq_left (offset_le partialResults call)]
      obtain ⟨before, here⟩ := List.append_inj same lengths
      rcases Nat.lt_succ_iff_lt_or_eq.1 isLess with isEarlier | rfl
      · exact ih.1 before earlier isEarlier
      · exact here
    · intro repeats
      have before := ih.2 fun earlier isLess => repeats earlier (Nat.lt_succ_of_lt isLess)
      rw [before, repeats call (Nat.lt_succ_self _)]

theorem repeatsBeginning_of_end {call : Nat} (isEnd : data.length ≤ offset write data.length call) :
    RepeatsBeginning write data call := by
  rw [RepeatsBeginning, reported_of_le isEnd, List.take_zero, List.take_zero]

/-- The file is complete if an error excuses the rest, or every later call
finds its bytes at the beginning of the buffer too. -/
theorem writesCompletely_iff (partialResults : PartialResults write) : WritesCompletely write data ↔
      Fails write data ∨ ∀ call, RepeatsBeginning write data call := by
  obtain ⟨stop, isStop, goesOn⟩ := @exists_stop write data.length partialResults
  have isRun := fun file => writeToFile_eq data file 1 goesOn
  by_cases fails : FailsAt write data.length stop
  · refine iff_of_true (fun file => ⟨stop + 1, file ++ pieces write data stop, -1, ?_, ?_, ?_⟩)
      (.inl ⟨stop, fails⟩)
    · rw [isRun, writeLoop_of_fails fails]
    · exact fun none => absurd ⟨stop, fails⟩ none
    · exact fun _ => .inl rfl
  · have isEnd : offset write data.length stop = data.length := isStop.resolve_right fails
    have atEnd : ∀ call, stop ≤ call → data.length ≤ offset write data.length call := by
      intro call isLater
      induction call, isLater using Nat.le_induction with
      | base => exact isEnd.ge
      | succ call isLater ih =>
        rw [offset_succ]
        omega
    have noFailure : ¬Fails write data := by
      rintro ⟨call, failsAt⟩
      rcases Nat.lt_or_ge call stop with isEarlier | isLater
      · exact (goesOn call isEarlier).2 failsAt
      · exact absurd failsAt.1 (Nat.not_lt.2 (atEnd call isLater))
    have returned : ∀ file, writeToFile write data (stop + 1) file =
        some (file ++ pieces write data stop, (data.length : Int)) := by
      intro file
      rw [isRun, writeLoop_of_end isEnd]
    have isComplete : pieces write data stop = data ↔ ∀ call, RepeatsBeginning write data call := by
      have isTake := @pieces_eq_take_iff write data partialResults stop
      rw [isEnd, List.take_length] at isTake
      rw [isTake]
      refine ⟨fun repeats call => ?_, fun repeats call _ => repeats call⟩
      rcases Nat.lt_or_ge call stop with isEarlier | isLater
      · exact repeats call isEarlier
      · exact repeatsBeginning_of_end (atEnd call isLater)
    rw [or_iff_right noFailure, ← isComplete]
    constructor
    · intro complete
      obtain ⟨turns, after, result, isResult, whole, -⟩ := complete []
      have first := writeLoop_mono (Nat.le_max_left turns (stop + 1)) isResult
      have second := writeLoop_mono (Nat.le_max_right turns (stop + 1)) (returned [])
      have same := Option.some.inj (first.symm.trans second)
      rw [(whole noFailure).1] at same
      exact ((Prod.mk.injEq ..).mp same).1.symm
    · intro isData file
      refine ⟨stop + 1, _, _, returned file, fun _ => ⟨by rw [isData], rfl⟩, fun fails => ?_⟩
      exact absurd fails noFailure

/-- A kernel that takes everything at once. -/
theorem writesCompletely_iff_atOnce :
    PartialResults (fun _ asked => asked) ∧ (WritesCompletely (fun _ asked => asked) [97, 98] ↔
        Fails (fun _ asked => asked) [97, 98] ∨
          ∀ call, RepeatsBeginning (fun _ asked => asked) [97, 98] call) :=
  have partialResults : PartialResults fun _ asked => asked :=
    fun _ _ positive => .inr ⟨Int.ofNat_le.2 positive, Int.le_refl _⟩
  ⟨partialResults, writesCompletely_iff partialResults⟩

/-- A kernel that takes one byte at a time is given the first one again. -/
theorem not_writesCompletely_byteByByte : ¬WritesCompletely (fun _ _ => 1) [97, 98] := by
  intro complete
  obtain ⟨turns, after, result, isResult, whole, -⟩ := complete []
  have noFailure : ¬Fails (fun _ _ => 1) [97, 98] :=
    fun ⟨_, failsAt⟩ => Int.not_lt.2 Int.one_nonneg failsAt.2
  have returned : writeToFile (fun _ _ => 1) [97, 98] 3 [] = some ([97, 97], 2) := by decide
  have first := writeLoop_mono (Nat.le_max_left turns 3) isResult
  have second := writeLoop_mono (Nat.le_max_right turns 3) returned
  have same := Option.some.inj (first.symm.trans second)
  rw [(whole noFailure).1] at same
  exact absurd ((Prod.mk.injEq ..).mp same).1 (by decide)

end Complete

end Platform
end PalmWebKit
