import Mathlib

/-!
# A register that is overwritten and discarded

Updates write a value to a register, discard it, or do nothing.  A discarded
register stays discarded; otherwise the last value written is left.
-/

namespace PalmWebKit
namespace Logic
namespace Overwriting

open List

variable {Value : Type*}

/-- What an update does to the register; discarding comes after writing. -/
structure Update (Value : Type*) where
  keeps : Bool := true
  value : Option Value := none

/-- The update of a register. -/
def Update.apply (update : Update Value) : Option Value → Option Value
  | none => none
  | some held => if update.keeps then some (update.value.getD held) else none

/-- The updates of a run. -/
def applyAll (register : Option Value) (updates : List (Update Value)) : Option Value :=
  updates.foldl (fun held update => update.apply held) register

/-- The value that is left when nothing is discarded. -/
def lastWritten (held : Value) (updates : List (Update Value)) : Value :=
  updates.foldl (fun held update => update.value.getD held) held

theorem applyAll_append (register : Option Value) (front rest : List (Update Value)) :
    applyAll register (front ++ rest) = applyAll (applyAll register front) rest := foldl_append

theorem applyAll_none (updates : List (Update Value)) : applyAll none updates = none := by
  induction updates with
  | nil => rfl
  | cons update updates ih => exact ih

variable {updates : List (Update Value)}

theorem applyAll_of_discarded (discards : ∃ update ∈ updates, update.keeps = false)
    (register : Option Value) : applyAll register updates = none := by
  obtain ⟨update, member, discards⟩ := discards
  obtain ⟨front, rest, rfl⟩ := append_of_mem member
  have discarded (register : Option Value) : update.apply register = none := by
    cases register with
    | none => rfl
    | some held => exact if_neg (by rw [discards]; nofun)
  rw [applyAll_append, applyAll, foldl_cons, discarded]
  exact applyAll_none rest

theorem applyAll_of_kept (kept : ∀ update ∈ updates, update.keeps = true) (held : Value) :
    applyAll (some held) updates = some (lastWritten held updates) := by
  induction updates generalizing held with
  | nil => rfl
  | cons update updates ih =>
    have ⟨isKept, others⟩ := forall_mem_cons.1 kept
    rw [applyAll, foldl_cons, Update.apply, if_pos isKept, lastWritten]
    exact ih others _

theorem lastWritten_append (held : Value) (front rest : List (Update Value)) :
    lastWritten held (front ++ rest) = lastWritten (lastWritten held front) rest :=
  foldl_append

/-- Without a write the value is held. -/
theorem lastWritten_of_unwritten (unwritten : ∀ update ∈ updates, update.value = none)
    (held : Value) : lastWritten held updates = held := by
  induction updates with
  | nil => rfl
  | cons update updates ih =>
    have ⟨isUnwritten, others⟩ := forall_mem_cons.1 unwritten
    rw [lastWritten, foldl_cons, isUnwritten]
    exact ih others

/-- Writes of one value leave the value that was held, or that one. -/
theorem lastWritten_of_held {held : Value}
    (agree : ∀ update ∈ updates, ∀ value, update.value = some value → value = held) :
    lastWritten held updates = held := by
  induction updates with
  | nil => rfl
  | cons update updates ih =>
    have ⟨agrees, others⟩ := forall_mem_cons.1 agree
    have kept : update.value.getD held = held := by
      cases isValue : update.value with
      | none => rfl
      | some value => exact agrees value isValue
    rw [lastWritten, foldl_cons, kept]
    exact ih others

/-- Writes of one value, at least one of them, leave that value. -/
theorem lastWritten_of_agree {value : Value}
    (agree : ∀ update ∈ updates, ∀ written, update.value = some written → written = value)
    (isWritten : ∃ update ∈ updates, update.value.isSome = true) (held : Value) :
    lastWritten held updates = value := by
  obtain ⟨update, member, some⟩ := isWritten
  obtain ⟨front, rest, rfl⟩ := append_of_mem member
  obtain ⟨written, isWritten⟩ := Option.isSome_iff_exists.1 some
  cases agree update member written isWritten
  rw [lastWritten_append, lastWritten, foldl_cons, isWritten]
  exact lastWritten_of_held fun other member value isValue =>
    agree other (mem_append_right _ (.tail _ member)) value isValue

end Overwriting
end Logic
end PalmWebKit
