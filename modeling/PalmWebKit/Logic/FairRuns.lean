import PalmWebKit.Logic.Runs

/-!
# Fair infinite runs

Labels are grouped by the party they serve.  A run is fair when every party is
served again and again; then what is pending comes to its goal, provided that
in every pending state some party brings it nearer.
-/

namespace PalmWebKit
namespace Runs

variable {State Label Party : Type*}

/-- Every party is served again and again. -/
def Fair (serves : Party → Label → Prop) (labels : Nat → Label) : Prop :=
  ∀ party count, ∃ later, count ≤ later ∧ serves party (labels later)

/-- One step of something pending: it comes to its goal, or its rank drops, or
rank and helpful party stay and this party was not served. -/
def Progress (serves : Party → Label → Prop) (pending goal : State → Prop) (rank : State → Nat)
    (helpful : State → Party) (state : State) (label : Label) (next : State) : Prop :=
  goal next ∨ pending next ∧ (rank next < rank state ∨
        rank next = rank state ∧ helpful next = helpful state ∧ ¬ serves (helpful state) label)

/-- In a fair run whose steps make progress, what is pending comes to its
goal. -/
theorem eventually_of_progress {step : State → Label → State} {serves : Party → Label → Prop}
    {labels : Nat → Label} (fair : Fair serves labels) {state : State} {pending goal : State → Prop}
    {rank : State → Nat} {helpful : State → Party}
    (progress : ∀ count, pending (stateAt step state labels count) →
      Progress serves pending goal rank helpful (stateAt step state labels count)
        (labels count) (stateAt step state labels (count + 1)))
    (count : Nat)
    (isPending : pending (stateAt step state labels count)) :
    ∃ later, count ≤ later ∧ goal (stateAt step state labels later) := by
  generalize rankEqual : rank (stateAt step state labels count) = remaining
  induction remaining using Nat.strongRecOn generalizing count with
  | ind remaining lower =>
  obtain ⟨served, countLe, isServed⟩ := fair (helpful (stateAt step state labels count)) count
  obtain ⟨distance, rfl⟩ := Nat.exists_eq_add_of_le countLe
  clear countLe
  -- the helpful party stays the same until it is served or the rank drops
  induction distance generalizing count with
  | zero =>
    rcases progress count isPending with reached | ⟨stillPending, drops | stays⟩
    · exact ⟨count + 1, Nat.le_succ count, reached⟩
    · obtain ⟨later, laterLe, reached⟩ := lower _ (rankEqual ▸ drops) (count + 1) stillPending rfl
      exact ⟨later, Nat.le_of_succ_le laterLe, reached⟩
    · exact absurd isServed stays.2.2
  | succ distance ih =>
    rcases progress count isPending with
      reached | ⟨stillPending, drops | ⟨rankSame, helpfulSame, -⟩⟩
    · exact ⟨count + 1, Nat.le_succ count, reached⟩
    · obtain ⟨later, laterLe, reached⟩ := lower _ (rankEqual ▸ drops) (count + 1) stillPending rfl
      exact ⟨later, Nat.le_of_succ_le laterLe, reached⟩
    · have servedLater : serves
          (helpful (stateAt step state labels (count + 1)))
          (labels (count + 1 + distance)) := by
        rw [helpfulSame, Nat.add_right_comm]
        exact isServed
      obtain ⟨later, laterLe, reached⟩ := ih (count + 1)
        stillPending (rankSame.trans rankEqual) servedLater
      exact ⟨later, Nat.le_of_succ_le laterLe, reached⟩

end Runs
end PalmWebKit
