import Mathlib

/-!
# Runs of a labelled step function

A component whose operations are total functions of its state is a step
function from a state and a label to the next state.  This module collects
the states such a component visits and relates properties of all visited
states to conditions met by every step.
-/

namespace PalmWebKit
namespace Runs

variable {State Label : Type*}

/-- The state reached after a list of labels. -/
def final (step : State → Label → State) : State → List Label → State
  | state, [] => state
  | state, label :: labels => final step (step state label) labels

/-- The states visited by a run, the initial one first. -/
def visited (step : State → Label → State) : State → List Label → List State
  | state, [] => [state]
  | state, label :: labels => state :: visited step (step state label) labels

/-- Every label of the run meets a condition in the state it is applied to. -/
def StepsMeet (step : State → Label → State)
    (condition : State → Label → Prop) : State → List Label → Prop
  | _, [] => True
  | state, label :: labels =>
    condition state label ∧ StepsMeet step condition (step state label) labels

/-- The states of an infinite run, by the number of steps before them. -/
def stateAt (step : State → Label → State) (state : State) (labels : Nat → Label) : Nat → State
  | 0 => state
  | count + 1 => step (stateAt step state labels count) (labels count)

section Rules

variable {step : State → Label → State}

variable (state : State)

@[simp] theorem final_nil : final step state [] = state := rfl

@[simp] theorem final_cons (label : Label) (labels : List Label) :
    final step state (label :: labels) = final step (step state label) labels := rfl

@[simp] theorem visited_nil : visited step state [] = [state] := rfl

@[simp] theorem visited_cons (label : Label) (labels : List Label) :
    visited step state (label :: labels) = state :: visited step (step state label) labels := rfl

@[simp] theorem stepsMeet_nil (condition : State → Label → Prop) (state : State) :
    StepsMeet step condition state [] := trivial

@[simp] theorem stepsMeet_cons (condition : State → Label → Prop) (state : State) (label : Label)
    (labels : List Label) :
    StepsMeet step condition state (label :: labels) ↔ condition state label ∧
        StepsMeet step condition (step state label) labels := Iff.rfl

instance decidableStepsMeet (condition : State → Label → Prop)
    [∀ state label, Decidable (condition state label)] :
    ∀ (state : State) (labels : List Label), Decidable (StepsMeet step condition state labels)
  | _, [] => isTrue trivial
  | state, label :: labels =>
    have := decidableStepsMeet condition (step state label) labels
    inferInstanceAs (Decidable (_ ∧ _))

theorem mem_visited_self (labels : List Label) : state ∈ visited step state labels := by
  cases labels <;> simp

theorem final_mem_visited (labels : List Label) :
    final step state labels ∈ visited step state labels := by
  induction labels generalizing state with
  | nil => simp
  | cons label labels ih => exact .tail _ (ih _)

/-- An invariant of the steps of a run holds in every visited state. -/
theorem visited_invariant {inv : State → Prop} (labels : List Label)
    (preserved : ∀ label ∈ labels, ∀ state, inv state → inv (step state label))
    {state : State} (initial : inv state) : ∀ reached ∈ visited step state labels, inv reached := by
  induction labels generalizing state with
  | nil => simpa using initial
  | cons label labels ih =>
    simp only [visited_cons, List.forall_mem_cons]
    exact ⟨initial, ih
      (fun later member => preserved later (.tail _ member))
      (preserved label (.head _) state initial)⟩

/-- An invariant of the steps of a run holds in its final state. -/
theorem final_invariant {inv : State → Prop} (labels : List Label)
    (preserved : ∀ label ∈ labels, ∀ state, inv state → inv (step state label))
    {state : State} (initial : inv state) : inv (final step state labels) :=
  visited_invariant labels preserved initial _ (final_mem_visited state labels)

/-- An invariant that the steps keep where they meet their condition holds in
every state of a run whose steps all meet it. -/
theorem visited_of_stepsMeet {inv : State → Prop} {condition : State → Label → Prop}
    (preserved : ∀ state label, inv state → condition state label → inv (step state label))
    (labels : List Label)
    {state : State}
    (initial : inv state)
    (met : StepsMeet step condition state labels) :
    ∀ reached ∈ visited step state labels, inv reached := by
  induction labels generalizing state with
  | nil => simpa using initial
  | cons label labels ih =>
    simp only [visited_cons, List.forall_mem_cons]
    exact ⟨initial, ih (preserved state label initial met.1) met.2⟩

/-- What follows from an invariant and the condition holds at every step that
meets the condition. -/
theorem stepsMeet_of_invariant {inv : State → Prop}
    {condition consequence : State → Label → Prop}
    (preserved : ∀ state label, inv state → condition state label → inv (step state label))
    (implied : ∀ state label, inv state → condition state label → consequence state label)
    (labels : List Label)
    {state : State}
    (initial : inv state)
    (met : StepsMeet step condition state labels) : StepsMeet step consequence state labels := by
  induction labels generalizing state with
  | nil => trivial
  | cons label labels ih =>
    exact ⟨implied state label initial met.1, ih (preserved state label initial met.1) met.2⟩

variable {condition : State → Label → Prop}

theorem stepsMeet_of_forall (always : ∀ state label, condition state label) (state : State)
    (labels : List Label) : StepsMeet step condition state labels := by
  induction labels generalizing state with
  | nil => trivial
  | cons label labels ih => exact ⟨always state label, ih (step state label)⟩

/-- Every visited state has a property exactly when every step meets a
condition: the steps that meet it keep an invariant that implies the property,
and a step from the invariant that does not loses the property. -/
theorem visited_iff_stepsMeet_of_invariant {inv property : State → Prop}
    {condition : State → Label → Prop} (implied : ∀ state, inv state → property state)
    (preserved : ∀ state label, inv state → condition state label → inv (step state label))
    (necessary : ∀ state label, inv state → property (step state label) → condition state label)
    (labels : List Label)
    {state : State}
    (initial : inv state) : (∀ reached ∈ visited step state labels, property reached) ↔
      StepsMeet step condition state labels := by
  induction labels generalizing state with
  | nil => simpa using implied state initial
  | cons label labels ih =>
    simp only [visited_cons, List.forall_mem_cons, stepsMeet_cons]
    constructor
    · rintro ⟨-, later⟩
      have met : condition state label :=
        necessary state label initial (later _ (mem_visited_self _ _))
      exact ⟨met, (ih (preserved state label initial met)).1 later⟩
    · rintro ⟨met, laterMet⟩
      exact ⟨implied state initial, (ih (preserved state label initial met)).2 laterMet⟩

/-- Every step has a consequence exactly when every step meets the condition
that decides it, where the consequence keeps the invariant. -/
theorem stepsMeet_iff_of_invariant {inv : State → Prop}
    {condition consequence : State → Label → Prop}
    (decides : ∀ state label, inv state → (consequence state label ↔ condition state label))
    (preserved : ∀ state label, inv state → consequence state label → inv (step state label))
    (labels : List Label)
    {state : State}
    (initial : inv state) :
    StepsMeet step consequence state labels ↔ StepsMeet step condition state labels := by
  induction labels generalizing state with
  | nil => exact Iff.rfl
  | cons label labels ih =>
    constructor
    · rintro ⟨holds, later⟩
      exact ⟨(decides state label initial).1 holds,
        (ih (preserved state label initial holds)).1 later⟩
    · rintro ⟨met, laterMet⟩
      have holds := (decides state label initial).2 met
      exact ⟨holds, (ih (preserved state label initial holds)).2 laterMet⟩

/-- The same rule for an infinite run. -/
theorem forall_stateAt_iff_of_invariant {inv property : State → Prop}
    (implied : ∀ state, inv state → property state)
    (preserved : ∀ state label, inv state → condition state label → inv (step state label))
    (necessary : ∀ state label, inv state → property (step state label) → condition state label)
    (labels : Nat → Label) {state : State}
    (initial : inv state) : (∀ count, property (stateAt step state labels count)) ↔
      ∀ count, condition (stateAt step state labels count) (labels count) := by
  constructor
  · intro always
    have invariantAt : ∀ count, inv (stateAt step state labels count) := by
      intro count
      induction count with
      | zero => exact initial
      | succ count ih =>
        exact preserved _ _ ih
          (necessary _ _ ih (always (count + 1)))
    exact fun count => necessary _ _ (invariantAt count) (always (count + 1))
  · intro met count
    apply implied
    induction count with
    | zero => exact initial
    | succ count ih => exact preserved _ _ ih (met count)

/-- Every visited state has a property exactly when every step meets the
condition that decides, from a state that has it, whether the next one does. -/
theorem visited_iff_stepsMeet {background property : State → Prop}
    (preserved : ∀ state label, background state → background (step state label))
    (decides : ∀ state label, background state → property state →
      (property (step state label) ↔ condition state label)) (labels : List Label) {state : State}
    (initialBackground : background state)
    (initialProperty : property state) : (∀ reached ∈ visited step state labels, property reached) ↔
      StepsMeet step condition state labels :=
  visited_iff_stepsMeet_of_invariant
    (fun _ (both : background _ ∧ property _) => both.2)
    (fun state label both met => ⟨preserved state label both.1,
      (decides state label both.1 both.2).2 met⟩)
    (fun state label both => (decides state label both.1 both.2).1)
    labels ⟨initialBackground, initialProperty⟩

end Rules

end Runs
end PalmWebKit
