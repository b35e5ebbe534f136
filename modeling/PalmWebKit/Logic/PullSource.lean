import Mathlib

/-!
# Sources that are read in pieces

A reader asks a source for some number of elements at a time, and takes an
empty answer for the end.  The queue of pieces is a source that answers from
one piece at a time; a piece is left with the answer that takes its last
element, or only with an answer that was too short.
-/

namespace PalmWebKit
namespace Logic
namespace PullSource

open List

variable {Element State Other : Type*}

/-- What is received before the first empty answer. -/
inductive Drains (read : Nat → State → List Element × State) :
    (Nat → Nat) → State → List Element → Prop where
  | ended {asks state} (empty : (read (asks 0) state).1 = []) : Drains read asks state []
  | received {asks state rest}
      (some : (read (asks 0) state).1 ≠ [])
      (later : Drains read (fun call => asks (call + 1)) (read (asks 0) state).2 rest) :
      Drains read asks state ((read (asks 0) state).1 ++ rest)

section Drains

variable {read : Nat → State → List Element × State} {asks : Nat → Nat} {state : State}

theorem drains_of_empty {sent : List Element} (empty : (read (asks 0) state).1 = []) :
    Drains read asks state sent ↔ sent = [] := by
  constructor
  · intro drains
    cases drains with
    | ended => rfl
    | received some later => exact absurd empty some
  · rintro rfl
    exact Drains.ended empty

theorem drains_of_some {sent : List Element} (some : (read (asks 0) state).1 ≠ []) :
    Drains read asks state sent ↔ ∃ rest, sent = (read (asks 0) state).1 ++ rest ∧
        Drains read (fun call => asks (call + 1)) (read (asks 0) state).2 rest := by
  constructor
  · intro drains
    cases drains with
    | ended empty => exact absurd empty some
    | received _ later => exact ⟨_, rfl, later⟩
  · rintro ⟨rest, rfl, later⟩
    exact Drains.received some later

theorem Drains.unique {sent other : List Element} (drains : Drains read asks state sent)
    (drainsOther : Drains read asks state other) : sent = other := by
  induction drains generalizing other with
  | ended empty => exact ((drains_of_empty empty).1 drainsOther).symm
  | received some later ih =>
    obtain ⟨rest, rfl, laterOther⟩ := (drains_of_some some).1 drainsOther
    rw [ih laterOther]

/-- A source that is simulated by another one is drained of the same elements. -/
theorem drains_iff_of_simulation {readOther : Nat → Other → List Element × Other}
    {view : State → Other} {inv : State → Prop}
    (keeps : ∀ ask state, inv state → 0 < ask → inv (read ask state).2)
    (answers : ∀ ask state, inv state → 0 < ask →
      readOther ask (view state) = ((read ask state).1, view (read ask state).2))
    (positive : ∀ call, 0 < asks call)
    (holds : inv state)
    (sent : List Element) :
    Drains read asks state sent ↔ Drains readOther asks (view state) sent := by
  constructor
  · intro drains
    induction drains with
    | @ended asks state empty =>
      refine Drains.ended ?_
      rw [answers _ _ holds (positive 0)]
      exact empty
    | @received asks state rest some later ih =>
      have answer := answers _ _ holds (positive 0)
      have others := ih (fun call => positive (call + 1))
        (keeps _ _ holds (positive 0))
      refine (drains_of_some ?_).2 ⟨rest, ?_, ?_⟩
      · rwa [answer]
      · rw [answer]
      · rwa [answer]
  · intro drains
    generalize isView : view state = other at drains
    induction drains generalizing state with
    | @ended asks other empty =>
      subst isView
      rw [answers _ _ holds (positive 0)] at empty
      exact Drains.ended empty
    | @received asks other rest some later ih =>
      subst isView
      have answer := answers _ _ holds (positive 0)
      rw [answer] at some
      refine (drains_of_some some).2 ⟨rest, ?_, ?_⟩
      · rw [answer]
      · exact ih (fun call => positive (call + 1))
          (keeps _ _ holds (positive 0)) (by rw [answer])

end Drains

/-! ## What is asked for -/

/-- The number of elements asked for with the first calls. -/
def asked (asks : Nat → Nat) : Nat → Nat
  | 0 => 0
  | calls + 1 => asks 0 + asked (fun call => asks (call + 1)) calls

section Asked

variable {asks : Nat → Nat}

theorem asked_succ (calls : Nat) : asked asks (calls + 1) = asked asks calls + asks calls := by
  induction calls generalizing asks with
  | zero => rw [asked, asked, asked, Nat.add_comm]
  | succ calls ih => rw [asked, ih, asked, Nat.add_assoc]

variable (positive : ∀ call, 0 < asks call)
include positive

theorem asked_strictMono : StrictMono (asked asks) :=
  strictMono_nat_of_lt_succ fun calls => by
    rw [asked_succ]
    exact Nat.lt_add_of_pos_right (positive calls)

/-- The call that asks for the last of some elements. -/
theorem exists_last_call {size : Nat} (some : 0 < size) :
    ∃ calls, asked asks calls < size ∧ size ≤ asked asks (calls + 1) := by
  have reached : ∃ calls, size ≤ asked asks (calls + 1) :=
    ⟨size, (asked_strictMono positive).le_apply.trans
      ((asked_strictMono positive).monotone (Nat.le_succ size))⟩
  refine ⟨Nat.find reached, ?_, Nat.find_spec reached⟩
  cases least : Nat.find reached with
  | zero => exact some
  | succ calls => exact Nat.lt_of_not_le (Nat.find_min reached (least ▸ Nat.lt_succ_self calls))

theorem last_call_unique {size calls others : Nat} (below : asked asks calls < size)
    (reached : size ≤ asked asks (calls + 1)) (othersBelow : asked asks others < size)
    (othersReached : size ≤ asked asks (others + 1)) :
    calls = others := by
  have first := (asked_strictMono positive).lt_iff_lt.1 (below.trans_le othersReached)
  have second := (asked_strictMono positive).lt_iff_lt.1 (othersBelow.trans_le reached)
  exact Nat.le_antisymm (Nat.le_of_lt_succ first) (Nat.le_of_lt_succ second)

end Asked

/-! ## The queue of pieces -/

/-- Some elements; whether the last one is known to be the last when it is read. -/
structure Piece (Element : Type*) where
  elements : List Element
  knowsItsEnd : Bool

namespace Piece

/-- An answer to that many elements leaves the piece behind. -/
def LeftBy (piece : Piece Element) (ask : Nat) : Prop :=
  piece.elements.length < ask ∨ (piece.elements.length = ask ∧ piece.knowsItsEnd = true)

instance (piece : Piece Element) (ask : Nat) : Decidable (piece.LeftBy ask) :=
  inferInstanceAs (Decidable (_ ∨ _))

def drop (piece : Piece Element) (ask : Nat) : Piece Element :=
  { piece with elements := piece.elements.drop ask }

theorem LeftBy.le {piece : Piece Element} {ask : Nat} (left : piece.LeftBy ask) :
    piece.elements.length ≤ ask := by
  rcases left with below | ⟨exact, -⟩
  · exact below.le
  · exact exact.le

theorem leftBy_drop {piece : Piece Element} {ask more : Nat}
    (inside : ask ≤ piece.elements.length) :
    (piece.drop ask).LeftBy more ↔ piece.LeftBy (ask + more) := by
  unfold LeftBy drop
  rw [length_drop]
  constructor
  all_goals
    rintro (below | ⟨exact, knows⟩)
    · exact .inl (by omega)
    · exact .inr ⟨by omega, knows⟩

end Piece

/-- Answers from the first piece. -/
def readPieces (ask : Nat) : List (Piece Element) → List Element × List (Piece Element)
  | [] => ([], [])
  | piece :: rest =>
    (piece.elements.take ask, if piece.LeftBy ask then rest else piece.drop ask :: rest)

/-- The elements of all pieces. -/
def allElements (pieces : List (Piece Element)) : List Element := pieces.flatMap Piece.elements

/-- Every piece that is followed by elements has some, and is left by the
call that asks for the last of them. -/
def Unbroken : (Nat → Nat) → List (Piece Element) → Prop
  | _, [] => True
  | asks, piece :: rest =>
    allElements rest = [] ∨ ∃ calls, asked asks calls < piece.elements.length ∧
        piece.LeftBy (asked asks (calls + 1)) ∧
        Unbroken (fun call => asks (calls + 1 + call)) rest

theorem unbroken_of_allElements_eq_nil {asks : Nat → Nat} {pieces : List (Piece Element)}
    (nothing : allElements pieces = []) : Unbroken asks pieces := by
  cases pieces with
  | nil => trivial
  | cons piece rest => exact .inl (append_eq_nil_iff.1 nothing).2

section Pieces

variable {asks : Nat → Nat} {piece : Piece Element} {rest : List (Piece Element)}

/-- A call that does not reach the end of the first piece. -/
theorem drains_inside (positive : 0 < asks 0) (some : 0 < piece.elements.length)
    (stays : ¬piece.LeftBy (asks 0)) (sent : List Element) :
    Drains readPieces asks (piece :: rest) sent ↔
      ∃ later, sent = piece.elements.take (asks 0) ++ later ∧
        Drains readPieces (fun call => asks (call + 1)) (piece.drop (asks 0) :: rest) later := by
  have answer : (readPieces (asks 0) (piece :: rest)).1 ≠ [] := by
    intro empty
    rw [readPieces, take_eq_nil_iff] at empty
    rcases empty with none | none
    · omega
    · rw [none] at some
      exact absurd some (Nat.lt_irrefl 0)
  rw [drains_of_some answer, readPieces, if_neg stays]

variable (positive : ∀ call, 0 < asks call)
include positive

/-- A piece that is left by the call for its last element. -/
theorem drains_left {calls : Nat} (below : asked asks calls < piece.elements.length)
    (left : piece.LeftBy (asked asks (calls + 1))) (sent : List Element) :
    Drains readPieces asks (piece :: rest) sent ↔ ∃ later, sent = piece.elements ++ later ∧
        Drains readPieces (fun call => asks (calls + 1 + call)) rest later := by
  induction calls generalizing asks piece sent with
  | zero =>
    have leaves : piece.LeftBy (asks 0) := left
    have answer : (readPieces (asks 0) (piece :: rest)).1 = piece.elements :=
      take_of_length_le leaves.le
    have some : piece.elements ≠ [] := length_pos_iff.1 below
    have shifted : (fun call => asks (0 + 1 + call)) = fun call => asks (call + 1) := by
      funext call
      rw [Nat.add_comm]
    rw [drains_of_some (by rwa [answer]), answer, readPieces, if_pos leaves, shifted]
  | succ calls ih =>
    have inside : asks 0 < piece.elements.length := by
      rw [asked] at below
      omega
    have stays : ¬piece.LeftBy (asks 0) := fun leaves => absurd leaves.le inside.not_ge
    have shifted : (fun call => asks (calls + 1 + 1 + call)) =
        fun call => asks (calls + 1 + call + 1) := by
      funext call
      rw [Nat.add_right_comm (calls + 1)]
    have dropped := @ih (fun call => asks (call + 1)) (piece.drop (asks 0))
      (fun call => positive (call + 1))
      (by
        rw [asked] at below
        rw [Piece.drop, length_drop]
        omega)
      ((Piece.leftBy_drop inside.le).2 left)
    rw [drains_inside (positive 0) (Nat.zero_lt_of_lt inside) stays, shifted]
    constructor
    · rintro ⟨later, rfl, drains⟩
      obtain ⟨last, rfl, drainsLast⟩ := (dropped later).1 drains
      refine ⟨last, ?_, drainsLast⟩
      rw [Piece.drop, ← append_assoc, take_append_drop]
    · rintro ⟨last, rfl, drains⟩
      refine ⟨piece.elements.drop (asks 0) ++ last, ?_, (dropped _).2 ⟨last, rfl, drains⟩⟩
      rw [← append_assoc, take_append_drop]

/-- A piece whose end is asked for exactly, and not known then. -/
theorem drains_stuck {calls : Nat} (exactly : piece.elements.length = asked asks calls)
    (unknown : 0 < calls → piece.knowsItsEnd = false) (sent : List Element) :
    Drains readPieces asks (piece :: rest) sent ↔ sent = piece.elements := by
  induction calls generalizing asks piece sent with
  | zero =>
    have none : piece.elements = [] := length_eq_zero_iff.1 exactly
    rw [drains_of_empty (by rw [readPieces, none, take_nil]), none]
  | succ calls ih =>
    have unknown := unknown (Nat.succ_pos calls)
    rw [asked] at exactly
    have ask := positive 0
    have stays : ¬piece.LeftBy (asks 0) := by
      rintro (below | ⟨-, knows⟩)
      · omega
      · rw [unknown] at knows
        cases knows
    have dropped := @ih (fun call => asks (call + 1)) (piece.drop (asks 0))
      (fun call => positive (call + 1))
      (by
        rw [Piece.drop, length_drop]
        omega)
      (fun _ => unknown)
    rw [drains_inside ask (by omega) stays]
    constructor
    · rintro ⟨later, rfl, drains⟩
      rw [(dropped later).1 drains, Piece.drop, take_append_drop]
    · rintro rfl
      exact ⟨_, (take_append_drop (asks 0) piece.elements).symm, (dropped _).2 rfl⟩

/-- The calls leave a piece with its last element, or get stuck at its end. -/
theorem left_or_stuck (piece : Piece Element) :
    (∃ calls, asked asks calls < piece.elements.length ∧ piece.LeftBy (asked asks (calls + 1))) ∨
      ∃ calls, piece.elements.length = asked asks calls ∧
        (0 < calls → piece.knowsItsEnd = false) := by
  rcases Nat.eq_zero_or_pos piece.elements.length with none | some
  · exact .inr ⟨0, none, nofun⟩
  · obtain ⟨calls, below, reached⟩ := exists_last_call positive some
    rcases reached.lt_or_eq with short | exact
    · exact .inl ⟨calls, below, .inl short⟩
    · cases knows : piece.knowsItsEnd with
      | true => exact .inl ⟨calls, below, .inr ⟨exact, knows⟩⟩
      | false => exact .inr ⟨calls + 1, exact, fun _ => rfl⟩

/-- No piece is both left and stuck. -/
theorem not_left_of_stuck {calls others : Nat} (exactly : piece.elements.length = asked asks calls)
    (unknown : 0 < calls → piece.knowsItsEnd = false)
    (below : asked asks others < piece.elements.length) :
    ¬piece.LeftBy (asked asks (others + 1)) := by
  rw [exactly] at below
  have later := (asked_strictMono positive).lt_iff_lt.1 below
  have reached : asked asks (others + 1) ≤ asked asks calls :=
    (asked_strictMono positive).monotone later
  rintro (short | ⟨-, knows⟩)
  · omega
  · rw [unknown (Nat.zero_lt_of_lt later)] at knows
    cases knows

end Pieces

/-- All elements are received exactly when no piece breaks the reading off
before the elements behind it. -/
theorem drains_allElements_iff {asks : Nat → Nat} (positive : ∀ call, 0 < asks call)
    (pieces : List (Piece Element)) :
    Drains readPieces asks pieces (allElements pieces) ↔ Unbroken asks pieces := by
  induction pieces generalizing asks with
  | nil => exact ⟨fun _ => trivial, fun _ => Drains.ended rfl⟩
  | cons piece rest ih =>
    have split : allElements (piece :: rest) = piece.elements ++ allElements rest :=
      flatMap_cons
    rw [split]
    rcases left_or_stuck positive piece with ⟨calls, below, left⟩ | ⟨calls, exactly, unknown⟩
    · have later := @ih (fun call => asks (calls + 1 + call))
        (fun call => positive (calls + 1 + call))
      rw [drains_left positive below left]
      constructor
      · rintro ⟨elements, same, drains⟩
        cases append_cancel_left same
        exact .inr ⟨calls, below, left, later.1 drains⟩
      · rintro (nothing | ⟨others, othersBelow, othersLeft, unbroken⟩)
        · refine ⟨_, rfl, later.2 ?_⟩
          exact unbroken_of_allElements_eq_nil nothing
        · cases last_call_unique positive below left.le othersBelow othersLeft.le
          exact ⟨_, rfl, later.2 unbroken⟩
    · rw [drains_stuck positive exactly unknown]
      constructor
      · intro same
        exact .inl (append_right_eq_self.1 same)
      · rintro (nothing | ⟨others, below, left, -⟩)
        · rw [nothing, append_nil]
        · exact absurd left (not_left_of_stuck positive exactly unknown below)

end PullSource
end Logic
end PalmWebKit
