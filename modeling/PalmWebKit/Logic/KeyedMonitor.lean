import Mathlib

/-!
# Monitors of interleaved traces

A monitor is a partial step function on phases: it has no next phase for an
event that the protocol does not allow.  Watching an interleaved trace under
one key runs the monitor over the events of that key.
-/

namespace PalmWebKit
namespace KeyedMonitor

variable {Key Event Phase : Type}

/-- The phase after a list of events, `none` once one of them is not allowed. -/
def watch (next : Phase → Event → Option Phase) : Option Phase → List Event → Option Phase
  | phase, [] => phase
  | phase, event :: events => watch next (phase.bind (next · event)) events

variable [DecidableEq Key]

/-- The events of a key in a trace. -/
def eventsOf (trace : List (Key × Event)) (key : Key) : List Event :=
  trace.filterMap fun entry => if entry.1 = key then some entry.2 else none

/-- The phase of a key after a trace. -/
def phaseAt (next : Phase → Event → Option Phase) (start : Phase) (trace : List (Key × Event))
    (key : Key) : Option Phase := watch next (some start) (eventsOf trace key)

section Rules

variable {next : Phase → Event → Option Phase} {start : Phase}

omit [DecidableEq Key] in
theorem watch_append (phase : Option Phase) (first second : List Event) :
    watch next phase (first ++ second) = watch next (watch next phase first) second := by
  induction first generalizing phase with
  | nil => rfl
  | cons event events ih => exact ih (phase.bind (next · event))

omit [DecidableEq Key] in
/-- An event that is not allowed is never made good. -/
theorem watch_none (events : List Event) : watch next none events = none := by
  induction events with
  | nil => rfl
  | cons event events ih => exact ih

@[simp] theorem eventsOf_nil (key : Key) : eventsOf ([] : List (Key × Event)) key = [] := rfl

theorem eventsOf_append (first second : List (Key × Event)) (key : Key) :
    eventsOf (first ++ second) key = eventsOf first key ++ eventsOf second key :=
  List.filterMap_append

@[simp] theorem eventsOf_single_self (key : Key) (event : Event) :
    eventsOf [(key, event)] key = [event] := by
  rw [eventsOf, List.filterMap_cons, if_pos rfl]
  rfl

theorem eventsOf_single_of_ne {key other : Key} (ne : other ≠ key) (event : Event) :
    eventsOf [(other, event)] key = [] := by
  rw [eventsOf, List.filterMap_cons, if_neg ne]
  rfl

@[simp] theorem phaseAt_nil (key : Key) : phaseAt next start [] key = some start := rfl

/-- An event moves the phase of its key. -/
theorem phaseAt_append_self (trace : List (Key × Event)) (key : Key) (event : Event) :
    phaseAt next start (trace ++ [(key, event)]) key =
      (phaseAt next start trace key).bind (next · event) := by
  rw [phaseAt, eventsOf_append, eventsOf_single_self, watch_append]
  rfl

/-- An event leaves the phases of the other keys as they are. -/
theorem phaseAt_append_of_ne {key other : Key} (ne : other ≠ key)
    (trace : List (Key × Event)) (event : Event) :
    phaseAt next start (trace ++ [(other, event)]) key =
      phaseAt next start trace key := by
  rw [phaseAt, eventsOf_append, eventsOf_single_of_ne ne, List.append_nil, phaseAt]

/-- A violation of the protocol stays one when the trace goes on. -/
theorem phaseAt_eq_none_of_prefix {before after : List (Key × Event)} {key : Key}
    (extends_ : before <+: after) (violated : phaseAt next start before key = none) :
    phaseAt next start after key = none := by
  obtain ⟨later, rfl⟩ := extends_
  rw [phaseAt] at violated
  rw [phaseAt, eventsOf_append, watch_append, violated, watch_none]

end Rules

end KeyedMonitor
end PalmWebKit
