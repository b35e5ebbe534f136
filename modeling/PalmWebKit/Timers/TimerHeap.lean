import PalmWebKit.Logic.BinaryHeap

/-!
# The timers of a thread

The active timers are kept in a heap ordered by fire time and, among equal
times, by insertion.  The heap algorithms write through references that store
in each timer the position it is written to.
-/

namespace PalmWebKit
namespace Timers

/-- A double that is only compared: a number, an infinity or not a number. -/
inductive Time where
  | nan
  | value (number : WithBot (WithTop ℚ))
  deriving DecidableEq

namespace Time

instance : Zero Time := ⟨value (((0 : ℚ) : WithTop ℚ) : WithBot (WithTop ℚ))⟩

def negativeInfinity : Time := value ⊥

/-- The comparison `==`. -/
def eq : Time → Time → Bool
  | value first, value second => first = second
  | _, _ => false

/-- The comparison `<`. -/
def lt : Time → Time → Bool
  | value first, value second => first < second
  | _, _ => false

/-- The comparison `<=`. -/
def le (first second : Time) : Bool := lt first second || eq first second

end Time

/-- A `TimerBase`.  The insertions are counted without a bound; the code keeps
the last 32 bits. -/
structure TimerBase where
  nextFireTime : Time := 0
  unalignedNextFireTime : Time := 0
  repeatInterval : Time := 0
  heapIndex : Int := -1
  insertion : Nat := 0

/-- `m_heapInsertionOrder` -/
def TimerBase.heapInsertionOrder (timer : TimerBase) : UInt32 := UInt32.ofNat timer.insertion

/-- The timers of a thread, the heap, and the number of insertions so far; the
last 32 bits of it are `currentHeapInsertionOrder`. -/
structure ThreadTimers (Timer : Type*) where
  timers : Timer → TimerBase
  timerHeap : List Timer
  insertions : Nat

namespace ThreadTimers

variable {Timer : Type*}

/-- No timer is active. -/
def create : ThreadTimers Timer where
  timers := fun _ => {}
  timerHeap := []
  insertions := 0

/-- `TimerHeapLessThanFunction`: the largest element is the one to fire first. -/
def lessThan (state : ThreadTimers Timer) (a b : Timer) : Bool :=
  let aFireTime := (state.timers a).nextFireTime
  let bFireTime := (state.timers b).nextFireTime
  if bFireTime.eq aFireTime = false then bFireTime.lt aFireTime
  else
    decide ((state.timers a).heapInsertionOrder - (state.timers b).heapInsertionOrder <
      4294967295 / 2)

section Operations

variable [DecidableEq Timer]

/-- Change the fields of one timer. -/
def update (state : ThreadTimers Timer) (timer : Timer)
    (change : TimerBase → TimerBase) : ThreadTimers Timer :=
  { state with
    timers := Function.update state.timers timer (change (state.timers timer)) }

def setHeapIndex (index : Int) (timer : TimerBase) : TimerBase :=
  { timer with heapIndex := index }

def withNextFireTime (time : Time) (timer : TimerBase) : TimerBase :=
  { timer with nextFireTime := time }

/-- `TimerHeapReference::operator=` -/
def assign (state : ThreadTimers Timer) (position : Nat) (timer : Timer) : ThreadTimers Timer :=
  let written := { state with timerHeap := state.timerHeap.set position timer }
  if position < written.timerHeap.length then written.update timer (setHeapIndex position)
  else written

theorem timerHeap_assign (state : ThreadTimers Timer) (position : Nat) (timer : Timer) :
    (state.assign position timer).timerHeap = state.timerHeap.set position timer := by
  rw [assign]
  split <;> rfl

/-- The heap as the heap algorithms write it. -/
def writer : BinaryHeap.Writer (ThreadTimers Timer) Timer where
  contents := timerHeap
  write := assign
  contents_write := timerHeap_assign

def heapDecreaseKey (state : ThreadTimers Timer) (timer : Timer) : ThreadTimers Timer :=
  BinaryHeap.pushHeap writer state.lessThan ((state.timers timer).heapIndex + 1).toNat state

def heapPopMin (state : ThreadTimers Timer) : ThreadTimers Timer :=
  BinaryHeap.popHeap writer state.lessThan state.timerHeap.length state

def heapPop (state : ThreadTimers Timer) (timer : Timer) : ThreadTimers Timer :=
  let fireTime := (state.timers timer).nextFireTime
  let lowered := state.update timer (withNextFireTime Time.negativeInfinity)
  let popped := (lowered.heapDecreaseKey timer).heapPopMin
  popped.update timer (withNextFireTime fireTime)

/-- `timerHeap().removeLast()`, with the index of a timer that is not in the heap. -/
def removeLast (state : ThreadTimers Timer) (timer : Timer) : ThreadTimers Timer :=
  { state with timerHeap := state.timerHeap.dropLast }.update timer (setHeapIndex (-1))

def heapDelete (state : ThreadTimers Timer) (timer : Timer) : ThreadTimers Timer :=
  (state.heapPop timer).removeLast timer

def heapDeleteMin (state : ThreadTimers Timer) (timer : Timer) : ThreadTimers Timer :=
  state.heapPopMin.removeLast timer

def heapIncreaseKey (state : ThreadTimers Timer) (timer : Timer) : ThreadTimers Timer :=
  (state.heapPop timer).heapDecreaseKey timer

def heapInsert (state : ThreadTimers Timer) (timer : Timer) : ThreadTimers Timer :=
  let appended := { state with timerHeap := state.timerHeap ++ [timer] }
  (appended.update timer (setHeapIndex (appended.timerHeap.length - 1))).heapDecreaseKey timer

/-- The part of `setNextFireTime` that keeps the heap valid, without the shared
timer that is told of a new front. -/
def changeNextFireTime (state : ThreadTimers Timer) (timer : Timer)
    (newTime : Time) : ThreadTimers Timer :=
  let oldTime := (state.timers timer).nextFireTime
  if oldTime.eq newTime = false then
    let changed :=
      { state with insertions := state.insertions + 1 }.update timer fun base =>
        { base with nextFireTime := newTime, insertion := state.insertions }
    if oldTime.eq 0 then changed.heapInsert timer
    else if newTime.eq 0 then changed.heapDelete timer
    else if newTime.lt oldTime then changed.heapDecreaseKey timer
    else changed.heapIncreaseKey timer
  else state

def setNextFireTime (state : ThreadTimers Timer) (timer : Timer) (alignedFireTime : Time → Time)
    (newUnalignedTime : Time) : ThreadTimers Timer :=
  let unaligned :=
    if (state.timers timer).unalignedNextFireTime.eq newUnalignedTime = false then
      state.update timer fun base => { base with unalignedNextFireTime := newUnalignedTime }
    else state
  unaligned.changeNextFireTime timer (alignedFireTime newUnalignedTime)

/-- `start`: `nextFireTime` is the time now and the interval, added. -/
def start (state : ThreadTimers Timer) (timer : Timer) (alignedFireTime : Time → Time)
    (nextFireTime repeatInterval : Time) : ThreadTimers Timer :=
  (state.update timer fun base =>
    { base with repeatInterval := repeatInterval }).setNextFireTime timer alignedFireTime
      nextFireTime

def stop (state : ThreadTimers Timer) (timer : Timer)
    (alignedFireTime : Time → Time) : ThreadTimers Timer :=
  (state.update timer fun base =>
    { base with repeatInterval := 0 }).setNextFireTime timer alignedFireTime 0

/-- One round of the loop of `sharedTimerFiredInternal` before the callback of
the timer; what the callback does are the next operations of a run.
`nextRepeat` is the time of the fire and the interval of the timer, added. -/
def fireFirst (state : ThreadTimers Timer) (fireTime : Time) (alignedFireTime : Time → Time)
    (nextRepeat : Time → Time) : ThreadTimers Timer :=
  match state.timerHeap with
  | [] => state
  | timer :: _ =>
    if (state.timers timer).nextFireTime.le fireTime then
      let deleted :=
        (state.update timer fun base =>
          { base with nextFireTime := 0, unalignedNextFireTime := 0 }).heapDeleteMin timer
      let interval := (deleted.timers timer).repeatInterval
      deleted.setNextFireTime timer alignedFireTime
        (if interval.eq 0 = false then nextRepeat interval else 0)
    else state

end Operations

end ThreadTimers
end Timers
end PalmWebKit
