import PalmWebKit.Logic.Runs
import PalmWebKit.Timers.TimerInvariant

/-!
# Runs of the timers

Timers are started, stopped and fired in any order; the callbacks of a fired
timer are the operations that follow it.
-/

namespace PalmWebKit
namespace Timers

open List BinaryHeap

namespace ThreadTimers

variable {Timer : Type*} [DecidableEq Timer]

/-- What a thread does with its timers.  `setNextFireTime` stands for the calls
that augment or realign a fire time, `insertElsewhere` for another thread that
takes a number of the insertions. -/
inductive Operation (Timer : Type*) where
  | start
      (timer : Timer)
      (alignedFireTime : Time → Time)
      (nextFireTime repeatInterval : Time)
  | stop (timer : Timer) (alignedFireTime : Time → Time)
  | setNextFireTime
      (timer : Timer)
      (alignedFireTime : Time → Time)
      (newUnalignedTime : Time)
  | fireFirst (fireTime : Time) (alignedFireTime nextRepeat : Time → Time)
  | insertElsewhere

def step (state : ThreadTimers Timer) : Operation Timer → ThreadTimers Timer
  | .start timer alignedFireTime nextFireTime repeatInterval =>
    state.start timer alignedFireTime nextFireTime repeatInterval
  | .stop timer alignedFireTime => state.stop timer alignedFireTime
  | .setNextFireTime timer alignedFireTime newUnalignedTime =>
    state.setNextFireTime timer alignedFireTime newUnalignedTime
  | .fireFirst fireTime alignedFireTime nextRepeat =>
    state.fireFirst fireTime alignedFireTime nextRepeat
  | .insertElsewhere => { state with insertions := state.insertions + 1 }

/-- The time after a fire. -/
def repeatedTime (interval : Time) (nextRepeat : Time → Time) : Time :=
  if interval.eq 0 = false then nextRepeat interval else 0

/-- Every time that is given is schedulable. -/
def Condition (state : ThreadTimers Timer) : Operation Timer → Prop
  | .start timer alignedFireTime nextFireTime _ =>
    Schedulable state timer (state.timers timer).nextFireTime (alignedFireTime nextFireTime)
  | .stop timer alignedFireTime =>
    Schedulable state timer (state.timers timer).nextFireTime (alignedFireTime 0)
  | .setNextFireTime timer alignedFireTime newUnalignedTime =>
    Schedulable state timer (state.timers timer).nextFireTime
      (alignedFireTime newUnalignedTime)
  | .fireFirst fireTime alignedFireTime nextRepeat =>
    ∀ timer ∈ state.timerHeap.head?, (state.timers timer).nextFireTime.le fireTime = true →
        Schedulable state timer 0
          (alignedFireTime (repeatedTime (state.timers timer).repeatInterval nextRepeat))
  | .insertElsewhere => True

/-- The property of one reachable state. -/
structure Sound (state : ThreadTimers Timer) : Prop where
  inHeap_iff : ∀ timer, (state.timers timer).heapIndex ≠ -1 ↔ (state.timers timer).nextFireTime ≠ 0
  mem_iff : ∀ timer, timer ∈ state.timerHeap ↔ (state.timers timer).nextFireTime ≠ 0
  nodup : state.timerHeap.Nodup
  indexed : Indexed state
  ordered : Ordered state.key state.timerHeap.length state.timerHeap
  isHeap : ∀ (position : Nat) above item, 0 < position →
    state.timerHeap[(position - 1) / 2]? = some above →
    state.timerHeap[position]? = some item → state.lessThan above item = false
  front : ∀ first ∈ state.timerHeap.head?, ∀ other ∈ state.timerHeap, other ≠ first →
    state.key first < state.key other

variable {state : ThreadTimers Timer}

variable (inv : Invariant state)
include inv

omit [DecidableEq Timer] in
theorem Invariant.sound : Sound state := by
  have agrees := inv.members.comparable.agrees
  refine ⟨fun timer => ?_, inv.members.mem_iff, inv.members.nodup, inv.indexed, inv.ordered, ?_, ?_⟩
  · rw [← inv.members.mem_iff]
    constructor
    · intro inHeap
      by_contra outside
      exact inHeap (inv.members.idle timer outside).2
    · intro member
      obtain ⟨position, inside, timerEq⟩ := getElem_of_mem member
      rw [inv.indexed position timer (List.getElem?_eq_some_iff.2 ⟨inside, timerEq⟩)]
      omega
  · intro position above item positive isAbove isItem
    have below := (List.getElem?_eq_some_iff.1 isItem).1
    have lessIff := agrees.less_iff above (mem_of_getElem? isAbove) item
      (mem_of_getElem? isItem) (agrees.ne (by omega) isAbove isItem)
    rw [← Bool.not_eq_true, lessIff, not_lt]
    exact inv.ordered position above item positive below isAbove isItem
  · intro first isFirst other member ne
    rw [head?_eq_getElem?] at isFirst
    obtain ⟨position, inside, otherEq⟩ := getElem_of_mem member
    have firstLe := inv.ordered.first_le (Nat.le_refl _) isFirst inside
      (List.getElem?_eq_some_iff.2 ⟨inside, otherEq⟩)
    refine lt_of_le_of_ne firstLe fun equal => ?_
    -- equal keys have equal insertions
    have close := inv.members.close first (mem_of_getElem? isFirst) other member
      (Ne.symm ne)
    exact close.1 (congrArg (fun key => (ofLex key).2) equal)

/-! ## One operation -/

theorem setNextFireTime_invariant {timer : Timer} {alignedFireTime : Time → Time}
    {newUnalignedTime : Time}
    (schedulable : Schedulable state timer (state.timers timer).nextFireTime
      (alignedFireTime newUnalignedTime)) :
    Invariant (state.setNextFireTime timer alignedFireTime newUnalignedTime) := by
  unfold setNextFireTime
  split
  · refine changeNextFireTime_invariant
      (inv.update timer _ (fun _ => rfl) (fun _ => rfl) (fun _ => rfl)) ?_
    refine ⟨schedulable.1, schedulable.2.1, fun notZero isNew other member ne => ?_⟩
    rw [timers_update_self] at isNew
    rw [timers_update_of_ne _ ne]
    exact schedulable.2.2 notZero isNew other member ne
  · exact changeNextFireTime_invariant inv schedulable

/-- The interval of the timer does not count for its time. -/
theorem setRepeatInterval_invariant {timer : Timer} {newTime : Time}
    (schedulable : Schedulable state timer (state.timers timer).nextFireTime newTime)
    (repeatInterval : Time) :
    Invariant (state.update timer fun base => { base with repeatInterval := repeatInterval }) ∧
      Schedulable
        (state.update timer fun base => { base with repeatInterval := repeatInterval })
        timer
        ((state.update timer fun base =>
          { base with repeatInterval := repeatInterval }).timers timer).nextFireTime
        newTime := by
  refine ⟨inv.update timer _ (fun _ => rfl) (fun _ => rfl) (fun _ => rfl),
    schedulable.1, schedulable.2.1, fun notZero isNew other member ne => ?_⟩
  rw [timers_update_self] at isNew
  rw [timers_update_of_ne _ ne]
  exact schedulable.2.2 notZero isNew other member ne

theorem fireFirst_invariant {fireTime : Time} {alignedFireTime nextRepeat : Time → Time}
    (condition : Condition state (.fireFirst fireTime alignedFireTime nextRepeat)) :
    Invariant (state.fireFirst fireTime alignedFireTime nextRepeat) := by
  unfold fireFirst
  split
  · exact inv
  · rename_i first rest heapEq
    split
    · rename_i isDue
      have isFirst : state.timerHeap[0]? = some first := by rw [heapEq, getElem?_cons_zero]
      have schedulable := condition first (by rw [heapEq]; rfl) isDue
      dsimp only
      generalize changedEq : (state.update first fun base =>
        { base with nextFireTime := 0, unalignedNextFireTime := 0 }) = changed
      have self : changed.timers first =
          { state.timers first with nextFireTime := 0, unalignedNextFireTime := 0 } := by
        rw [← changedEq, timers_update_self]
      have differs : DiffersAt first state changed := by
        refine ⟨changedEq ▸ rfl, fun other ne => ?_, by rw [self], changedEq ▸ le_rfl⟩
        rw [← changedEq, timers_update_of_ne _ ne]
      have insertionsEq : changed.insertions = state.insertions := changedEq ▸ rfl
      have zero : (changed.timers first).nextFireTime = 0 := by rw [self]
      have comparable := differs.comparable_of_zero inv zero
      have around : OrderedAround changed.key (changed.timerHeap.length - 1) changed.timerHeap
          0 := by
        have whole := differs.around inv isFirst
        refine ⟨fun place above item positive below => ?_,
          fun _ _ _ positive => absurd positive (Nat.lt_irrefl 0)⟩
        exact whole.except place above item positive (by omega)
      obtain ⟨rearranged, isLast, ordered⟩ := heapPopMin_spec (differs.timerHeap_eq ▸ isFirst)
        (differs.indexed inv.indexed) comparable around
      obtain ⟨removed, removedInsertions, sameInsertion, sameInterval, wasMember⟩ :=
        differs.removeLast_invariant inv zero rearranged isLast ordered
      rw [← heapDeleteMin] at removed removedInsertions sameInsertion sameInterval wasMember
      have intervalEq : ((changed.heapDeleteMin first).timers first).repeatInterval =
          (state.timers first).repeatInterval := by
        rw [sameInterval, self]
      rw [intervalEq]
      refine setNextFireTime_invariant removed
        ⟨schedulable.1, schedulable.2.1, fun notZero _ other member ne => ?_⟩
      have old := (wasMember other member).1
      rw [removedInsertions, insertionsEq, sameInsertion other ne]
      exact schedulable.2.2 notZero notZero other old ne
    · exact inv

omit inv

/-- Every operation that meets the condition keeps the invariant. -/
theorem Invariant.step (inv : Invariant state) {op : Operation Timer}
    (condition : Condition state op) : Invariant (state.step op) := by
  cases op with
  | start timer alignedFireTime nextFireTime repeatInterval =>
    obtain ⟨updated, schedulable⟩ := setRepeatInterval_invariant inv condition repeatInterval
    exact setNextFireTime_invariant updated schedulable
  | stop timer alignedFireTime =>
    obtain ⟨updated, schedulable⟩ := setRepeatInterval_invariant inv condition 0
    exact setNextFireTime_invariant updated schedulable
  | setNextFireTime timer alignedFireTime newUnalignedTime =>
    exact setNextFireTime_invariant inv condition
  | fireFirst fireTime alignedFireTime nextRepeat => exact fireFirst_invariant inv condition
  | insertElsewhere =>
    obtain ⟨members, indexed, ordered⟩ := inv
    refine ⟨⟨members.nodup, members.ne_nan, members.finite, members.ne_zero, members.idle, ?_,
      members.close⟩, indexed, ordered⟩
    exact fun timer member => Nat.lt_succ_of_lt (members.older timer member)

/-! ## Runs -/

/-- In a run whose times are schedulable every state is sound. -/
theorem timers_sound (ops : List (Operation Timer))
    (met : Runs.StepsMeet step Condition create ops) :
    ∀ reached ∈ Runs.visited step create ops, Sound reached := by
  have kept (ops : List (Operation Timer)) (state : ThreadTimers Timer)
      (initial : Invariant state) (met : Runs.StepsMeet step Condition state ops) :
      ∀ reached ∈ Runs.visited step state ops, Sound reached := by
    induction ops generalizing state with
    | nil => simpa using initial.sound
    | cons op ops ih =>
      rw [Runs.visited_cons, forall_mem_cons]
      exact ⟨initial.sound, ih _ (initial.step met.1) met.2⟩
  exact kept ops create create_invariant met

/-- A time in seconds. -/
def seconds (number : ℚ) : Time := .value ((number : WithTop ℚ) : WithBot (WithTop ℚ))

/-- The theorem on a run with a timer that repeats and one that is stopped. -/
theorem timers_sound_of_two_timers : Sound (Runs.final step (create : ThreadTimers Bool)
      [.start true id (seconds 2) (seconds 3), .start false id (seconds 2) 0,
        .fireFirst (seconds 2) id (fun _ => seconds 5), .stop false id]) := by
  refine timers_sound _ ?_ _ (Runs.final_mem_visited _ _)
  refine ⟨⟨by decide, by decide, ?_⟩, ⟨by decide, by decide, ?_⟩, ?_,
    ⟨by decide, by decide, ?_⟩, trivial⟩
  · exact fun _ _ other member => absurd member (not_mem_nil)
  · intro _ _ other _ ne
    cases other with
    | false => exact absurd rfl ne
    | true => decide
  · rintro first isFirst _
    obtain rfl : true = first := by
      have front : (step (step (create : ThreadTimers Bool)
          (.start true id (seconds 2) (seconds 3)))
          (.start false id (seconds 2) 0)).timerHeap.head? = some true := by decide +kernel
      exact Option.some.inj (front.symm.trans isFirst)
    refine ⟨by decide +kernel, by decide +kernel, fun _ _ other _ ne => ?_⟩
    cases other with
    | false => decide +kernel
    | true => exact absurd rfl ne
  · exact fun notZero => absurd rfl notZero

/-- A timer with the time minus infinity leaves the heap in place of another
one that is stopped. -/
theorem not_sound_of_negativeInfinity : ¬ ∀ reached ∈ Runs.visited step (create : ThreadTimers Bool)
        [.start true id Time.negativeInfinity 0, .start false id (seconds 5) 0, .stop false id],
      Sound reached := by
  intro sound
  have last := sound _ (Runs.final_mem_visited _ _)
  have stays : false ∈ (Runs.final step (create : ThreadTimers Bool)
      [.start true id Time.negativeInfinity 0, .start false id (seconds 5) 0,
        .stop false id]).timerHeap := by
    decide +kernel
  exact (last.mem_iff false).1 stays (by decide +kernel)

end ThreadTimers
end Timers
end PalmWebKit
