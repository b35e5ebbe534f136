import PalmWebKit.Logic.Runs

/-!
# Singleton timers

All timers share one source of the main loop.  The loop asks the source how
long it may sleep, asks it behind the sleep whether it is ready, and later
dispatches the ready sources one after the other.  Nothing is done behind the
callback of a timer, so what a callback does, a nested main loop included, is
the events that follow its dispatch.
-/

namespace PalmWebKit
namespace Timers

open List

/-- A pointer to a timer. -/
abbrev TimerId := Nat

/-- A callback with no function is a null pointer. -/
structure SingletonTimer where
  fireTime : Int := 0
  callback : Option Nat
  userArg : Nat
  deriving DecidableEq, Repr

/-- What a timer has been armed with: the time, and the number of the call. -/
structure Arming where
  time : Nat
  call : Nat
  deriving DecidableEq, Repr

/-- The timers, their list and their source.  The schedule says which timers
are armed; nothing in the code reads it. -/
structure TimerSource where
  timers : TimerId → Option SingletonTimer
  sActiveList : List TimerId
  /-- `G_SOURCE_READY` of the source, if there is one. -/
  sSource : Option Bool
  /-- `CLOCK_MONOTONIC` in nanoseconds. -/
  clock : Nat
  /-- The timeout that the last event, a prepare, has asked for. -/
  timeout : Option Int
  /-- The callbacks called so far, with their arguments. -/
  called : List (Nat × Nat)
  schedule : TimerId → Option Arming
  calls : Nat

/-- The conversion from `uint64_t` to `int64_t`. -/
def toInt64 (time : UInt64) : Int := (time.toNat : Int).bmod (2 ^ 64)

/-- The conversion from `int64_t` to `gint`. -/
def toGint (diff : Int) : Int := diff.bmod (2 ^ 32)

namespace TimerSource

/-- `tv_sec * 1000 + tv_nsec / 1000000` -/
def currTime (source : TimerSource) : Nat :=
  source.clock / 10 ^ 9 * 1000 + source.clock % 10 ^ 9 / 10 ^ 6

/-- The fire time behind a pointer of the list. -/
def fireTime (source : TimerSource) (timer : TimerId) : Int :=
  match source.timers timer with
  | none => 0
  | some timer => timer.fireTime

/-- The search for the place of a timer, which is no longer in the list. -/
def insertSorted (fireTime : TimerId → Int) (timer : TimerId) : List TimerId → List TimerId
  | [] => [timer]
  | t :: rest =>
    if fireTime t > fireTime timer then timer :: t :: rest
    else t :: insertSorted fireTime timer rest

/-- `SingletonTimerCreate`, with the pointer that it returns. -/
def create (source : TimerSource) (timer : TimerId) (callback : Option Nat)
    (userArg : Nat) : TimerSource :=
  match source.timers timer with
  | some _ => source
  | none =>
    { source with
      timers := Function.update source.timers timer
        (some { callback := callback, userArg := userArg }) }

/-- The timer gets its fire time. -/
def arm (source : TimerSource) (timer : TimerId) (armed : SingletonTimer)
    (timeInMs : UInt64) : TimerSource :=
  { source with
    timers := Function.update source.timers timer
      (some { armed with
        fireTime := if timeInMs > 0 then toInt64 timeInMs else 0 })
    schedule := Function.update source.schedule timer
      (some ⟨timeInMs.toNat, source.calls⟩)
    calls := source.calls + 1 }

/-- `SingletonTimerFire` -/
def fire (source : TimerSource) (timer : TimerId) (timeInMs : UInt64) : TimerSource :=
  match source.timers timer with
  | none => source
  | some armed =>
    let source := source.arm timer armed timeInMs
    { source with
      sActiveList := insertSorted source.fireTime timer
        (source.sActiveList.erase timer) }

/-- `SingletonTimerDelete` -/
def delete (source : TimerSource) (timer : TimerId) : TimerSource :=
  match source.timers timer with
  | none => source
  | some _ =>
    { source with
      sActiveList := source.sActiveList.erase timer
      timers := Function.update source.timers timer none
      schedule := Function.update source.schedule timer none }

/-- `PrvFindMinTimer` -/
def findMinTimer (source : TimerSource) : Option TimerId := source.sActiveList.head?

/-- `PrvTimerPrepare`: whether the source is ready, and the timeout. -/
def timerPrepare (source : TimerSource) : Bool × Option Int :=
  match source.findMinTimer with
  | none => (false, some (-1))
  | some minTimer =>
    let diff := source.fireTime minTimer - source.currTime
    if diff ≤ 0 then (true, none) else (false, some (toGint diff))

/-- `PrvTimerCheck` -/
def timerCheck (source : TimerSource) : Bool :=
  match source.findMinTimer with
  | none => false
  | some minTimer => source.fireTime minTimer - source.currTime ≤ 0

/-- `PrvTimerDispatch`, up to the call of the callback. -/
def timerDispatch (source : TimerSource) : TimerSource :=
  match source.findMinTimer with
  | none => source
  | some minTimer =>
    { source with
      sActiveList := source.sActiveList.erase minTimer
      called := source.called ++
        match source.timers minTimer with
        | some ⟨_, some callback, userArg⟩ => [(callback, userArg)]
        | _ => []
      schedule := Function.update source.schedule minTimer none }

end TimerSource

/-! ## Runs -/

inductive SingletonTimerEvent
  | create (timer : TimerId) (callback : Option Nat) (userArg : Nat)
  | fire (timer : TimerId) (timeInMs : UInt64)
  | delete (timer : TimerId)
  | freeze
  | thaw
  /-- The main loop comes to the source in one of its phases. -/
  | prepare
  | check
  | dispatch
  | elapse (nanoseconds : Nat)
  deriving DecidableEq, Repr

namespace TimerSource

def start : TimerSource where
  timers := fun _ => none
  sActiveList := []
  sSource := some false
  clock := 0
  timeout := none
  called := []
  schedule := fun _ => none
  calls := 0

/-- The loop prepares and checks a source only as long as it is not ready. -/
def step (source : TimerSource) (event : SingletonTimerEvent) : TimerSource :=
  let source := { source with timeout := none }
  match event with
  | .create timer callback userArg => source.create timer callback userArg
  | .fire timer timeInMs => source.fire timer timeInMs
  | .delete timer => source.delete timer
  | .freeze => { source with sSource := none }
  | .thaw =>
    match source.sSource with
    | none => { source with sSource := some false }
    | some _ => source
  | .prepare =>
    if source.sSource = some false then
      { source with
        sSource := some source.timerPrepare.1
        timeout := source.timerPrepare.2 }
    else source
  | .check =>
    if source.sSource = some false then
      { source with sSource := some source.timerCheck }
    else source
  | .dispatch =>
    if source.sSource = some true then
      { source.timerDispatch with sSource := some false }
    else source
  | .elapse nanoseconds => { source with clock := source.clock + nanoseconds }

/-- One timer is to fire before another. -/
def Before (schedule : TimerId → Option Arming) (first second : TimerId) : Prop :=
  ∀ arming ∈ schedule first, ∀ later ∈ schedule second, arming.time < later.time ∨
      arming.time = later.time ∧ arming.call < later.call

/-- The timer that is dispatched next. -/
def firesNext (source : TimerSource) : Option TimerId :=
  if source.sSource = some true then source.findMinTimer else none

/-- What the list is to be: the armed timers, each once, in the order in which
they are to fire. -/
structure ListServes (source : TimerSource) : Prop where
  nodup : source.sActiveList.Nodup
  members : ∀ timer, timer ∈ source.sActiveList ↔ (source.schedule timer).isSome
  fireTimes : ∀ timer, ∀ arming ∈ source.schedule timer,
    ∃ armed ∈ source.timers timer, armed.fireTime = arming.time
  sorted : source.sActiveList.Pairwise (Before source.schedule)

/-- The main loop has been told to wake up for the first timer. -/
def TimeoutServes (source : TimerSource) : Prop :=
  ∀ timeout ∈ source.timeout,
    match source.sActiveList with
    | [] => timeout = -1
    | timer :: _ => ∃ arming ∈ source.schedule timer, timeout = arming.time - source.currTime

/-- What the list, the dispatch and the timeout are to be. -/
structure ServesTimers (source : TimerSource) : Prop
    extends source.ListServes where
  /-- Only an armed timer of minimal time fires, when its time has come. -/
  due : ∀ timer ∈ source.firesNext, ∃ arming ∈ source.schedule timer,
    arming.time ≤ source.currTime ∧
      ∀ other, ∀ later ∈ source.schedule other, arming.time ≤ later.time
  timeout : source.TimeoutServes

/-! ## The condition -/

/-- The first timer of the list is due. -/
def HeadDue (source : TimerSource) (list : List TimerId) : Prop :=
  ∃ timer ∈ list.head?, source.fireTime timer ≤ source.currTime

/-- The condition for an event: fire times fit an `int64_t` and the time to the
first one a `gint`, and while the source waits for its dispatch no due timer is
taken from the front of the list but for another due one. -/
def EventServes (source : TimerSource) : SingletonTimerEvent → Prop
  | .fire timer timeInMs =>
    (source.timers timer).isSome → timeInMs.toNat < 2 ^ 63 ∧ (source.sSource = some true →
          timeInMs.toNat ≤ source.currTime ∨ source.HeadDue (source.sActiveList.erase timer))
  | .delete timer =>
    (source.timers timer).isSome → source.sSource = some true →
      source.sActiveList.erase timer = [] ∨ source.HeadDue (source.sActiveList.erase timer)
  | .prepare =>
    source.sSource = some false → ∀ timer ∈ source.sActiveList.head?,
        source.fireTime timer - source.currTime < 2 ^ 31
  | _ => True

/-! ## The list -/

section List

variable
  {fireTime : TimerId → Int}
  {timer : TimerId}
  {list : List TimerId}

theorem mem_insertSorted {other : TimerId} :
    other ∈ insertSorted fireTime timer list ↔ other = timer ∨ other ∈ list := by
  induction list with
  | nil => exact mem_cons
  | cons t rest ih =>
    rw [insertSorted]
    split_ifs
    · exact mem_cons
    · rw [mem_cons, ih, mem_cons]
      exact or_left_comm

theorem nodup_insertSorted (nodup : list.Nodup) (fresh : timer ∉ list) :
    (insertSorted fireTime timer list).Nodup := by
  induction list with
  | nil => exact nodup_singleton timer
  | cons t rest ih =>
    rw [insertSorted]
    split_ifs
    · exact nodup_cons.2 ⟨fresh, nodup⟩
    · have notFirst : timer ≠ t := ne_of_not_mem_cons fresh
      have freshRest := not_mem_of_not_mem_cons fresh
      have ⟨notInRest, nodupRest⟩ := nodup_cons.1 nodup
      refine nodup_cons.2
        ⟨?_, ih nodupRest freshRest⟩
      rw [mem_insertSorted, not_or]
      exact ⟨Ne.symm notFirst, notInRest⟩

/-- The place is in front of the timers that fire later, and behind all
others. -/
theorem pairwise_insertSorted {Relation : TimerId → TimerId → Prop}
    (related : list.Pairwise Relation)
    (sorted : list.Pairwise fun first second => fireTime first ≤ fireTime second)
    (before : ∀ other ∈ list, fireTime timer < fireTime other → Relation timer other)
    (behind : ∀ other ∈ list, fireTime other ≤ fireTime timer → Relation other timer) :
    (insertSorted fireTime timer list).Pairwise Relation := by
  induction list with
  | nil => exact pairwise_singleton Relation timer
  | cons t rest ih =>
    have ⟨firstRelated, restRelated⟩ := pairwise_cons.1 related
    have ⟨firstSorted, restSorted⟩ := pairwise_cons.1 sorted
    rw [insertSorted]
    split_ifs with later
    · refine pairwise_cons.2 ⟨?_, related⟩
      intro other member
      refine before other member ?_
      rcases mem_cons.1 member with rfl | inRest
      · exact later
      · exact Int.lt_of_lt_of_le later (firstSorted other inRest)
    · refine pairwise_cons.2 ⟨?_, ih restRelated
        restSorted (fun other member => before other (.tail t member))
        fun other member => behind other (.tail t member)⟩
      intro other member
      rcases mem_insertSorted.1 member with rfl | inRest
      · exact behind t (.head _) (Int.not_lt.1 later)
      · exact firstRelated other inRest

/-- The first timer behind an insertion. -/
theorem head_insertSorted {first : TimerId}
    (isFirst : first ∈ (insertSorted fireTime timer list).head?) :
    first = timer ∨ first ∈ list.head? := by
  cases list with
  | nil => exact .inl (Option.some.inj isFirst).symm
  | cons t rest =>
    rw [insertSorted] at isFirst
    split_ifs at isFirst
    · exact .inl (Option.some.inj isFirst).symm
    · exact .inr isFirst

theorem head_insertSorted_le (first : TimerId)
    (isFirst : first ∈ (insertSorted fireTime timer list).head?) : fireTime first ≤ fireTime timer ∧
      ∀ other ∈ list.head?, fireTime first ≤ fireTime other := by
  cases list with
  | nil =>
    obtain rfl := Option.some.inj isFirst
    exact ⟨Int.le_refl _, by simp⟩
  | cons t rest =>
    rw [insertSorted] at isFirst
    split_ifs at isFirst with later
    · obtain rfl := Option.some.inj isFirst
      refine ⟨Int.le_refl _, fun other isHead => ?_⟩
      obtain rfl := Option.some.inj isHead
      exact Int.le_of_lt later
    · obtain rfl := Option.some.inj isFirst
      refine ⟨Int.not_lt.1 later, fun other isHead => ?_⟩
      obtain rfl := Option.some.inj isHead
      exact Int.le_refl _

end List

/-! ## The invariant -/

/-- What the steps keep. -/
structure Sound (source : TimerSource) : Prop extends source.ListServes where
  counted : ∀ timer, ∀ arming ∈ source.schedule timer, arming.call < source.calls
  /-- A source that is ready has a due timer, or none at all. -/
  ready : source.sSource = some true → source.sActiveList = [] ∨ source.HeadDue source.sActiveList
  timeout : source.TimeoutServes

section Invariant

variable
  {source : TimerSource}

variable {timer : TimerId}

theorem ListServes.fireTime_eq (serves : source.ListServes) {arming : Arming}
    (armed : arming ∈ source.schedule timer) : source.fireTime timer = arming.time := by
  obtain ⟨live, present, equal⟩ := serves.fireTimes timer arming armed
  rw [TimerSource.fireTime, Option.mem_def.1 present]
  exact equal

theorem ListServes.exists_arming (serves : source.ListServes)
    (member : timer ∈ source.sActiveList) : ∃ arming, arming ∈ source.schedule timer :=
  Option.isSome_iff_exists.1 ((serves.members timer).1 member)

/-- The fire times ascend. -/
theorem ListServes.ascending (serves : source.ListServes) :
    source.sActiveList.Pairwise fun first second =>
      source.fireTime first ≤ source.fireTime second := by
  refine serves.sorted.imp_of_mem ?_
  intro first second firstMember secondMember before
  obtain ⟨arming, armed⟩ := serves.exists_arming firstMember
  obtain ⟨later, laterArmed⟩ := serves.exists_arming secondMember
  rw [serves.fireTime_eq armed, serves.fireTime_eq laterArmed]
  rcases before arming armed later laterArmed with earlier | ⟨same, -⟩ <;> omega

/-- The first timer of the list is one of minimal time. -/
theorem ListServes.minimal (serves : source.ListServes) (isFirst : timer ∈ source.sActiveList.head?)
    {arming : Arming} (armed : arming ∈ source.schedule timer) {other : TimerId} {later : Arming}
    (laterArmed : later ∈ source.schedule other) : arming.time ≤ later.time := by
  have member : other ∈ source.sActiveList :=
    (serves.members other).2 (Option.isSome_iff_exists.2 ⟨later, laterArmed⟩)
  obtain ⟨rest, list⟩ := head?_eq_some_iff.1 isFirst
  rw [list] at member
  rcases mem_cons.1 member with rfl | inRest
  · obtain rfl := Option.mem_unique armed laterArmed
    exact Nat.le_refl _
  · have sorted := serves.sorted
    rw [list] at sorted
    rcases (pairwise_cons.1 sorted).1 other inRest arming armed later
      laterArmed with earlier | ⟨same, -⟩ <;> omega

/-- A timer that is first and due fires next. -/
theorem Sound.serves (sound : source.Sound) : source.ServesTimers where
  toListServes := sound.toListServes
  due := by
    intro timer next
    rw [firesNext] at next
    split_ifs at next with ready
    · obtain ⟨arming, armed⟩ := sound.exists_arming (mem_of_mem_head? next)
      refine ⟨arming, armed, ?_, fun other later laterArmed => sound.minimal next armed laterArmed⟩
      rcases sound.ready ready with none | ⟨first, isFirst, due⟩
      · rw [findMinTimer, none] at next
        cases next
      · obtain rfl := Option.mem_unique next isFirst
        rw [sound.fireTime_eq armed] at due
        exact Int.ofNat_le.1 due
    · cases next
  timeout := sound.timeout

end Invariant

/-! ## Arming -/

section Arming

variable
  {source : TimerSource}
  {timer : TimerId}
  {armed : SingletonTimer}
  {timeInMs : UInt64}

theorem bmod_two_pow_64_eq_iff {number : Nat} (bounded : number < 2 ^ 64) :
    (number : Int).bmod (2 ^ 64) = number ↔ number < 2 ^ 63 := by
  rw [Int.bmod_def]
  omega

/-- The fire time is the one that was asked for, if an `int64_t` holds it. -/
theorem toInt64_eq_iff (time : UInt64) :
    (if time > 0 then toInt64 time else 0) = (time.toNat : Int) ↔
      time.toNat < 2 ^ 63 := by
  split_ifs with positive
  · exact bmod_two_pow_64_eq_iff time.toNat_lt
  · have zero : time.toNat = 0 := by
      rw [gt_iff_lt, UInt64.lt_iff_toNat_lt] at positive
      simpa using positive
    rw [zero]
    exact iff_of_true rfl (by decide)

theorem fireTime_arm : (source.arm timer armed timeInMs).fireTime timer =
      if timeInMs > 0 then toInt64 timeInMs else 0 := by
  have timers : (source.arm timer armed timeInMs).timers timer = _ :=
    Function.update_self timer _ source.timers
  rw [fireTime, timers]

theorem fireTime_arm_of_ne {other : TimerId} (distinct : other ≠ timer) :
    (source.arm timer armed timeInMs).fireTime other = source.fireTime other := by
  have timers : (source.arm timer armed timeInMs).timers other = source.timers other :=
    Function.update_of_ne distinct _ source.timers
  rw [fireTime, timers]
  rfl

theorem schedule_arm :
    (source.arm timer armed timeInMs).schedule = Function.update source.schedule timer
        (some ⟨timeInMs.toNat, source.calls⟩) := rfl

/-- The list without a timer whose place in the schedule changes. -/
theorem ListServes.erase (serves : source.ListServes) (timer : TimerId) (arming : Option Arming) :
    (source.sActiveList.erase timer).Pairwise
      (Before (Function.update source.schedule timer arming)) := by
  have kept := serves.sorted.sublist (erase_sublist (a := timer))
  refine kept.imp_of_mem ?_
  intro first second firstMember secondMember before
  have firstOther := (serves.nodup.mem_erase_iff.1 firstMember).1
  have secondOther := (serves.nodup.mem_erase_iff.1 secondMember).1
  rw [Before, Function.update_of_ne firstOther, Function.update_of_ne secondOther]
  exact before

/-- The place of the armed timer is that of the schedule. -/
theorem Sound.sorted_fire (sound : source.Sound) (armed : SingletonTimer)
    (fits : timeInMs.toNat < 2 ^ 63) :
    (insertSorted (source.arm timer armed timeInMs).fireTime timer
        (source.sActiveList.erase timer)).Pairwise
      (Before (source.arm timer armed timeInMs).schedule) := by
  have here : (source.arm timer armed timeInMs).fireTime timer =
      timeInMs.toNat := by
    rw [fireTime_arm]
    exact (toInt64_eq_iff timeInMs).2 fits
  have elsewhere : ∀ other ∈ source.sActiveList.erase timer,
      other ≠ timer ∧ (source.arm timer armed timeInMs).fireTime other =
        source.fireTime other := by
    intro other member
    have distinct := (sound.nodup.mem_erase_iff.1 member).1
    exact ⟨distinct, fireTime_arm_of_ne distinct⟩
  refine pairwise_insertSorted (sound.toListServes.erase timer _) ?_ ?_ ?_
  · refine (sound.ascending.sublist erase_sublist).imp_of_mem ?_
    intro first second firstMember secondMember ascending
    rw [(elsewhere first firstMember).2, (elsewhere second secondMember).2]
    exact ascending
  · intro other member earlier arming armedHere later armedThere
    obtain ⟨distinct, same⟩ := elsewhere other member
    rw [schedule_arm, Function.update_self] at armedHere
    rw [schedule_arm, Function.update_of_ne distinct] at armedThere
    obtain rfl := Option.some.inj armedHere
    rw [here, same, sound.fireTime_eq armedThere] at earlier
    exact .inl (Int.ofNat_lt.1 earlier)
  · intro other member notLater arming armedThere later armedHere
    obtain ⟨distinct, same⟩ := elsewhere other member
    rw [schedule_arm, Function.update_self] at armedHere
    rw [schedule_arm, Function.update_of_ne distinct] at armedThere
    obtain rfl := Option.some.inj armedHere
    rw [here, same, sound.fireTime_eq armedThere] at notLater
    have counted := sound.counted other arming armedThere
    rcases Nat.lt_or_eq_of_le (Int.ofNat_le.1 notLater) with earlier | equal
    · exact .inl earlier
    · exact .inr ⟨equal, counted⟩

end Arming

/-! ## Steps -/

section Steps

variable
  {source : TimerSource}
  {timer : TimerId}
  {live : SingletonTimer}
  {timeInMs : UInt64}

theorem fire_of_dead (absent : source.timers timer = none) :
    source.fire timer timeInMs = source := by
  rw [fire, absent]

theorem fire_of_live (present : source.timers timer = some live) :
    source.fire timer timeInMs = { source.arm timer live timeInMs with
        sActiveList :=
          insertSorted (source.arm timer live timeInMs).fireTime timer
            (source.sActiveList.erase timer) } := by
  rw [fire, present]
  rfl

theorem exists_head_insertSorted (fireTime : TimerId → Int) (timer : TimerId)
    (list : List TimerId) : ∃ first, first ∈ (insertSorted fireTime timer list).head? := by
  cases list with
  | nil => exact ⟨timer, rfl⟩
  | cons t rest =>
    rw [insertSorted]
    split_ifs
    · exact ⟨timer, rfl⟩
    · exact ⟨t, rfl⟩

variable {list : List TimerId}

/-- An armed timer that is due is in front of nothing that is not. -/
theorem headDue_insertSorted {fireTime : TimerId → Int} {now : Int}
    (due : fireTime timer ≤ now ∨ ∃ first ∈ list.head?, fireTime first ≤ now) :
    ∃ first ∈ (insertSorted fireTime timer list).head?, fireTime first ≤ now := by
  obtain ⟨first, isFirst⟩ := exists_head_insertSorted fireTime timer list
  have ⟨notLater, before⟩ := head_insertSorted_le first isFirst
  refine ⟨first, isFirst, ?_⟩
  rcases due with due | ⟨other, isHead, due⟩
  · exact Int.le_trans notLater due
  · exact Int.le_trans (before other isHead) due

/-- The head of a shorter list is as due as before. -/
theorem headDue_arm_iff (others : timer ∉ list) :
    (∃ first ∈ list.head?, (source.arm timer live timeInMs).fireTime first ≤ source.currTime) ↔
        source.HeadDue list := by
  constructor
  all_goals
    rintro ⟨first, isFirst, due⟩
    have distinct : first ≠ timer := by
      rintro rfl
      exact others (mem_of_mem_head? isFirst)
    refine ⟨first, isFirst, ?_⟩
    simpa only [fireTime_arm_of_ne distinct] using due

theorem Sound.fire (sound : source.Sound) (present : source.timers timer = some live)
    (timeout : source.timeout = none) (fits : timeInMs.toNat < 2 ^ 63)
    (due : source.sSource = some true → timeInMs.toNat ≤ source.currTime ∨
        source.HeadDue (source.sActiveList.erase timer)) : (source.fire timer timeInMs).Sound := by
  have absent : timer ∉ source.sActiveList.erase timer := sound.nodup.not_mem_erase
  have here : (source.arm timer live timeInMs).fireTime timer =
      timeInMs.toNat := by
    rw [fireTime_arm]
    exact (toInt64_eq_iff timeInMs).2 fits
  rw [fire_of_live present]
  constructor
  · constructor
    · exact nodup_insertSorted (sound.nodup.erase timer) absent
    · intro other
      rw [mem_insertSorted]
      by_cases same : other = timer
      · subst same
        simp [arm]
      · simp [arm, same, sound.members other]
    · intro other arming armed
      by_cases same : other = timer
      · subst same
        rw [schedule_arm, Function.update_self] at armed
        obtain rfl := Option.some.inj armed
        exact ⟨_, Function.update_self other _ source.timers, (toInt64_eq_iff timeInMs).2 fits⟩
      · rw [schedule_arm, Function.update_of_ne same] at armed
        obtain ⟨kept, presentToo, equal⟩ := sound.fireTimes other arming armed
        exact ⟨kept, (Function.update_of_ne same _ source.timers).trans presentToo, equal⟩
    · exact sound.sorted_fire live fits
  · intro other arming armed
    by_cases same : other = timer
    · subst same
      rw [schedule_arm, Function.update_self] at armed
      obtain rfl := Option.some.inj armed
      exact Nat.lt_succ_self source.calls
    · rw [schedule_arm, Function.update_of_ne same] at armed
      exact Nat.lt_succ_of_lt (sound.counted other arming armed)
  · intro ready
    refine .inr (headDue_insertSorted ((due ready).imp ?_ ?_))
    · intro early
      rw [here]
      exact Int.ofNat_le.2 early
    · exact (headDue_arm_iff absent).2
  · intro asked isAsked
    rw [show (source.arm timer live timeInMs).timeout = none from timeout]
      at isAsked
    cases isAsked

theorem Sound.eventServes_fire (sound : source.Sound) (present : source.timers timer = some live)
    (serves : (source.fire timer timeInMs).ServesTimers) :
    timeInMs.toNat < 2 ^ 63 ∧ (source.sSource = some true → timeInMs.toNat ≤ source.currTime ∨
          source.HeadDue (source.sActiveList.erase timer)) := by
  have absent : timer ∉ source.sActiveList.erase timer := sound.nodup.not_mem_erase
  rw [fire_of_live present] at serves
  have fits : timeInMs.toNat < 2 ^ 63 := by
    obtain ⟨armed, presentNow, equal⟩ := serves.fireTimes timer _
      (Function.update_self timer _ source.schedule)
    have isArmed := (Function.update_self timer _ source.timers).symm.trans
      presentNow
    obtain rfl := Option.some.inj isArmed
    exact (toInt64_eq_iff timeInMs).1 equal
  refine ⟨fits, fun ready => ?_⟩
  obtain ⟨first, isFirst⟩ := exists_head_insertSorted
    (source.arm timer live timeInMs).fireTime timer
      (source.sActiveList.erase timer)
  obtain ⟨arming, armed, early, -⟩ := serves.due first
    (by exact (if_pos ready).trans isFirst)
  rcases head_insertSorted isFirst with rfl | inRest
  · rw [schedule_arm, Function.update_self] at armed
    obtain rfl := Option.some.inj armed
    exact .inl early
  · have distinct : first ≠ timer := by
      rintro rfl
      exact absent (mem_of_mem_head? inRest)
    rw [schedule_arm, Function.update_of_ne distinct] at armed
    refine .inr ⟨first, inRest, ?_⟩
    rw [sound.fireTime_eq armed]
    exact Int.ofNat_le.2 early

/-- A timer that leaves the list leaves the schedule. -/
theorem ListServes.remove (serves : source.ListServes) (timer : TimerId)
    {timers : TimerId → Option SingletonTimer}
    (kept : ∀ other, other ≠ timer → timers other = source.timers other) : ListServes
      { source with
        sActiveList := source.sActiveList.erase timer
        timers := timers
        schedule := Function.update source.schedule timer none } where
  nodup := serves.nodup.erase timer
  members := by
    intro other
    rw [serves.nodup.mem_erase_iff]
    by_cases same : other = timer
    · subst same
      simp
    · simp [same, serves.members other]
  fireTimes := by
    intro other arming armed
    by_cases same : other = timer
    · subst same
      dsimp only at armed
      rw [Function.update_self] at armed
      cases armed
    · dsimp only at armed
      rw [Function.update_of_ne same] at armed
      obtain ⟨present, isPresent, equal⟩ := serves.fireTimes other arming armed
      exact ⟨present, (kept other same).trans isPresent, equal⟩
  sorted := serves.erase timer none

theorem counted_remove (sound : source.Sound) (timer : TimerId) :
    ∀ other, ∀ arming ∈ Function.update source.schedule timer none other,
      arming.call < source.calls := by
  intro other arming armed
  by_cases same : other = timer
  · subst same
    rw [Function.update_self] at armed
    cases armed
  · rw [Function.update_of_ne same] at armed
    exact sound.counted other arming armed

/-- Freeing a timer does not touch the others. -/
theorem headDue_free_iff (others : timer ∉ list) : HeadDue
      { source with
        sActiveList := source.sActiveList.erase timer
        timers := Function.update source.timers timer none
        schedule := Function.update source.schedule timer none } list ↔
        source.HeadDue list := by
  refine exists_congr fun first => and_congr_right fun isFirst => ?_
  have distinct : first ≠ timer := by
    rintro rfl
    exact others (mem_of_mem_head? isFirst)
  rw [fireTime]
  dsimp only
  rw [Function.update_of_ne distinct]
  rfl

theorem delete_of_dead (absent : source.timers timer = none) : source.delete timer = source := by
  rw [delete, absent]

theorem delete_of_live (present : source.timers timer = some live) :
    source.delete timer = { source with
        sActiveList := source.sActiveList.erase timer
        timers := Function.update source.timers timer none
        schedule := Function.update source.schedule timer none } := by
  rw [delete, present]

theorem Sound.delete (sound : source.Sound) (present : source.timers timer = some live)
    (timeout : source.timeout = none)
    (due : source.sSource = some true → source.sActiveList.erase timer = [] ∨
        source.HeadDue (source.sActiveList.erase timer)) : (source.delete timer).Sound := by
  rw [delete_of_live present]
  constructor
  · exact sound.remove timer fun other distinct => Function.update_of_ne distinct none source.timers
  · exact counted_remove sound timer
  · exact fun ready => (due ready).imp_right
      (headDue_free_iff sound.nodup.not_mem_erase).2
  · intro asked isAsked
    rw [timeout] at isAsked
    cases isAsked

theorem Sound.eventServes_delete (sound : source.Sound) (present : source.timers timer = some live)
    (serves : (source.delete timer).ServesTimers) (ready : source.sSource = some true) :
    source.sActiveList.erase timer = [] ∨
      source.HeadDue (source.sActiveList.erase timer) := by
  have absent : timer ∉ source.sActiveList.erase timer := sound.nodup.not_mem_erase
  rw [delete_of_live present] at serves
  cases list : source.sActiveList.erase timer with
  | nil => exact .inl rfl
  | cons first rest =>
    refine .inr ⟨first, rfl, ?_⟩
    obtain ⟨arming, armed, early, -⟩ := serves.due first
      (by rw [firesNext, if_pos ready, list]; rfl)
    have distinct : first ≠ timer := by
      rintro rfl
      rw [list] at absent
      exact absent (.head _)
    dsimp only at armed
    rw [Function.update_of_ne distinct] at armed
    rw [sound.fireTime_eq armed]
    exact Int.ofNat_le.2 early

/-- The first timer leaves the list for its callback. -/
theorem Sound.dispatch (sound : source.Sound) (timeout : source.timeout = none) :
    Sound { source.timerDispatch with sSource := some false } := by
  have silent : TimeoutServes
      { source.timerDispatch with sSource := some false } := by
    intro asked isAsked
    have none : source.timerDispatch.timeout = none := by
      rw [timerDispatch]
      cases source.findMinTimer <;> exact timeout
    rw [none] at isAsked
    cases isAsked
  refine ⟨?_, ?_, nofun, silent⟩
  · rw [timerDispatch]
    cases source.findMinTimer with
    | none => exact ⟨sound.nodup, sound.members, sound.fireTimes, sound.sorted⟩
    | some minTimer =>
      have removed := sound.remove minTimer fun _ _ => rfl
      exact ⟨removed.nodup, removed.members, removed.fireTimes, removed.sorted⟩
  · rw [timerDispatch]
    cases source.findMinTimer with
    | none => exact sound.counted
    | some minTimer => exact counted_remove sound minTimer

theorem Sound.create (sound : source.Sound) (timeout : source.timeout = none) (timer : TimerId)
    (callback : Option Nat) (userArg : Nat) : (source.create timer callback userArg).Sound := by
  rw [TimerSource.create]
  cases absent : source.timers timer with
  | some _ => exact sound
  | none =>
    have kept : ∀ other, (∃ arming, arming ∈ source.schedule other) →
        other ≠ timer := by
      rintro other ⟨arming, armed⟩ rfl
      obtain ⟨present, isPresent, -⟩ := sound.fireTimes other arming armed
      rw [absent] at isPresent
      cases isPresent
    refine ⟨⟨sound.nodup, sound.members, ?_, sound.sorted⟩, sound.counted, ?_, ?_⟩
    · intro other arming armed
      obtain ⟨present, isPresent, equal⟩ := sound.fireTimes other arming armed
      have distinct := kept other ⟨arming, armed⟩
      exact ⟨present, (Function.update_of_ne distinct _ _).trans isPresent, equal⟩
    · intro ready
      refine (sound.ready ready).imp_right ?_
      rintro ⟨first, isFirst, due⟩
      have distinct := kept first
        (sound.exists_arming (mem_of_mem_head? isFirst))
      refine ⟨first, isFirst, ?_⟩
      rw [fireTime] at due ⊢
      dsimp only
      rw [Function.update_of_ne distinct]
      exact due
    · intro asked isAsked
      rw [timeout] at isAsked
      cases isAsked

/-- The source may become ready when its first timer is due, and time may go
on. -/
theorem Sound.update (sound : source.Sound) {flag : Option Bool} {clock : Nat}
    {timeout : Option Int} (later : source.clock ≤ clock)
    (ready : flag = some true → source.sActiveList = [] ∨ source.HeadDue source.sActiveList)
    (serves : TimeoutServes
      { source with sSource := flag, clock := clock, timeout := timeout }) :
    Sound { source with sSource := flag, clock := clock, timeout := timeout } where
  nodup := sound.nodup
  members := sound.members
  fireTimes := sound.fireTimes
  sorted := sound.sorted
  counted := sound.counted
  ready := by
    intro isReady
    refine (ready isReady).imp_right ?_
    rintro ⟨first, isFirst, due⟩
    refine ⟨first, isFirst, Int.le_trans due ?_⟩
    have milliseconds : source.currTime ≤
        clock / 10 ^ 9 * 1000 + clock % 10 ^ 9 / 10 ^ 6 := by
      rw [currTime]
      omega
    exact Int.ofNat_le.2 milliseconds
  timeout := serves

theorem diff_nonpos_iff (time now : Int) : time - now ≤ 0 ↔ time ≤ now := by
  omega

theorem timerCheck_iff : source.timerCheck = true ↔ source.HeadDue source.sActiveList := by
  rw [timerCheck, findMinTimer, HeadDue]
  cases source.sActiveList with
  | nil => simp
  | cons first rest => simp [diff_nonpos_iff]

theorem timerPrepare_ready_iff :
    source.timerPrepare.1 = true ↔ source.HeadDue source.sActiveList := by
  rw [timerPrepare, findMinTimer, HeadDue]
  cases source.sActiveList with
  | nil => simp
  | cons first rest =>
    dsimp only [head?_cons]
    split_ifs with due
    · exact iff_of_true rfl ⟨first, rfl, (diff_nonpos_iff _ _).1 due⟩
    · refine iff_of_false (by simp) ?_
      rintro ⟨other, isFirst, dueNow⟩
      obtain rfl := Option.some.inj isFirst
      exact due ((diff_nonpos_iff _ _).2 dueNow)

theorem toGint_eq_iff {diff : Int} (positive : 0 < diff) : toGint diff = diff ↔ diff < 2 ^ 31 := by
  rw [toGint, Int.bmod_def]
  omega

/-- The timeout is right when it fits a `gint`. -/
theorem timeoutServes_prepare_iff (sound : source.Sound) (flag : Option Bool) : TimeoutServes
        { source with sSource := flag, timeout := source.timerPrepare.2 } ↔
      ∀ timer ∈ source.sActiveList.head?,
        source.fireTime timer - source.currTime < 2 ^ 31 := by
  rw [TimeoutServes, timerPrepare, findMinTimer]
  cases list : source.sActiveList with
  | nil => simp
  | cons first rest =>
    obtain ⟨arming, armed⟩ : ∃ arming, arming ∈ source.schedule first :=
      sound.exists_arming (list ▸ (.head _))
    have time := sound.fireTime_eq armed
    dsimp only [head?_cons]
    split_ifs with due
    · refine iff_of_true nofun fun timer isFirst => ?_
      obtain rfl := Option.some.inj isFirst
      exact Int.lt_of_le_of_lt due (by decide)
    · have positive := Int.not_le.1 due
      constructor
      · intro serves timer isFirst
        obtain rfl := Option.some.inj isFirst
        obtain ⟨later, armedToo, exact⟩ := serves _ rfl
        obtain rfl := Option.mem_unique armed armedToo
        rw [← toGint_eq_iff positive, exact, time]
        rfl
      · intro fits asked isAsked
        obtain rfl := Option.some.inj isAsked
        refine ⟨arming, armed, ?_⟩
        rw [(toGint_eq_iff positive).2 (fits first rfl), time]
        rfl

theorem timeoutServes_none (source : TimerSource) :
    TimeoutServes { source with timeout := none } := by
  intro asked isAsked
  cases isAsked

theorem Sound.forget (sound : source.Sound) : Sound { source with timeout := none } :=
  sound.update (Nat.le_refl _) sound.ready (timeoutServes_none source)

/-- A step that meets the condition keeps the invariant. -/
theorem Sound.step (sound : source.Sound) {event : SingletonTimerEvent}
    (meets : source.EventServes event) : (source.step event).Sound := by
  have forgotten := sound.forget
  rw [TimerSource.step.eq_def]
  cases event with
  | create timer callback userArg => exact forgotten.create rfl timer callback userArg
  | fire timer timeInMs =>
    cases present : source.timers timer with
    | none =>
      have same := @fire_of_dead { source with timeout := none } timer
        timeInMs present
      dsimp only
      rw [same]
      exact forgotten
    | some live =>
      have ⟨fits, due⟩ := meets (Option.isSome_iff_exists.2 ⟨live, present⟩)
      exact forgotten.fire present rfl fits due
  | delete timer =>
    cases present : source.timers timer with
    | none =>
      have same := @delete_of_dead { source with timeout := none } timer
        present
      dsimp only
      rw [same]
      exact forgotten
    | some live =>
      exact forgotten.delete present rfl
        (meets (Option.isSome_iff_exists.2 ⟨live, present⟩))
  | freeze => exact forgotten.update (Nat.le_refl _) nofun (timeoutServes_none _)
  | thaw =>
    dsimp only
    split
    · exact forgotten.update (Nat.le_refl _) nofun (timeoutServes_none _)
    · exact forgotten
  | prepare =>
    dsimp only
    split_ifs with waiting
    · refine forgotten.update (Nat.le_refl _) ?_
        ((timeoutServes_prepare_iff forgotten _).2 (meets waiting))
      exact fun ready => .inr (timerPrepare_ready_iff.1 (Option.some.inj ready))
    · exact forgotten
  | check =>
    dsimp only
    split_ifs with waiting
    · refine forgotten.update (Nat.le_refl _) ?_ (timeoutServes_none _)
      exact fun ready => .inr (timerCheck_iff.1 (Option.some.inj ready))
    · exact forgotten
  | dispatch =>
    dsimp only
    split_ifs
    · exact forgotten.dispatch rfl
    · exact forgotten
  | elapse nanoseconds =>
    exact forgotten.update (Nat.le_add_right source.clock nanoseconds)
      forgotten.ready
      (timeoutServes_none { source with clock := source.clock + nanoseconds })

/-- A step behind which the timers are served meets the condition. -/
theorem Sound.eventServes_of_serves (sound : source.Sound) {event : SingletonTimerEvent}
    (serves : (source.step event).ServesTimers) : source.EventServes event := by
  have forgotten := sound.forget
  rw [TimerSource.step.eq_def] at serves
  cases event with
  | fire timer timeInMs =>
    intro isLive
    obtain ⟨live, present⟩ := Option.isSome_iff_exists.1 isLive
    exact forgotten.eventServes_fire present serves
  | delete timer =>
    intro isLive
    obtain ⟨live, present⟩ := Option.isSome_iff_exists.1 isLive
    exact forgotten.eventServes_delete present serves
  | prepare =>
    intro waiting
    dsimp only at serves
    rw [if_pos waiting] at serves
    exact (timeoutServes_prepare_iff forgotten _).1 serves.timeout
  | create | freeze | thaw | check | dispatch | elapse => trivial

end Steps

theorem sound_start : start.Sound where
  nodup := .nil
  members := by simp [start]
  fireTimes := nofun
  sorted := .nil
  counted := nofun
  ready := nofun
  timeout := nofun

/-- In every run the list, the dispatches and the timeouts are what they are to
be exactly when every event meets its condition. -/
theorem servesTimers_run_iff (events : List SingletonTimerEvent) :
    (∀ reached ∈ Runs.visited step start events, reached.ServesTimers) ↔
      Runs.StepsMeet step EventServes start events :=
  Runs.visited_iff_stepsMeet_of_invariant
    (fun _ sound => sound.serves)
    (fun _ _ sound meets => sound.step meets)
    (fun _ _ sound serves => sound.eventServes_of_serves serves)
    events sound_start

/-- The timer that was due when the source was checked is gone when the source
is dispatched. -/
theorem dispatched_early : ¬∀ events : List SingletonTimerEvent,
      ∀ reached ∈ Runs.visited step start events, reached.ServesTimers := by
  intro serves
  let events : List SingletonTimerEvent :=
    [.create 1 none 0, .create 2 none 0, .fire 1 5, .fire 2 1000,
      .elapse (10 * 10 ^ 6), .check, .delete 1]
  have reached := serves events _ (Runs.final_mem_visited _ _)
  have next : (Runs.final step start events).firesNext = some 2 := by decide +kernel
  have schedule : (Runs.final step start events).schedule 2 = some ⟨1000, 1⟩ := by decide +kernel
  have now : (Runs.final step start events).currTime = 10 := by decide +kernel
  obtain ⟨arming, armed, early, -⟩ := reached.due 2 next
  rw [Option.mem_def, schedule] at armed
  obtain rfl := Option.some.inj armed
  rw [now] at early
  exact absurd early (by decide)

end TimerSource

end Timers
end PalmWebKit
