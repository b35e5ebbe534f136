import PalmWebKit.Timers.HeapOperations

/-!
# The invariant of the timer heap

What a change of the next fire time keeps, as long as the time is a number
above minus infinity and the insertions of the timers in the heap are close.
-/

namespace PalmWebKit
namespace Timers

open BinaryHeap

theorem Time.eq_eq_true_iff {first second : Time} :
    first.eq second = true ↔ first = second ∧ first ≠ .nan := by
  cases first <;> cases second <;> simp [Time.eq]

namespace ThreadTimers

variable {Timer : Type*}

/-- The timers in the heap and those outside, without the order. -/
structure Members (state : ThreadTimers Timer) : Prop where
  nodup : state.timerHeap.Nodup
  ne_nan : ∀ timer ∈ state.timerHeap, (state.timers timer).nextFireTime ≠ .nan
  finite : ∀ timer ∈ state.timerHeap, ¬ Infinite state timer
  ne_zero : ∀ timer ∈ state.timerHeap, (state.timers timer).nextFireTime ≠ 0
  idle : ∀ timer, timer ∉ state.timerHeap →
    (state.timers timer).nextFireTime = 0 ∧ (state.timers timer).heapIndex = -1
  older : ∀ timer ∈ state.timerHeap, (state.timers timer).insertion < state.insertions
  close : ∀ first ∈ state.timerHeap, ∀ second ∈ state.timerHeap, first ≠ second →
    Close state first second

/-- What every operation keeps. -/
structure Invariant (state : ThreadTimers Timer) : Prop where
  members : Members state
  indexed : Indexed state
  ordered : Ordered state.key state.timerHeap.length state.timerHeap

theorem create_invariant : Invariant (create : ThreadTimers Timer) where
  members :=
    { nodup := .nil
      ne_nan := fun _ member => absurd member List.not_mem_nil
      finite := fun _ member => absurd member List.not_mem_nil
      ne_zero := fun _ member => absurd member List.not_mem_nil
      idle := fun _ _ => ⟨rfl, rfl⟩
      older := fun _ member => absurd member List.not_mem_nil
      close := fun _ member => absurd member List.not_mem_nil }
  indexed := fun _ _ isTimer => absurd (List.mem_of_getElem? isTimer) List.not_mem_nil
  ordered := fun _ _ _ _ below => absurd below (Nat.not_lt_zero _)

theorem Members.comparable {state : ThreadTimers Timer} (members : Members state) :
    Comparable state state.timerHeap where
  nodup := members.nodup
  ne_nan := members.ne_nan
  differ := fun first firstMember second secondMember ne =>
    .inr (members.close first firstMember second secondMember ne)

theorem Members.mem_iff {state : ThreadTimers Timer} (members : Members state) (timer : Timer) :
    timer ∈ state.timerHeap ↔ (state.timers timer).nextFireTime ≠ 0 := by
  constructor
  · exact members.ne_zero timer
  · intro notZero
    by_contra outside
    exact notZero (members.idle timer outside).1

theorem Members.of_rearranged {state after : ThreadTimers Timer} (members : Members state)
    (rearranged : Rearranged state after) : Members after := by
  have mem_iff (timer : Timer) : timer ∈ after.timerHeap ↔ timer ∈ state.timerHeap :=
    rearranged.perm.mem_iff
  have same := rearranged.reindexed.same
  refine ⟨rearranged.perm.nodup_iff.2 members.nodup, fun timer member => ?_,
    fun timer member => ?_, fun timer member => ?_, fun timer outside => ?_,
    fun timer member => ?_, fun first firstMember second secondMember ne => ?_⟩
  · rw [same timer]
    exact members.ne_nan timer ((mem_iff timer).1 member)
  · rw [Infinite, same timer]
    exact members.finite timer ((mem_iff timer).1 member)
  · rw [same timer]
    exact members.ne_zero timer ((mem_iff timer).1 member)
  · have outsideBefore := fun member => outside ((mem_iff timer).2 member)
    rw [rearranged.reindexed.outside timer outsideBefore]
    exact members.idle timer outsideBefore
  · rw [same timer, rearranged.reindexed.insertions_eq]
    exact members.older timer ((mem_iff timer).1 member)
  · unfold Close
    rw [same first, same second]
    exact members.close first ((mem_iff first).1 firstMember) second
      ((mem_iff second).1 secondMember) ne

theorem Members.invariant_of_rearranged {state after : ThreadTimers Timer} (members : Members state)
    (rearranged : Rearranged state after)
    (ordered : Ordered state.key state.timerHeap.length after.timerHeap) : Invariant after where
  members := members.of_rearranged rearranged
  indexed := rearranged.indexed
  ordered := by
    rw [rearranged.reindexed.key_eq, rearranged.perm.length_eq]
    exact ordered

/-- A state that differs from one with the invariant at a single timer. -/
structure DiffersAt (timer : Timer) (state changed : ThreadTimers Timer) : Prop where
  timerHeap_eq : changed.timerHeap = state.timerHeap
  others : ∀ other, other ≠ timer → changed.timers other = state.timers other
  index : (changed.timers timer).heapIndex = (state.timers timer).heapIndex
  insertions_le : state.insertions ≤ changed.insertions

variable {state changed : ThreadTimers Timer}

theorem DiffersAt.key_eq {timer : Timer} (differs : DiffersAt timer state changed) {other : Timer}
    (ne : other ≠ timer) : changed.key other = state.key other := by
  rw [key, differs.others other ne, ← key]

theorem DiffersAt.around {timer : Timer} (differs : DiffersAt timer state changed)
    (inv : Invariant state) {position : Nat} (isTimer : state.timerHeap[position]? = some timer) :
    OrderedAround changed.key changed.timerHeap.length changed.timerHeap position := by
  obtain ⟨inside, _⟩ := List.getElem?_eq_some_iff.1 isTimer
  rw [differs.timerHeap_eq]
  refine orderedAround_congr (fun place other ne isOther => ?_)
    (inv.ordered.around position inside inside)
  refine (differs.key_eq ?_).symm
  rintro rfl
  exact ne (position_eq inv.members.nodup isOther isTimer)

/-- The last position is a hole in order. -/
theorem around_last {key : Timer → WithBot (WithTop ℚ) ×ₗ ℕ} {count : Nat} {items : List Timer}
    (ordered : Ordered key count items) (value : Timer) :
    OrderedAround key (count + 1) items count ∧
      AboveChildren key (count + 1) items count value := by
  refine ⟨⟨?_, ?_⟩, ?_⟩
  · intro position above item positive below ne _
    exact ordered position above item positive (by omega)
  · intro position above item _ positive below isChild
    omega
  · intro position item positive below isChild
    omega

section Operations

variable [DecidableEq Timer]

variable {state : ThreadTimers Timer}

/-- Fields that the heap does not look at may change. -/
theorem Invariant.update (inv : Invariant state) (timer : Timer) (change : TimerBase → TimerBase)
    (time : ∀ base, (change base).nextFireTime = base.nextFireTime)
    (index : ∀ base, (change base).heapIndex = base.heapIndex)
    (insertion : ∀ base, (change base).insertion = base.insertion) :
    Invariant (state.update timer change) := by
  have timeEq (other : Timer) : ((state.update timer change).timers other).nextFireTime =
      (state.timers other).nextFireTime := by
    by_cases same : other = timer
    · rw [same, timers_update_self, time]
    · rw [timers_update_of_ne _ same]
  have indexEq (other : Timer) : ((state.update timer change).timers other).heapIndex =
      (state.timers other).heapIndex := by
    by_cases same : other = timer
    · rw [same, timers_update_self, index]
    · rw [timers_update_of_ne _ same]
  have insertionEq (other : Timer) : ((state.update timer change).timers other).insertion =
      (state.timers other).insertion := by
    by_cases same : other = timer
    · rw [same, timers_update_self, insertion]
    · rw [timers_update_of_ne _ same]
  have keyEq : (state.update timer change).key = state.key := by
    funext other
    rw [key, timeEq, insertionEq, ← key]
  obtain ⟨members, indexed, ordered⟩ := inv
  refine ⟨⟨members.nodup, ?_, ?_, ?_, ?_, ?_, ?_⟩, ?_, ?_⟩
  · simpa only [timeEq, timerHeap_update] using members.ne_nan
  · simpa only [Infinite, timeEq, timerHeap_update] using members.finite
  · simpa only [timeEq, timerHeap_update] using members.ne_zero
  · simpa only [timeEq, indexEq, timerHeap_update] using members.idle
  · simpa only [insertionEq, timerHeap_update, insertions_update] using members.older
  · simpa only [Close, insertionEq, timerHeap_update] using members.close
  · simpa only [Indexed, indexEq, timerHeap_update] using indexed
  · rw [keyEq]
    exact ordered

variable
  {timer : Timer}
  {state changed : ThreadTimers Timer}

theorem DiffersAt.indexed (differs : DiffersAt timer state changed) (indexed : Indexed state) :
    Indexed changed := by
  intro position other isOther
  rw [differs.timerHeap_eq] at isOther
  by_cases same : other = timer
  · subst same
    rw [differs.index]
    exact indexed position other isOther
  · rw [differs.others other same]
    exact indexed position other isOther

/-- A timer whose time became zero is taken out. -/
theorem DiffersAt.removeLast_invariant {state changed popped : ThreadTimers Timer}
    (differs : DiffersAt timer state changed) (inv : Invariant state)
    (zero : (changed.timers timer).nextFireTime = 0) (rearranged : Rearranged changed popped)
    (isLast : popped.timerHeap[changed.timerHeap.length - 1]? = some timer)
    (ordered : Ordered changed.key (changed.timerHeap.length - 1) popped.timerHeap) :
    Invariant (popped.removeLast timer) ∧
      (popped.removeLast timer).insertions = changed.insertions ∧
      (∀ other, other ≠ timer → ((popped.removeLast timer).timers other).insertion =
        (state.timers other).insertion) ∧
      ((popped.removeLast timer).timers timer).repeatInterval =
        (changed.timers timer).repeatInterval ∧
      (∀ other ∈ (popped.removeLast timer).timerHeap,
        other ∈ state.timerHeap ∧ other ≠ timer) := by
  have nodup : changed.timerHeap.Nodup := differs.timerHeap_eq ▸ inv.members.nodup
  obtain ⟨perm, indexed, removedOrdered, self, others, insertionsEq⟩ :=
    removeLast_spec nodup rearranged isLast ordered
  generalize popped.removeLast timer = removed at *
  have mem_iff (other : Timer) :
      other ∈ removed.timerHeap ↔ other ≠ timer ∧ other ∈ state.timerHeap := by
    rw [perm.mem_iff, nodup.mem_erase_iff, differs.timerHeap_eq]
  have same {other : Timer} (ne : other ≠ timer) : removed.timers other =
      { state.timers other with heapIndex := (removed.timers other).heapIndex } := by
    rw [others other ne, rearranged.reindexed.same other, differs.others other ne]
  have keyOf {other : Timer} (isMember : other ∈ removed.timerHeap) :
      changed.key other = removed.key other := by
    have ne := ((mem_iff other).1 isMember).1
    rw [differs.key_eq ne]
    unfold key
    rw [same ne]
  refine ⟨⟨⟨perm.nodup_iff.2 (nodup.erase timer), ?_, ?_, ?_, ?_, ?_, ?_⟩, indexed,
    ordered_congr (fun _ _ _ isOther => keyOf (List.mem_of_getElem? isOther)) removedOrdered⟩,
    insertionsEq, ?_, ?_, fun other isMember => ((mem_iff other).1 isMember).symm⟩
  · intro other isMember
    obtain ⟨ne, wasMember⟩ := (mem_iff other).1 isMember
    rw [same ne]
    exact inv.members.ne_nan other wasMember
  · intro other isMember
    obtain ⟨ne, wasMember⟩ := (mem_iff other).1 isMember
    rw [Infinite, same ne]
    exact inv.members.finite other wasMember
  · intro other isMember
    obtain ⟨ne, wasMember⟩ := (mem_iff other).1 isMember
    rw [same ne]
    exact inv.members.ne_zero other wasMember
  · intro other outside
    by_cases isTimer : other = timer
    · rw [isTimer, self]
      exact ⟨zero, rfl⟩
    · have wasOutside : other ∉ state.timerHeap := fun wasMember =>
        outside ((mem_iff other).2 ⟨isTimer, wasMember⟩)
      rw [others other isTimer, rearranged.reindexed.outside other
        (differs.timerHeap_eq ▸ wasOutside), differs.others other isTimer]
      exact inv.members.idle other wasOutside
  · intro other isMember
    obtain ⟨ne, wasMember⟩ := (mem_iff other).1 isMember
    rw [same ne, insertionsEq]
    exact Nat.lt_of_lt_of_le (inv.members.older other wasMember) differs.insertions_le
  · intro first firstMember second secondMember ne
    obtain ⟨firstDifferent, firstWas⟩ := (mem_iff first).1 firstMember
    obtain ⟨secondDifferent, secondWas⟩ := (mem_iff second).1 secondMember
    unfold Close
    rw [same firstDifferent, same secondDifferent]
    exact inv.members.close first firstWas second secondWas ne
  · intro other ne
    rw [same ne]
  · rw [self]

/-- With the time of one timer zero, the timers of the heap stay comparable. -/
theorem DiffersAt.comparable_of_zero (differs : DiffersAt timer state changed)
    (inv : Invariant state) (zero : (changed.timers timer).nextFireTime = 0) :
    Comparable changed changed.timerHeap := by
  rw [differs.timerHeap_eq]
  refine ⟨inv.members.nodup, fun other member => ?_,
    fun first firstMember second secondMember ne => ?_⟩
  · by_cases same : other = timer
    · rw [same, zero]
      exact Time.noConfusion
    · rw [differs.others other same]
      exact inv.members.ne_nan other member
  · by_cases firstSame : first = timer
    · subst firstSame
      rw [zero, differs.others second (Ne.symm ne)]
      exact .inl fun equal => inv.members.ne_zero second secondMember equal.symm
    · by_cases secondSame : second = timer
      · subst secondSame
        rw [zero, differs.others first ne]
        exact .inl (inv.members.ne_zero first firstMember)
      · unfold Close
        rw [differs.others first firstSame, differs.others second secondSame]
        exact .inr (inv.members.close first firstMember second secondMember ne)

/-- A time that a timer may be given: a number above minus infinity, and when
the timer is inserted for it, the insertions of the other timers in the heap are
close to the next one. -/
def Schedulable (state : ThreadTimers Timer) (timer : Timer) (oldTime newTime : Time) : Prop :=
  newTime ≠ .nan ∧ newTime ≠ Time.negativeInfinity ∧ (newTime ≠ 0 → newTime ≠ oldTime →
      ∀ other ∈ state.timerHeap, other ≠ timer →
        state.insertions < (state.timers other).insertion + 2147483647)

/-- A timer with a new time and the next insertion is among those of the heap. -/
structure Scheduled (timer : Timer) (newTime : Time)
    (state scheduled : ThreadTimers Timer) : Prop where
  nodup : scheduled.timerHeap.Nodup
  mem_iff : ∀ other, other ∈ scheduled.timerHeap ↔ other = timer ∨ other ∈ state.timerHeap
  others : ∀ other, other ≠ timer → scheduled.timers other = state.timers other
  time : (scheduled.timers timer).nextFireTime = newTime
  insertion : (scheduled.timers timer).insertion = state.insertions
  insertions_eq : scheduled.insertions = state.insertions + 1

variable {newTime : Time}

theorem Scheduled.members {state scheduled : ThreadTimers Timer}
    (isScheduled : Scheduled timer newTime state scheduled) (members : Members state)
    (schedulable : Schedulable state timer (state.timers timer).nextFireTime newTime)
    (notZero : newTime ≠ 0) (isNew : newTime ≠ (state.timers timer).nextFireTime) :
    Members scheduled := by
  obtain ⟨notNan, notInfinite, near⟩ := schedulable
  have wasMember {other : Timer} (member : other ∈ scheduled.timerHeap)
      (ne : other ≠ timer) : other ∈ state.timerHeap :=
    ((isScheduled.mem_iff other).1 member).resolve_left ne
  have closeTo {other : Timer} (member : other ∈ scheduled.timerHeap)
      (ne : other ≠ timer) : Close scheduled timer other := by
    have old := wasMember member ne
    have older := members.older other old
    have window := near notZero isNew other old ne
    unfold Close
    rw [isScheduled.others other ne, isScheduled.insertion]
    omega
  refine ⟨isScheduled.nodup, fun other member => ?_, fun other member => ?_,
    fun other member => ?_, fun other outside => ?_, fun other member => ?_,
    fun first firstMember second secondMember ne => ?_⟩
  · by_cases same : other = timer
    · rw [same, isScheduled.time]
      exact notNan
    · rw [isScheduled.others other same]
      exact members.ne_nan other (wasMember member same)
  · by_cases same : other = timer
    · rw [same, Infinite, isScheduled.time]
      exact notInfinite
    · rw [Infinite, isScheduled.others other same]
      exact members.finite other (wasMember member same)
  · by_cases same : other = timer
    · rw [same, isScheduled.time]
      exact notZero
    · rw [isScheduled.others other same]
      exact members.ne_zero other (wasMember member same)
  · rw [isScheduled.mem_iff, not_or] at outside
    rw [isScheduled.others other outside.1]
    exact members.idle other outside.2
  · by_cases same : other = timer
    · rw [same, isScheduled.insertion, isScheduled.insertions_eq]
      exact Nat.lt_succ_self _
    · rw [isScheduled.others other same, isScheduled.insertions_eq]
      exact Nat.lt_succ_of_lt (members.older other (wasMember member same))
  · by_cases firstSame : first = timer
    · subst firstSame
      exact closeTo secondMember (Ne.symm ne)
    · by_cases secondSame : second = timer
      · subst secondSame
        exact (closeTo firstMember ne).symm
      · unfold Close
        rw [isScheduled.others first firstSame, isScheduled.others second secondSame]
        exact members.close first (wasMember firstMember firstSame) second
          (wasMember secondMember secondSame) ne

/-- `heapDecreaseKey` of the last timer of an ordered heap. -/
theorem heapDecreaseKey_last_invariant {count : Nat} (members : Members state)
    (indexed : Indexed state) (lengthEq : state.timerHeap.length = count + 1)
    (isLast : state.timerHeap[count]? = some timer)
    (ordered : Ordered state.key count state.timerHeap) :
    Invariant (state.heapDecreaseKey timer) := by
  obtain ⟨around, children⟩ := around_last ordered timer
  rw [← lengthEq] at around children
  obtain ⟨rearranged, result⟩ :=
    heapDecreaseKey_spec isLast indexed members.comparable around children
  exact members.invariant_of_rearranged rearranged result

/-- A timer that is not in the heap is inserted. -/
theorem heapInsert_invariant (inv : Invariant state) (outside : timer ∉ state.timerHeap)
    (schedulable : Schedulable state timer (state.timers timer).nextFireTime newTime)
    (notZero : newTime ≠ 0) (isNew : newTime ≠ (state.timers timer).nextFireTime)
    (differs : DiffersAt timer state changed) (time : (changed.timers timer).nextFireTime = newTime)
    (insertion : (changed.timers timer).insertion = state.insertions)
    (insertionsEq : changed.insertions = state.insertions + 1) :
    Invariant (changed.heapInsert timer) := by
  rw [heapInsert, differs.timerHeap_eq]
  generalize baseEq : ThreadTimers.update
    { changed with timerHeap := state.timerHeap ++ [timer] } timer
    (setHeapIndex ((state.timerHeap ++ [timer]).length - 1)) = base
  have heapEq : base.timerHeap = state.timerHeap ++ [timer] := baseEq ▸ rfl
  have selfEq : base.timers timer =
      { changed.timers timer with heapIndex := state.timerHeap.length } := by
    rw [← baseEq, timers_update_self, List.length_append, setHeapIndex]
    simp
  have othersEq {other : Timer} (ne : other ≠ timer) : base.timers other = state.timers other := by
    rw [← baseEq, timers_update_of_ne _ ne]
    exact differs.others other ne
  have isScheduled : Scheduled timer newTime state base := by
    refine ⟨?_, fun other => ?_, fun other => othersEq, ?_, ?_, ?_⟩
    · rw [heapEq, List.nodup_append]
      refine ⟨inv.members.nodup, List.nodup_singleton _, ?_⟩
      rintro first member second isTimer rfl
      exact outside (List.mem_singleton.1 isTimer ▸ member)
    · rw [heapEq, List.mem_append, List.mem_singleton, or_comm]
    · rw [selfEq]
      exact time
    · rw [selfEq]
      exact insertion
    · rw [← baseEq]
      exact insertionsEq
  refine heapDecreaseKey_last_invariant
    (isScheduled.members inv.members schedulable notZero isNew) ?_
    (by rw [heapEq, List.length_append, List.length_singleton])
    (by rw [heapEq, List.getElem?_concat_length]) ?_
  · intro position other isOther
    rw [heapEq] at isOther
    by_cases same : other = timer
    · subst same
      have isEnd : (state.timerHeap ++ [other])[state.timerHeap.length]? = some other :=
        List.getElem?_concat_length
      rw [selfEq, position_eq (heapEq ▸ isScheduled.nodup) isOther isEnd]
    · have inside : position < state.timerHeap.length := by
        by_contra past
        have lengthLt := (List.getElem?_eq_some_iff.1 isOther).1
        rw [List.length_append, List.length_singleton] at lengthLt
        have isEnd : position = state.timerHeap.length := by omega
        rw [isEnd, List.getElem?_concat_length] at isOther
        exact same (Option.some.inj isOther).symm
      rw [List.getElem?_append_left inside] at isOther
      rw [othersEq same]
      exact inv.indexed position other isOther
  · have old : Ordered state.key state.timerHeap.length (state.timerHeap ++ [timer]) := by
      intro position above item positive below isAbove isItem
      rw [List.getElem?_append_left (by omega)] at isAbove isItem
      exact inv.ordered position above item positive below isAbove isItem
    rw [heapEq]
    refine ordered_congr (fun position item below isItem => ?_) old
    rw [List.getElem?_append_left below] at isItem
    have ne : item ≠ timer := by
      rintro rfl
      exact outside (List.mem_of_getElem? isItem)
    unfold key
    rw [othersEq ne]

/-- A timer in the heap is given an earlier or a later time. -/
theorem moved_invariant (inv : Invariant state) (member : timer ∈ state.timerHeap)
    (schedulable : Schedulable state timer (state.timers timer).nextFireTime newTime)
    (notZero : newTime ≠ 0) (isNew : newTime ≠ (state.timers timer).nextFireTime)
    (differs : DiffersAt timer state changed) (time : (changed.timers timer).nextFireTime = newTime)
    (insertion : (changed.timers timer).insertion = state.insertions)
    (insertionsEq : changed.insertions = state.insertions + 1) :
    (newTime.lt (state.timers timer).nextFireTime = true →
        Invariant (changed.heapDecreaseKey timer)) ∧
      Invariant (changed.heapIncreaseKey timer) := by
  obtain ⟨position, inside, timerEq⟩ := List.getElem_of_mem member
  have isTimer : state.timerHeap[position]? = some timer :=
    List.getElem?_eq_some_iff.2 ⟨inside, timerEq⟩
  have isScheduled : Scheduled timer newTime state changed := by
    refine ⟨differs.timerHeap_eq ▸ inv.members.nodup, fun other => ?_, differs.others,
      time, insertion, insertionsEq⟩
    rw [differs.timerHeap_eq]
    constructor
    · exact .inr
    · rintro (rfl | isMember)
      · exact member
      · exact isMember
  have members := isScheduled.members inv.members schedulable notZero isNew
  have around := differs.around inv isTimer
  have indexed := differs.indexed inv.indexed
  have isChanged : changed.timerHeap[position]? = some timer := differs.timerHeap_eq ▸ isTimer
  constructor
  · intro earlier
    have children : AboveChildren changed.key changed.timerHeap.length changed.timerHeap position
        timer := by
      rw [differs.timerHeap_eq]
      intro place other positive below isChild isOther
      have ne : other ≠ timer := by
        rintro rfl
        have := position_eq inv.members.nodup isOther isTimer
        omega
      have lower : changed.key timer < state.key timer := by
        unfold key
        rw [Prod.Lex.toLex_lt_toLex, time]
        refine .inl ?_
        cases newTime with
        | nan => exact absurd rfl schedulable.1
        | value newValue =>
          cases oldTime : (state.timers timer).nextFireTime with
          | nan => exact absurd oldTime (inv.members.ne_nan timer member)
          | value oldValue =>
            rw [oldTime] at earlier
            exact of_decide_eq_true earlier
      rw [differs.key_eq ne]
      exact lower.le.trans (inv.ordered place timer other positive below
        (isChild ▸ isTimer) isOther)
    obtain ⟨rearranged, ordered⟩ :=
      heapDecreaseKey_spec isChanged indexed members.comparable around children
    exact members.invariant_of_rearranged rearranged ordered
  · obtain ⟨rearranged, isLast, ordered⟩ := heapPop_spec isChanged indexed members.comparable
      (fun other isMember _ => members.finite other isMember) around
    have lengthEq : (changed.heapPop timer).timerHeap.length = changed.timerHeap.length :=
      rearranged.perm.length_eq
    refine heapDecreaseKey_last_invariant (members.of_rearranged rearranged) rearranged.indexed
      ?_ isLast ?_
    · rw [lengthEq, differs.timerHeap_eq]
      omega
    · rw [rearranged.reindexed.key_eq]
      exact ordered

theorem changeNextFireTime_invariant (inv : Invariant state)
    (schedulable : Schedulable state timer (state.timers timer).nextFireTime newTime) :
    Invariant (state.changeNextFireTime timer newTime) := by
  unfold changeNextFireTime
  dsimp only
  split
  · rename_i isDifferent
    have isNew : newTime ≠ (state.timers timer).nextFireTime := by
      rintro equal
      have same := Time.eq_eq_true_iff.2 ⟨equal.symm, equal ▸ schedulable.1⟩
      exact absurd (same.symm.trans isDifferent) (by decide)
    generalize changedEq : ThreadTimers.update { state with insertions := state.insertions + 1 }
      timer (fun base => { base with nextFireTime := newTime, insertion := state.insertions }) =
        changed
    have self : changed.timers timer =
        { state.timers timer with nextFireTime := newTime, insertion := state.insertions } := by
      rw [← changedEq, timers_update_self]
    have insertionsEq : changed.insertions = state.insertions + 1 := changedEq ▸ rfl
    have differs : DiffersAt timer state changed := by
      refine ⟨changedEq ▸ rfl, fun other ne => ?_, by rw [self], ?_⟩
      · rw [← changedEq, timers_update_of_ne _ ne]
      · rw [insertionsEq]
        exact Nat.le_succ _
    by_cases wasZero : (state.timers timer).nextFireTime.eq 0 = true
    · rw [if_pos wasZero]
      have oldZero := (Time.eq_eq_true_iff.1 wasZero).1
      have outside : timer ∉ state.timerHeap := fun member =>
        inv.members.ne_zero timer member oldZero
      exact heapInsert_invariant inv outside schedulable (oldZero ▸ isNew) isNew differs
        (by rw [self]) (by rw [self]) insertionsEq
    · rw [if_neg wasZero]
      have member : timer ∈ state.timerHeap := by
        rw [inv.members.mem_iff]
        intro zero
        exact wasZero (Time.eq_eq_true_iff.2 ⟨zero, zero ▸ Time.noConfusion⟩)
      by_cases isZero : newTime.eq 0 = true
      · rw [if_pos isZero]
        have zero : (changed.timers timer).nextFireTime = 0 := by
          rw [self]
          exact (Time.eq_eq_true_iff.1 isZero).1
        obtain ⟨position, inside, timerEq⟩ := List.getElem_of_mem member
        have isTimer : state.timerHeap[position]? = some timer :=
          List.getElem?_eq_some_iff.2 ⟨inside, timerEq⟩
        obtain ⟨rearranged, isLast, ordered⟩ := heapPop_spec (differs.timerHeap_eq ▸ isTimer)
          (differs.indexed inv.indexed) (differs.comparable_of_zero inv zero)
          (fun other isMember ne => by
            rw [Infinite, differs.others other ne]
            exact inv.members.finite other (differs.timerHeap_eq ▸ isMember))
          (differs.around inv isTimer)
        exact (differs.removeLast_invariant inv zero rearranged isLast ordered).1
      · rw [if_neg isZero]
        have notZero : newTime ≠ 0 := fun equal =>
          isZero (Time.eq_eq_true_iff.2 ⟨equal, schedulable.1⟩)
        obtain ⟨decreased, increased⟩ := moved_invariant inv member schedulable notZero
          isNew differs (by rw [self]) (by rw [self]) insertionsEq
        split
        · rename_i earlier
          exact decreased earlier
        · exact increased
  · exact inv

end Operations

end ThreadTimers
end Timers
end PalmWebKit
