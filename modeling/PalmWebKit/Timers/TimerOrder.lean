import PalmWebKit.Timers.TimerHeap

/-!
# The order of the timer heap

The key of a timer is its fire time and then the number of its insertion.  The
comparison of the code, with its 32 bits of the insertion, agrees with the key
while the insertions are close.  Each heap operation rearranges the heap and
leaves every index at its position.
-/

namespace PalmWebKit
namespace Timers

open BinaryHeap

/-- The place of a time in the order. -/
def Time.number : Time → WithBot (WithTop ℚ)
  | .nan => ⊤
  | .value number => number

namespace ThreadTimers

variable {Timer : Type*}

/-- The fire time, and the insertion among equal times. -/
def key (state : ThreadTimers Timer) (timer : Timer) : WithBot (WithTop ℚ) ×ₗ ℕ :=
  toLex ((state.timers timer).nextFireTime.number, (state.timers timer).insertion)

/-- Fewer than `2 ^ 31 - 1` insertions from one timer to the other. -/
def Close (state : ThreadTimers Timer) (first second : Timer) : Prop :=
  (state.timers first).insertion ≠ (state.timers second).insertion ∧
    (state.timers first).insertion < (state.timers second).insertion + 2147483647 ∧
    (state.timers second).insertion < (state.timers first).insertion + 2147483647

theorem Close.symm {state : ThreadTimers Timer} {first second : Timer}
    (close : Close state first second) :
    Close state second first := ⟨Ne.symm close.1, close.2.2, close.2.1⟩

/-- The timers of a list have different keys that the code can compare. -/
structure Comparable (state : ThreadTimers Timer) (items : List Timer) : Prop where
  nodup : items.Nodup
  ne_nan : ∀ timer ∈ items, (state.timers timer).nextFireTime ≠ .nan
  differ : ∀ first ∈ items, ∀ second ∈ items, first ≠ second →
    (state.timers first).nextFireTime ≠ (state.timers second).nextFireTime ∨
      Close state first second

/-- The difference modulo `2 ^ 32` of close insertions tells which is later. -/
theorem heapInsertionOrder_sub_lt_iff {first second : TimerBase}
    (ne : first.insertion ≠ second.insertion)
    (firstClose : first.insertion < second.insertion + 2147483647)
    (secondClose : second.insertion < first.insertion + 2147483647) :
    first.heapInsertionOrder - second.heapInsertionOrder < 4294967295 / 2 ↔
      second.insertion < first.insertion := by
  rw [UInt32.lt_iff_toNat_lt, UInt32.toNat_sub]
  have half : ((4294967295 / 2 : UInt32)).toNat = 2147483647 := rfl
  have orderNat (timer : TimerBase) :
      timer.heapInsertionOrder.toNat = timer.insertion % 4294967296 := UInt32.toNat_ofNat
  rw [orderNat, orderNat]
  omega

variable {items : List Timer}

/-- On comparable timers the comparison of the code is the order of the keys. -/
theorem Comparable.agrees {state : ThreadTimers Timer} (comparable : Comparable state items) :
    Agrees state.lessThan state.key items where
  nodup := comparable.nodup
  less_iff := fun first firstMember second secondMember ne => by
    have firstNumber := comparable.ne_nan first firstMember
    have secondNumber := comparable.ne_nan second secondMember
    have differ := comparable.differ first firstMember second secondMember ne
    simp only [lessThan, key, Prod.Lex.toLex_lt_toLex]
    unfold Close at differ
    generalize (state.timers first) = firstBase at *
    generalize (state.timers second) = secondBase at *
    cases firstTime : firstBase.nextFireTime with
    | nan => exact absurd firstTime firstNumber
    | value firstValue =>
      cases secondTime : secondBase.nextFireTime with
      | nan => exact absurd secondTime secondNumber
      | value secondValue =>
        rw [firstTime, secondTime] at differ
        by_cases sameTime : secondValue = firstValue
        · subst sameTime
          obtain ⟨insertionsDiffer, firstClose, secondClose⟩ := differ.resolve_left (not_not.2 rfl)
          simp only [Time.eq, decide_true, Bool.true_eq_false, if_false, Time.number,
            lt_irrefl, true_and, false_or]
          rw [decide_eq_true_iff]
          exact heapInsertionOrder_sub_lt_iff insertionsDiffer firstClose secondClose
        · simp only [Time.eq, Time.lt, sameTime, decide_false, if_true, decide_eq_true_eq,
            Time.number, false_and, or_false]

/-! ## Indices -/

/-- Every timer of the heap, but for the one at the hole, knows its position. -/
def IndexedExcept (state : ThreadTimers Timer) (hole : Nat) : Prop :=
  ∀ (position : Nat) timer, position ≠ hole → state.timerHeap[position]? = some timer →
    (state.timers timer).heapIndex = position

def Indexed (state : ThreadTimers Timer) : Prop :=
  ∀ (position : Nat) timer, state.timerHeap[position]? = some timer →
    (state.timers timer).heapIndex = position

/-- Only indices of timers of a list have changed. -/
structure Reindexed (items : List Timer) (before after : ThreadTimers Timer) : Prop where
  same : ∀ timer, after.timers timer =
    { before.timers timer with heapIndex := (after.timers timer).heapIndex }
  outside : ∀ timer, timer ∉ items → after.timers timer = before.timers timer
  insertions_eq : after.insertions = before.insertions

theorem Reindexed.refl (items : List Timer) (state : ThreadTimers Timer) :
    Reindexed items state state := ⟨fun _ => rfl, fun _ _ => rfl, rfl⟩

theorem Reindexed.trans {first second third : ThreadTimers Timer}
    (early : Reindexed items first second) (late : Reindexed items second third) :
    Reindexed items first third where
  same := fun timer => by rw [late.same timer, early.same timer]
  outside := fun timer outside => (late.outside timer outside).trans (early.outside timer outside)
  insertions_eq := late.insertions_eq.trans early.insertions_eq

theorem Reindexed.key_eq {before after : ThreadTimers Timer}
    (reindexed : Reindexed items before after) : after.key = before.key := by
  funext timer
  rw [key, reindexed.same timer]
  rfl

section Indices

variable [DecidableEq Timer]

variable (state : ThreadTimers Timer)
include state

@[simp] theorem timers_update_self (timer : Timer) (change : TimerBase → TimerBase) :
    (state.update timer change).timers timer = change (state.timers timer) := by
  simp only [update, Function.update_self]

theorem timers_update_of_ne {timer other : Timer} (ne : other ≠ timer)
    (change : TimerBase → TimerBase) :
    (state.update timer change).timers other = state.timers other := by
  simp only [update, Function.update_of_ne ne]

@[simp] theorem timerHeap_update (timer : Timer) (change : TimerBase → TimerBase) :
    (state.update timer change).timerHeap = state.timerHeap := rfl

@[simp] theorem insertions_update (timer : Timer) (change : TimerBase → TimerBase) :
    (state.update timer change).insertions = state.insertions := rfl

theorem assign_eq {position : Nat} (inside : position < state.timerHeap.length)
    (timer : Timer) : state.assign position timer =
      { state with timerHeap := state.timerHeap.set position timer }.update timer
        (setHeapIndex position) := by
  rw [assign, if_pos (by rw [List.length_set]; exact inside)]

omit state

theorem reindexed_assign {items : List Timer} {state : ThreadTimers Timer} {position : Nat}
    (inside : position < state.timerHeap.length) {timer : Timer} (member : timer ∈ items) :
    Reindexed items state (state.assign position timer) := by
  rw [assign_eq state inside]
  refine ⟨fun other => ?_, fun other outside => ?_, rfl⟩
  · by_cases same : other = timer
    · rw [same, timers_update_self]
      rfl
    · rw [timers_update_of_ne _ same]
  · refine timers_update_of_ne _ ?_ _
    rintro rfl
    exact outside member

/-- Writing an item of the heap into the hole, the hole moving to the item. -/
theorem IndexedExcept.assign {state : ThreadTimers Timer} {hole source : Nat}
    (indexed : IndexedExcept state hole) {value timer : Timer}
    (inside : hole < state.timerHeap.length) (nodup : (state.timerHeap.set hole value).Nodup)
    (ne : source ≠ hole) (isTimer : state.timerHeap[source]? = some timer) :
    IndexedExcept (state.assign hole timer) source := by
  intro position other positionDifferent isOther
  rw [timerHeap_assign] at isOther
  rw [assign_eq state inside]
  by_cases atHole : position = hole
  · subst atHole
    rw [List.getElem?_set_self inside] at isOther
    cases isOther
    rw [timers_update_self]
    rfl
  · rw [List.getElem?_set_ne (Ne.symm atHole)] at isOther
    -- the timer has one position in the list with the hole filled
    have otherTimer : other ≠ timer := by
      rintro rfl
      have one : (state.timerHeap.set hole value)[position]? = some other := by
        rw [List.getElem?_set_ne (Ne.symm atHole), isOther]
      have two : (state.timerHeap.set hole value)[source]? = some other := by
        rw [List.getElem?_set_ne (Ne.symm ne), isTimer]
      obtain ⟨oneInside, oneEq⟩ := List.getElem?_eq_some_iff.1 one
      obtain ⟨twoInside, twoEq⟩ := List.getElem?_eq_some_iff.1 two
      exact positionDifferent
        ((List.Nodup.getElem_inj_iff nodup).1 (oneEq.trans twoEq.symm))
    rw [timers_update_of_ne _ otherTimer]
    exact indexed position other atHole isOther

theorem moved_indexed {count hole current : Nat} {state reached : ThreadTimers Timer}
    (moved : Moved writer count state hole reached current) (below : hole < count)
    (countLe : count ≤ state.timerHeap.length) {value : Timer}
    (nodup : (state.timerHeap.set hole value).Nodup) (indexed : IndexedExcept state hole) :
    IndexedExcept reached current ∧
      Reindexed (state.timerHeap.set hole value) state reached := by
  induction moved with
  | start => exact ⟨indexed, .refl _ _⟩
  | @move reached current source timer earlier sourceBelow ne isTimer
      ih =>
      obtain ⟨reachedIndexed, reindexed⟩ := ih
      have perm : (reached.timerHeap.set current value).Perm (state.timerHeap.set hole value) :=
        earlier.perm below countLe value
      have inside : current < reached.timerHeap.length := by
        have := earlier.current_lt below
        have lengthEq : reached.timerHeap.length = state.timerHeap.length := earlier.length_eq
        omega
      refine ⟨reachedIndexed.assign inside (perm.nodup_iff.2 nodup) ne isTimer,
        reindexed.trans (reindexed_assign inside (perm.subset ?_))⟩
      have stays : (reached.timerHeap.set current value)[source]? = some timer := by
        rw [List.getElem?_set_ne (Ne.symm ne)]
        exact isTimer
      exact List.mem_of_getElem? stays

end Indices

end ThreadTimers
end Timers
end PalmWebKit
