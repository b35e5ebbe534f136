import PalmWebKit.Timers.TimerOrder

/-!
# The operations of the timer heap

What the operations that push, pop and delete do to a heap in which one timer
may be out of place.
-/

namespace PalmWebKit
namespace Timers

open List BinaryHeap

namespace ThreadTimers

variable {Timer : Type*}

variable {items : List Timer}

variable {first second : Timer → WithBot (WithTop ℚ) ×ₗ ℕ}

/-- The order does not depend on the keys of items that are not below `count`. -/
theorem ordered_congr {count : Nat}
    (same : ∀ (position : Nat) item, position < count → items[position]? = some item →
      first item = second item)
    (ordered : Ordered first count items) : Ordered second count items := by
  intro position above item positive below isAbove isItem
  rw [← same _ above (by omega) isAbove, ← same position item below isItem]
  exact ordered position above item positive below isAbove isItem

/-- The order around a hole does not depend on the key of the item there. -/
theorem orderedAround_congr {count hole : Nat}
    (same : ∀ (position : Nat) item, position ≠ hole → items[position]? = some item →
      first item = second item)
    (around : OrderedAround first count items hole) : OrderedAround second count items hole where
  except := fun position above item positive below ne parentDifferent isAbove isItem => by
    rw [← same _ above parentDifferent isAbove, ← same position item ne isItem]
    exact around.except position above item positive below ne parentDifferent isAbove
      isItem
  across := fun position above item holePositive positive below isChild isAbove isItem => by
    rw [← same _ above (by omega) isAbove, ← same position item (by omega) isItem]
    exact around.across position above item holePositive positive below isChild isAbove isItem

variable {before after : ThreadTimers Timer}

theorem Comparable.of_reindexed {items others : List Timer} (comparable : Comparable before items)
    (perm : others.Perm items) {changed : List Timer}
    (reindexed : Reindexed changed before after) : Comparable after others where
  nodup := perm.nodup_iff.2 comparable.nodup
  ne_nan := fun timer member => by
    rw [reindexed.same timer]
    exact comparable.ne_nan timer (perm.subset member)
  differ := fun first firstMember second secondMember ne => by
    unfold Close
    rw [reindexed.same first, reindexed.same second]
    exact comparable.differ first (perm.subset firstMember) second (perm.subset secondMember)
      ne

/-- The timers of the heap are the same ones, in another order, and each knows
its new position. -/
structure Rearranged (before after : ThreadTimers Timer) : Prop where
  perm : after.timerHeap.Perm before.timerHeap
  reindexed : Reindexed before.timerHeap before after
  indexed : Indexed after

/-- Two positions of a list without repetitions hold different items. -/
theorem position_eq (nodup : items.Nodup) {first second : Nat} {item : Timer}
    (isFirst : items[first]? = some item) (isSecond : items[second]? = some item) :
    first = second := by
  obtain ⟨firstInside, firstEq⟩ := List.getElem?_eq_some_iff.1 isFirst
  obtain ⟨secondInside, secondEq⟩ := List.getElem?_eq_some_iff.1 isSecond
  exact (List.Nodup.getElem_inj_iff nodup).1 (firstEq.trans secondEq.symm)

theorem Reindexed.of_perm {first second : List Timer} (perm : first.Perm second)
    (reindexed : Reindexed first before after) : Reindexed second before after where
  same := reindexed.same
  outside := fun timer outside => reindexed.outside timer fun member => outside (perm.subset member)
  insertions_eq := reindexed.insertions_eq

/-- A time below every time of a heap. -/
def Infinite (state : ThreadTimers Timer) (timer : Timer) : Prop :=
  (state.timers timer).nextFireTime = Time.negativeInfinity

theorem lt_key_of_infinite {state : ThreadTimers Timer} {timer other : Timer}
    (infinite : Infinite state timer) (finite : ¬ Infinite state other)
    (isNumber : (state.timers other).nextFireTime ≠ .nan) : state.key timer < state.key other := by
  unfold key Infinite at *
  rw [Prod.Lex.toLex_lt_toLex, infinite]
  refine .inl ?_
  cases otherTime : (state.timers other).nextFireTime with
  | nan => exact absurd otherTime isNumber
  | value number =>
    refine bot_lt_iff_ne_bot.2 ?_
    rintro rfl
    exact finite otherTime

section Operations

variable [DecidableEq Timer]

/-- What placing a value in the hole does to the heap it was taken from. -/
theorem placed_rearranged {key : Timer → WithBot (WithTop ℚ) ×ₗ ℕ} {count hole : Nat}
    {value : Timer} {original state result : ThreadTimers Timer}
    (placed : Placed writer key count value state hole result) (below : hole < count)
    (countLe : count ≤ state.timerHeap.length) (nodup : original.timerHeap.Nodup)
    (perm : (state.timerHeap.set hole value).Perm original.timerHeap)
    (indexed : IndexedExcept state hole) (reindexed : Reindexed original.timerHeap original state) :
    Rearranged original result ∧ Ordered key count result.timerHeap ∧ ∀ position, count ≤ position →
        result.timerHeap[position]? = state.timerHeap[position]? := by
  obtain ⟨reached, current, moved, rfl, ordered⟩ := placed
  obtain ⟨reachedIndexed, movedReindexed⟩ :=
    moved_indexed moved below countLe (perm.nodup_iff.2 nodup) indexed
  have currentBelow := moved.current_lt below
  have reachedLength : reached.timerHeap.length = state.timerHeap.length := moved.length_eq
  have inside : current < reached.timerHeap.length := by omega
  have filled : (reached.timerHeap.set current value).Perm (state.timerHeap.set hole value) :=
    moved.perm below countLe value
  have valueMember : value ∈ original.timerHeap :=
    (filled.trans perm).subset (mem_of_getElem? (getElem?_set_self inside))
  change Rearranged original (reached.assign current value) ∧
    Ordered key count (reached.assign current value).timerHeap ∧ _
  refine ⟨⟨?_, ?_, ?_⟩, ordered, ?_⟩
  · rw [timerHeap_assign]
    exact filled.trans perm
  · exact (reindexed.trans (movedReindexed.of_perm perm)).trans
      (reindexed_assign inside valueMember)
  · intro position timer isTimer
    rw [timerHeap_assign] at isTimer
    rw [assign_eq reached inside]
    by_cases same : position = current
    · subst same
      rw [getElem?_set_self inside] at isTimer
      cases isTimer
      rw [timers_update_self]
      rfl
    · have ne : timer ≠ value := by
        rintro rfl
        exact same (position_eq ((filled.trans perm).nodup_iff.2 nodup) isTimer
          (getElem?_set_self inside))
      rw [getElem?_set_ne (Ne.symm same)] at isTimer
      rw [timers_update_of_ne _ ne]
      exact reachedIndexed position timer same isTimer
  · intro position outside
    have frame : reached.timerHeap[position]? = state.timerHeap[position]? :=
      moved.frame below outside
    change (reached.assign current value).timerHeap[position]? = _
    rw [timerHeap_assign, getElem?_set_ne (by omega), frame]

variable
  {state : ThreadTimers Timer}
  {timer : Timer}

theorem heapDecreaseKey_spec {position : Nat} (isTimer : state.timerHeap[position]? = some timer)
    (indexed : Indexed state) (comparable : Comparable state state.timerHeap)
    (around : OrderedAround state.key state.timerHeap.length state.timerHeap position)
    (children : AboveChildren state.key state.timerHeap.length state.timerHeap position
      timer) : Rearranged state (state.heapDecreaseKey timer) ∧
      Ordered state.key state.timerHeap.length (state.heapDecreaseKey timer).timerHeap := by
  obtain ⟨inside, timerEq⟩ := List.getElem?_eq_some_iff.1 isTimer
  have range : ((state.timers timer).heapIndex + 1).toNat = position + 1 := by
    rw [indexed position timer isTimer]
    rfl
  have placed : Placed writer state.key state.timerHeap.length timer state position
      (state.heapDecreaseKey timer) := by
    rw [heapDecreaseKey, range]
    exact pushHeap_placed inside (Nat.le_refl _) isTimer comparable.agrees around children
  have filled : state.timerHeap.set position timer = state.timerHeap := by
    rw [← timerEq, List.set_getElem_self]
  obtain ⟨rearranged, ordered, _⟩ := placed_rearranged placed inside (Nat.le_refl _)
    comparable.nodup (by rw [filled])
    (fun other timer _ isOther => indexed other timer isOther) (.refl _ _)
  exact ⟨rearranged, ordered⟩

theorem heapPopMin_spec {first : Timer} (isFirst : state.timerHeap[0]? = some first)
    (indexed : Indexed state) (comparable : Comparable state state.timerHeap)
    (around : OrderedAround state.key (state.timerHeap.length - 1) state.timerHeap 0) :
    Rearranged state state.heapPopMin ∧
      state.heapPopMin.timerHeap[state.timerHeap.length - 1]? = some first ∧
      Ordered state.key (state.timerHeap.length - 1) state.heapPopMin.timerHeap := by
  obtain ⟨inside, firstEq⟩ := List.getElem?_eq_some_iff.1 isFirst
  by_cases several : 1 < state.timerHeap.length
  · have lastInside : state.timerHeap.length - 1 < state.timerHeap.length := by omega
    have isLast := List.getElem?_eq_getElem lastInside
    generalize state.timerHeap[state.timerHeap.length - 1] = last at isLast
    have placed : Placed writer state.key (state.timerHeap.length - 1) last
        (state.assign (state.timerHeap.length - 1) first) 0 state.heapPopMin :=
      popHeap_placed several rfl isFirst isLast comparable.agrees around
    have exchanged : (((state.assign (state.timerHeap.length - 1) first).timerHeap).set 0 last).Perm
          state.timerHeap := by
      have perm := @set_move_perm _ state.timerHeap (state.timerHeap.length - 1) 0 first last
        (by omega) lastInside isFirst
      obtain ⟨_, lastEq⟩ := List.getElem?_eq_some_iff.1 isLast
      rw [timerHeap_assign]
      rw [← lastEq, List.set_getElem_self] at perm
      rw [← lastEq]
      exact perm
    have firstMember : first ∈ state.timerHeap := mem_of_getElem? isFirst
    have nodup : (state.timerHeap.set (state.timerHeap.length - 1) last).Nodup := by
      obtain ⟨_, lastEq⟩ := List.getElem?_eq_some_iff.1 isLast
      rw [← lastEq, List.set_getElem_self]
      exact comparable.nodup
    have exceptLast : IndexedExcept state (state.timerHeap.length - 1) :=
      fun position timer _ isTimer => indexed position timer isTimer
    obtain ⟨rearranged, ordered, frame⟩ := placed_rearranged placed (by omega)
      (by rw [timerHeap_assign, length_set]; omega) comparable.nodup exchanged
      (exceptLast.assign lastInside nodup (by omega) isFirst)
      (reindexed_assign lastInside firstMember)
    refine ⟨rearranged, ?_, ordered⟩
    rw [frame _ (Nat.le_refl _), timerHeap_assign, getElem?_set_self lastInside]
  · have single : state.timerHeap.length - 1 = 0 := by omega
    have popped : state.heapPopMin = state := by rw [heapPopMin, popHeap, if_neg several]
    rw [popped, single]
    exact ⟨⟨.refl _, .refl _ _, indexed⟩, isFirst,
      fun _ _ _ positive below => absurd below (by omega)⟩

/-- `heapPop` takes a timer to the end of the heap, whatever its own key. -/
theorem heapPop_spec {position : Nat} (isTimer : state.timerHeap[position]? = some timer)
    (indexed : Indexed state) (comparable : Comparable state state.timerHeap)
    (finite : ∀ other ∈ state.timerHeap, other ≠ timer → ¬ Infinite state other)
    (around : OrderedAround state.key state.timerHeap.length state.timerHeap position) :
    Rearranged state (state.heapPop timer) ∧
      (state.heapPop timer).timerHeap[state.timerHeap.length - 1]? = some timer ∧
      Ordered state.key (state.timerHeap.length - 1) (state.heapPop timer).timerHeap := by
  obtain ⟨inside, _⟩ := List.getElem?_eq_some_iff.1 isTimer
  rw [heapPop]
  generalize loweredEq : state.update timer (withNextFireTime Time.negativeInfinity) = lowered
  have loweredHeap : lowered.timerHeap = state.timerHeap := loweredEq ▸ rfl
  have loweredSelf : lowered.timers timer =
      { state.timers timer with nextFireTime := Time.negativeInfinity } := by
    rw [← loweredEq, timers_update_self]
    rfl
  have loweredOther {other : Timer} (ne : other ≠ timer) :
      lowered.timers other = state.timers other := by
    rw [← loweredEq, timers_update_of_ne _ ne]
  have infinite : Infinite lowered timer := by rw [Infinite, loweredSelf]
  have loweredFinite {other : Timer} (member : other ∈ state.timerHeap)
      (ne : other ≠ timer) : ¬ Infinite lowered other := by
    rw [Infinite, loweredOther ne]
    exact finite other member ne
  have loweredIndexed : Indexed lowered := by
    intro place other isOther
    rw [loweredHeap] at isOther
    by_cases same : other = timer
    · subst same
      rw [loweredSelf]
      exact indexed place other isOther
    · rw [loweredOther same]
      exact indexed place other isOther
  have loweredComparable : Comparable lowered lowered.timerHeap := by
    rw [loweredHeap]
    refine ⟨comparable.nodup, fun other member => ?_, fun first firstMember second secondMember
      ne => ?_⟩
    · by_cases same : other = timer
      · rw [same, loweredSelf]
        exact Time.noConfusion
      · rw [loweredOther same]
        exact comparable.ne_nan other member
    · by_cases firstSame : first = timer
      · subst firstSame
        exact .inl fun equal =>
          loweredFinite secondMember (Ne.symm ne) (equal.symm.trans infinite)
      · by_cases secondSame : second = timer
        · subst secondSame
          exact .inl fun equal => loweredFinite firstMember ne (equal.trans infinite)
        · unfold Close
          rw [loweredOther firstSame, loweredOther secondSame]
          exact comparable.differ first firstMember second secondMember ne
  have otherAt {place : Nat} {other : Timer} (ne : place ≠ position)
      (isOther : state.timerHeap[place]? = some other) : other ≠ timer := by
    rintro rfl
    exact ne (position_eq comparable.nodup isOther isTimer)
  have keyOther {other : Timer} (ne : other ≠ timer) : lowered.key other = state.key other := by
    rw [key, loweredOther ne, ← key]
  have loweredAround : OrderedAround lowered.key lowered.timerHeap.length lowered.timerHeap
      position := by
    rw [loweredHeap]
    refine orderedAround_congr (fun place other ne isOther => ?_) around
    exact (keyOther (otherAt ne isOther)).symm
  have loweredChildren : AboveChildren lowered.key lowered.timerHeap.length lowered.timerHeap
      position timer := by
    rw [loweredHeap]
    intro place other positive below isChild isOther
    have ne := otherAt (by omega) isOther
    have member := List.mem_of_getElem? isOther
    refine (lt_key_of_infinite infinite (loweredFinite member ne) ?_).le
    exact loweredComparable.ne_nan other (loweredHeap ▸ member)
  obtain ⟨pushed, pushedOrdered⟩ := heapDecreaseKey_spec (loweredHeap ▸ isTimer) loweredIndexed
    loweredComparable loweredAround loweredChildren
  generalize lowered.heapDecreaseKey timer = raised at pushed pushedOrdered
  have raisedLength : raised.timerHeap.length = lowered.timerHeap.length := pushed.perm.length_eq
  -- the lowered timer is the first one
  have isFirst : raised.timerHeap[0]? = some timer := by
    have firstInside : 0 < raised.timerHeap.length := by
      rw [raisedLength, loweredHeap]
      omega
    have isItem := List.getElem?_eq_getElem firstInside
    generalize raised.timerHeap[0] = first at isItem
    have timerMember : timer ∈ raised.timerHeap :=
      pushed.perm.symm.subset (loweredHeap ▸ List.mem_of_getElem? isTimer)
    obtain ⟨place, placeInside, placeEq⟩ := List.getElem_of_mem timerMember
    have firstLe := pushedOrdered.first_le raisedLength.ge isItem (raisedLength ▸ placeInside)
      (List.getElem?_eq_some_iff.2 ⟨placeInside, placeEq⟩)
    by_cases same : first = timer
    · rw [isItem, same]
    · have firstMember : first ∈ lowered.timerHeap :=
        pushed.perm.subset (List.mem_of_getElem? isItem)
      exact absurd firstLe (not_le.2 (lt_key_of_infinite infinite (loweredFinite (loweredHeap ▸
        firstMember) same) (loweredComparable.ne_nan first firstMember)))
  have raisedKey : raised.key = lowered.key := pushed.reindexed.key_eq
  have raisedAround :
      OrderedAround raised.key (raised.timerHeap.length - 1) raised.timerHeap 0 := by
    rw [raisedKey]
    refine ⟨fun place above item positive below ne parentDifferent => ?_,
      fun _ _ _ positive => absurd positive (Nat.lt_irrefl 0)⟩
    exact pushedOrdered place above item positive (by omega)
  obtain ⟨popped, poppedLast, poppedOrdered⟩ := heapPopMin_spec isFirst pushed.indexed
    (loweredComparable.of_reindexed pushed.perm pushed.reindexed) raisedAround
  generalize raised.heapPopMin = result at popped poppedLast poppedOrdered
  rw [raisedKey, raisedLength, loweredHeap] at poppedOrdered
  rw [raisedLength, loweredHeap] at poppedLast
  have perm : result.timerHeap.Perm state.timerHeap := loweredHeap ▸ popped.perm.trans pushed.perm
  have reindexed : Reindexed lowered.timerHeap lowered result :=
    pushed.reindexed.trans (popped.reindexed.of_perm pushed.perm)
  refine ⟨⟨perm, ⟨fun other => ?_, fun other outside => ?_, ?_⟩, ?_⟩, poppedLast, ?_⟩
  · by_cases same : other = timer
    · subst same
      rw [timers_update_self, reindexed.same other, loweredSelf]
      rfl
    · rw [timers_update_of_ne _ same, reindexed.same other, loweredOther same]
  · have ne : other ≠ timer := by
      rintro rfl
      exact outside (List.mem_of_getElem? isTimer)
    rw [timers_update_of_ne _ ne, reindexed.outside other (loweredHeap ▸ outside), loweredOther ne]
  · rw [insertions_update, reindexed.insertions_eq, ← loweredEq, insertions_update]
  · intro place other isOther
    by_cases same : other = timer
    · subst same
      rw [timers_update_self]
      exact popped.indexed place other isOther
    · rw [timers_update_of_ne _ same]
      exact popped.indexed place other isOther
  · refine ordered_congr (fun place other below isOther => ?_) poppedOrdered
    refine keyOther ?_
    rintro rfl
    exact absurd (position_eq (perm.nodup_iff.2 comparable.nodup) isOther poppedLast)
      (Nat.ne_of_lt below)

/-- A timer at the end of the heap leaves it. -/
theorem removeLast_spec {state popped : ThreadTimers Timer} (nodup : state.timerHeap.Nodup)
    (rearranged : Rearranged state popped)
    (isLast : popped.timerHeap[state.timerHeap.length - 1]? = some timer)
    (ordered : Ordered state.key (state.timerHeap.length - 1) popped.timerHeap) :
    (popped.removeLast timer).timerHeap.Perm (state.timerHeap.erase timer) ∧
      Indexed (popped.removeLast timer) ∧
      Ordered state.key (popped.removeLast timer).timerHeap.length
        (popped.removeLast timer).timerHeap ∧
      (popped.removeLast timer).timers timer = { state.timers timer with heapIndex := -1 } ∧
      (∀ other, other ≠ timer → (popped.removeLast timer).timers other = popped.timers other) ∧
      (popped.removeLast timer).insertions = state.insertions := by
  have lengthEq : popped.timerHeap.length = state.timerHeap.length := rearranged.perm.length_eq
  obtain ⟨lastInside, lastEq⟩ := List.getElem?_eq_some_iff.1 isLast
  have nonempty : popped.timerHeap ≠ [] := List.ne_nil_of_length_pos (by omega)
  have split : popped.timerHeap.dropLast ++ [timer] = popped.timerHeap := by
    rw [← dropLast_append_getLast nonempty, dropLast_concat,
      getLast_eq_getElem nonempty]
    congr 2
    simp only [lengthEq] at lastEq ⊢
    exact lastEq.symm
  have splitNodup : (popped.timerHeap.dropLast ++ [timer]).Nodup := by
    rw [split]
    exact rearranged.perm.nodup_iff.2 nodup
  have outside : timer ∉ popped.timerHeap.dropLast := fun member =>
    (nodup_append.1 splitNodup).2.2 timer member timer (mem_singleton_self _) rfl
  have heapEq : (popped.removeLast timer).timerHeap = popped.timerHeap.dropLast := rfl
  have others {other : Timer} (ne : other ≠ timer) :
      (popped.removeLast timer).timers other = popped.timers other := by
    rw [removeLast, timers_update_of_ne _ ne]
  have inFront {place : Nat} {other : Timer}
      (isOther : popped.timerHeap.dropLast[place]? = some other) :
      popped.timerHeap[place]? = some other := by
    have placeInside := (List.getElem?_eq_some_iff.1 isOther).1
    rw [← split, getElem?_append_left placeInside, isOther]
  refine ⟨?_, ?_, ?_, ?_, fun other ne => others ne, ?_⟩
  · rw [heapEq]
    have erased := rearranged.perm.erase timer
    rw [← split, erase_append_right _ outside] at erased
    simpa using erased
  · intro place other isOther
    have ne : other ≠ timer := by
      rintro rfl
      exact outside (mem_of_getElem? isOther)
    rw [others ne]
    exact rearranged.indexed place other (inFront isOther)
  · rw [heapEq, length_dropLast, lengthEq]
    intro place above item positive below isAbove isItem
    exact ordered place above item positive below (inFront isAbove) (inFront isItem)
  · rw [removeLast, timers_update_self, setHeapIndex, rearranged.reindexed.same timer]
  · exact rearranged.reindexed.insertions_eq

end Operations

end ThreadTimers
end Timers
end PalmWebKit
