import PalmWebKit.Database.LockGrants

/-!
# Runs of the database locks

A session runs for ever, with a call or none at each moment.  Every state is
sound, writes are granted alone, each database runs as if it were the only
one, and every lock acquired is granted when the locks granted are released.
-/

namespace PalmWebKit
namespace Database
namespace Session

open List

@[simp] theorem on_append (identifier : String) (first second : List SQLTransaction) :
    on identifier (first ++ second) = on identifier first ++ on identifier second :=
  filter_append first second

variable
  {identifier : String}
  {transactions : List SQLTransaction}

theorem mem_on {transaction : SQLTransaction} : transaction ∈ on identifier transactions ↔
      transaction ∈ transactions ∧ transaction.databaseIdentifier = identifier := by
  rw [on, mem_filter, decide_eq_true_eq]

theorem on_eq_self
    (same : ∀ transaction ∈ transactions, transaction.databaseIdentifier = identifier) :
    on identifier transactions = transactions :=
  filter_eq_self.2 fun transaction member => decide_eq_true (same transaction member)

theorem on_eq_nil
    (ne : ∀ transaction ∈ transactions,
      transaction.databaseIdentifier ≠ identifier) : on identifier transactions = [] :=
  filter_eq_nil_iff.2 fun transaction member equal =>
    ne transaction member (of_decide_eq_true equal)

/-- A coordinator whose entry for each database agrees with the histories. -/
def Locked (coordinator : SQLTransactionCoordinator) (session : Session) : Prop :=
  ∀ identifier, Tracked (coordinator.info identifier) (on identifier session.acquired)
        (on identifier session.granted) (on identifier session.released) ∧
      Awake (coordinator.info identifier)

/-- The property of one reachable state. -/
def Sound (session : Session) : Prop :=
  ∃ coordinator, session.coordinator = some coordinator ∧ Locked coordinator session

/-- The writes granted in one moment are granted while no other lock of their
database is held. -/
def WritesAlone (session next : Session) : Prop :=
  ∀ transaction, transaction ∈ next.granted → transaction ∉ session.granted →
    transaction.isReadOnly = false →
    ∀ other ∈ next.granted, other.databaseIdentifier = transaction.databaseIdentifier →
      other ≠ transaction → other ∈ next.released

theorem sound_initial : Sound {} :=
  ⟨{}, rfl, fun _ => ⟨Tracked.empty, fun nonempty => absurd rfl nonempty⟩⟩

/-! ## One call -/

/-- What a call changes before the queue is processed. -/
def changed (info : CoordinationInfo) : Call → CoordinationInfo
  | .acquireLock transaction => info.appendPending transaction
  | .releaseLock transaction => info.removeActive transaction

variable
  {session : Session}
  {coordinator : SQLTransactionCoordinator}
  {call : Call}

/-- A proper call changes its own database and processes its queue. -/
theorem call_eq (locked : Locked coordinator session) (proper : Proper session (some call)) :
    coordinator.call call = some
        (coordinator.setInfo call.identifier
          (changed (coordinator.info call.identifier) call).processPendingTransactions.1,
          (changed (coordinator.info call.identifier) call).processPendingTransactions.2) := by
  cases call with
  | acquireLock transaction => rfl
  | releaseLock transaction =>
    obtain ⟨granted, unreleased⟩ := proper
    have tracked := (locked transaction.databaseIdentifier).1
    have isOn (transactions : List SQLTransaction) :
        transaction ∈ on transaction.databaseIdentifier transactions ↔
          transaction ∈ transactions := by
      simp [mem_on]
    rw [SQLTransactionCoordinator.call, SQLTransactionCoordinator.releaseLock]
    cases known : coordinator.coordinationInfoMap.lookup transaction.databaseIdentifier with
    | none =>
      -- the entry that holds the lock is there
      have unknown : coordinator.info transaction.databaseIdentifier = {} := by
        rw [SQLTransactionCoordinator.info, known, Option.getD_none]
      rw [unknown] at tracked
      cases readOnly : transaction.isReadOnly with
      | true =>
        have active := (tracked.mem_activeReads transaction).2
          ⟨⟨(isOn _).2 granted, fun member => unreleased ((isOn _).1 member)⟩, readOnly⟩
        exact absurd active (Finset.notMem_empty transaction)
      | false =>
        have active := (tracked.activeWrite_eq transaction).2
          ⟨⟨(isOn _).2 granted, fun member => unreleased ((isOn _).1 member)⟩, readOnly⟩
        exact absurd active (by simp)
    | some info =>
      have nonempty : coordinator.coordinationInfoMap.entries.isEmpty = false := by
        rw [isEmpty_eq_false_iff]
        intro empty
        rw [AList.lookup, empty] at known
        exact absurd known (by simp)
      have infoEq : coordinator.info transaction.databaseIdentifier = info := by
        rw [SQLTransactionCoordinator.info, known, Option.getD_some]
      rw [nonempty]
      simp only [Bool.false_eq_true, if_false, Call.identifier, Call.transaction, changed,
        infoEq, known]

/-- What a proper call does to the database it is about. -/
theorem changed_tracked (locked : Locked coordinator session)
    (proper : Proper session (some call)) :
    Tracked (changed (coordinator.info call.identifier) call)
      (on call.identifier (session.acquired ++ acquiredBy call))
      (on call.identifier session.granted)
      (on call.identifier (session.released ++ releasedBy call)) := by
  have tracked := (locked call.identifier).1
  have onSelf : on call.identifier [call.transaction] = [call.transaction] :=
    on_eq_self (by simp [Call.identifier])
  cases call with
  | acquireLock transaction =>
    have fresh : transaction ∉ on transaction.databaseIdentifier session.acquired :=
      fun member => proper (mem_on.1 member).1
    simp only [acquiredBy, releasedBy, on_append, append_nil]
    simp only [Call.transaction] at onSelf
    rw [onSelf]
    exact tracked.acquire fresh
  | releaseLock transaction =>
    simp only [acquiredBy, releasedBy, on_append, append_nil]
    simp only [Call.transaction] at onSelf
    rw [onSelf]
    exact tracked.release
      ⟨mem_on.2 ⟨proper.1, rfl⟩, fun member => proper.2 (mem_on.1 member).1⟩

/-- The spec of one moment with a call. -/
theorem step_spec (isCoordinator : session.coordinator = some coordinator)
    (locked : Locked coordinator session) (proper : Proper session (some call)) : ∃ grants, grants =
        (changed (coordinator.info call.identifier) call).processPendingTransactions.2 ∧
      session.step (some call) =
        { coordinator := some (coordinator.setInfo call.identifier
            (changed (coordinator.info call.identifier) call).processPendingTransactions.1)
          acquired := session.acquired ++ acquiredBy call
          granted := session.granted ++ grants
          released := session.released ++ releasedBy call } ∧
      (∀ transaction ∈ grants, transaction.databaseIdentifier = call.identifier) ∧
      Sound (session.step (some call)) ∧
      WritesAlone session (session.step (some call)) := by
  refine ⟨_, rfl, ?_⟩
  have stepEq : session.step (some call) =
      { coordinator := some (coordinator.setInfo call.identifier
          (changed (coordinator.info call.identifier) call).processPendingTransactions.1)
        acquired := session.acquired ++ acquiredBy call
        granted := session.granted ++
          (changed (coordinator.info call.identifier) call).processPendingTransactions.2
        released := session.released ++ releasedBy call } := by
    rw [step, isCoordinator, Option.bind_some, call_eq locked proper]
  rw [stepEq]
  obtain ⟨tracked, awake, writesAlone⟩ := (changed_tracked locked proper).processed
    (CoordinationInfo.processed_processPendingTransactions
      (changed (coordinator.info call.identifier) call))
  generalize
    (changed (coordinator.info call.identifier) call).processPendingTransactions = processed
      at tracked awake writesAlone ⊢
  obtain ⟨nextInfo, grants⟩ := processed
  have granted_on : ∀ transaction ∈ grants,
      transaction.databaseIdentifier = call.identifier := by
    intro transaction member
    have acquired : transaction ∈ on call.identifier (session.acquired ++ acquiredBy call) := by
      rw [tracked.acquired_eq]
      exact mem_append_left _ (mem_append_right _ member)
    exact (mem_on.1 acquired).2
  refine ⟨rfl, granted_on, ⟨_, rfl, fun identifier => ?_⟩, ?_⟩
  · by_cases same : identifier = call.identifier
    · subst same
      rw [SQLTransactionCoordinator.info_setInfo, on_append _ session.granted,
        on_eq_self granted_on]
      exact ⟨tracked, awake⟩
    · -- the other databases do not notice the call
      have elsewhere (transactions : List SQLTransaction)
          (isCall : ∀ transaction ∈ transactions,
            transaction.databaseIdentifier = call.identifier) : on identifier transactions = [] :=
        on_eq_nil fun transaction member equal =>
          same (equal.symm.trans (isCall transaction member))
      have acquiredElsewhere : on identifier (acquiredBy call) = [] :=
        elsewhere _ (by cases call <;> simp [acquiredBy, Call.identifier, Call.transaction])
      have releasedElsewhere : on identifier (releasedBy call) = [] :=
        elsewhere _ (by cases call <;> simp [releasedBy, Call.identifier, Call.transaction])
      rw [SQLTransactionCoordinator.info_setInfo_of_ne coordinator same, on_append, on_append,
        on_append, acquiredElsewhere, releasedElsewhere, elsewhere grants granted_on,
        append_nil, append_nil, append_nil]
      exact locked identifier
  · intro transaction granted fresh writes other otherGranted sameDatabase ne
    have isGrant : transaction ∈ grants := (mem_append.1 granted).resolve_left fresh
    have onDatabase : other ∈ on call.identifier session.granted ++ grants := by
      rw [← on_eq_self granted_on, ← on_append]
      exact mem_on.2 ⟨otherGranted, sameDatabase.trans (granted_on transaction isGrant)⟩
    exact (mem_on.1 (writesAlone transaction isGrant writes other onDatabase ne)).1

theorem Sound.step (sound : Sound session) {call : Option Call} (proper : Proper session call) :
    Sound (session.step call) ∧ WritesAlone session (session.step call) := by
  cases call with
  | none => exact ⟨sound, fun _ granted fresh => absurd granted fresh⟩
  | some call =>
    obtain ⟨coordinator, isCoordinator, locked⟩ := sound
    obtain ⟨_, _, _, _, both⟩ := step_spec isCoordinator locked proper
    exact both

/-! ## One database by itself -/

/-- The calls about one database. -/
def only (identifier : String) (calls : Nat → Option Call) : Nat → Option Call :=
  fun count => (calls count).filter fun call => call.identifier = identifier

/-- A session, and one that has seen only the calls of one database. -/
structure Alone (identifier : String) (session alone : Session) : Prop where
  info_eq : ∃ coordinator single,
    session.coordinator = some coordinator ∧ alone.coordinator = some single ∧
      single.info identifier = coordinator.info identifier
  acquired_eq : alone.acquired = on identifier session.acquired
  granted_eq : alone.granted = on identifier session.granted
  released_eq : alone.released = on identifier session.released

theorem alone_initial (identifier : String) : Alone identifier {} {} where
  info_eq := ⟨{}, {}, rfl, rfl, rfl⟩
  acquired_eq := rfl
  granted_eq := rfl
  released_eq := rfl

/-- A proper call of the database is proper in the session of that database. -/
theorem Alone.proper {session alone : Session} (isAlone : Alone call.identifier session alone)
    (proper : Proper session (some call)) : Proper alone (some call) := by
  cases call with
  | acquireLock transaction =>
    intro member
    rw [isAlone.acquired_eq] at member
    exact proper (mem_on.1 member).1
  | releaseLock transaction =>
    refine ⟨?_, fun member => ?_⟩
    · rw [isAlone.granted_eq]
      exact mem_on.2 ⟨proper.1, rfl⟩
    · rw [isAlone.released_eq] at member
      exact proper.2 (mem_on.1 member).1

/-- What a call adds to a history belongs to its database or to another one. -/
theorem on_added
    (isCall : ∀ transaction ∈ transactions,
      transaction.databaseIdentifier = call.identifier) : on identifier transactions =
      if call.identifier = identifier then transactions else [] := by
  split
  · rename_i same
    exact on_eq_self fun transaction member => (isCall transaction member).trans same
  · rename_i ne
    exact on_eq_nil fun transaction member equal =>
      ne ((isCall transaction member).symm.trans equal)

theorem acquiredBy_identifier (call : Call) :
    ∀ transaction ∈ acquiredBy call, transaction.databaseIdentifier = call.identifier := by
  cases call <;> simp [acquiredBy, Call.identifier, Call.transaction]

theorem releasedBy_identifier (call : Call) :
    ∀ transaction ∈ releasedBy call, transaction.databaseIdentifier = call.identifier := by
  cases call <;> simp [releasedBy, Call.identifier, Call.transaction]

/-- A moment does to each database what it does to the database by itself. -/
theorem Alone.step {session alone : Session} (isAlone : Alone identifier session alone)
    (sound : Sound session) (soundAlone : Sound alone) {call : Option Call}
    (proper : Proper session call) : Alone identifier (session.step call)
        (alone.step (call.filter fun call => call.identifier = identifier)) ∧
      Sound (alone.step (call.filter fun call => call.identifier = identifier)) := by
  cases call with
  | none => exact ⟨isAlone, soundAlone⟩
  | some call =>
    obtain ⟨coordinator, single, isCoordinator, isSingle, infoEq⟩ := isAlone.info_eq
    obtain ⟨_, isCoordinator', locked⟩ := sound
    obtain rfl := Option.some.inj (isCoordinator.symm.trans isCoordinator')
    obtain ⟨_, isSingle', lockedSingle⟩ := soundAlone
    obtain rfl := Option.some.inj (isSingle.symm.trans isSingle')
    obtain ⟨grants, grantsEq, stepEq, grants_on, _, _⟩ := step_spec isCoordinator locked proper
    by_cases same : call.identifier = identifier
    · subst same
      have properAlone := isAlone.proper proper
      obtain ⟨_, singleGrantsEq, singleStepEq, _, singleSound, _⟩ :=
        step_spec isSingle lockedSingle properAlone
      rw [infoEq, ← grantsEq] at singleGrantsEq
      subst singleGrantsEq
      rw [infoEq] at singleStepEq
      rw [Option.filter_some, if_pos (by simp), stepEq]
      refine ⟨?_, singleSound⟩
      rw [singleStepEq]
      refine ⟨⟨_, _, rfl, rfl, ?_⟩, ?_, ?_, ?_⟩
      · rw [SQLTransactionCoordinator.info_setInfo, SQLTransactionCoordinator.info_setInfo]
      · rw [on_append, on_added (acquiredBy_identifier call), if_pos rfl, isAlone.acquired_eq]
      · rw [on_append, on_added grants_on, if_pos rfl, isAlone.granted_eq]
      · rw [on_append, on_added (releasedBy_identifier call), if_pos rfl, isAlone.released_eq]
    · rw [Option.filter_some, if_neg (by simpa using same), stepEq]
      refine ⟨⟨⟨_, single, rfl, isSingle, ?_⟩, ?_, ?_, ?_⟩, ⟨single, isSingle, lockedSingle⟩⟩
      · rw [SQLTransactionCoordinator.info_setInfo_of_ne _ (Ne.symm same)]
        exact infoEq
      · rw [on_append, on_added (acquiredBy_identifier call), if_neg same, append_nil]
        exact isAlone.acquired_eq
      · rw [on_append, on_added grants_on, if_neg same, append_nil]
        exact isAlone.granted_eq
      · rw [on_append, on_added (releasedBy_identifier call), if_neg same, append_nil]
        exact isAlone.released_eq

/-! ## Runs -/

section Runs

variable {calls : Nat → Option Call}

/-- The session after the first moments of a run. -/
def after (calls : Nat → Option Call) (count : Nat) : Session := Runs.stateAt step {} calls count

theorem after_succ (calls : Nat → Option Call) (count : Nat) :
    after calls (count + 1) = (after calls count).step (calls count) := rfl

theorem sound_after (proper : ∀ count, Proper (after calls count) (calls count)) (count : Nat) :
    Sound (after calls count) := by
  induction count with
  | zero => exact sound_initial
  | succ count ih => exact (ih.step (proper count)).1

theorem alone_after (proper : ∀ count, Proper (after calls count) (calls count))
    (identifier : String) (count : Nat) :
    Alone identifier (after calls count) (after (only identifier calls) count) := by
  have both : Alone identifier (after calls count) (after (only identifier calls) count) ∧
      Sound (after (only identifier calls) count) := by
    induction count with
    | zero => exact ⟨alone_initial identifier, sound_initial⟩
    | succ count ih =>
      exact ih.1.step (sound_after proper count) ih.2
        (proper count)
  exact both.1

/-- The histories only grow. -/
theorem history_mono (proper : ∀ count, Proper (after calls count) (calls count))
    {count later : Nat} (countLe : count ≤ later) :
    (after calls count).acquired <+: (after calls later).acquired ∧
      (after calls count).granted <+: (after calls later).granted ∧
      (after calls count).released <+: (after calls later).released := by
  induction later, countLe using Nat.le_induction with
  | base => exact ⟨prefix_rfl, prefix_rfl, prefix_rfl⟩
  | succ later _ ih =>
    have one : (after calls later).acquired <+: (after calls (later + 1)).acquired ∧
        (after calls later).granted <+: (after calls (later + 1)).granted ∧
        (after calls later).released <+: (after calls (later + 1)).released := by
      have properNow := proper later
      rw [after_succ]
      cases now : calls later with
      | none => exact ⟨prefix_rfl, prefix_rfl, prefix_rfl⟩
      | some call =>
        rw [now] at properNow
        obtain ⟨coordinator, isCoordinator, locked⟩ := sound_after proper later
        obtain ⟨grants, _, stepEq, _⟩ := step_spec isCoordinator locked properNow
        rw [stepEq]
        exact ⟨prefix_append _ _, prefix_append _ _, prefix_append _ _⟩
    exact ⟨ih.1.trans one.1, ih.2.1.trans one.2.1, ih.2.2.trans one.2.2⟩

/-- When every lock granted in the past has been released, nothing waits. -/
theorem granted_of_all_released {session : Session} (sound : Sound session) {identifier : String}
    (allReleased : ∀ transaction ∈ on identifier session.granted, transaction ∈ session.released) :
    on identifier session.acquired = on identifier session.granted := by
  obtain ⟨coordinator, _, locked⟩ := sound
  obtain ⟨tracked, awake⟩ := locked identifier
  have notHeld (transaction : SQLTransaction) : ¬ (transaction ∈ on identifier session.granted ∧
        transaction ∉ on identifier session.released) := by
    rintro ⟨granted, unreleased⟩
    exact unreleased (mem_on.2 ⟨allReleased transaction granted, (mem_on.1 granted).2⟩)
  have nothingWaits : (coordinator.info identifier).pendingTransactions = [] := by
    by_contra waits
    rcases awake waits with writing | reading
    · obtain ⟨transaction, active⟩ := Option.ne_none_iff_exists'.1 writing
      exact notHeld transaction ((tracked.activeWrite_eq transaction).1 active).1
    · obtain ⟨transaction, active⟩ := Finset.nonempty_iff_ne_empty.2 reading
      exact notHeld transaction ((tracked.mem_activeReads transaction).1 active).1
  rw [tracked.acquired_eq, nothingWaits, append_nil]

theorem on_mono (identifier : String) {first second : List SQLTransaction}
    (isPrefix : first <+: second) :
    on identifier first <+: on identifier second := isPrefix.filter _

/-- The locks granted so far are all released at some later moment. -/
theorem exists_all_released (proper : ∀ count, Proper (after calls count) (calls count))
    (releases : ∀ count, ∀ transaction ∈ (after calls count).granted,
      ∃ later, transaction ∈ (after calls later).released)
    (count : Nat)
    (transactions : List SQLTransaction)
    (granted : ∀ transaction ∈ transactions, transaction ∈ (after calls count).granted) :
    ∃ later, count ≤ later ∧
      ∀ transaction ∈ transactions, transaction ∈ (after calls later).released := by
  induction transactions with
  | nil => exact ⟨count, le_rfl, by simp⟩
  | cons transaction transactions ih =>
    rw [forall_mem_cons] at granted
    obtain ⟨others, countLe, othersReleased⟩ := ih granted.2
    obtain ⟨one, isReleased⟩ := releases count transaction granted.1
    refine ⟨max others one, countLe.trans (le_max_left _ _), ?_⟩
    rw [forall_mem_cons]
    refine ⟨(history_mono proper (le_max_right others one)).2.2.subset isReleased, ?_⟩
    exact fun other member =>
      (history_mono proper (le_max_left others one)).2.2.subset (othersReleased other member)

/-- When every lock granted is released, every lock acquired is granted. -/
theorem eventually_granted (proper : ∀ count, Proper (after calls count) (calls count))
    (releases : ∀ count, ∀ transaction ∈ (after calls count).granted,
      ∃ later, transaction ∈ (after calls later).released)
    (count : Nat)
    (transaction : SQLTransaction)
    (acquired : transaction ∈ (after calls count).acquired) :
    ∃ later, transaction ∈ (after calls later).granted := by
  have enough (needed : Nat)
      (few : needed ≤ (on transaction.databaseIdentifier (after calls count).acquired).length) :
      ∃ later, count ≤ later ∧
        needed ≤ (on transaction.databaseIdentifier (after calls later).granted).length := by
    induction needed with
    | zero => exact ⟨count, le_rfl, Nat.zero_le _⟩
    | succ needed ih =>
      obtain ⟨later, countLe, neededLe⟩ := ih (Nat.le_of_succ_le few)
      obtain ⟨last, laterLe, allReleased⟩ := exists_all_released proper releases later
        (on transaction.databaseIdentifier (after calls later).granted)
        (fun other member => (mem_on.1 member).1)
      refine ⟨last, countLe.trans laterLe, ?_⟩
      have grown := on_mono transaction.databaseIdentifier
        (history_mono proper laterLe).2.1
      -- otherwise nothing was granted meanwhile, and so nothing waits at the end
      by_contra stuck
      have same := grown.eq_of_length_le (by omega)
      rw [same] at allReleased
      have acquiredEq := granted_of_all_released (sound_after proper last) allReleased
      have longer := (on_mono transaction.databaseIdentifier
        (history_mono proper (countLe.trans laterLe)).1).length_le
      rw [acquiredEq] at longer
      omega
  obtain ⟨later, countLe, long⟩ := enough _ le_rfl
  obtain ⟨_, _, locked⟩ := sound_after proper later
  have tracked := (locked transaction.databaseIdentifier).1
  have early := on_mono transaction.databaseIdentifier (history_mono proper countLe).1
  have granted := prefix_of_prefix_length_le early
    (Exists.intro _ tracked.acquired_eq.symm) long
  exact ⟨later, (mem_on.1 (granted.subset (mem_on.2 ⟨acquired, rfl⟩))).1⟩

/-- Two transactions on one database: the write goes first and the read waits. -/
def writeThenRead : Nat → Option Call
  | 0 => some (.acquireLock ⟨1, "notes", false⟩)
  | 1 => some (.acquireLock ⟨2, "notes", true⟩)
  | 2 => some (.releaseLock ⟨1, "notes", false⟩)
  | 3 => some (.releaseLock ⟨2, "notes", true⟩)
  | _ => none

/-- The coordinator is right in every run. -/
theorem locking_correct (calls : Nat → Option Call)
    (proper : ∀ count, Proper (after calls count) (calls count)) :
    (∀ count, Sound (after calls count)) ∧
      (∀ count, WritesAlone (after calls count) (after calls (count + 1))) ∧
      (∀ identifier count,
        Alone identifier (after calls count) (after (only identifier calls) count)) ∧
      ((∀ count, ∀ transaction ∈ (after calls count).granted,
          ∃ later, transaction ∈ (after calls later).released) →
        ∀ count, ∀ transaction ∈ (after calls count).acquired,
          ∃ later, transaction ∈ (after calls later).granted) :=
  ⟨sound_after proper,
    fun count => ((sound_after proper count).step (proper count)).2,
    alone_after proper,
    eventually_granted proper⟩

/-- The theorem on the run of a write and a read. -/
theorem locking_correct_writeThenRead : (∀ count, Sound (after writeThenRead count)) ∧
      (∀ count, WritesAlone (after writeThenRead count) (after writeThenRead (count + 1))) ∧
      (∀ identifier count, Alone identifier (after writeThenRead count)
        (after (only identifier writeThenRead) count)) ∧
      ((∀ count, ∀ transaction ∈ (after writeThenRead count).granted,
          ∃ later, transaction ∈ (after writeThenRead later).released) →
        ∀ count, ∀ transaction ∈ (after writeThenRead count).acquired,
          ∃ later, transaction ∈ (after writeThenRead later).granted) := by
  refine locking_correct writeThenRead fun count => ?_
  match count with
  | 0 => decide
  | 1 => decide
  | 2 => decide
  | 3 => decide
  | _ + 4 => trivial

end Runs

end Session
end Database
end PalmWebKit
