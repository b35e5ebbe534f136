import PalmWebKit.Database.SQLTransactionCoordinator
import PalmWebKit.Logic.Runs

/-!
# Grants of the database locks

A session is a coordinator with the histories of the locks acquired, granted
and released.  The transactions are written in the order of the calls; for
each database what was acquired is what was granted, followed by the queue.
-/

namespace PalmWebKit
namespace Database

open List

/-- A call of the coordinator. -/
inductive Call where
  | acquireLock (transaction : SQLTransaction)
  | releaseLock (transaction : SQLTransaction)

def Call.transaction : Call → SQLTransaction
  | .acquireLock transaction => transaction
  | .releaseLock transaction => transaction

/-- The database a call is about. -/
def Call.identifier (call : Call) : String := call.transaction.databaseIdentifier

def SQLTransactionCoordinator.call (coordinator : SQLTransactionCoordinator) :
    Call → Option (SQLTransactionCoordinator × List SQLTransaction)
  | .acquireLock transaction => some (coordinator.acquireLock transaction)
  | .releaseLock transaction => coordinator.releaseLock transaction

/-- A coordinator in use; it is `none` after an access past the end of the map. -/
structure Session where
  coordinator : Option SQLTransactionCoordinator := some {}
  acquired : List SQLTransaction := []
  granted : List SQLTransaction := []
  released : List SQLTransaction := []

namespace Session

/-- What a call adds to the locks acquired. -/
def acquiredBy : Call → List SQLTransaction
  | .acquireLock transaction => [transaction]
  | .releaseLock _ => []

/-- What a call adds to the locks released. -/
def releasedBy : Call → List SQLTransaction
  | .acquireLock _ => []
  | .releaseLock transaction => [transaction]

/-- One moment of a session, with or without a call. -/
def step (session : Session) : Option Call → Session
  | none => session
  | some call =>
    match session.coordinator.bind fun coordinator => coordinator.call call with
    | none => { session with coordinator := none }
    | some (coordinator, granted) =>
      { coordinator := some coordinator
        acquired := session.acquired ++ acquiredBy call
        granted := session.granted ++ granted
        released := session.released ++ releasedBy call }

/-- Each transaction acquires once and releases once after its lock was
granted. -/
def Proper (session : Session) : Option Call → Prop
  | none => True
  | some (.acquireLock transaction) => transaction ∉ session.acquired
  | some (.releaseLock transaction) =>
    transaction ∈ session.granted ∧ transaction ∉ session.released

instance (session : Session) : (call : Option Call) → Decidable (Proper session call)
  | none => isTrue trivial
  | some (.acquireLock _) => inferInstanceAs (Decidable (_ ∉ _))
  | some (.releaseLock _) => inferInstanceAs (Decidable (_ ∧ _))

/-- The transactions of one database. -/
def on (identifier : String) (transactions : List SQLTransaction) : List SQLTransaction :=
  transactions.filter fun transaction => transaction.databaseIdentifier = identifier

end Session

/-! ## One database -/

/-- What is known of a database, against the histories of its locks. -/
structure Tracked (info : CoordinationInfo)
    (acquired granted released : List SQLTransaction) : Prop where
  acquired_eq : acquired = granted ++ info.pendingTransactions
  nodup : acquired.Nodup
  released_granted : ∀ transaction ∈ released, transaction ∈ granted
  mem_activeReads : ∀ transaction, transaction ∈ info.activeReadTransactions ↔
      (transaction ∈ granted ∧ transaction ∉ released) ∧ transaction.isReadOnly = true
  activeWrite_eq : ∀ transaction, info.activeWriteTransaction = some transaction ↔
      (transaction ∈ granted ∧ transaction ∉ released) ∧ transaction.isReadOnly = false
  exclusive : info.activeWriteTransaction = none ∨ info.activeReadTransactions = ∅

/-- No wake-up is lost: what waits, waits for a lock that is held. -/
def Awake (info : CoordinationInfo) : Prop :=
  info.pendingTransactions ≠ [] →
    info.activeWriteTransaction ≠ none ∨ info.activeReadTransactions ≠ ∅

namespace Tracked

variable
  {info : CoordinationInfo}
  {acquired granted released : List SQLTransaction}

theorem empty : Tracked {} [] [] [] where
  acquired_eq := rfl
  nodup := .nil
  released_granted := by simp
  mem_activeReads := by simp
  activeWrite_eq := by simp
  exclusive := .inl rfl

variable {transaction : SQLTransaction}

variable (tracked : Tracked info acquired granted released)
include tracked

/-- A transaction that is queued. -/
theorem acquire (fresh : transaction ∉ acquired) :
    Tracked (info.appendPending transaction) (acquired ++ [transaction]) granted
      released where
  acquired_eq := by rw [tracked.acquired_eq, CoordinationInfo.appendPending, append_assoc]
  nodup := by
    rw [nodup_append]
    refine ⟨tracked.nodup, nodup_singleton _, ?_⟩
    rintro first member second isTransaction rfl
    exact fresh (mem_singleton.1 isTransaction ▸ member)
  released_granted := tracked.released_granted
  mem_activeReads := tracked.mem_activeReads
  activeWrite_eq := tracked.activeWrite_eq
  exclusive := tracked.exclusive

/-- A lock that is given back. -/
theorem release (holds : transaction ∈ granted ∧ transaction ∉ released) :
    Tracked (info.removeActive transaction) acquired granted
      (released ++ [transaction]) := by
  have held_iff (other : SQLTransaction) : (other ∈ granted ∧ other ∉ released ++ [transaction]) ↔
        other ≠ transaction ∧ other ∈ granted ∧ other ∉ released := by
    simp only [mem_append, mem_singleton]
    tauto
  have released_granted : ∀ other ∈ released ++ [transaction], other ∈ granted := by
    intro other member
    rcases mem_append.1 member with earlier | now
    · exact tracked.released_granted other earlier
    · exact mem_singleton.1 now ▸ holds.1
  unfold CoordinationInfo.removeActive
  cases readOnly : transaction.isReadOnly with
  | true =>
    refine ⟨tracked.acquired_eq, tracked.nodup, released_granted, fun other => ?_,
      fun other => ?_, ?_⟩
    · simp only [if_true, Finset.mem_erase, tracked.mem_activeReads, held_iff]
      tauto
    · simp only [if_true, tracked.activeWrite_eq, held_iff]
      constructor
      · rintro ⟨otherHolds, writes⟩
        refine ⟨⟨?_, otherHolds⟩, writes⟩
        rintro rfl
        exact absurd (readOnly.symm.trans writes) (by decide)
      · rintro ⟨⟨_, otherHolds⟩, writes⟩
        exact ⟨otherHolds, writes⟩
    · refine tracked.exclusive.imp_right fun unread => ?_
      simp only [if_true, unread, Finset.erase_empty]
  | false =>
    have isActive : info.activeWriteTransaction = some transaction :=
      (tracked.activeWrite_eq transaction).2 ⟨holds, readOnly⟩
    have unread : info.activeReadTransactions = ∅ :=
      tracked.exclusive.resolve_left (by rw [isActive]; exact Option.some_ne_none _)
    refine ⟨tracked.acquired_eq, tracked.nodup, released_granted, fun other => ?_,
      fun other => ?_, .inl rfl⟩
    · have none := tracked.mem_activeReads other
      simp only [unread, Finset.notMem_empty, false_iff] at none
      simp only [Bool.false_eq_true, if_false, unread, Finset.notMem_empty, false_iff, held_iff]
      exact fun both => none ⟨both.1.2, both.2⟩
    · simp only [Bool.false_eq_true, if_false, held_iff, reduceCtorEq, false_iff]
      rintro ⟨⟨ne, otherHolds⟩, writes⟩
      have otherActive := (tracked.activeWrite_eq other).2 ⟨otherHolds, writes⟩
      exact ne (Option.some.inj (otherActive.symm.trans isActive))

/-- What waits in the queue was not granted. -/
theorem notMem_granted
    (waits : transaction ∈ info.pendingTransactions) : transaction ∉ granted := by
  have nodup := tracked.nodup
  rw [tracked.acquired_eq, nodup_append] at nodup
  exact fun member => nodup.2.2 transaction member transaction waits rfl

omit tracked

/-- Processing grants from the head of the queue, a write only when no other
lock is held, and leaves nothing waiting without a reason. -/
theorem processed (tracked : Tracked info acquired granted released) {next : CoordinationInfo}
    {grants : List SQLTransaction} (processed : info.Processed next grants) :
    Tracked next acquired (granted ++ grants) released ∧ Awake next ∧
      ∀ transaction ∈ grants, transaction.isReadOnly = false →
        ∀ other ∈ granted ++ grants, other ≠ transaction → other ∈ released := by
  cases processed with
  | wait blocked =>
    rw [append_nil]
    exact ⟨tracked, blocked, by simp⟩
  | reads batch rest free nonempty readOnly queued =>
    have fresh : ∀ transaction ∈ grants, transaction ∉ released := by
      intro transaction member wasReleased
      exact tracked.notMem_granted (queued ▸ mem_append_left rest member)
        (tracked.released_granted transaction wasReleased)
    refine ⟨⟨?_, tracked.nodup, ?_, fun other => ?_, fun other => ?_, .inl free⟩, ?_, ?_⟩
    · rw [tracked.acquired_eq, queued, append_assoc]
    · exact fun other member => mem_append_left _ (tracked.released_granted other member)
    · simp only [Finset.mem_union, mem_toFinset, tracked.mem_activeReads, mem_append]
      tauto
    · simp only [tracked.activeWrite_eq, mem_append]
      constructor
      · tauto
      · rintro ⟨⟨granted | now, open'⟩, writes⟩
        · exact ⟨⟨granted, open'⟩, writes⟩
        · exact absurd ((readOnly other now).symm.trans writes) (by decide)
    · intro _
      refine .inr fun empty => nonempty ?_
      have noReads := (Finset.union_eq_empty.1 empty).1
      exact toFinset_eq_empty_iff _ |>.1 noReads
    · intro transaction member writes
      exact absurd ((readOnly transaction member).symm.trans writes) (by decide)
  | write transaction rest free unread writes queued =>
    have allReleased : ∀ other ∈ granted, other ∈ released := by
      intro other member
      by_contra unreleased
      cases otherReads : other.isReadOnly with
      | true =>
        have active := (tracked.mem_activeReads other).2
          ⟨⟨member, unreleased⟩, otherReads⟩
        rw [unread] at active
        exact absurd active (Finset.notMem_empty other)
      | false =>
        have active := (tracked.activeWrite_eq other).2
          ⟨⟨member, unreleased⟩, otherReads⟩
        exact absurd (active.symm.trans free) (Option.some_ne_none other)
    have fresh : transaction ∉ granted := tracked.notMem_granted (queued ▸ (.head _))
    refine ⟨⟨?_, tracked.nodup, ?_, fun other => ?_, fun other => ?_, .inr unread⟩,
      fun _ => .inl (Option.some_ne_none _), ?_⟩
    · rw [tracked.acquired_eq, queued, append_assoc, singleton_append]
    · exact fun other member => mem_append_left _ (tracked.released_granted other member)
    · simp only [unread, Finset.notMem_empty, false_iff, mem_append, mem_singleton]
      rintro ⟨⟨member | rfl, unreleased⟩, otherReads⟩
      · exact unreleased (allReleased other member)
      · exact absurd (otherReads.symm.trans writes) (by decide)
    · simp only [Option.some.injEq, mem_append, mem_singleton]
      constructor
      · rintro rfl
        exact ⟨⟨.inr rfl, fun wasReleased =>
          fresh (tracked.released_granted _ wasReleased)⟩, writes⟩
      · rintro ⟨⟨member | rfl, unreleased⟩, _⟩
        · exact absurd (allReleased other member) unreleased
        · rfl
    · intro granting isGranting _ other member ne
      rw [mem_singleton] at isGranting
      subst isGranting
      rcases mem_append.1 member with earlier | now
      · exact allReleased other earlier
      · exact absurd (mem_singleton.1 now) ne

end Tracked
end Database
end PalmWebKit
