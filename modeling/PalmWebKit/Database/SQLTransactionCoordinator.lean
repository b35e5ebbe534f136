import Mathlib

/-!
# The coordinator of SQL transactions

Each database has a queue of transactions that wait for its lock, the read
transactions that hold it and the write transaction that holds it.  Every
operation also returns the transactions whose `lockAcquired` it calls, in the
order of the calls.
-/

namespace PalmWebKit
namespace Database

/-- A `SQLTransaction`, as far as the coordinator looks at it. -/
structure SQLTransaction where
  pointer : Nat
  databaseIdentifier : String
  isReadOnly : Bool
  deriving DecidableEq

/-- A `CoordinationInfo`. -/
structure CoordinationInfo where
  pendingTransactions : List SQLTransaction := []
  activeReadTransactions : Finset SQLTransaction := ∅
  activeWriteTransaction : Option SQLTransaction := none

namespace CoordinationInfo

/-- The loop that takes the read transactions at the head of the queue; it is
entered with the first one known to be read only. -/
def takeReads : List SQLTransaction → CoordinationInfo → CoordinationInfo × List SQLTransaction
  | [], info => (info, [])
  | first :: rest, info =>
    let taken :=
      { info with
        pendingTransactions := rest
        activeReadTransactions := insert first info.activeReadTransactions }
    match rest with
    | next :: _ =>
      if next.isReadOnly then
        let later := takeReads rest taken
        (later.1, first :: later.2)
      else (taken, [first])
    | [] => (taken, [first])

def processPendingTransactions (info : CoordinationInfo) : CoordinationInfo × List SQLTransaction :=
  match info.activeWriteTransaction, info.pendingTransactions with
  | some _, _ => (info, [])
  | none, [] => (info, [])
  | none, first :: rest =>
    if first.isReadOnly then takeReads (first :: rest) info
    else if info.activeReadTransactions = ∅ then
      ({ info with pendingTransactions := rest, activeWriteTransaction := some first }, [first])
    else (info, [])

/-- The first part of `acquireLock`. -/
def appendPending (info : CoordinationInfo) (transaction : SQLTransaction) : CoordinationInfo :=
  { info with pendingTransactions := info.pendingTransactions ++ [transaction] }

/-- The first part of `releaseLock`. -/
def removeActive (info : CoordinationInfo) (transaction : SQLTransaction) : CoordinationInfo :=
  if transaction.isReadOnly then
    { info with activeReadTransactions := info.activeReadTransactions.erase transaction }
  else { info with activeWriteTransaction := none }

end CoordinationInfo

/-- A `SQLTransactionCoordinator`. -/
structure SQLTransactionCoordinator where
  coordinationInfoMap : AList (fun _ : String => CoordinationInfo) := ∅

namespace SQLTransactionCoordinator

/-- What is known of a database; nothing is known of one without an entry. -/
def info (coordinator : SQLTransactionCoordinator) (identifier : String) : CoordinationInfo :=
  (coordinator.coordinationInfoMap.lookup identifier).getD {}

def setInfo (coordinator : SQLTransactionCoordinator) (identifier : String)
    (info : CoordinationInfo) : SQLTransactionCoordinator :=
  { coordinator with
    coordinationInfoMap := coordinator.coordinationInfoMap.insert identifier info }

def acquireLock (coordinator : SQLTransactionCoordinator)
    (transaction : SQLTransaction) : SQLTransactionCoordinator × List SQLTransaction :=
  let dbIdentifier := transaction.databaseIdentifier
  let info := coordinator.info dbIdentifier
  let processed := (info.appendPending transaction).processPendingTransactions
  (coordinator.setInfo dbIdentifier processed.1, processed.2)

/-- `releaseLock`: a coordinator without the database's entry reads past the
end of the map. -/
def releaseLock (coordinator : SQLTransactionCoordinator) (transaction : SQLTransaction) :
    Option (SQLTransactionCoordinator × List SQLTransaction) :=
  if coordinator.coordinationInfoMap.entries.isEmpty then some (coordinator, [])
  else
    let dbIdentifier := transaction.databaseIdentifier
    match coordinator.coordinationInfoMap.lookup dbIdentifier with
    | none => none
    | some info =>
      let processed := (info.removeActive transaction).processPendingTransactions
      some (coordinator.setInfo dbIdentifier processed.1, processed.2)

/-! ## The entries of the map -/

variable (coordinator : SQLTransactionCoordinator)

@[simp] theorem info_setInfo (identifier : String)
    (info : CoordinationInfo) : (coordinator.setInfo identifier info).info identifier = info := by
  rw [setInfo, SQLTransactionCoordinator.info, AList.lookup_insert, Option.getD_some]

@[simp] theorem info_setInfo_of_ne {identifier other : String} (ne : other ≠ identifier)
    (info : CoordinationInfo) :
    (coordinator.setInfo identifier info).info other = coordinator.info other := by
  rw [setInfo, SQLTransactionCoordinator.info, AList.lookup_insert_ne ne]
  rfl

end SQLTransactionCoordinator

/-! ## What processing does -/

namespace CoordinationInfo

/-- The outcomes of `processPendingTransactions`: nothing is granted while the
lock is taken, a batch of reads is granted, or one write is granted alone. -/
inductive Processed (info : CoordinationInfo) : CoordinationInfo → List SQLTransaction → Prop
  | wait
      (blocked : info.pendingTransactions ≠ [] →
        info.activeWriteTransaction ≠ none ∨ info.activeReadTransactions ≠ ∅) :
      Processed info info []
  | reads
      (granted rest : List SQLTransaction)
      (free : info.activeWriteTransaction = none)
      (nonempty : granted ≠ [])
      (readOnly : ∀ transaction ∈ granted, transaction.isReadOnly = true)
      (queued : info.pendingTransactions = granted ++ rest) : Processed info
        { info with
          pendingTransactions := rest
          activeReadTransactions := granted.toFinset ∪ info.activeReadTransactions }
        granted
  | write
      (transaction : SQLTransaction)
      (rest : List SQLTransaction)
      (free : info.activeWriteTransaction = none)
      (unread : info.activeReadTransactions = ∅)
      (writes : transaction.isReadOnly = false)
      (queued : info.pendingTransactions = transaction :: rest) : Processed info
        { info with
          pendingTransactions := rest
          activeWriteTransaction := some transaction }
        [transaction]

/-- The loop grants a beginning of the queue that has only reads. -/
theorem takeReads_eq (first : SQLTransaction) (rest : List SQLTransaction) (info : CoordinationInfo)
    (readOnly : first.isReadOnly = true) :
    ∃ granted remaining, first :: rest = granted ++ remaining ∧ granted ≠ [] ∧
      (∀ transaction ∈ granted, transaction.isReadOnly = true) ∧
      takeReads (first :: rest) info = ({ info with
            pendingTransactions := remaining
            activeReadTransactions := granted.toFinset ∪ info.activeReadTransactions },
          granted) := by
  induction rest generalizing first info with
  | nil =>
    refine ⟨[first], [], rfl, by simp, by simpa using readOnly, ?_⟩
    rfl
  | cons next rest ih =>
    rw [takeReads]
    by_cases nextReads : next.isReadOnly = true
    · obtain ⟨granted, remaining, queued, _, granted_readOnly, taken⟩ :=
        ih next
          { info with
            pendingTransactions := next :: rest
            activeReadTransactions := insert first info.activeReadTransactions }
          nextReads
      refine ⟨first :: granted, remaining, by rw [queued, List.cons_append], by simp, ?_, ?_⟩
      · exact List.forall_mem_cons.2 ⟨readOnly, granted_readOnly⟩
      · simp only [nextReads, if_true, taken, List.toFinset_cons, Finset.insert_union,
          Finset.union_insert]
    · refine ⟨[first], next :: rest, rfl, by simp, by simpa using readOnly, ?_⟩
      rw [List.toFinset_cons, List.toFinset_nil, insert_empty_eq, ← Finset.insert_eq]
      simp only [nextReads, if_false, Bool.false_eq_true]

theorem processed_processPendingTransactions (info : CoordinationInfo) :
    Processed info info.processPendingTransactions.1 info.processPendingTransactions.2 := by
  unfold processPendingTransactions
  split
  · rename_i active
    exact .wait fun _ => .inl (by rw [active]; exact Option.some_ne_none _)
  · rename_i empty
    exact .wait fun nonempty => absurd empty nonempty
  · rename_i first rest free queued
    split
    · rename_i readOnly
      obtain ⟨granted, remaining, split, nonempty, granted_readOnly, taken⟩ :=
        takeReads_eq first rest info readOnly
      rw [taken]
      exact .reads granted remaining free nonempty granted_readOnly (queued.trans split)
    · rename_i writes
      split
      · rename_i unread
        exact .write first rest free unread (Bool.eq_false_iff.2 writes) queued
      · rename_i read
        exact .wait fun _ => .inr read

end CoordinationInfo

end Database
end PalmWebKit
