import PalmWebKit.Storage.OriginDeletion

/-!
# Trackers whose rows name files of their own

Every row has a numbered file that no other row of the origin has, and no number
is above that of the last row.  A new database gets the next number.
-/

namespace PalmWebKit
namespace Storage

open List

namespace DatabaseTracker

/-- What holds of a tracker that was filled by `addDatabase`. -/
structure Tidy (tracker : DatabaseTracker) : Prop where
  namesNodup : (tracker.databaseRows.map fun row => (row.origin, row.name)).Nodup
  pathsDistinct : ∀ row ∈ tracker.databaseRows, ∀ other ∈ tracker.databaseRows,
    row.origin = other.origin → row.path = other.path → row.name = other.name
  rowsNumbered : ∀ row ∈ tracker.databaseRows, ∃ number ≤ tracker.sequence,
    row.path = .numbered number
  filesNumbered : ∀ key ∈ tracker.files, key.2 ≤ tracker.sequence

variable {failure : Option Operation} {side : TrackerSide}
variable {tracker other : DatabaseTracker} {origin : SecurityOrigin} {name : DatabaseName}

theorem Tidy.congr (tidy : tracker.Tidy) (same : tracker.SameDatabases other)
    (sequence : other.sequence = tracker.sequence) : other.Tidy := by
  constructor
  · rw [same.rows]
    exact tidy.namesNodup
  · rw [same.rows]
    exact tidy.pathsDistinct
  · rw [same.rows, sequence]
    exact tidy.rowsNumbered
  · rw [same.files, sequence]
    exact tidy.filesNumbered

/-- Two databases of an origin with the same file are the same. -/
theorem Tidy.name_eq (tidy : tracker.Tidy) {row otherRow : DatabaseRow} {otherName : DatabaseName}
    (found : tracker.findRow origin name = some row)
    (otherFound : tracker.findRow origin otherName = some otherRow)
    (samePath : row.path = otherRow.path) : name = otherName := by
  obtain ⟨isRow, isOwn, rfl⟩ := mem_of_findRow found
  obtain ⟨isOther, isOtherOwn, rfl⟩ := mem_of_findRow otherFound
  exact tidy.pathsDistinct row isRow otherRow isOther (isOwn.trans isOtherOwn.symm)
    samePath

/-! ## Without a database -/

/-- `DELETE FROM Databases WHERE origin=? AND name=?` -/
def clearDatabase (origin : SecurityOrigin) (name : DatabaseName)
    (tracker : DatabaseTracker) : DatabaseTracker :=
  tracker.updateDatabaseRows fun rows =>
    rows.filter fun row => ¬(row.origin = origin ∧ row.name = name)

theorem databaseRows_clearDatabase (origin : SecurityOrigin) (name : DatabaseName)
    (tracker : DatabaseTracker) : (clearDatabase origin name tracker).databaseRows =
      tracker.databaseRows.filter fun row => ¬(row.origin = origin ∧ row.name = name) :=
  databaseRows_updateDatabaseRows rfl

theorem findRow_clearDatabase_self (origin : SecurityOrigin) (name : DatabaseName)
    (tracker : DatabaseTracker) :
    (clearDatabase origin name tracker).findRow origin name = none := by
  rw [findRow_eq_none_iff, databaseRows_clearDatabase]
  rintro row member rfl rfl
  exact of_decide_eq_true (mem_filter.1 member).2 ⟨rfl, rfl⟩

theorem findRow_clearDatabase_of_ne {otherOrigin : SecurityOrigin} {otherName : DatabaseName}
    (ne : ¬(otherOrigin = origin ∧ otherName = name)) :
    (clearDatabase origin name tracker).findRow otherOrigin otherName =
      tracker.findRow otherOrigin otherName := by
  rw [findRow, databaseRows_clearDatabase]
  apply find?_of_imp
  rintro row rfl rfl
  exact decide_eq_true ne

theorem sequence_clearDatabase (origin : SecurityOrigin) (name : DatabaseName)
    (tracker : DatabaseTracker) :
    (clearDatabase origin name tracker).sequence = tracker.sequence := by
  rw [clearDatabase, updateDatabaseRows, sequence, sequence]
  cases tracker.tables <;> rfl

theorem Tidy.clearDatabase (tidy : tracker.Tidy) (origin : SecurityOrigin)
    (name : DatabaseName) : (clearDatabase origin name tracker).Tidy := by
  have rows := databaseRows_clearDatabase origin name tracker
  have isRow : ∀ row ∈ (DatabaseTracker.clearDatabase origin name tracker).databaseRows,
      row ∈ tracker.databaseRows := by
    intro row member
    rw [rows] at member
    exact (mem_filter.1 member).1
  constructor
  · rw [rows]
    exact tidy.namesNodup.sublist (filter_sublist.map _)
  · intro row member otherRow otherMember
    exact tidy.pathsDistinct row (isRow row member) otherRow (isRow otherRow otherMember)
  · intro row member
    rw [sequence_clearDatabase]
    exact tidy.rowsNumbered row (isRow row member)
  · rw [sequence_clearDatabase]
    exact tidy.filesNumbered

/-- Files may come and go as long as their numbers are used. -/
theorem Tidy.setFiles (tidy : tracker.Tidy) {files : AList fun _ : SecurityOrigin × Nat => Content}
    (numbered : ∀ key ∈ files, key.2 ≤ tracker.sequence) : { tracker with files := files }.Tidy :=
  ⟨tidy.namesNodup, tidy.pathsDistinct, tidy.rowsNumbered, numbered⟩

/-! ## With a new database -/

/-- The next number is free. -/
theorem Tidy.nextNumber (tidy : tracker.Tidy) (origin : SecurityOrigin) (steps : Nat) :
    tracker.nextNumber origin steps tracker.sequence = tracker.sequence + 1 := by
  cases steps with
  | zero => rfl
  | succ steps =>
    refine if_neg fun taken => ?_
    have small := tidy.filesNumbered _ (of_decide_eq_true taken)
    exact Nat.not_succ_le_self _ small

/-- The tracker with a row for a new database. -/
def insertDatabase (row : DatabaseRow) (tables : TrackerTables) (rows : List DatabaseRow)
    (tracker : DatabaseTracker) : DatabaseTracker :=
  { tracker with tables := some { tables with
      databases := some (rows ++ [row])
      sequence := tables.sequence + 1 } }

section InsertDatabase

variable {row : DatabaseRow} {tables : TrackerTables} {rows : List DatabaseRow}

theorem databaseRows_insertDatabase (stored : tracker.tables = some tables)
    (databases : tables.databases = some rows) :
    (insertDatabase row tables rows tracker).databaseRows =
      tracker.databaseRows ++ [row] := by
  rw [databaseRows, databaseRows, stored]
  simp [insertDatabase, databases]

theorem sequence_insertDatabase (stored : tracker.tables = some tables) :
    (insertDatabase row tables rows tracker).sequence = tracker.sequence + 1 := by
  rw [sequence, sequence, stored]
  rfl

theorem findRow_insertDatabase_of_ne {otherOrigin : SecurityOrigin} {otherName : DatabaseName}
    (stored : tracker.tables = some tables) (databases : tables.databases = some rows)
    (ne : ¬(row.origin = otherOrigin ∧ row.name = otherName)) :
    (insertDatabase row tables rows tracker).findRow otherOrigin otherName =
      tracker.findRow otherOrigin otherName := by
  rw [findRow, databaseRows_insertDatabase stored databases, find?_append,
    find?_singleton, if_neg (by simpa using ne), Option.or_none]
  rfl

theorem findRow_insertDatabase_self (stored : tracker.tables = some tables)
    (databases : tables.databases = some rows)
    (isNew : tracker.findRow row.origin row.name = none) :
    (insertDatabase row tables rows tracker).findRow row.origin row.name = some row := by
  rw [findRow] at isNew ⊢
  rw [databaseRows_insertDatabase stored databases, find?_append, isNew,
    find?_singleton, if_pos (by simp)]
  rfl

theorem Tidy.insertDatabase (tidy : tracker.Tidy) (stored : tracker.tables = some tables)
    (databases : tables.databases = some rows) (isNew : tracker.findRow row.origin row.name = none)
    (isNext : row.path = .numbered (tracker.sequence + 1)) :
    (insertDatabase row tables rows tracker).Tidy := by
  have allRows := @databaseRows_insertDatabase _ row _ _ stored databases
  have number := @sequence_insertDatabase _ row _ rows stored
  have fresh : ∀ otherRow ∈ tracker.databaseRows, otherRow.path ≠ row.path := by
    intro otherRow member same
    obtain ⟨number, small, isNumbered⟩ := tidy.rowsNumbered otherRow member
    rw [isNumbered, isNext] at same
    cases same
    exact Nat.not_succ_le_self _ small
  constructor
  · rw [allRows, map_append, map_singleton, nodup_append]
    refine ⟨tidy.namesNodup, nodup_singleton _, ?_⟩
    intro pair isPair newPair isNewPair
    obtain ⟨otherRow, isRow, rfl⟩ := mem_map.1 isPair
    rw [mem_singleton] at isNewPair
    rintro rfl
    obtain ⟨sameOrigin, sameName⟩ := Prod.mk.inj isNewPair
    exact findRow_eq_none_iff.1 isNew otherRow isRow sameOrigin sameName
  · rw [allRows]
    intro first isFirst second isSecond sameOrigin samePath
    rcases mem_append.1 isFirst with isFirst | isFirst <;>
      rcases mem_append.1 isSecond with isSecond | isSecond
    · exact tidy.pathsDistinct first isFirst second isSecond sameOrigin samePath
    · rw [mem_singleton.1 isSecond] at samePath
      exact absurd samePath (fresh first isFirst)
    · rw [mem_singleton.1 isFirst] at samePath
      exact absurd samePath.symm (fresh second isSecond)
    · rw [mem_singleton.1 isFirst, mem_singleton.1 isSecond]
  · rw [allRows, number]
    intro otherRow member
    rcases mem_append.1 member with isOld | isNewRow
    · obtain ⟨oldNumber, small, isNumbered⟩ := tidy.rowsNumbered otherRow isOld
      exact ⟨oldNumber, Nat.le_succ_of_le small, isNumbered⟩
    · rw [mem_singleton.1 isNewRow]
      exact ⟨_, le_refl _, isNext⟩
  · rw [number]
    intro key member
    exact Nat.le_succ_of_le (tidy.filesNumbered key member)

end InsertDatabase

end DatabaseTracker
end Storage
end PalmWebKit
