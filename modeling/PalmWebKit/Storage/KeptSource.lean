import PalmWebKit.Storage.TidyTracker
import PalmWebKit.Storage.MoveDatabases

/-!
# The source of copies

A source keeps its databases while they are copied; only rows without a file may
go.
-/

namespace PalmWebKit
namespace Storage

namespace DatabaseTracker

variable {failure : Option Operation}
variable {tracker other third : DatabaseTracker}
variable {origin : SecurityOrigin} {name : DatabaseName}
variable {touched later : SecurityOrigin → DatabaseName → Prop}

/-- A tracker that has lost no database while some of them were copied. -/
structure KeptWhileCopied (touched : SecurityOrigin → DatabaseName → Prop)
    (tracker other : DatabaseTracker) : Prop where
  tidy : other.Tidy
  isOpen : other.isOpen = tracker.isOpen
  origins : other.tables.bind (·.origins) = tracker.tables.bind (·.origins)
  quotaMap : other.quotaMap = tracker.quotaMap
  hasDatabases : other.HasDatabases ↔ tracker.HasDatabases
  content : ∀ origin name, other.content origin name = tracker.content origin name
  findRow : ∀ origin name, ¬touched origin name →
    other.findRow origin name = tracker.findRow origin name

namespace KeptWhileCopied

theorem refl (tidy : tracker.Tidy) : KeptWhileCopied touched tracker tracker :=
  ⟨tidy, rfl, rfl, rfl, Iff.rfl, fun _ _ => rfl, fun _ _ _ => rfl⟩

theorem trans (first : KeptWhileCopied touched tracker other)
    (second : KeptWhileCopied later other third) :
    KeptWhileCopied (fun origin name => touched origin name ∨ later origin name)
      tracker third where
  tidy := second.tidy
  isOpen := second.isOpen.trans first.isOpen
  origins := second.origins.trans first.origins
  quotaMap := second.quotaMap.trans first.quotaMap
  hasDatabases := second.hasDatabases.trans first.hasDatabases
  content origin name := (second.content origin name).trans (first.content origin name)
  findRow origin name isOther := (second.findRow origin name (isOther ∘ .inr)).trans
    (first.findRow origin name (isOther ∘ .inl))

theorem mono (kept : KeptWhileCopied touched tracker other)
    (wider : ∀ origin name, touched origin name → later origin name) :
    KeptWhileCopied later tracker other :=
  { kept with
    findRow := fun origin name isOther => kept.findRow origin name (isOther ∘ wider origin name) }

theorem originRows (kept : KeptWhileCopied touched tracker other) :
    other.originRows = tracker.originRows := by
  rw [DatabaseTracker.originRows, kept.origins]
  rfl

end KeptWhileCopied

/-- One database, as what is touched. -/
def only (origin : SecurityOrigin) (name : DatabaseName) : SecurityOrigin → DatabaseName → Prop :=
  fun otherOrigin otherName => otherOrigin = origin ∧ otherName = name

variable {row : DatabaseRow}

theorem content_of_findRow (found : tracker.findRow origin name = some row) :
    tracker.content origin name = tracker.fileContent origin row.path := by
  rw [content, found]
  rfl

theorem content_of_no_row (missing : tracker.findRow origin name = none) :
    tracker.content origin name = none := by
  rw [content, missing]
  rfl

/-- A tracker of which one file has been written or deleted. -/
structure FileTouched (origin : SecurityOrigin) (name : DatabaseName)
    (tracker other : DatabaseTracker) : Prop where
  tables : other.tables = tracker.tables
  isOpen : other.isOpen = tracker.isOpen
  quotaMap : other.quotaMap = tracker.quotaMap
  tidy : other.Tidy
  content : ∀ otherOrigin otherName, ¬only origin name otherOrigin otherName →
    other.content otherOrigin otherName = tracker.content otherOrigin otherName

/-- The file of a database is that of no other. -/
theorem Tidy.fileTouched (tidy : tracker.Tidy) {number : Nat}
    (found : tracker.findRow origin name = some row) (isNumbered : row.path = .numbered number)
    {files : AList fun _ : SecurityOrigin × Nat => Content}
    (numbered : ∀ key ∈ files, key = (origin, number) ∨ key ∈ tracker.files)
    (sameFiles : ∀ key ≠ (origin, number), files.lookup key = tracker.files.lookup key) :
    FileTouched origin name tracker { tracker with files := files } where
  tables := rfl
  isOpen := rfl
  quotaMap := rfl
  tidy := tidy.setFiles fun key member => by
    rcases numbered key member with rfl | isOld
    · obtain ⟨small, atMost, same⟩ := tidy.rowsNumbered row (mem_of_findRow found).1
      rw [isNumbered] at same
      cases same
      exact atMost
    · exact tidy.filesNumbered key isOld
  content otherOrigin otherName isOther := by
    have sameRow : { tracker with files := files }.findRow otherOrigin otherName =
        tracker.findRow otherOrigin otherName := rfl
    cases otherFound : tracker.findRow otherOrigin otherName with
    | none =>
      rw [content_of_no_row otherFound]
      exact content_of_no_row (sameRow.trans otherFound)
    | some otherRow =>
      rw [content_of_findRow otherFound, content_of_findRow (sameRow.trans otherFound)]
      cases path : otherRow.path with
      | empty => rfl
      | numbered otherNumber =>
        refine sameFiles (otherOrigin, otherNumber) fun same => ?_
        obtain ⟨rfl, rfl⟩ := Prod.mk.inj same
        exact isOther ⟨rfl, tidy.name_eq otherFound found (path.trans isNumbered.symm)⟩

namespace FileTouched

theorem findRow (fileTouched : FileTouched origin name tracker other) (anyOrigin : SecurityOrigin)
    (anyName : DatabaseName) :
    other.findRow anyOrigin anyName = tracker.findRow anyOrigin anyName := by
  rw [DatabaseTracker.findRow, databaseRows, fileTouched.tables]
  rfl

/-- A file that was missing and is missing again. -/
theorem keptWhileCopied (fileTouched : FileTouched origin name tracker other)
    (same : other.content origin name = tracker.content origin name) :
    KeptWhileCopied (only origin name) tracker other where
  tidy := fileTouched.tidy
  isOpen := fileTouched.isOpen
  origins := by rw [fileTouched.tables]
  quotaMap := fileTouched.quotaMap
  hasDatabases := by rw [HasDatabases, HasDatabases, fileTouched.tables]
  content anyOrigin anyName := by
    by_cases own : only origin name anyOrigin anyName
    · obtain ⟨rfl, rfl⟩ := own
      exact same
    · exact fileTouched.content anyOrigin anyName own
  findRow anyOrigin anyName _ := fileTouched.findRow anyOrigin anyName

/-- A row goes whose file was missing, whatever has become of the file. -/
theorem clearDatabase (fileTouched : FileTouched origin name tracker other)
    (missing : tracker.content origin name = none) : KeptWhileCopied (only origin name) tracker
      (DatabaseTracker.clearDatabase origin name other) where
  tidy := fileTouched.tidy.clearDatabase origin name
  isOpen := fileTouched.isOpen
  origins := by
    rw [DatabaseTracker.clearDatabase, updateDatabaseRows, fileTouched.tables]
    cases tracker.tables <;> rfl
  quotaMap := fileTouched.quotaMap
  hasDatabases := by
    rw [HasDatabases, HasDatabases, DatabaseTracker.clearDatabase, updateDatabaseRows,
      fileTouched.tables]
    cases tracker.tables with
    | none => exact Iff.rfl
    | some tables => cases tables.databases <;> simp
  content anyOrigin anyName := by
    by_cases own : only origin name anyOrigin anyName
    · obtain ⟨rfl, rfl⟩ := own
      rw [missing]
      exact content_of_no_row (findRow_clearDatabase_self _ _ other)
    · rw [← fileTouched.content anyOrigin anyName own, DatabaseTracker.content,
        findRow_clearDatabase_of_ne own]
      rfl
  findRow anyOrigin anyName isOther :=
    (findRow_clearDatabase_of_ne isOther).trans (fileTouched.findRow anyOrigin anyName)

end FileTouched

/-- A source keeps its databases when it is cleaned up. -/
theorem keptWhileCopied_cleanUpDatabase (isOpen : tracker.isOpen = true)
    (hasDatabases : tracker.HasDatabases) (tidy : tracker.Tidy)
    (found : tracker.findRow origin name = some row)
    (missing : tracker.content origin name = none) : KeptWhileCopied (only origin name) tracker
      (cleanUpDatabase failure tracker origin name row.path) := by
  obtain ⟨number, -, isNumbered⟩ := tidy.rowsNumbered row (mem_of_findRow found).1
  let written := { tracker with files := tracker.files.insert (origin, number) [] }
  have touchedFile : FileTouched origin name tracker written :=
    tidy.fileTouched found isNumbered
      (fun key member => (AList.mem_insert _).1 member)
      (fun key isOther => AList.lookup_insert_ne isOther)
  have opened : written.openTrackerDatabase failure .source false = written := if_pos isOpen
  have cleaned : cleanUpDatabase failure tracker origin name row.path =
      written.deleteDatabase failure .source origin name := by
    rw [isNumbered]
    rfl
  have open_written : written.isOpen = true := isOpen
  rw [cleaned, DatabaseTracker.deleteDatabase, opened, if_pos open_written,
    deleteDatabaseFile, fullPathForDatabase_false]
  have foundWritten : written.findRow origin name = some row := found
  by_cases fails : failure = some (.selectPath .cleaning .source origin name)
  · rw [if_pos (.inr (.inr fails))]
    dsimp only
    rw [if_neg (by simp [fails])]
    exact touchedFile.clearDatabase missing
  · rw [if_neg (by
      rintro (closed | noTable | fails')
      · rw [open_written] at closed
        cases closed
      · exact hasDatabases noTable
      · exact fails fails'), foundWritten, Option.map_some, isNumbered]
    dsimp only
    have exists_file : decide ((origin, number) ∈ written.files) = true :=
      decide_eq_true ((AList.mem_insert _).2 (.inl rfl))
    let erased := { tracker with files := written.files.erase (origin, number) }
    have foundErased : erased.findRow origin name = some row := found
    have erasedFile : FileTouched origin name tracker erased :=
      tidy.fileTouched found isNumbered
        (fun key member => (AList.mem_insert _).1 (AList.mem_erase.1 member).2)
        (fun key isOther => (AList.lookup_erase_ne isOther).trans
          (AList.lookup_insert_ne isOther))
    rw [exists_file]
    split_ifs
    · apply erasedFile.keptWhileCopied
      rw [missing, content_of_findRow foundErased, isNumbered]
      exact AList.lookup_erase _ _
    · exact erasedFile.clearDatabase missing

end DatabaseTracker
end Storage
end PalmWebKit
