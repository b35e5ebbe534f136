import PalmWebKit.Storage.DatabaseTracker

/-!
# What the statements of a tracker change

Opening a tracker and reading its origins leave the databases as they are.  The
deletion of a file and of rows concern one origin.
-/

namespace PalmWebKit
namespace Storage

namespace DatabaseTracker

/-- The table of the databases exists. -/
def HasDatabases (tracker : DatabaseTracker) : Prop := tracker.tables.bind (·.databases) ≠ none

/-- The table of the origins exists. -/
def HasOrigins (tracker : DatabaseTracker) : Prop := tracker.tables.bind (·.origins) ≠ none

def sequence (tracker : DatabaseTracker) : Nat := (tracker.tables.map (·.sequence)).getD 0

/-- An origin that the tracker has in memory, or will read. -/
def Recalls (failure : Option Operation) (side : TrackerSide) (tracker : DatabaseTracker)
    (origin : SecurityOrigin) : Prop :=
  match tracker.quotaMap with
  | some quotas => origin ∈ quotas
  | none => origin ∈ tracker.originRows.map (·.origin) ∧
      ∀ row, failure ≠ some (.populateOrigins side row)

theorem mem_of_findRow {tracker : DatabaseTracker} {origin : SecurityOrigin} {name : DatabaseName}
    {row : DatabaseRow} (found : tracker.findRow origin name = some row) :
    row ∈ tracker.databaseRows ∧ row.origin = origin ∧ row.name = name := by
  have isRow := List.find?_some found
  exact ⟨List.mem_of_find?_eq_some found, of_decide_eq_true isRow⟩

theorem findRow_eq_none_iff {tracker : DatabaseTracker} {origin : SecurityOrigin}
    {name : DatabaseName} : tracker.findRow origin name = none ↔
      ∀ row ∈ tracker.databaseRows, row.origin = origin → row.name ≠ name := by
  rw [findRow, List.find?_eq_none]
  exact forall₂_congr fun row _ => by simp

/-- Two trackers with the same rows and files of databases. -/
structure SameDatabases (tracker other : DatabaseTracker) : Prop where
  rows : other.databaseRows = tracker.databaseRows
  files : other.files = tracker.files

namespace SameDatabases

variable {tracker other third : DatabaseTracker}

theorem refl (tracker : DatabaseTracker) : tracker.SameDatabases tracker := ⟨rfl, rfl⟩

theorem trans (first : tracker.SameDatabases other)
    (second : other.SameDatabases third) : tracker.SameDatabases third :=
  ⟨second.rows.trans first.rows, second.files.trans first.files⟩

theorem findRow (same : tracker.SameDatabases other) (origin : SecurityOrigin)
    (name : DatabaseName) : other.findRow origin name = tracker.findRow origin name := by
  rw [DatabaseTracker.findRow, same.rows]
  rfl

theorem fileContent (same : tracker.SameDatabases other) (origin : SecurityOrigin)
    (path : FileName) : other.fileContent origin path = tracker.fileContent origin path := by
  cases path with
  | empty => rfl
  | numbered number => rw [DatabaseTracker.fileContent, same.files]; rfl

theorem content (same : tracker.SameDatabases other) (origin : SecurityOrigin)
    (name : DatabaseName) : other.content origin name = tracker.content origin name := by
  rw [DatabaseTracker.content, same.findRow]
  exact Option.bind_congr fun row _ => same.fileContent origin row.path

end SameDatabases

section Statements

variable {failure : Option Operation} {side : TrackerSide}

/-! ## Opening -/

variable {tracker : DatabaseTracker}

theorem openTrackerDatabase_of_isOpen (isOpen : tracker.isOpen = true)
    (createIfDoesNotExist : Bool) :
    tracker.openTrackerDatabase failure side createIfDoesNotExist = tracker :=
  if_pos isOpen

theorem openTrackerDatabase_cases (failure : Option Operation) (side : TrackerSide)
    (tracker : DatabaseTracker) (createIfDoesNotExist : Bool) :
    tracker.openTrackerDatabase failure side createIfDoesNotExist = tracker ∨
      tracker.isOpen = false ∧
      tracker.openTrackerDatabase failure side createIfDoesNotExist = { tracker with
          isOpen := true
          tables := some (createTables failure side
            (tracker.tables.getD ⟨none, none, 0⟩)) } := by
  rw [openTrackerDatabase]
  by_cases isOpen : tracker.isOpen = true
  · exact .inl (if_pos isOpen)
  · rw [if_neg isOpen]
    cases stored : tracker.tables with
    | some tables => exact .inr ⟨Bool.eq_false_iff.2 isOpen, rfl⟩
    | none =>
      cases createIfDoesNotExist with
      | false => exact .inl rfl
      | true => exact .inr ⟨Bool.eq_false_iff.2 isOpen, rfl⟩

theorem createTable_getD {Row : Type} (fails : Bool) (rows : Option (List Row)) :
    (createTable fails rows).getD [] = rows.getD [] := by
  cases rows with
  | some rows => rfl
  | none => cases fails <;> rfl

theorem sameDatabases_openTrackerDatabase (tracker : DatabaseTracker)
    (createIfDoesNotExist : Bool) : tracker.SameDatabases
      (tracker.openTrackerDatabase failure side createIfDoesNotExist) := by
  rcases openTrackerDatabase_cases failure side tracker createIfDoesNotExist with
    same | ⟨-, opened⟩
  · rw [same]
    exact .refl tracker
  · rw [opened]
    refine ⟨?_, rfl⟩
    rw [databaseRows, databaseRows]
    refine (createTable_getD _ _).trans ?_
    cases tracker.tables <;> rfl

@[simp] theorem originRows_openTrackerDatabase (tracker : DatabaseTracker)
    (createIfDoesNotExist : Bool) :
    (tracker.openTrackerDatabase failure side createIfDoesNotExist).originRows =
      tracker.originRows := by
  rcases openTrackerDatabase_cases failure side tracker createIfDoesNotExist with
    same | ⟨-, opened⟩
  · rw [same]
  · rw [opened, originRows, originRows]
    refine (createTable_getD _ _).trans ?_
    cases tracker.tables <;> rfl

@[simp] theorem quotaMap_openTrackerDatabase (tracker : DatabaseTracker)
    (createIfDoesNotExist : Bool) :
    (tracker.openTrackerDatabase failure side createIfDoesNotExist).quotaMap =
      tracker.quotaMap := by
  rcases openTrackerDatabase_cases failure side tracker createIfDoesNotExist with
    same | ⟨-, opened⟩
  · rw [same]
  · rw [opened]

@[simp] theorem sequence_openTrackerDatabase (tracker : DatabaseTracker)
    (createIfDoesNotExist : Bool) :
    (tracker.openTrackerDatabase failure side createIfDoesNotExist).sequence =
      tracker.sequence := by
  rcases openTrackerDatabase_cases failure side tracker createIfDoesNotExist with
    same | ⟨-, opened⟩
  · rw [same]
  · rw [opened, sequence, sequence]
    cases tracker.tables <;> rfl

theorem isOpen_openTrackerDatabase_true (tracker : DatabaseTracker) :
    (tracker.openTrackerDatabase failure side true).isOpen = true := by
  rw [openTrackerDatabase]
  by_cases isOpen : tracker.isOpen = true
  · rw [if_pos isOpen, isOpen]
  · rw [if_neg isOpen]
    cases tracker.tables <;> rfl

/-- A tracker that has tables can be opened. -/
theorem isOpen_openTrackerDatabase_of_tables {tables : TrackerTables}
    (stored : tracker.tables = some tables) (createIfDoesNotExist : Bool) :
    (tracker.openTrackerDatabase failure side createIfDoesNotExist).isOpen = true := by
  rw [openTrackerDatabase]
  by_cases isOpen : tracker.isOpen = true
  · rw [if_pos isOpen, isOpen]
  · rw [if_neg isOpen, stored]

/-! ## Reading origins -/

variable
  {rows : List OriginRow}
  {origin : SecurityOrigin}

theorem mem_foldl_insert {quotas : AList fun _ : SecurityOrigin => Nat} :
    origin ∈ rows.foldl (fun quotas row => quotas.insert row.origin row.quota) quotas ↔
      origin ∈ rows.map (·.origin) ∨ origin ∈ quotas := by
  induction rows generalizing quotas with
  | nil => simp
  | cons row rows ih =>
    rw [List.foldl_cons, ih, AList.mem_insert, List.map_cons, List.mem_cons]
    tauto

theorem mem_quotasOf : origin ∈ quotasOf rows ↔ origin ∈ rows.map (·.origin) :=
  mem_foldl_insert.trans (or_iff_left (AList.notMem_empty origin))

theorem readRows_of_forall {fails : Nat → Bool} (works : ∀ index, fails index = false) :
    readRows fails rows = rows := by
  induction rows generalizing fails with
  | nil => rfl
  | cons row rows ih =>
    rw [readRows, works, if_neg Bool.false_ne_true, ih fun index => works (index + 1)]

/-- A statement that fails at one row has read the rows before it. -/
theorem readRows_eq_take {fails : Nat → Bool} {row : Nat}
    (failsAt : ∀ index, fails index = decide (index = row)) :
    readRows fails rows = rows.take row := by
  induction rows generalizing fails row with
  | nil => simp [readRows]
  | cons first rows ih =>
    rw [readRows, failsAt]
    cases row with
    | zero => simp
    | succ row =>
      rw [List.take_succ_cons, if_neg (by simp)]
      rw [@ih _ row fun index => by simp [failsAt]]

theorem quotaMap_populateOriginsIfNeeded (tracker : DatabaseTracker) :
    (tracker.populateOriginsIfNeeded failure side).quotaMap ≠ none := by
  rw [populateOriginsIfNeeded]
  cases known : tracker.quotaMap with
  | some quotas => simp [known]
  | none => dsimp only; split <;> simp

theorem populateOriginsIfNeeded_of_some {quotas : AList fun _ : SecurityOrigin => Nat}
    (known : tracker.quotaMap = some quotas) :
    tracker.populateOriginsIfNeeded failure side = tracker := by
  rw [populateOriginsIfNeeded, known]

/-- Only the quotas change, and the tracker is opened. -/
theorem populateOriginsIfNeeded_cases (failure : Option Operation) (side : TrackerSide)
    (tracker : DatabaseTracker) : tracker.populateOriginsIfNeeded failure side = tracker ∨
      ∃ quotaMap, tracker.populateOriginsIfNeeded failure side =
        { tracker.openTrackerDatabase failure side false with quotaMap := quotaMap } := by
  rw [populateOriginsIfNeeded]
  cases known : tracker.quotaMap with
  | some quotas => exact .inl rfl
  | none =>
    right
    dsimp only
    split <;> exact ⟨_, rfl⟩

theorem sameDatabases_populateOriginsIfNeeded (tracker : DatabaseTracker) :
    tracker.SameDatabases (tracker.populateOriginsIfNeeded failure side) := by
  rcases populateOriginsIfNeeded_cases failure side tracker with same | ⟨quotaMap, read⟩
  · rw [same]
    exact .refl tracker
  · rw [read]
    have opened := @sameDatabases_openTrackerDatabase failure side tracker false
    exact ⟨opened.rows, opened.files⟩

theorem tables_populateOriginsIfNeeded_of_isOpen (isOpen : tracker.isOpen = true) :
    (tracker.populateOriginsIfNeeded failure side).tables = tracker.tables ∧
      (tracker.populateOriginsIfNeeded failure side).isOpen = true := by
  rcases populateOriginsIfNeeded_cases failure side tracker with same | ⟨quotaMap, read⟩
  · rw [same]
    exact ⟨rfl, isOpen⟩
  · rw [read, openTrackerDatabase_of_isOpen isOpen]
    exact ⟨rfl, isOpen⟩

/-- A tracker with a row of an origin can be opened. -/
theorem exists_tables_of_mem_originRows {row : OriginRow} (stored : row ∈ tracker.originRows) :
    ∃ tables, tracker.tables = some tables := by
  cases known : tracker.tables with
  | some tables => exact ⟨tables, rfl⟩
  | none => simp [originRows, known] at stored

theorem recalls_congr {tracker other : DatabaseTracker}
    (quotaMap : other.quotaMap = tracker.quotaMap)
    (originRows : other.originRows = tracker.originRows) :
    other.Recalls failure side origin ↔ tracker.Recalls failure side origin := by
  rw [Recalls, Recalls, quotaMap, originRows]

theorem mem_quotas_of_recalls (recalls : tracker.Recalls failure side origin) :
    origin ∈ (tracker.populateOriginsIfNeeded failure side).quotas := by
  rw [Recalls] at recalls
  rw [populateOriginsIfNeeded]
  cases known : tracker.quotaMap with
  | some quotas =>
    rw [known] at recalls
    rw [DatabaseTracker.quotas, known]
    exact recalls
  | none =>
    rw [known] at recalls
    obtain ⟨stored, works⟩ := recalls
    obtain ⟨row, isRow, -⟩ := List.mem_map.1 stored
    obtain ⟨tables, hasTables⟩ := exists_tables_of_mem_originRows isRow
    rw [if_pos (isOpen_openTrackerDatabase_of_tables hasTables false),
      readRows_of_forall fun row => decide_eq_false (works row)]
    refine mem_quotasOf.2 ?_
    rw [originRows_openTrackerDatabase]
    exact stored

end Statements

end DatabaseTracker
end Storage
end PalmWebKit
