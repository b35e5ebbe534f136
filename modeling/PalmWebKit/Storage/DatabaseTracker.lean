import PalmWebKit.Text.CodeUnits

/-!
# Tracking the databases of origins

A `DatabaseTracker` has a directory with the files of databases and a database
of its own, `Databases.db`, which says what origins there are, what databases
each of them has and in what file each one is.  Every SQL statement and every
copy of a file can fail; the point at which one does is an argument.
-/

namespace PalmWebKit
namespace Storage

/-- An origin, by its database identifier. -/
abbrev SecurityOrigin := WString

abbrev DatabaseName := WString

/-- The bytes of a file. -/
abbrev Content := List UInt8

/-- The two trackers of a move. -/
inductive TrackerSide
  | source
  | destination
  deriving DecidableEq, Repr

/-- What a statement is executed for. -/
inductive Stage
  | copying
  | cleaning
  | deleting
  deriving DecidableEq, Repr

/-- What can fail.  A statement that reads the origins fails at a row. -/
inductive Operation
  | createOrigins (side : TrackerSide)
  | createDatabases (side : TrackerSide)
  | selectOrigins (row : Nat)
  | populateOrigins (side : TrackerSide) (row : Nat)
  | selectNames (stage : Stage) (side : TrackerSide) (origin : SecurityOrigin)
  | selectPath (stage : Stage) (side : TrackerSide) (origin : SecurityOrigin)
      (name : DatabaseName)
  | insertOrigin (origin : SecurityOrigin)
  | updateOrigin (origin : SecurityOrigin)
  | selectSequence (origin : SecurityOrigin) (name : DatabaseName)
  | insertDatabase (origin : SecurityOrigin) (name : DatabaseName)
  | copyFile (origin : SecurityOrigin) (name : DatabaseName) (created : Bool)
  | deleteDatabase (origin : SecurityOrigin) (name : DatabaseName)
  | deleteDatabases (side : TrackerSide) (origin : SecurityOrigin)
  | deleteOrigin (side : TrackerSide) (origin : SecurityOrigin)
  deriving DecidableEq, Repr

/-- The name of a file in the directory of its origin. -/
inductive FileName
  /-- What `getFileNameForNewDatabase` returns on an error. -/
  | empty
  /-- `"%016" PRIx64 ".db"` -/
  | numbered (number : Nat)
  deriving DecidableEq, Repr

/-- A row of the table `Origins`. -/
structure OriginRow where
  origin : SecurityOrigin
  quota : Nat
  deriving DecidableEq, Repr

/-- A row of the table `Databases`. -/
structure DatabaseRow where
  origin : SecurityOrigin
  name : DatabaseName
  path : FileName
  deriving DecidableEq, Repr

/-- The contents of `Databases.db`.  A table is missing when its creation has
failed; `sequence` is what `sqlite_sequence` has for `Databases`. -/
structure TrackerTables where
  origins : Option (List OriginRow)
  databases : Option (List DatabaseRow)
  sequence : Nat
  deriving DecidableEq, Repr

structure DatabaseTracker where
  isOpen : Bool
  tables : Option TrackerTables
  files : AList fun _ : SecurityOrigin × Nat => Content
  quotaMap : Option (AList fun _ : SecurityOrigin => Nat)

/-- The order in which a `HashMap` hands out its keys. -/
structure HashOrder where
  keys : List SecurityOrigin → List SecurityOrigin
  perm : ∀ origins, (keys origins).Perm origins

namespace DatabaseTracker

/-! ## What a tracker has -/

def originRows (tracker : DatabaseTracker) : List OriginRow :=
  (tracker.tables.bind (·.origins)).getD []

def databaseRows (tracker : DatabaseTracker) : List DatabaseRow :=
  (tracker.tables.bind (·.databases)).getD []

/-- The row that a statement finds for a database. -/
def findRow (tracker : DatabaseTracker) (origin : SecurityOrigin)
    (name : DatabaseName) : Option DatabaseRow :=
  tracker.databaseRows.find? fun row => row.origin = origin ∧ row.name = name

/-- The bytes of a file of an origin; the empty name is that of the directory. -/
def fileContent (tracker : DatabaseTracker) (origin : SecurityOrigin) : FileName → Option Content
  | .empty => none
  | .numbered number => tracker.files.lookup (origin, number)

/-- A database that has a row and a file. -/
def content (tracker : DatabaseTracker) (origin : SecurityOrigin)
    (name : DatabaseName) : Option Content :=
  (tracker.findRow origin name).bind fun row => tracker.fileContent origin row.path

def fileExists (tracker : DatabaseTracker) (origin : SecurityOrigin) : FileName → Bool
  | .empty => true
  | .numbered number => decide ((origin, number) ∈ tracker.files)

section Statements

variable (failure : Option Operation) (side : TrackerSide)

/-! ## Opening -/

/-- Create a table that does not exist. -/
def createTable {Row : Type} (fails : Bool) : Option (List Row) → Option (List Row)
  | some rows => some rows
  | none => if fails then none else some []

def createTables (tables : TrackerTables) : TrackerTables where
  origins := createTable (failure = some (.createOrigins side)) tables.origins
  databases := createTable (failure = some (.createDatabases side)) tables.databases
  sequence := tables.sequence

def openTrackerDatabase (tracker : DatabaseTracker)
    (createIfDoesNotExist : Bool) : DatabaseTracker :=
  if tracker.isOpen then
    tracker
  else
    match tracker.tables with
    | some tables =>
      { tracker with isOpen := true, tables := some (createTables failure side tables) }
    | none =>
      if createIfDoesNotExist then
        { tracker with
          isOpen := true
          tables := some (createTables failure side ⟨none, none, 0⟩) }
      else
        tracker

/-! ## Origins -/

/-- The rows that are read before a step of the statement fails. -/
def readRows (fails : Nat → Bool) : List OriginRow → List OriginRow
  | [] => []
  | row :: rows => if fails 0 then [] else row :: readRows (fun index => fails (index + 1)) rows

/-- The quotas of some rows. -/
def quotasOf (rows : List OriginRow) : AList fun _ : SecurityOrigin => Nat :=
  rows.foldl (fun quotas row => quotas.insert row.origin row.quota) ∅

def populateOriginsIfNeeded (tracker : DatabaseTracker) : DatabaseTracker :=
  match tracker.quotaMap with
  | some _ => tracker
  | none =>
    let tracker := tracker.openTrackerDatabase failure side false
    if tracker.isOpen then
      let rows := readRows (fun row => failure = some (.populateOrigins side row))
        tracker.originRows
      { tracker with quotaMap := some (quotasOf rows) }
    else
      { tracker with quotaMap := some ∅ }

/-- The origins in `m_quotaMap`. -/
def quotas (tracker : DatabaseTracker) : AList fun _ : SecurityOrigin => Nat :=
  tracker.quotaMap.getD ∅

def hasEntryForOrigin (tracker : DatabaseTracker)
    (origin : SecurityOrigin) : DatabaseTracker × Bool :=
  let tracker := tracker.populateOriginsIfNeeded failure side
  (tracker, decide (origin ∈ tracker.quotas))

def updateOriginRows (tracker : DatabaseTracker)
    (update : List OriginRow → List OriginRow) : DatabaseTracker :=
  { tracker with tables := tracker.tables.map fun tables => { tables with
      origins := tables.origins.map update } }

/-- `INSERT INTO Origins VALUES (?, ?)`, where a conflict replaces the row. -/
def insertOrigin (tracker : DatabaseTracker) (origin : SecurityOrigin)
    (quota : Nat) : DatabaseTracker :=
  if failure = some (.insertOrigin origin) then
    tracker
  else
    tracker.updateOriginRows fun rows => rows.filter (·.origin ≠ origin) ++ [⟨origin, quota⟩]

/-- `UPDATE Origins SET quota=? WHERE origin=?` -/
def updateOrigin (tracker : DatabaseTracker) (origin : SecurityOrigin)
    (quota : Nat) : DatabaseTracker :=
  if failure = some (.updateOrigin origin) then
    tracker
  else
    tracker.updateOriginRows fun rows =>
      rows.map fun row => if row.origin = origin then ⟨origin, quota⟩ else row

/-- The quota in memory is set even if the statement fails. -/
def setQuota (tracker : DatabaseTracker) (origin : SecurityOrigin)
    (quota : Nat) : DatabaseTracker :=
  let tracker := tracker.populateOriginsIfNeeded failure side
  if (tracker.quotas.lookup origin).getD 0 = quota then
    tracker
  else
    let tracker := tracker.openTrackerDatabase failure side true
    let tracker :=
      if origin ∈ tracker.quotas then tracker.updateOrigin failure origin quota
      else tracker.insertOrigin failure origin quota
    { tracker with quotaMap := some (tracker.quotas.insert origin quota) }

/-- The origins, or those that an SQL condition matches. -/
def origins (order : HashOrder) (condition : Option (SecurityOrigin → Bool))
    (tracker : DatabaseTracker) : DatabaseTracker × List SecurityOrigin :=
  match condition with
  | none =>
    let tracker := tracker.populateOriginsIfNeeded failure side
    (tracker, order.keys tracker.quotas.keys)
  | some like =>
    let tracker := tracker.openTrackerDatabase failure side false
    let rows := readRows (fun row => failure = some (.selectOrigins row))
      (tracker.originRows.filter fun row => like row.origin)
    (tracker, order.keys (quotasOf rows).keys)

/-! ## Paths -/

/-- The loop of `getFileNameForNewDatabase`; there are no more steps than files. -/
def nextNumber (tracker : DatabaseTracker) (origin : SecurityOrigin) : Nat → Nat → Nat
  | 0, seq => seq + 1
  | steps + 1, seq =>
    if tracker.fileExists origin (.numbered (seq + 1)) then
      nextNumber tracker origin steps (seq + 1)
    else
      seq + 1

def getFileNameForNewDatabase (tracker : DatabaseTracker) (origin : SecurityOrigin)
    (name : DatabaseName) : FileName :=
  match tracker.tables.bind fun tables => tables.databases.map fun _ => tables.sequence with
  | none => .empty
  | some seq =>
    if failure = some (.selectSequence origin name) then .empty
    else .numbered (tracker.nextNumber origin tracker.files.keys.length seq)

/-- `INSERT INTO Databases (origin, name, path) VALUES (?, ?, ?)` -/
def addDatabase (tracker : DatabaseTracker) (origin : SecurityOrigin) (name : DatabaseName)
    (path : FileName) : DatabaseTracker × Bool :=
  let tracker := tracker.openTrackerDatabase failure side true
  let tracker := tracker.populateOriginsIfNeeded failure side
  match tracker.tables.bind fun tables => tables.databases.map fun rows => (tables, rows) with
  | none => (tracker, false)
  | some (tables, rows) =>
    if failure = some (.insertDatabase origin name) then
      (tracker, false)
    else
      ({ tracker with tables := some { tables with
          databases := some (rows ++ [⟨origin, name, path⟩])
          sequence := tables.sequence + 1 } }, true)

/-- `none` is the null string.  Directories can be made, and no database is
being proposed. -/
def fullPathForDatabase (stage : Stage) (tracker : DatabaseTracker) (origin : SecurityOrigin)
    (name : DatabaseName) (createIfNotExists : Bool) : DatabaseTracker × Option FileName :=
  if tracker.isOpen = false ∨ (tracker.tables.bind (·.databases)) = none ∨
      failure = some (.selectPath stage side origin name) then
    (tracker, none)
  else
    match tracker.findRow origin name with
    | some row => (tracker, some row.path)
    | none =>
      if createIfNotExists then
        let fileName := tracker.getFileNameForNewDatabase failure origin name
        match tracker.addDatabase failure side origin name fileName with
        | (tracker, false) => (tracker, none)
        | (tracker, true) => (tracker, some fileName)
      else
        (tracker, none)

def databaseNamesForOrigin (stage : Stage) (tracker : DatabaseTracker)
    (origin : SecurityOrigin) : Option (List DatabaseName) :=
  if tracker.isOpen = false ∨ (tracker.tables.bind (·.databases)) = none ∨
      failure = some (.selectNames stage side origin) then
    none
  else
    some ((tracker.databaseRows.filter (·.origin = origin)).map (·.name))

/-! ## Deleting -/

def updateDatabaseRows (tracker : DatabaseTracker)
    (update : List DatabaseRow → List DatabaseRow) : DatabaseTracker :=
  { tracker with tables := tracker.tables.map fun tables => { tables with
      databases := tables.databases.map update } }

/-- A database without a path has no file to delete. -/
def deleteDatabaseFile (stage : Stage) (tracker : DatabaseTracker) (origin : SecurityOrigin)
    (name : DatabaseName) : DatabaseTracker × Bool :=
  match tracker.fullPathForDatabase failure side stage origin name false with
  | (tracker, none) => (tracker, true)
  | (tracker, some .empty) => (tracker, false)
  | (tracker, some (.numbered number)) =>
    ({ tracker with files := tracker.files.erase (origin, number) },
      decide ((origin, number) ∈ tracker.files))

def deleteDatabase (tracker : DatabaseTracker) (origin : SecurityOrigin)
    (name : DatabaseName) : DatabaseTracker :=
  let tracker := tracker.openTrackerDatabase failure side false
  if tracker.isOpen then
    match tracker.deleteDatabaseFile failure side .cleaning origin name with
    | (tracker, false) => tracker
    | (tracker, true) =>
      if failure = some (.deleteDatabase origin name) then
        tracker
      else
        tracker.updateDatabaseRows fun rows =>
          rows.filter fun row => ¬(row.origin = origin ∧ row.name = name)
  else
    tracker

/-- The end of `deleteOrigin`, when the rows of the origin are gone. -/
def forgetOrigin (tracker : DatabaseTracker) (origin : SecurityOrigin) : DatabaseTracker :=
  let tracker := tracker.populateOriginsIfNeeded failure side
  let quotas := tracker.quotas.erase origin
  if quotas.keys.isEmpty then
    -- `Databases.db` is closed and deleted with the last origin.
    { tracker with quotaMap := some quotas, isOpen := false, tables := none }
  else
    { tracker with quotaMap := some quotas }

/-- The loop of `deleteOrigin` over the files. -/
def deleteFiles (origin : SecurityOrigin) (databaseNames : List DatabaseName)
    (tracker : DatabaseTracker) : DatabaseTracker :=
  databaseNames.foldl (fun tracker name =>
    (tracker.deleteDatabaseFile failure side .deleting origin name).1) tracker

def deleteOrigin (tracker : DatabaseTracker) (origin : SecurityOrigin) : DatabaseTracker :=
  let tracker := tracker.openTrackerDatabase failure side false
  match tracker.databaseNamesForOrigin failure side .deleting origin with
  | none => tracker
  | some databaseNames =>
    let tracker := tracker.deleteFiles failure side origin databaseNames
    if failure = some (.deleteDatabases side origin) then
      tracker
    else
      let tracker := tracker.updateDatabaseRows (·.filter (·.origin ≠ origin))
      if (tracker.tables.bind (·.origins)) = none ∨ failure = some (.deleteOrigin side origin) then
        tracker
      else
        let tracker := tracker.updateOriginRows (·.filter (·.origin ≠ origin))
        tracker.forgetOrigin failure side origin

def deleteOrigins (tracker : DatabaseTracker) (origins : List SecurityOrigin) : DatabaseTracker :=
  origins.foldl (fun tracker origin => tracker.deleteOrigin failure side origin) tracker

end Statements

end DatabaseTracker
end Storage
end PalmWebKit
