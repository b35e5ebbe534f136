import PalmWebKit.Storage.TrackerContents

/-!
# Deleting origins

The deletion of an origin takes away its databases and leaves those of the other
origins, unless no origin is left in memory: then `Databases.db` goes too.
-/

namespace PalmWebKit
namespace Storage

open List

namespace DatabaseTracker

section Statements

variable {failure : Option Operation} {side : TrackerSide}
variable {tracker other third : DatabaseTracker} {origin : SecurityOrigin}

/-! ## Files -/

/-- Only files of an origin are deleted. -/
structure ErasesFiles (origin : SecurityOrigin) (tracker other : DatabaseTracker) : Prop where
  tables : other.tables = tracker.tables
  isOpen : other.isOpen = tracker.isOpen
  quotaMap : other.quotaMap = tracker.quotaMap
  files : ∀ key, other.files.lookup key = tracker.files.lookup key ∨
    key.1 = origin ∧ other.files.lookup key = none

namespace ErasesFiles

theorem refl (origin : SecurityOrigin)
    (tracker : DatabaseTracker) : ErasesFiles origin tracker tracker :=
  ⟨rfl, rfl, rfl, fun _ => .inl rfl⟩

theorem trans (first : ErasesFiles origin tracker other)
    (second : ErasesFiles origin other third) : ErasesFiles origin tracker third where
  tables := second.tables.trans first.tables
  isOpen := second.isOpen.trans first.isOpen
  quotaMap := second.quotaMap.trans first.quotaMap
  files key := by
    rcases second.files key with same | erased
    · rw [same]
      exact first.files key
    · exact .inr erased

theorem databaseRows (erases : ErasesFiles origin tracker other) :
    other.databaseRows = tracker.databaseRows := by
  rw [DatabaseTracker.databaseRows, erases.tables]
  rfl

theorem originRows (erases : ErasesFiles origin tracker other) :
    other.originRows = tracker.originRows := by
  rw [DatabaseTracker.originRows, erases.tables]
  rfl

theorem hasDatabases (erases : ErasesFiles origin tracker other)
    (present : tracker.HasDatabases) : other.HasDatabases := by
  rw [HasDatabases, erases.tables]
  exact present

theorem hasOrigins (erases : ErasesFiles origin tracker other)
    (present : tracker.HasOrigins) : other.HasOrigins := by
  rw [HasOrigins, erases.tables]
  exact present

theorem findRow (erases : ErasesFiles origin tracker other) (anyOrigin : SecurityOrigin)
    (name : DatabaseName) : other.findRow anyOrigin name = tracker.findRow anyOrigin name := by
  rw [DatabaseTracker.findRow, erases.databaseRows]
  rfl

theorem fileContent (erases : ErasesFiles origin tracker other) (anyOrigin : SecurityOrigin)
    (path : FileName) : other.fileContent anyOrigin path = tracker.fileContent anyOrigin path ∨
      anyOrigin = origin ∧ other.fileContent anyOrigin path = none := by
  cases path with
  | empty => exact .inl rfl
  | numbered number => exact erases.files (anyOrigin, number)

theorem content (erases : ErasesFiles origin tracker other) (anyOrigin : SecurityOrigin)
    (name : DatabaseName) : other.content anyOrigin name = tracker.content anyOrigin name ∨
      anyOrigin = origin ∧ other.content anyOrigin name = none := by
  rw [DatabaseTracker.content, DatabaseTracker.content, erases.findRow]
  cases tracker.findRow anyOrigin name with
  | none => exact .inl rfl
  | some row => exact erases.fileContent anyOrigin row.path

end ErasesFiles

theorem fullPathForDatabase_false (failure : Option Operation) (side : TrackerSide) (stage : Stage)
    (tracker : DatabaseTracker) (origin : SecurityOrigin) (name : DatabaseName) :
    tracker.fullPathForDatabase failure side stage origin name false = (tracker,
        if tracker.isOpen = false ∨ tracker.tables.bind (·.databases) = none ∨
          failure = some (.selectPath stage side origin name) then none
        else (tracker.findRow origin name).map (·.path)) := by
  rw [fullPathForDatabase]
  by_cases unreadable : tracker.isOpen = false ∨ tracker.tables.bind (·.databases) = none ∨
      failure = some (.selectPath stage side origin name)
  · rw [if_pos unreadable, if_pos unreadable]
  · rw [if_neg unreadable, if_neg unreadable]
    cases tracker.findRow origin name <;> rfl

theorem erasesFiles_deleteDatabaseFile (stage : Stage) (tracker : DatabaseTracker)
    (name : DatabaseName) : ErasesFiles origin tracker
      (tracker.deleteDatabaseFile failure side stage origin name).1 := by
  rw [deleteDatabaseFile, fullPathForDatabase_false]
  split_ifs with unreadable
  · exact .refl origin tracker
  · cases tracker.findRow origin name with
    | none => exact .refl origin tracker
    | some row =>
      rcases row with ⟨-, -, path⟩
      cases path with
      | empty => exact .refl origin tracker
      | numbered number =>
        refine ⟨rfl, rfl, rfl, fun key => ?_⟩
        by_cases same : key = (origin, number)
        · subst same
          exact .inr ⟨rfl, AList.lookup_erase _ _⟩
        · exact .inl (AList.lookup_erase_ne same)

variable {name : DatabaseName}

/-- A file whose name can be read is deleted. -/
theorem content_deleteDatabaseFile {stage : Stage} (isOpen : tracker.isOpen = true)
    (hasDatabases : tracker.HasDatabases)
    (works : failure ≠ some (.selectPath stage side origin name)) :
    (tracker.deleteDatabaseFile failure side stage origin name).1.content origin name =
      none := by
  have erases := @erasesFiles_deleteDatabaseFile failure side origin stage tracker name
  rw [content, erases.findRow]
  rw [deleteDatabaseFile, fullPathForDatabase_false, if_neg (by
    rintro (closed | missing | fails)
    · rw [isOpen] at closed
      cases closed
    · exact hasDatabases missing
    · exact works fails)]
  cases tracker.findRow origin name with
  | none => rfl
  | some row =>
    rcases row with ⟨-, -, path⟩
    cases path with
    | empty => rfl
    | numbered number => exact AList.lookup_erase _ _

theorem erasesFiles_deleteFiles (names : List DatabaseName) (tracker : DatabaseTracker) :
    ErasesFiles origin tracker (deleteFiles failure side origin names tracker) := by
  induction names generalizing tracker with
  | nil => exact .refl origin tracker
  | cons name names ih =>
    exact (erasesFiles_deleteDatabaseFile .deleting tracker name).trans
      (ih _)

theorem content_deleteFiles {names : List DatabaseName} (isOpen : tracker.isOpen = true)
    (hasDatabases : tracker.HasDatabases) (member : name ∈ names)
    (works : failure ≠ some (.selectPath .deleting side origin name)) :
    (deleteFiles failure side origin names tracker).content origin name = none := by
  induction names generalizing tracker with
  | nil => cases member
  | cons first names ih =>
    have erases := @erasesFiles_deleteDatabaseFile failure side origin .deleting tracker
      first
    rcases mem_cons.1 member with rfl | isLater
    · have later := @erasesFiles_deleteFiles failure side origin names
        (tracker.deleteDatabaseFile failure side .deleting origin name).1
      rcases later.content origin name with same | ⟨-, gone⟩
      · exact same.trans (content_deleteDatabaseFile isOpen hasDatabases works)
      · exact gone
    · exact ih (erases.isOpen.trans isOpen)
        (erases.hasDatabases hasDatabases) isLater

/-! ## Rows -/

theorem find?_of_imp {rows : List DatabaseRow} {kept : DatabaseRow → Bool}
    (keeps : ∀ row, row.origin = origin → row.name = name → kept row = true) :
    (rows.filter kept).find? (fun row => row.origin = origin ∧ row.name = name) =
      rows.find? fun row => row.origin = origin ∧ row.name = name := by
  rw [find?_filter]
  congr 1
  funext row
  by_cases isRow : row.origin = origin ∧ row.name = name
  · simp [isRow, keeps row isRow.1 isRow.2]
  · simp [isRow]

theorem databaseRows_updateDatabaseRows {update : List DatabaseRow → List DatabaseRow}
    (nothing : update [] = []) :
    (tracker.updateDatabaseRows update).databaseRows = update tracker.databaseRows := by
  rw [updateDatabaseRows, databaseRows, databaseRows]
  cases tracker.tables with
  | none => exact nothing.symm
  | some tables =>
    cases databases : tables.databases with
    | none => simp [databases, nothing]
    | some rows => simp [databases]

theorem originRows_updateOriginRows {update : List OriginRow → List OriginRow}
    (nothing : update [] = []) :
    (tracker.updateOriginRows update).originRows = update tracker.originRows := by
  rw [updateOriginRows, originRows, originRows]
  cases tracker.tables with
  | none => exact nothing.symm
  | some tables =>
    cases origins : tables.origins with
    | none => simp [origins, nothing]
    | some rows => simp [origins]

/-- The tracker without the rows of an origin. -/
def clearRows (origin : SecurityOrigin) (tracker : DatabaseTracker) : DatabaseTracker :=
  tracker.updateDatabaseRows (·.filter (·.origin ≠ origin))

def clearOrigin (origin : SecurityOrigin) (tracker : DatabaseTracker) : DatabaseTracker :=
  tracker.updateOriginRows (·.filter (·.origin ≠ origin))

theorem findRow_clearRows_self (origin : SecurityOrigin) (tracker : DatabaseTracker)
    (name : DatabaseName) : (clearRows origin tracker).findRow origin name = none := by
  rw [findRow, clearRows, databaseRows_updateDatabaseRows rfl, find?_eq_none]
  intro row member
  have isOther := of_decide_eq_true (mem_filter.1 member).2
  simp [isOther]

variable {otherOrigin : SecurityOrigin}

theorem findRow_clearRows_of_ne (ne : otherOrigin ≠ origin) (name : DatabaseName) :
    (clearRows origin tracker).findRow otherOrigin name =
      tracker.findRow otherOrigin name := by
  rw [findRow, clearRows, databaseRows_updateDatabaseRows rfl]
  apply find?_of_imp
  rintro row rfl -
  exact decide_eq_true ne

theorem originRows_clearRows (origin : SecurityOrigin) (tracker : DatabaseTracker) :
    (clearRows origin tracker).originRows = tracker.originRows := by
  rw [clearRows, updateDatabaseRows, originRows, originRows]
  cases tracker.tables <;> rfl

theorem content_clearRows_self (origin : SecurityOrigin) (tracker : DatabaseTracker)
    (name : DatabaseName) : (clearRows origin tracker).content origin name = none := by
  rw [content, findRow_clearRows_self]
  rfl

theorem content_clearRows_of_ne (ne : otherOrigin ≠ origin) (name : DatabaseName) :
    (clearRows origin tracker).content otherOrigin name =
      tracker.content otherOrigin name := by
  rw [content, findRow_clearRows_of_ne ne]
  rfl

theorem content_clearOrigin (tracker : DatabaseTracker) (anyOrigin : SecurityOrigin)
    (name : DatabaseName) : (clearOrigin origin tracker).content anyOrigin name =
      tracker.content anyOrigin name := by
  have rows : (clearOrigin origin tracker).databaseRows = tracker.databaseRows := by
    rw [clearOrigin, updateOriginRows, databaseRows, databaseRows]
    cases tracker.tables <;> rfl
  exact SameDatabases.content ⟨rows, rfl⟩ anyOrigin name

theorem hasDatabases_clear (present : tracker.HasDatabases) :
    (clearOrigin origin (clearRows origin tracker)).HasDatabases := by
  rw [HasDatabases, clearOrigin, clearRows, updateOriginRows, updateDatabaseRows]
  rw [HasDatabases] at present
  cases tables : tracker.tables with
  | none => simp [tables] at present
  | some tables => simpa [tables] using present

theorem hasOrigins_clear (present : tracker.HasOrigins) :
    (clearOrigin origin (clearRows origin tracker)).HasOrigins := by
  rw [HasOrigins, clearOrigin, clearRows, updateOriginRows, updateDatabaseRows]
  rw [HasOrigins] at present
  cases tables : tracker.tables with
  | none => simp [tables] at present
  | some tables => simpa [tables] using present

/-! ## The last origin -/

theorem content_of_no_tables (missing : tracker.tables = none) (anyOrigin : SecurityOrigin)
    (name : DatabaseName) : tracker.content anyOrigin name = none := by
  rw [content, findRow, databaseRows, missing]
  rfl

theorem content_of_no_databases (missing : ¬tracker.HasDatabases) (anyOrigin : SecurityOrigin)
    (name : DatabaseName) : tracker.content anyOrigin name = none := by
  rw [content, findRow, databaseRows, not_not.1 missing]
  rfl

theorem no_tables_of_closed
    (closed : (tracker.openTrackerDatabase failure side false).isOpen = false) :
    tracker.tables = none := by
  cases stored : tracker.tables with
  | none => rfl
  | some tables =>
    rw [isOpen_openTrackerDatabase_of_tables stored] at closed
    cases closed

theorem forgetOrigin_of_mem (ne : otherOrigin ≠ origin)
    (known : otherOrigin ∈ (tracker.populateOriginsIfNeeded failure side).quotas) :
    tracker.forgetOrigin failure side origin = { tracker.populateOriginsIfNeeded failure side with
        quotaMap := some
          ((tracker.populateOriginsIfNeeded failure side).quotas.erase origin) } := by
  refine if_neg fun empty => ?_
  have stays : otherOrigin ∈
      (tracker.populateOriginsIfNeeded failure side).quotas.erase origin :=
    AList.mem_erase.2 ⟨ne, known⟩
  rw [AList.mem_keys, isEmpty_iff.1 empty] at stays
  cases stays

theorem forgetOrigin_of_forall
    (last : ∀ otherOrigin ∈ (tracker.populateOriginsIfNeeded failure side).quotas,
      otherOrigin = origin) : (tracker.forgetOrigin failure side origin).tables = none ∧
      (tracker.forgetOrigin failure side origin).isOpen = false := by
  have empty : ((tracker.populateOriginsIfNeeded failure side).quotas.erase
      origin).keys.isEmpty = true := by
    rw [List.isEmpty_iff, List.eq_nil_iff_forall_not_mem]
    intro otherOrigin stays
    have both := AList.mem_erase.1 (AList.mem_keys.2 stays)
    exact both.1 (last otherOrigin both.2)
  rw [forgetOrigin, if_pos empty]
  exact ⟨rfl, rfl⟩

theorem content_forgetOrigin (failure : Option Operation) (side : TrackerSide)
    (tracker : DatabaseTracker) (origin anyOrigin : SecurityOrigin) (name : DatabaseName) :
    (tracker.forgetOrigin failure side origin).content anyOrigin name =
        tracker.content anyOrigin name ∨
      (tracker.forgetOrigin failure side origin).content anyOrigin name = none := by
  by_cases last : ∀ otherOrigin ∈ (tracker.populateOriginsIfNeeded failure side).quotas,
      otherOrigin = origin
  · exact .inr (content_of_no_tables (forgetOrigin_of_forall last).1 anyOrigin name)
  · push Not at last
    obtain ⟨otherOrigin, known, ne⟩ := last
    rw [forgetOrigin_of_mem ne known]
    have same := @sameDatabases_populateOriginsIfNeeded failure side tracker
    exact .inl (SameDatabases.content ⟨same.rows, same.files⟩ anyOrigin name)

/-! ## The deletion of an origin -/

/-- What the deletion of an origin can do. -/
theorem deleteOrigin_cases (failure : Option Operation) (side : TrackerSide)
    (tracker : DatabaseTracker) (origin : SecurityOrigin) :
    let opened := tracker.openTrackerDatabase failure side false
    tracker.deleteOrigin failure side origin = opened ∧
        (opened.isOpen = false ∨ ¬opened.HasDatabases ∨
          failure = some (.selectNames .deleting side origin)) ∨
      ∃ erased, opened.isOpen = true ∧ opened.HasDatabases ∧ ErasesFiles origin opened erased ∧
        (∀ name, failure ≠ some (.selectPath .deleting side origin name) →
          erased.content origin name = none) ∧
        (failure = some (.deleteDatabases side origin) ∧
            tracker.deleteOrigin failure side origin = erased ∨
          (¬opened.HasOrigins ∨ failure = some (.deleteOrigin side origin)) ∧
            tracker.deleteOrigin failure side origin = clearRows origin erased ∨
          opened.HasOrigins ∧ tracker.deleteOrigin failure side origin =
              (clearOrigin origin (clearRows origin erased)).forgetOrigin failure side
                origin) := by
  intro opened
  rw [deleteOrigin]
  by_cases unreadable : opened.isOpen = false ∨ opened.tables.bind (·.databases) = none ∨
      failure = some (.selectNames .deleting side origin)
  · left
    refine ⟨?_, unreadable.imp_right (Or.imp_left not_not.2)⟩
    rw [databaseNamesForOrigin, if_pos unreadable]
  · right
    have isOpen : opened.isOpen = true := by
      by_contra closed
      exact unreadable (.inl (Bool.eq_false_iff.2 closed))
    have hasDatabases : opened.HasDatabases := fun missing => unreadable (.inr (.inl missing))
    let names := (opened.databaseRows.filter (·.origin = origin)).map (·.name)
    have erases := @erasesFiles_deleteFiles failure side origin names opened
    refine ⟨deleteFiles failure side origin names opened, isOpen, hasDatabases, erases, ?_, ?_⟩
    · intro name works
      by_cases member : name ∈ names
      · exact content_deleteFiles isOpen hasDatabases member works
      · rw [content, erases.findRow]
        cases found : opened.findRow origin name with
        | none => rfl
        | some row =>
          obtain ⟨isRow, isOwn, isNamed⟩ := mem_of_findRow found
          exact absurd (mem_map.2 ⟨row, mem_filter.2
            ⟨isRow, decide_eq_true isOwn⟩, isNamed⟩) member
    · have hasOrigins : (clearRows origin (deleteFiles failure side origin names
          opened)).tables.bind (·.origins) = opened.tables.bind (·.origins) := by
        rw [clearRows, updateDatabaseRows, erases.tables]
        cases opened.tables <;> rfl
      rw [databaseNamesForOrigin, if_neg unreadable]
      dsimp only
      split_ifs with rowsFail originsFail
      · exact .inl ⟨rowsFail, rfl⟩
      · refine .inr (.inl ⟨?_, rfl⟩)
        exact originsFail.imp_left fun missing => not_not.2 (hasOrigins.symm.trans missing)
      · refine .inr (.inr ⟨fun missing => originsFail (.inl ?_), rfl⟩)
        exact hasOrigins.trans missing

/-- No database appears and none changes. -/
theorem content_deleteOrigin (failure : Option Operation) (side : TrackerSide)
    (tracker : DatabaseTracker) (origin anyOrigin : SecurityOrigin) (name : DatabaseName) :
    (tracker.deleteOrigin failure side origin).content anyOrigin name =
        tracker.content anyOrigin name ∨
      (tracker.deleteOrigin failure side origin).content anyOrigin name = none := by
  have opened := @sameDatabases_openTrackerDatabase failure side tracker false
  have cleared : ∀ erased : DatabaseTracker,
      (clearRows origin erased).content anyOrigin name = erased.content anyOrigin name ∨
        (clearRows origin erased).content anyOrigin name = none := by
    intro erased
    by_cases own : anyOrigin = origin
    · subst own
      exact .inr (content_clearRows_self _ erased name)
    · exact .inl (content_clearRows_of_ne own name)
  rcases deleteOrigin_cases failure side tracker origin with
    ⟨same, -⟩ | ⟨erased, -, -, erases, -, outcome⟩
  · rw [same]
    exact .inl (opened.content anyOrigin name)
  · have kept : erased.content anyOrigin name = tracker.content anyOrigin name ∨
        erased.content anyOrigin name = none := by
      rw [← opened.content]
      exact (erases.content anyOrigin name).imp_right And.right
    have keptRows := (cleared erased).elim (fun same => same ▸ kept) .inr
    rcases outcome with ⟨-, same⟩ | ⟨-, same⟩ | ⟨-, same⟩
    · rw [same]
      exact kept
    · rw [same]
      exact keptRows
    · rw [same]
      rcases content_forgetOrigin failure side (clearOrigin origin (clearRows origin erased))
        origin anyOrigin name with stays | gone
      · rw [stays, content_clearOrigin]
        exact keptRows
      · exact .inr gone

/-- The databases of the origin are gone, if at most one statement fails and it
is not the one that reads their names. -/
theorem content_deleteOrigin_self (works : failure ≠ some (.selectNames .deleting side origin))
    (name : DatabaseName) :
    (tracker.deleteOrigin failure side origin).content origin name = none := by
  rcases deleteOrigin_cases failure side tracker origin with
    ⟨same, unreadable⟩ | ⟨erased, -, -, erases, filesErased, outcome⟩
  · rw [same]
    rcases unreadable with closed | missing | fails
    · rw [sameDatabases_openTrackerDatabase tracker false |>.content]
      exact content_of_no_tables (no_tables_of_closed closed) origin name
    · exact content_of_no_databases missing origin name
    · exact absurd fails works
  · rcases outcome with ⟨fails, same⟩ | ⟨-, same⟩ | ⟨-, same⟩
    · rw [same]
      exact filesErased name (by simp [fails])
    · rw [same]
      exact content_clearRows_self origin erased name
    · rw [same]
      rcases content_forgetOrigin failure side (clearOrigin origin (clearRows origin erased))
        origin origin name with stays | gone
      · rw [stays, content_clearOrigin]
        exact content_clearRows_self origin erased name
      · exact gone

theorem deleteOrigin_of_fails (fails : failure = some (.selectNames .deleting side origin)) :
    tracker.deleteOrigin failure side origin =
      tracker.openTrackerDatabase failure side false := by
  rw [deleteOrigin, databaseNamesForOrigin, if_pos (.inr (.inr fails))]

theorem recalls_clear (ne : otherOrigin ≠ origin)
    (recalls : tracker.Recalls failure side otherOrigin) :
    (clearOrigin origin (clearRows origin tracker)).Recalls failure side otherOrigin := by
  have quotaMap : (clearOrigin origin (clearRows origin tracker)).quotaMap = tracker.quotaMap := rfl
  have originRows : (clearOrigin origin (clearRows origin tracker)).originRows =
      tracker.originRows.filter (·.origin ≠ origin) := by
    rw [clearOrigin, originRows_updateOriginRows rfl, originRows_clearRows]
  rw [Recalls] at recalls ⊢
  rw [quotaMap, originRows]
  cases known : tracker.quotaMap with
  | some quotas =>
    rw [known] at recalls
    exact recalls
  | none =>
    rw [known] at recalls
    obtain ⟨row, isRow, isOther⟩ := mem_map.1 recalls.1
    refine ⟨mem_map.2 ⟨row, mem_filter.2 ⟨isRow, ?_⟩, isOther⟩, recalls.2⟩
    rw [isOther]
    exact decide_eq_true ne

/-- As long as the tracker recalls another origin, the databases of the other
origins stay. -/
theorem deleteOrigin_keeps {keeper : SecurityOrigin} (ne : keeper ≠ origin)
    (recalls : tracker.Recalls failure side keeper) :
    (tracker.deleteOrigin failure side origin).Recalls failure side keeper ∧
      ∀ otherOrigin ≠ origin, ∀ name,
        (tracker.deleteOrigin failure side origin).content otherOrigin name =
          tracker.content otherOrigin name := by
  have opened := @sameDatabases_openTrackerDatabase failure side tracker false
  have openedRecalls : (tracker.openTrackerDatabase failure side false).Recalls failure side
      keeper := (recalls_congr (quotaMap_openTrackerDatabase tracker false)
        (originRows_openTrackerDatabase tracker false)).2 recalls
  rcases deleteOrigin_cases failure side tracker origin with
    ⟨same, -⟩ | ⟨erased, -, -, erases, -, outcome⟩
  · rw [same]
    exact ⟨openedRecalls, fun otherOrigin _ name => opened.content otherOrigin name⟩
  · have erasedRecalls : erased.Recalls failure side keeper :=
      (recalls_congr erases.quotaMap erases.originRows).2 openedRecalls
    have kept : ∀ otherOrigin ≠ origin, ∀ name,
        erased.content otherOrigin name = tracker.content otherOrigin name := by
      intro otherOrigin isOther name
      rw [← opened.content]
      exact (erases.content otherOrigin name).resolve_right fun own => isOther own.1
    have keptRows : ∀ otherOrigin ≠ origin, ∀ name,
        (clearRows origin erased).content otherOrigin name =
          tracker.content otherOrigin name := fun otherOrigin isOther name =>
      (content_clearRows_of_ne isOther name).trans (kept otherOrigin isOther name)
    rcases outcome with ⟨-, same⟩ | ⟨-, same⟩ | ⟨-, same⟩
    · rw [same]
      exact ⟨erasedRecalls, kept⟩
    · rw [same]
      have originRows := originRows_clearRows origin erased
      refine ⟨(recalls_congr ?_ originRows).2 erasedRecalls, keptRows⟩
      rfl
    · have known := mem_quotas_of_recalls (recalls_clear ne erasedRecalls)
      rw [same, forgetOrigin_of_mem ne known]
      refine ⟨AList.mem_erase.2 ⟨ne, known⟩, ?_⟩
      intro otherOrigin isOther name
      have populated := @sameDatabases_populateOriginsIfNeeded failure side
        (clearOrigin origin (clearRows origin erased))
      refine (SameDatabases.content ⟨populated.rows, populated.files⟩ otherOrigin name).trans ?_
      rw [content_clearOrigin]
      exact keptRows otherOrigin isOther name

/-- A deletion of which nothing fails ends with the quotas. -/
theorem deleteOrigin_of_works (isOpen : tracker.isOpen = true) (hasDatabases : tracker.HasDatabases)
    (hasOrigins : tracker.HasOrigins) (names : failure ≠ some (.selectNames .deleting side origin))
    (rows : failure ≠ some (.deleteDatabases side origin))
    (row : failure ≠ some (.deleteOrigin side origin)) :
    ∃ erased, ErasesFiles origin tracker erased ∧ tracker.deleteOrigin failure side origin =
        (clearOrigin origin (clearRows origin erased)).forgetOrigin failure side origin := by
  have cases := deleteOrigin_cases failure side tracker origin
  rw [openTrackerDatabase_of_isOpen isOpen] at cases
  rcases cases with ⟨-, closed | missing | fails⟩ | ⟨erased, -, -, erases, -, outcome⟩
  · rw [isOpen] at closed
    cases closed
  · exact absurd hasDatabases missing
  · exact absurd fails names
  · rcases outcome with ⟨fails, -⟩ | ⟨missing | fails, -⟩ | ⟨-, same⟩
    · exact absurd fails rows
    · exact absurd hasOrigins missing
    · exact absurd fails row
    · exact ⟨erased, erases, same⟩

/-! ## The deletion of origins -/

theorem content_deleteOrigins (failure : Option Operation) (side : TrackerSide)
    (tracker : DatabaseTracker) (origins : List SecurityOrigin) (origin : SecurityOrigin)
    (name : DatabaseName) :
    (tracker.deleteOrigins failure side origins).content origin name = tracker.content origin name ∨
      (tracker.deleteOrigins failure side origins).content origin name = none := by
  induction origins generalizing tracker with
  | nil => exact .inl rfl
  | cons first origins ih =>
    rcases ih (tracker.deleteOrigin failure side first) with same | gone
    · rcases content_deleteOrigin failure side tracker first origin name with
        kept | gone
      · exact .inl (same.trans kept)
      · exact .inr (same.trans gone)
    · exact .inr gone

variable {origins : List SecurityOrigin}

theorem content_deleteOrigins_of_mem (member : origin ∈ origins)
    (works : failure ≠ some (.selectNames .deleting side origin)) (name : DatabaseName) :
    (tracker.deleteOrigins failure side origins).content origin name = none := by
  induction origins generalizing tracker with
  | nil => cases member
  | cons first origins ih =>
    rcases mem_cons.1 member with rfl | isLater
    · rcases content_deleteOrigins failure side (tracker.deleteOrigin failure side origin)
        origins origin name with same | gone
      · exact same.trans (content_deleteOrigin_self works name)
      · exact gone
    · exact ih isLater

/-- An origin that is not deleted, because it is not to be or because the names
of its databases cannot be read. -/
def Spared (failure : Option Operation) (side : TrackerSide) (origins : List SecurityOrigin)
    (origin : SecurityOrigin) : Prop :=
  origin ∈ origins → failure = some (.selectNames .deleting side origin)

theorem Spared.tail {first : SecurityOrigin}
    (spared : Spared failure side (first :: origins) origin) :
    Spared failure side origins origin := fun member =>
  spared (.tail first member)

/-- As long as the tracker recalls an origin that is spared, the databases of the
origins that are spared stay. -/
theorem deleteOrigins_keeps {keeper : SecurityOrigin}
    (keeperSpared : Spared failure side origins keeper)
    (recalls : tracker.Recalls failure side keeper) (spared : Spared failure side origins origin)
    (name : DatabaseName) : (tracker.deleteOrigins failure side origins).content origin name =
      tracker.content origin name := by
  induction origins generalizing tracker with
  | nil => rfl
  | cons first origins ih =>
    have step : (tracker.deleteOrigin failure side first).Recalls failure side keeper ∧
        (tracker.deleteOrigin failure side first).content origin name =
          tracker.content origin name := by
      by_cases fails : failure = some (.selectNames .deleting side first)
      · rw [deleteOrigin_of_fails fails]
        exact ⟨(recalls_congr (quotaMap_openTrackerDatabase tracker false)
            (originRows_openTrackerDatabase tracker false)).2 recalls,
          (sameDatabases_openTrackerDatabase tracker false).content origin name⟩
      · have isOther : ∀ other, Spared failure side (first :: origins) other →
            other ≠ first := by
          rintro other otherSpared rfl
          exact fails (otherSpared (.head _))
        obtain ⟨stillRecalls, kept⟩ := deleteOrigin_keeps
          (isOther keeper keeperSpared) recalls
        exact ⟨stillRecalls, kept origin (isOther origin spared) name⟩
    exact (ih keeperSpared.tail step.1 spared.tail).trans step.2

/-- Nothing that concerns the deletion of origins fails. -/
def DeletionWorks (failure : Option Operation) (side : TrackerSide) : Prop :=
  ∀ origin, failure ≠ some (.selectNames .deleting side origin) ∧
    failure ≠ some (.deleteDatabases side origin) ∧
    failure ≠ some (.deleteOrigin side origin)

theorem tables_deleteOrigins_of_no_tables (origins : List SecurityOrigin)
    (missing : tracker.tables = none) (closed : tracker.isOpen = false) :
    (tracker.deleteOrigins failure side origins).tables = none := by
  induction origins with
  | nil => exact missing
  | cons first origins ih =>
    have opened : tracker.openTrackerDatabase failure side false = tracker := by
      rw [openTrackerDatabase, closed, missing]
      rfl
    have same : tracker.deleteOrigin failure side first = tracker := by
      rw [deleteOrigin, opened, databaseNamesForOrigin, if_pos (.inl closed)]
    rw [deleteOrigins, foldl_cons, same]
    exact ih

/-- `Databases.db` is deleted when all origins in memory are. -/
theorem tables_deleteOrigins {quotas : AList fun _ : SecurityOrigin => Nat}
    (some_origin : origins ≠ []) (isOpen : tracker.isOpen = true)
    (hasDatabases : tracker.HasDatabases) (hasOrigins : tracker.HasOrigins)
    (known : tracker.quotaMap = some quotas) (all : ∀ origin ∈ quotas, origin ∈ origins)
    (works : DeletionWorks failure side) :
    (tracker.deleteOrigins failure side origins).tables = none := by
  induction origins generalizing tracker quotas with
  | nil => exact absurd rfl some_origin
  | cons first origins ih =>
    obtain ⟨names, rows, row⟩ := works first
    obtain ⟨erased, erases, same⟩ := deleteOrigin_of_works isOpen hasDatabases hasOrigins
      names rows row
    have cleared : (clearOrigin first (clearRows first erased)).quotaMap =
        some quotas := erases.quotaMap.trans known
    have populated := @populateOriginsIfNeeded_of_some failure side _ _ cleared
    have memory : ((clearOrigin first (clearRows first
        erased)).populateOriginsIfNeeded failure side).quotas = quotas := by
      rw [populated, DatabaseTracker.quotas, cleared]
      rfl
    rw [deleteOrigins, foldl_cons, same]
    by_cases last : ∀ otherOrigin ∈ quotas, otherOrigin = first
    · rw [← memory] at last
      obtain ⟨missing, closed⟩ := forgetOrigin_of_forall last
      exact tables_deleteOrigins_of_no_tables origins missing closed
    · push Not at last
      obtain ⟨otherOrigin, isKnown, ne⟩ := last
      rw [forgetOrigin_of_mem ne (memory ▸ isKnown), memory, populated]
      refine ih ?_ ?_ ?_ ?_ rfl ?_
      · rintro rfl
        exact ne (mem_singleton.1 (all otherOrigin isKnown))
      · exact erases.isOpen.trans isOpen
      · exact hasDatabases_clear (erases.hasDatabases hasDatabases)
      · exact hasOrigins_clear (erases.hasOrigins hasOrigins)
      · intro origin stays
        obtain ⟨isOther, isKnown⟩ := AList.mem_erase.1 stays
        exact (mem_cons.1 (all origin isKnown)).resolve_left isOther

end Statements

end DatabaseTracker
end Storage
end PalmWebKit
