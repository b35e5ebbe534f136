import PalmWebKit.Storage.CopyEffect

/-!
# The trackers of a move

A move reads the origins of the source, opens both trackers and copies.
-/

namespace PalmWebKit
namespace Storage

open DatabaseTracker

/-- A tracker as it is in its directory, behind any statements that worked.  Its
rows have numbers of their own, and every database has an origin that was
established before. -/
structure StoredTracker where
  tables : Option TrackerTables
  files : AList fun _ : SecurityOrigin × Nat => Content
  tidy : Tidy ⟨false, tables, files, none⟩
  established : ∀ row ∈ databaseRows ⟨false, tables, files, none⟩,
    row.origin ∈ (originRows ⟨false, tables, files, none⟩).map (·.origin)

/-- The object that is constructed for a tracker. -/
def StoredTracker.tracker (stored : StoredTracker) : DatabaseTracker :=
  ⟨false, stored.tables, stored.files, none⟩

/-- A database has an origin. -/
theorem StoredTracker.mem_originRows (stored : StoredTracker) {origin : SecurityOrigin}
    {name : DatabaseName} (present : stored.tracker.content origin name ≠ none) :
    origin ∈ stored.tracker.originRows.map (·.origin) := by
  cases found : stored.tracker.findRow origin name with
  | none => exact absurd (content_of_no_row found) present
  | some row =>
    obtain ⟨isRow, isOwn, -⟩ := mem_of_findRow found
    exact isOwn ▸ stored.established row isRow

/-- The origins that a condition selects. -/
def selects (condition : Option (SecurityOrigin → Bool)) (origin : SecurityOrigin) : Bool :=
  match condition with
  | none => true
  | some like => like origin

/-- The row at which the statement fails that reads the origins of the source. -/
def failedRow (failure : Option Operation)
    (condition : Option (SecurityOrigin → Bool)) : Option Nat :=
  match failure, condition with
  | some (.populateOrigins .source row), none => some row
  | some (.selectOrigins row), some _ => some row
  | _, _ => none

/-- The rows of `Origins` that are read for a move. -/
def rowsRead (failure : Option Operation) (condition : Option (SecurityOrigin → Bool))
    (rows : List OriginRow) : List OriginRow :=
  let selected := rows.filter fun row => selects condition row.origin
  match failedRow failure condition with
  | none => selected
  | some row => selected.take row

/-- The origins that are to be moved. -/
def originsRead (failure : Option Operation) (order : HashOrder)
    (condition : Option (SecurityOrigin → Bool)) (source : DatabaseTracker) : List SecurityOrigin :=
  order.keys (quotasOf (rowsRead failure condition source.originRows)).keys

section Start

variable {failure : Option Operation} {side : TrackerSide} {order : HashOrder}
variable {condition : Option (SecurityOrigin → Bool)}
variable {origin : SecurityOrigin} {name : DatabaseName}

theorem failedRow_none_iff {row : Nat} : failedRow failure none = some row ↔
      failure = some (.populateOrigins .source row) := by
  unfold failedRow
  split
  next => simp
  next _ _ _ same => cases same
  next _ _ isOther _ =>
    exact iff_of_false (Option.some_ne_none row).symm fun fails => isOther row fails rfl

theorem failedRow_some_iff {like : SecurityOrigin → Bool} {row : Nat} :
    failedRow failure (some like) = some row ↔ failure = some (.selectOrigins row) := by
  unfold failedRow
  split
  next same => cases same
  next => simp
  next _ _ _ isOther =>
    exact iff_of_false (Option.some_ne_none row).symm fun fails => isOther row like fails rfl

/-- The rows are read up to the one at which the statement fails. -/
theorem readRows_eq_rowsRead {fails : Nat → Bool} {rows : List OriginRow}
    (failsAt : ∀ row, fails row = true ↔ failedRow failure condition = some row) :
    readRows fails (rows.filter fun row => selects condition row.origin) =
      rowsRead failure condition rows := by
  rw [rowsRead]
  cases failed : failedRow failure condition with
  | some row =>
    refine readRows_eq_take fun index => ?_
    rw [Bool.eq_iff_iff, failsAt, failed, decide_eq_true_iff, Option.some_inj, eq_comm]
  | none =>
    refine readRows_of_forall fun row => Bool.eq_false_iff.2 fun isFailure => ?_
    rw [failsAt, failed] at isFailure
    cases isFailure

theorem mem_rowsRead {rows : List OriginRow} {row : OriginRow}
    (isRead : row ∈ rowsRead failure condition rows) :
    row ∈ rows ∧ selects condition row.origin = true := by
  suffices member : row ∈ rows.filter fun row => selects condition row.origin from
    List.mem_filter.1 member
  rw [rowsRead] at isRead
  cases failed : failedRow failure condition with
  | none =>
    rw [failed] at isRead
    exact isRead
  | some last =>
    rw [failed] at isRead
    exact List.mem_of_mem_take isRead

theorem mem_originsRead {source : DatabaseTracker} :
    origin ∈ originsRead failure order condition source ↔
      origin ∈ (rowsRead failure condition source.originRows).map (·.origin) := by
  rw [originsRead, (order.perm _).mem_iff, ← AList.mem_keys, mem_quotasOf]

theorem nodup_originsRead {source : DatabaseTracker} :
    (originsRead failure order condition source).Nodup :=
  ((order.perm _).nodup_iff).2 (AList.keys_nodup _)

/-- What is selected is read, unless the statement fails. -/
theorem mem_originsRead_of_selects {source : DatabaseTracker}
    (works : failedRow failure condition = none)
    (stored : origin ∈ source.originRows.map (·.origin))
    (selected : selects condition origin = true) :
    origin ∈ originsRead failure order condition source := by
  obtain ⟨row, isRow, rfl⟩ := List.mem_map.1 stored
  refine mem_originsRead.2 (List.mem_map.2 ⟨row, ?_, rfl⟩)
  rw [rowsRead, works]
  exact List.mem_filter.2 ⟨isRow, selected⟩

theorem openTrackerDatabase_false_true {tracker : DatabaseTracker} (closed : tracker.isOpen = false)
    (quotaMap : Option (AList fun _ : SecurityOrigin => Nat)) :
    { tracker.openTrackerDatabase failure side false with
        quotaMap := quotaMap }.openTrackerDatabase failure side true =
      { tracker.openTrackerDatabase failure side true with quotaMap := quotaMap } := by
  cases stored : tracker.tables <;>
    simp [openTrackerDatabase, closed, stored]

/-- A tracker that was opened and has done nothing else. -/
structure Opened (failure : Option Operation) (side : TrackerSide) (stored : StoredTracker)
    (tracker : DatabaseTracker) : Prop where
  isOpen : tracker.isOpen = true
  tidy : tracker.Tidy
  content : ∀ origin name, tracker.content origin name = stored.tracker.content origin name
  findRow : ∀ origin name, tracker.findRow origin name = stored.tracker.findRow origin name
  originRows : tracker.originRows = stored.tracker.originRows
  hasDatabases : (failure = some (.createDatabases side) → stored.tracker.HasDatabases) →
    tracker.HasDatabases
  hasOrigins : failure ≠ some (.createOrigins side) → tracker.HasOrigins

theorem createTable_ne_none {Row : Type} {fails : Bool} {rows : Option (List Row)}
    (works : fails = true → rows ≠ none) : createTable fails rows ≠ none := by
  cases rows with
  | some rows => exact Option.some_ne_none rows
  | none =>
    cases fails with
    | true => exact absurd rfl (works rfl)
    | false => exact Option.some_ne_none []

theorem opened_openTrackerDatabase (stored : StoredTracker) : Opened failure side stored
      (stored.tracker.openTrackerDatabase failure side true) := by
  have same := @sameDatabases_openTrackerDatabase failure side stored.tracker true
  have tables : (stored.tracker.openTrackerDatabase failure side true).tables =
      some (createTables failure side (stored.tables.getD ⟨none, none, 0⟩)) := by
    rw [StoredTracker.tracker]
    cases stored.tables <;> rfl
  refine ⟨isOpen_openTrackerDatabase_true stored.tracker, ?_, same.content,
    same.findRow, originRows_openTrackerDatabase stored.tracker true, ?_, ?_⟩
  · exact Tidy.congr stored.tidy same (sequence_openTrackerDatabase _ true)
  · intro works
    rw [HasDatabases, tables]
    refine createTable_ne_none fun fails missing => works (of_decide_eq_true fails) ?_
    rw [StoredTracker.tracker]
    cases storedTables : stored.tables with
    | none => rfl
    | some tables =>
      rw [storedTables] at missing
      exact missing
  · intro works
    rw [HasOrigins, tables]
    exact createTable_ne_none fun fails => absurd (of_decide_eq_true fails) works

theorem Opened.setQuotas {stored : StoredTracker} {tracker : DatabaseTracker}
    (opened : Opened failure side stored tracker)
    (quotaMap : Option (AList fun _ : SecurityOrigin => Nat)) :
    Opened failure side stored { tracker with quotaMap := quotaMap } :=
  ⟨opened.isOpen, ⟨opened.tidy.namesNodup, opened.tidy.pathsDistinct,
    opened.tidy.rowsNumbered, opened.tidy.filesNumbered⟩, opened.content, opened.findRow,
    opened.originRows, opened.hasDatabases, opened.hasOrigins⟩

/-- What the source has in memory when the copying starts. -/
def quotasRead (failure : Option Operation) (condition : Option (SecurityOrigin → Bool))
    (rows : List OriginRow) : Option (AList fun _ : SecurityOrigin => Nat) :=
  match condition with
  | none => some (quotasOf (rowsRead failure none rows))
  | some _ => none

theorem populateOriginsIfNeeded_stored (stored : StoredTracker) :
    stored.tracker.populateOriginsIfNeeded failure .source =
      { stored.tracker.openTrackerDatabase failure .source false with
        quotaMap := quotasRead failure none stored.tracker.originRows } := by
  have read := @readRows_eq_rowsRead failure none
    (fun row => failure = some (.populateOrigins .source row)) stored.tracker.originRows
    fun row => decide_eq_true_iff.trans failedRow_none_iff.symm
  have all : (stored.tracker.originRows.filter fun row => selects none row.origin) =
      stored.tracker.originRows := List.filter_true _
  have unread : stored.tracker.quotaMap = none := rfl
  rw [all] at read
  rw [populateOriginsIfNeeded, unread, quotasRead]
  dsimp only
  rw [originRows_openTrackerDatabase, read]
  split
  next => rfl
  next closed =>
    have missing := no_tables_of_closed (Bool.eq_false_iff.2 closed)
    have nothing : stored.tracker.originRows = [] := by
      rw [originRows, missing]
      rfl
    have nothingRead : rowsRead failure none ([] : List OriginRow) = [] :=
      List.eq_nil_iff_forall_not_mem.2 fun row isRead => List.not_mem_nil (mem_rowsRead isRead).1
    rw [nothing, nothingRead]
    rfl

/-- The origins that are read, and the source when it is opened again. -/
theorem origins_eq (stored : StoredTracker) :
    (stored.tracker.origins failure .source order condition).2 =
        originsRead failure order condition stored.tracker ∧
      (stored.tracker.origins failure .source order condition).1.openTrackerDatabase
          failure .source true =
        { stored.tracker.openTrackerDatabase failure .source true with
          quotaMap := quotasRead failure condition stored.tracker.originRows } := by
  cases condition with
  | none =>
    rw [origins, populateOriginsIfNeeded_stored]
    exact ⟨rfl, openTrackerDatabase_false_true rfl _⟩
  | some like =>
    have read := @readRows_eq_rowsRead failure (some like)
      (fun row => failure = some (.selectOrigins row)) stored.tracker.originRows
      fun row => decide_eq_true_iff.trans failedRow_some_iff.symm
    rw [origins]
    rw [originRows_openTrackerDatabase, originsRead, ← read]
    refine ⟨rfl, ?_⟩
    cases tables : stored.tables <;>
      simp [openTrackerDatabase, StoredTracker.tracker, tables, quotasRead]

/-- The move copies and then deletes. -/
theorem moveTrackerDatabases_eq (source destination : StoredTracker) :
    ∃ starting : Trackers, Opened failure .source source starting.source ∧
      starting.source.quotaMap = quotasRead failure condition source.tracker.originRows ∧
      Opened failure .destination destination starting.destination ∧
      starting.destination.quotaMap = none ∧
      moveTrackerDatabases failure order condition ⟨source.tracker, destination.tracker⟩ =
        match copyOrigins failure (originsRead failure order condition source.tracker)
          starting with
        | (trackers, true) =>
          (⟨trackers.source.deleteOrigins failure .source (originsRead failure order condition
            source.tracker), trackers.destination⟩, true)
        | (trackers, false) =>
          (⟨trackers.source, trackers.destination.deleteOrigins failure .destination
            (originsRead failure order condition source.tracker)⟩, false) := by
  obtain ⟨origins, opened⟩ := @origins_eq failure order condition source
  refine ⟨⟨{ source.tracker.openTrackerDatabase failure .source true with
      quotaMap := quotasRead failure condition source.tracker.originRows },
      destination.tracker.openTrackerDatabase failure .destination true⟩,
    (opened_openTrackerDatabase source).setQuotas _, rfl,
    opened_openTrackerDatabase destination,
    quotaMap_openTrackerDatabase destination.tracker true, ?_⟩
  rw [← opened, ← origins]
  rfl

end Start

end Storage
end PalmWebKit
