import PalmWebKit.Storage.KeptSource

/-!
# The destination of copies

A destination gets a row and a file for a database, and the databases of other
origins stay as they are.
-/

namespace PalmWebKit
namespace Storage

namespace DatabaseTracker

variable {failure : Option Operation}
variable {tracker other third : DatabaseTracker}
variable {origin : SecurityOrigin} {name : DatabaseName}
variable {touched later : SecurityOrigin → DatabaseName → Prop}

/-- A tracker with the same databases that recalls what it did. -/
structure SameButOrigins (failure : Option Operation) (tracker other : DatabaseTracker) : Prop where
  databases : tracker.SameDatabases other
  isOpen : other.isOpen = tracker.isOpen
  hasDatabases : other.HasDatabases ↔ tracker.HasDatabases
  sequence : other.sequence = tracker.sequence
  recalls : ∀ origin, tracker.Recalls failure .destination origin →
    other.Recalls failure .destination origin

namespace SameButOrigins

theorem refl (tracker : DatabaseTracker) : SameButOrigins failure tracker tracker :=
  ⟨.refl tracker, rfl, Iff.rfl, rfl, fun _ => id⟩

theorem trans (first : SameButOrigins failure tracker other)
    (second : SameButOrigins failure other third) : SameButOrigins failure tracker third where
  databases := first.databases.trans second.databases
  isOpen := second.isOpen.trans first.isOpen
  hasDatabases := second.hasDatabases.trans first.hasDatabases
  sequence := second.sequence.trans first.sequence
  recalls origin recalled := second.recalls origin (first.recalls origin recalled)

theorem populateOriginsIfNeeded (isOpen : tracker.isOpen = true) : SameButOrigins failure tracker
      (tracker.populateOriginsIfNeeded failure .destination) := by
  obtain ⟨tables, stillOpen⟩ :=
    @tables_populateOriginsIfNeeded_of_isOpen failure .destination tracker isOpen
  refine ⟨sameDatabases_populateOriginsIfNeeded tracker, stillOpen.trans isOpen.symm, ?_, ?_, ?_⟩
  · rw [HasDatabases, HasDatabases, tables]
  · rw [DatabaseTracker.sequence, tables]
    rfl
  · intro origin recalled
    have known := mem_quotas_of_recalls recalled
    rw [Recalls]
    cases quotas : (tracker.populateOriginsIfNeeded failure .destination).quotaMap with
    | none => exact absurd quotas (quotaMap_populateOriginsIfNeeded tracker)
    | some quotas' =>
      rw [DatabaseTracker.quotas, quotas] at known
      exact known

theorem updateOriginRows {quotas : AList fun _ : SecurityOrigin => Nat}
    (known : tracker.quotaMap = some quotas) (update : List OriginRow → List OriginRow) :
    SameButOrigins failure tracker (tracker.updateOriginRows update) where
  databases := by
    refine ⟨?_, rfl⟩
    rw [DatabaseTracker.updateOriginRows, databaseRows, databaseRows]
    cases tracker.tables <;> rfl
  isOpen := rfl
  hasDatabases := by
    rw [HasDatabases, HasDatabases, DatabaseTracker.updateOriginRows]
    cases tracker.tables <;> simp
  sequence := by
    rw [DatabaseTracker.sequence, DatabaseTracker.sequence, DatabaseTracker.updateOriginRows]
    cases tracker.tables <;> rfl
  recalls origin recalled := by
    rw [Recalls, known] at recalled
    have same : (tracker.updateOriginRows update).quotaMap = some quotas := known
    rw [Recalls, same]
    exact recalled

theorem insertQuota {quotas : AList fun _ : SecurityOrigin => Nat}
    (known : tracker.quotaMap = some quotas) (origin : SecurityOrigin) (quota : Nat) :
    SameButOrigins failure tracker
      { tracker with quotaMap := some (tracker.quotas.insert origin quota) } where
  databases := ⟨rfl, rfl⟩
  isOpen := rfl
  hasDatabases := Iff.rfl
  sequence := rfl
  recalls otherOrigin recalled := by
    rw [Recalls, known] at recalled
    refine (AList.mem_insert _).2 (.inr ?_)
    rw [DatabaseTracker.quotas, known]
    exact recalled

end SameButOrigins

theorem sameButOrigins_insertOrigin {quotas : AList fun _ : SecurityOrigin => Nat}
    (known : tracker.quotaMap = some quotas) (origin : SecurityOrigin) (quota : Nat) :
    SameButOrigins failure tracker (tracker.insertOrigin failure origin quota) ∧
      (tracker.insertOrigin failure origin quota).quotaMap = some quotas := by
  rw [insertOrigin]
  split_ifs
  · exact ⟨.refl tracker, known⟩
  · exact ⟨.updateOriginRows known _, known⟩

theorem sameButOrigins_updateOrigin {quotas : AList fun _ : SecurityOrigin => Nat}
    (known : tracker.quotaMap = some quotas) (origin : SecurityOrigin) (quota : Nat) :
    SameButOrigins failure tracker (tracker.updateOrigin failure origin quota) ∧
      (tracker.updateOrigin failure origin quota).quotaMap = some quotas := by
  rw [updateOrigin]
  split_ifs
  · exact ⟨.refl tracker, known⟩
  · exact ⟨.updateOriginRows known _, known⟩

theorem sameButOrigins_setQuota (isOpen : tracker.isOpen = true) (origin : SecurityOrigin)
    (quota : Nat) : SameButOrigins failure tracker
      (tracker.setQuota failure .destination origin quota) := by
  have populated := @SameButOrigins.populateOriginsIfNeeded failure tracker isOpen
  have stillOpen := populated.isOpen.trans isOpen
  obtain ⟨quotas, known⟩ := Option.ne_none_iff_exists'.1
    (@quotaMap_populateOriginsIfNeeded failure .destination tracker)
  rw [setQuota]
  dsimp only
  rw [openTrackerDatabase_of_isOpen stillOpen]
  split_ifs with isSet isKnown
  · exact populated
  · obtain ⟨updated, stillKnown⟩ := @sameButOrigins_updateOrigin failure _ _ known origin quota
    exact (populated.trans updated).trans (.insertQuota stillKnown origin quota)
  · obtain ⟨inserted, stillKnown⟩ := @sameButOrigins_insertOrigin failure _ _ known origin quota
    exact (populated.trans inserted).trans (.insertQuota stillKnown origin quota)

theorem sameButOrigins_ensureOrigin (isOpen : tracker.isOpen = true) (origin : SecurityOrigin) :
    SameButOrigins failure tracker (ensureOrigin failure tracker origin) := by
  have populated := @SameButOrigins.populateOriginsIfNeeded failure tracker isOpen
  rw [ensureOrigin]
  split
  next same => exact (Prod.mk.inj same).1 ▸ populated
  next same =>
    rw [← (Prod.mk.inj same).1]
    exact populated.trans
      (sameButOrigins_setQuota (populated.isOpen.trans isOpen) origin 1024)

/-- A tracker that has grown by databases that were copied. -/
structure GrownByCopies (failure : Option Operation)
    (touched : SecurityOrigin → DatabaseName → Prop) (tracker other : DatabaseTracker) : Prop where
  isOpen : other.isOpen = tracker.isOpen
  hasDatabases : other.HasDatabases ↔ tracker.HasDatabases
  recalls : ∀ origin, tracker.Recalls failure .destination origin →
    other.Recalls failure .destination origin
  findRow : ∀ origin name, ¬touched origin name →
    other.findRow origin name = tracker.findRow origin name
  outside : ∀ origin, (∀ name, ¬touched origin name) → ∀ name,
    other.content origin name = tracker.content origin name

namespace GrownByCopies

theorem refl (tracker : DatabaseTracker) : GrownByCopies failure touched tracker tracker :=
  ⟨rfl, Iff.rfl, fun _ => id, fun _ _ _ => rfl, fun _ _ _ => rfl⟩

theorem trans (first : GrownByCopies failure touched tracker other)
    (second : GrownByCopies failure later other third) :
    GrownByCopies failure (fun origin name => touched origin name ∨ later origin name)
      tracker third where
  isOpen := second.isOpen.trans first.isOpen
  hasDatabases := second.hasDatabases.trans first.hasDatabases
  recalls origin recalled := second.recalls origin (first.recalls origin recalled)
  findRow origin name isOther := (second.findRow origin name (isOther ∘ .inr)).trans
    (first.findRow origin name (isOther ∘ .inl))
  outside origin isOther name :=
    (second.outside origin (fun name => isOther name ∘ .inr) name).trans
      (first.outside origin (fun name => isOther name ∘ .inl) name)

theorem mono (grown : GrownByCopies failure touched tracker other)
    (wider : ∀ origin name, touched origin name → later origin name) :
    GrownByCopies failure later tracker other :=
  { grown with
    findRow := fun origin name isOther => grown.findRow origin name (isOther ∘ wider origin name)
    outside := fun origin isOther =>
      grown.outside origin fun name => isOther name ∘ wider origin name }

theorem ofSameButOrigins (same : SameButOrigins failure tracker other) :
    GrownByCopies failure touched tracker other :=
  ⟨same.isOpen, same.hasDatabases, same.recalls,
    fun origin name _ => same.databases.findRow origin name,
    fun origin _ name => same.databases.content origin name⟩

theorem after (grown : GrownByCopies failure touched other third)
    (same : SameButOrigins failure tracker other) : GrownByCopies failure touched tracker third :=
  GrownByCopies.mono (trans (ofSameButOrigins same) grown) fun _ _ isTouched => isTouched.elim id id

end GrownByCopies

theorem FileTouched.grownByCopies {tracker other : DatabaseTracker}
    (fileTouched : FileTouched origin name tracker other) :
    GrownByCopies failure (only origin name) tracker other where
  isOpen := fileTouched.isOpen
  hasDatabases := by rw [HasDatabases, HasDatabases, fileTouched.tables]
  recalls otherOrigin := (recalls_congr fileTouched.quotaMap (by
    rw [originRows, fileTouched.tables]
    rfl)).2
  findRow otherOrigin otherName _ := fileTouched.findRow otherOrigin otherName
  outside otherOrigin isOther otherName :=
    fileTouched.content otherOrigin otherName (isOther otherName)

/-- A tracker to which databases were copied. -/
structure Holds (touched : SecurityOrigin → DatabaseName → Prop)
    (source tracker other : DatabaseTracker) : Prop where
  tidy : other.Tidy
  copied : ∀ origin name content, touched origin name → source.content origin name = some content →
    other.content origin name = some content
  kept : ∀ origin name, ¬touched origin name ∨ source.content origin name = none →
    other.content origin name = tracker.content origin name

/-- Nothing fails that a destination needs for a database. -/
structure CanReceive (failure : Option Operation) (tracker : DatabaseTracker)
    (origin : SecurityOrigin) (name : DatabaseName) : Prop where
  hasDatabases : tracker.HasDatabases
  path : failure ≠ some (.selectPath .copying .destination origin name)
  new : tracker.findRow origin name = none → failure ≠ some (.selectSequence origin name) ∧
      failure ≠ some (.insertDatabase origin name)
  file : ∀ created, failure ≠ some (.copyFile origin name created)

theorem canReceive_congr (same : SameButOrigins failure tracker other) :
    CanReceive failure other origin name ↔ CanReceive failure tracker origin name := by
  have rows := same.databases.findRow origin name
  constructor
  · rintro ⟨hasDatabases, path, new, file⟩
    exact ⟨same.hasDatabases.1 hasDatabases, path, fun isNew => new (rows.trans isNew), file⟩
  · rintro ⟨hasDatabases, path, new, file⟩
    exact ⟨same.hasDatabases.2 hasDatabases, path,
      fun isNew => new (rows.symm.trans isNew), file⟩

theorem addDatabase_eq {path : FileName} (isOpen : tracker.isOpen = true)
    (hasDatabases : tracker.HasDatabases) :
    ∃ populated tables rows, SameButOrigins failure tracker populated ∧
      populated.tables = some tables ∧ tables.databases = some rows ∧
      tracker.addDatabase failure .destination origin name path =
        if failure = some (.insertDatabase origin name) then (populated, false)
        else (insertDatabase ⟨origin, name, path⟩ tables rows populated, true) := by
  have populated := @SameButOrigins.populateOriginsIfNeeded failure tracker isOpen
  have present := populated.hasDatabases.2 hasDatabases
  obtain ⟨rows, isRows⟩ := Option.ne_none_iff_exists'.1 present
  obtain ⟨tables, isTables, databases⟩ := Option.bind_eq_some_iff.1 isRows
  refine ⟨_, tables, rows, populated, isTables, databases, ?_⟩
  rw [addDatabase, openTrackerDatabase_of_isOpen isOpen, isTables, Option.bind_some, databases]
  rfl

theorem grownByCopies_insertDatabase {tables : TrackerTables} {rows : List DatabaseRow}
    {row : DatabaseRow} (stored : tracker.tables = some tables)
    (databases : tables.databases = some rows) :
    GrownByCopies failure (only row.origin row.name) tracker
        (insertDatabase row tables rows tracker) ∧
      ∀ otherOrigin otherName, ¬only row.origin row.name otherOrigin otherName →
        (insertDatabase row tables rows tracker).content otherOrigin otherName =
          tracker.content otherOrigin otherName := by
  have sameRow : ∀ otherOrigin otherName, ¬only row.origin row.name otherOrigin otherName →
      (insertDatabase row tables rows tracker).findRow otherOrigin otherName =
        tracker.findRow otherOrigin otherName := by
    intro otherOrigin otherName isOther
    refine findRow_insertDatabase_of_ne stored databases ?_
    rintro ⟨rfl, rfl⟩
    exact isOther ⟨rfl, rfl⟩
  have sameContent : ∀ otherOrigin otherName, ¬only row.origin row.name otherOrigin otherName →
      (insertDatabase row tables rows tracker).content otherOrigin otherName =
        tracker.content otherOrigin otherName := by
    intro otherOrigin otherName isOther
    rw [content, sameRow otherOrigin otherName isOther]
    rfl
  refine ⟨⟨rfl, ?_, ?_, sameRow, ?_⟩, sameContent⟩
  · rw [HasDatabases, HasDatabases, stored]
    simp [insertDatabase, databases]
  · intro otherOrigin recalled
    refine (recalls_congr ?_ ?_).2 recalled
    · rfl
    · rw [originRows, originRows, stored]
      rfl
  · intro otherOrigin isOther otherName
    exact sameContent otherOrigin otherName (isOther otherName)

theorem getFileNameForNewDatabase_eq (tidy : tracker.Tidy) (hasDatabases : tracker.HasDatabases) :
    tracker.getFileNameForNewDatabase failure origin name =
      if failure = some (.selectSequence origin name) then .empty
      else .numbered (tracker.sequence + 1) := by
  obtain ⟨rows, isRows⟩ := Option.ne_none_iff_exists'.1 hasDatabases
  obtain ⟨tables, isTables, databases⟩ := Option.bind_eq_some_iff.1 isRows
  have number : tables.sequence = tracker.sequence := by
    rw [sequence, isTables]
    rfl
  rw [getFileNameForNewDatabase, isTables, Option.bind_some, databases]
  dsimp only [Option.map_some]
  rw [number, tidy.nextNumber]

/-- What is found or made for a database. -/
theorem fullPathForDatabase_true (isOpen : tracker.isOpen = true) (tidy : tracker.Tidy) :
    (∃ other, tracker.fullPathForDatabase failure .destination .copying origin name true =
        (other, none) ∧
      SameButOrigins failure tracker other ∧ ¬CanReceive failure tracker origin name) ∨
    (∃ other, tracker.fullPathForDatabase failure .destination .copying origin name true =
        (other, some .empty) ∧
      GrownByCopies failure (only origin name) tracker other ∧
      ¬CanReceive failure tracker origin name) ∨
    ∃ other row number, tracker.fullPathForDatabase failure .destination .copying origin name true =
        (other, some (.numbered number)) ∧
      GrownByCopies failure (only origin name) tracker other ∧ other.Tidy ∧
      other.findRow origin name = some row ∧ row.path = .numbered number ∧
      (∀ otherOrigin otherName, ¬only origin name otherOrigin otherName →
        other.content otherOrigin otherName = tracker.content otherOrigin otherName) ∧
      (CanReceive failure tracker origin name ↔
        ∀ created, failure ≠ some (.copyFile origin name created)) := by
  rw [fullPathForDatabase]
  by_cases unreadable : tracker.isOpen = false ∨ tracker.tables.bind (·.databases) = none ∨
      failure = some (.selectPath .copying .destination origin name)
  · left
    refine ⟨tracker, if_pos unreadable, .refl tracker, fun canReceive => ?_⟩
    rcases unreadable with closed | missing | fails
    · rw [isOpen] at closed
      cases closed
    · exact canReceive.hasDatabases missing
    · exact canReceive.path fails
  · rw [if_neg unreadable]
    have hasDatabases : tracker.HasDatabases := fun missing => unreadable (.inr (.inl missing))
    have path := fun fails => unreadable (.inr (.inr fails))
    cases found : tracker.findRow origin name with
    | some row =>
      obtain ⟨number, -, isNumbered⟩ := tidy.rowsNumbered row (mem_of_findRow found).1
      refine .inr (.inr ⟨tracker, row, number, ?_, .refl tracker, tidy, found, isNumbered,
        fun _ _ _ => rfl, ?_⟩)
      · rw [← isNumbered]
      · refine ⟨CanReceive.file, fun file => ⟨hasDatabases, path, ?_, file⟩⟩
        rw [found]
        exact fun missing => absurd missing (Option.some_ne_none row)
    | none =>
      dsimp only
      rw [getFileNameForNewDatabase_eq tidy hasDatabases]
      obtain ⟨populated, tables, rows, same, stored, databases, added⟩ :=
        @addDatabase_eq failure tracker origin name
          (if failure = some (.selectSequence origin name) then .empty
            else .numbered (tracker.sequence + 1)) isOpen hasDatabases
      rw [added]
      by_cases insertFails : failure = some (.insertDatabase origin name)
      · rw [if_pos insertFails]
        exact .inl ⟨populated, rfl, same, fun canReceive => (canReceive.new found).2 insertFails⟩
      · rw [if_neg insertFails]
        right
        by_cases sequenceFails : failure = some (.selectSequence origin name)
        · left
          rw [if_pos sequenceFails]
          have grown := (@grownByCopies_insertDatabase failure _ _ _
            ⟨origin, name, .empty⟩ stored databases).1
          exact ⟨_, rfl, grown.after same, fun canReceive => (canReceive.new found).1 sequenceFails⟩
        · right
          rw [if_neg sequenceFails]
          let row : DatabaseRow := ⟨origin, name, .numbered (tracker.sequence + 1)⟩
          obtain ⟨grown, sameContent⟩ := @grownByCopies_insertDatabase failure _ _ _
            row stored databases
          have isNew : populated.findRow origin name = none :=
            (same.databases.findRow origin name).trans found
          have stillTidy := tidy.congr same.databases same.sequence
          refine ⟨_, row, _, rfl, grown.after same, ?_, ?_, rfl, ?_, ?_⟩
          · refine stillTidy.insertDatabase stored databases isNew ?_
            rw [same.sequence]
          · exact findRow_insertDatabase_self stored databases isNew
          · intro otherOrigin otherName isOther
            exact (sameContent otherOrigin otherName isOther).trans
              (same.databases.content otherOrigin otherName)
          · exact ⟨CanReceive.file, fun file =>
              ⟨hasDatabases, path, fun _ => ⟨sequenceFails, insertFails⟩, file⟩⟩

end DatabaseTracker
end Storage
end PalmWebKit
