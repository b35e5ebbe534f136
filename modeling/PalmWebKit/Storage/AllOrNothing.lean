import PalmWebKit.Storage.MoveStart

/-!
# All or nothing

A move is to copy every database and only then remove the source, or to leave the
source and the destination's own databases as they were.  It deletes the origins
that it was to copy from the destination when a copy fails, and with them the
databases that the destination had before.
-/

namespace PalmWebKit
namespace Storage

open DatabaseTracker

/-- Every database that is selected is in the destination and no longer in the
source, which keeps the others. -/
def Moved (condition : Option (SecurityOrigin → Bool)) (source : StoredTracker)
    (after : Trackers) : Prop :=
  ∀ origin name content, source.tracker.content origin name = some content →
    if selects condition origin then
      after.destination.content origin name = some content ∧ after.source.content origin name = none
    else
      after.source.content origin name = some content

/-- The source is as before, and so are the databases that the destination had. -/
def Kept (source destination : StoredTracker) (after : Trackers) : Prop :=
  (∀ origin name, after.source.content origin name = source.tracker.content origin name) ∧
    ∀ origin name content, destination.tracker.content origin name = some content →
      after.destination.content origin name = some content

/-- The move is made as a whole or not at all. -/
def AllOrNothing (failure : Option Operation) (order : HashOrder)
    (condition : Option (SecurityOrigin → Bool)) (source destination : StoredTracker) : Prop :=
  let after := (moveTrackerDatabases failure order condition
    ⟨source.tracker, destination.tracker⟩).1
  Moved condition source after ∨ Kept source destination after

/-! ## When it is -/

/-- An origin without databases. -/
def NoDatabases (tracker : DatabaseTracker) (origin : SecurityOrigin) : Prop :=
  ∀ name, tracker.content origin name = none

/-- What fails is needed for the copy of a database. -/
def StopsDatabase (failure : Option Operation) (source destination : DatabaseTracker)
    (origin : SecurityOrigin) (name : DatabaseName) : Prop :=
  failure = some (.selectPath .copying .source origin name) ∨ source.content origin name ≠ none ∧
      (failure = some (.selectPath .copying .destination origin name) ∨
        (∃ created, failure = some (.copyFile origin name created)) ∨
        destination.findRow origin name = none ∧ (failure = some (.selectSequence origin name) ∨
            failure = some (.insertDatabase origin name)))

/-- What fails is needed for the copies of an origin. -/
def StopsOrigin (failure : Option Operation) (source destination : DatabaseTracker)
    (origin : SecurityOrigin) : Prop :=
  failure = some (.selectNames .copying .source origin) ∨
    ∃ name, source.findRow origin name ≠ none ∧ StopsDatabase failure source destination origin name

/-- The condition under which a move is made as a whole or not at all. -/
structure HoldsWhen (failure : Option Operation) (order : HashOrder)
    (condition : Option (SecurityOrigin → Bool)) (source destination : StoredTracker) : Prop where
  /-- When a copy fails, the destination has no databases of the origins that
  are read. -/
  copies : (∃ origin ∈ originsRead failure order condition source.tracker,
      StopsOrigin failure source.tracker destination.tracker origin) →
    (∀ origin, selects condition origin = true → NoDatabases source.tracker origin) ∨
      ∀ origin ∈ originsRead failure order condition source.tracker,
        NoDatabases destination.tracker origin
  /-- When only some of the origins are read that a condition matches, there are
  no databases of the others, or none of these. -/
  select : ∀ row like, failure = some (.selectOrigins row) → condition = some like →
    (∀ origin, like origin = true → origin ∉ originsRead failure order condition source.tracker →
        NoDatabases source.tracker origin) ∨
      ∀ origin ∈ originsRead failure order condition source.tracker,
        NoDatabases source.tracker origin
  /-- When only some of all origins are read, the destination has the databases
  of the others already. -/
  populate : ∀ row, failure = some (.populateOrigins .source row) → condition = none →
    originsRead failure order condition source.tracker ≠ [] →
      ∀ origin, origin ∉ originsRead failure order condition source.tracker →
        ∀ name content, source.tracker.content origin name = some content →
          destination.tracker.content origin name = some content
  /-- When the source reads its origins only while the first one is deleted, and
  not all of them, one that is not moved is among them, if it has databases. -/
  forget : ∀ row like first rest, failure = some (.populateOrigins .source row) →
    condition = some like →
    originsRead failure order condition source.tracker = first :: rest →
      (∀ origin, like origin = false → NoDatabases source.tracker origin) ∨
        ∃ other ∈ (source.tracker.originRows.filter (·.origin ≠ first)).take row,
          like other.origin = false
  /-- When the databases of an origin cannot be listed for deletion, it has none,
  or nothing else is moved and nothing of the destination is overwritten. -/
  delete : ∀ origin ∈ originsRead failure order condition source.tracker,
    failure = some (.selectNames .deleting .source origin) → NoDatabases source.tracker origin ∨
        (∀ other ∈ originsRead failure order condition source.tracker, other ≠ origin →
          NoDatabases source.tracker other) ∧
        ∀ name content, source.tracker.content origin name = some content →
          destination.tracker.content origin name = none ∨
            destination.tracker.content origin name = some content

/-! ## The copies -/

section Move

variable {failure : Option Operation} {order : HashOrder}
variable {condition : Option (SecurityOrigin → Bool)}
variable {source destination : StoredTracker}
variable {trackers : Trackers} {success : Bool}

/-- The trackers behind the copies, compared with what is stored. -/
structure CopyOutcome (failure : Option Operation) (order : HashOrder)
    (condition : Option (SecurityOrigin → Bool)) (source destination : StoredTracker)
    (trackers : Trackers) (success : Bool) : Prop where
  sourceOpen : trackers.source.isOpen = true
  sourceContent : ∀ origin name,
    trackers.source.content origin name = source.tracker.content origin name
  sourceRows : trackers.source.originRows = source.tracker.originRows
  sourceQuotas : trackers.source.quotaMap = quotasRead failure condition source.tracker.originRows
  sourceHasDatabases : (failure = some (.createDatabases .source) → source.tracker.HasDatabases) →
      trackers.source.HasDatabases
  sourceHasOrigins : failure ≠ some (.createOrigins .source) → trackers.source.HasOrigins
  recalls : (∀ row, failure ≠ some (.populateOrigins .destination row)) →
    ∀ origin ∈ destination.tracker.originRows.map (·.origin),
      trackers.destination.Recalls failure .destination origin
  outside : ∀ origin, origin ∉ originsRead failure order condition source.tracker →
    ∀ name, trackers.destination.content origin name = destination.tracker.content origin name
  copied : success = true →
    ∀ origin ∈ originsRead failure order condition source.tracker, ∀ name content,
      source.tracker.content origin name = some content →
      trackers.destination.content origin name = some content
  kept : success = true → ∀ origin name,
    origin ∉ originsRead failure order condition source.tracker ∨
      source.tracker.content origin name = none →
    trackers.destination.content origin name = destination.tracker.content origin name
  stops : (∃ origin ∈ originsRead failure order condition source.tracker,
    StopsOrigin failure source.tracker destination.tracker origin) → success = false
  succeeds : (failure = some (.createDatabases .source) → source.tracker.HasDatabases) →
    (failure = some (.createDatabases .destination) → destination.tracker.HasDatabases) →
    (¬∃ origin ∈ originsRead failure order condition source.tracker,
      StopsOrigin failure source.tracker destination.tracker origin) → success = true

/-- What stops the copies of an origin is what they need. -/
theorem canCopyOrigin_iff {starting : Trackers}
    (sourceOpened : Opened failure .source source starting.source)
    (destinationOpened : Opened failure .destination destination starting.destination)
    (origin : SecurityOrigin) : (CanCopyOrigin failure starting origin →
      ¬StopsOrigin failure source.tracker destination.tracker origin) ∧
    ((failure = some (.createDatabases .source) → source.tracker.HasDatabases) →
      (failure = some (.createDatabases .destination) → destination.tracker.HasDatabases) →
      ¬StopsOrigin failure source.tracker destination.tracker origin →
      CanCopyOrigin failure starting origin) := by
  constructor
  · rintro ⟨-, names, databases⟩ stops
    rcases stops with fails | ⟨name, found, stops⟩
    · exact names fails
    · rw [← sourceOpened.findRow] at found
      obtain ⟨path, receives⟩ := databases name found
      rcases stops with fails | ⟨present, stops⟩
      · exact path fails
      · rw [← sourceOpened.content] at present
        obtain ⟨-, path, new, file⟩ := receives present
        rcases stops with fails | ⟨created, fails⟩ | ⟨isNew, fails⟩
        · exact path fails
        · exact file created fails
        · rw [← destinationOpened.findRow] at isNew
          exact fails.elim (new isNew).1 (new isNew).2
  · intro sourceCreates destinationCreates goesOn
    refine ⟨sourceOpened.hasDatabases sourceCreates, fun fails => goesOn (.inl fails), ?_⟩
    intro name found
    rw [sourceOpened.findRow] at found
    refine ⟨fun fails => goesOn (.inr ⟨name, found, .inl fails⟩), fun present => ?_⟩
    rw [sourceOpened.content] at present
    have goesOnHere := fun stops => goesOn (.inr ⟨name, found, .inr ⟨present, stops⟩⟩)
    refine ⟨destinationOpened.hasDatabases destinationCreates,
      fun fails => goesOnHere (.inl fails), fun isNew => ?_,
      fun created fails => goesOnHere (.inr (.inl ⟨created, fails⟩))⟩
    rw [destinationOpened.findRow] at isNew
    exact ⟨fun fails => goesOnHere (.inr (.inr ⟨isNew, .inl fails⟩)),
      fun fails => goesOnHere (.inr (.inr ⟨isNew, .inr fails⟩))⟩

/-- A move is the copies and then the deletions. -/
theorem move_cases (source destination : StoredTracker) :
    ∃ trackers success, CopyOutcome failure order condition source destination trackers success ∧
      (moveTrackerDatabases failure order condition ⟨source.tracker, destination.tracker⟩).1 =
        if success then
          ⟨trackers.source.deleteOrigins failure .source
            (originsRead failure order condition source.tracker), trackers.destination⟩
        else
          ⟨trackers.source, trackers.destination.deleteOrigins failure .destination
            (originsRead failure order condition source.tracker)⟩ := by
  obtain ⟨starting, sourceOpened, quotas, destinationOpened, unread, moved⟩ :=
    @moveTrackerDatabases_eq failure order condition source destination
  have effect := @copyOrigins_effect failure starting _
    ⟨sourceOpened.isOpen, sourceOpened.tidy, destinationOpened.isOpen, destinationOpened.tidy⟩
    (@nodup_originsRead failure order condition source.tracker)
  rcases result : copyOrigins failure (originsRead failure order condition source.tracker)
    starting with ⟨trackers, success⟩
  rw [result] at effect moved
  have goesOn := fun origin => canCopyOrigin_iff sourceOpened destinationOpened origin
  refine ⟨trackers, success, ?_, ?_⟩
  · refine {
      sourceOpen := effect.source.isOpen.trans sourceOpened.isOpen
      sourceContent := fun origin name =>
        (effect.source.content origin name).trans (sourceOpened.content origin name)
      sourceRows := effect.source.originRows.trans sourceOpened.originRows
      sourceQuotas := effect.source.quotaMap.trans quotas
      sourceHasDatabases := fun works =>
        effect.source.hasDatabases.2 (sourceOpened.hasDatabases works)
      sourceHasOrigins := fun works => ?_
      recalls := fun works origin stored => effect.destination.recalls origin ?_
      outside := fun origin isOther name =>
        (effect.destination.outside origin (fun _ => isOther) name).trans
          (destinationOpened.content origin name)
      copied := fun succeeds origin member name content isContent =>
        (effect.holds succeeds).copied origin name content member
          ((sourceOpened.content origin name).trans isContent)
      kept := fun succeeds origin name isOther => ?_
      stops := ?_
      succeeds := fun sourceCreates destinationCreates works =>
        effect.success_iff.2 fun origin member =>
          (goesOn origin).2 sourceCreates destinationCreates
            fun stops => works ⟨origin, member, stops⟩ }
    · rw [HasOrigins, effect.source.origins]
      exact sourceOpened.hasOrigins works
    · rw [Recalls, unread, destinationOpened.originRows]
      exact ⟨stored, works⟩
    · rw [← destinationOpened.content, ← sourceOpened.content] at *
      exact (effect.holds succeeds).kept origin name isOther
    · rintro ⟨origin, member, stops⟩
      refine Bool.eq_false_iff.2 fun succeeds => ?_
      exact (goesOn origin).1 (effect.success_iff.1 succeeds origin member) stops
  · rw [moved]
    cases success <;> rfl

end Move

end Storage
end PalmWebKit
