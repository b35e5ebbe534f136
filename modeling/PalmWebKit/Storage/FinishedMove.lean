import PalmWebKit.Storage.FailedMove

/-!
# A move of which the copies succeed

The origins that were read are deleted from the source.  Which databases go
depends on what the source recalls of its origins by then.
-/

namespace PalmWebKit
namespace Storage

open DatabaseTracker

section Move

variable {failure : Option Operation} {order : HashOrder}
variable {condition : Option (SecurityOrigin → Bool)}
variable {source destination : StoredTracker}
variable {trackers : Trackers} {success : Bool}
variable {origin : SecurityOrigin}

/-- What is not selected is not read. -/
theorem selects_of_mem_originsRead
    (member : origin ∈ originsRead failure order condition source.tracker) :
    selects condition origin = true := by
  obtain ⟨row, isRead, rfl⟩ := List.mem_map.1 (mem_originsRead.1 member)
  exact (mem_rowsRead isRead).2

/-- A selected origin that is not read has no databases, unless the statement
fails. -/
theorem noDatabases_of_unread (works : failedRow failure condition = none)
    (selected : selects condition origin = true)
    (unread : origin ∉ originsRead failure order condition source.tracker) :
    NoDatabases source.tracker origin := by
  intro name
  by_contra present
  exact unread (mem_originsRead_of_selects works (source.mem_originRows present) selected)

/-- The destination after the copies, for a database that it has had before. -/
theorem CopyOutcome.overwrites_iff
    (outcome : CopyOutcome failure order condition source destination trackers true) :
    (∀ origin name content, destination.tracker.content origin name = some content →
      trackers.destination.content origin name = some content) ↔
      ∀ origin ∈ originsRead failure order condition source.tracker, ∀ name content,
        source.tracker.content origin name = some content →
        destination.tracker.content origin name = none ∨
          destination.tracker.content origin name = some content := by
  constructor
  · intro kept origin member name content isSource
    cases stored : destination.tracker.content origin name with
    | none => exact .inl rfl
    | some old =>
      right
      rw [← kept origin name old stored]
      exact outcome.copied rfl origin member name content isSource
  · intro same origin name content stored
    by_cases member : origin ∈ originsRead failure order condition source.tracker
    · cases isSource : source.tracker.content origin name with
      | none => exact (outcome.kept rfl origin name (.inr isSource)).trans stored
      | some copied =>
        rw [outcome.copied rfl origin member name copied isSource]
        rcases same origin member name copied isSource with missing | isSame
        · rw [missing] at stored
          cases stored
        · exact isSame.symm.trans stored
    · exact (outcome.kept rfl origin name (.inl member)).trans stored

/-! ## When the source recalls its origins -/

theorem CopyOutcome.recalls_source
    (outcome : CopyOutcome failure order condition source destination trackers success)
    (reads : ∀ row, failure ≠ some (.populateOrigins .source row))
    (stored : origin ∈ source.tracker.originRows.map (·.origin)) :
    trackers.source.Recalls failure .source origin := by
  rw [Recalls, outcome.sourceQuotas, outcome.sourceRows]
  cases condition with
  | some like => exact ⟨stored, reads⟩
  | none =>
    have works : failedRow failure none = none := by
      cases failed : failedRow failure none with
      | none => rfl
      | some row => exact absurd (failedRow_none_iff.1 failed) (reads row)
    refine mem_quotasOf.2 ?_
    rw [rowsRead, works]
    exact (List.filter_true source.tracker.originRows).symm ▸ stored

/-- Exactly the databases of the origins go that are not spared. -/
theorem CopyOutcome.content_deleteOrigins
    (outcome : CopyOutcome failure order condition source destination trackers success)
    (reads : ∀ row, failure ≠ some (.populateOrigins .source row)) (origin : SecurityOrigin)
    (name : DatabaseName) :
    let after := trackers.source.deleteOrigins failure .source
      (originsRead failure order condition source.tracker)
    (Spared failure .source (originsRead failure order condition source.tracker) origin →
      after.content origin name = source.tracker.content origin name) ∧
    (¬Spared failure .source (originsRead failure order condition source.tracker) origin →
      after.content origin name = none) := by
  constructor
  · intro spared
    rw [← outcome.sourceContent]
    by_cases present : source.tracker.content origin name = none
    · rcases DatabaseTracker.content_deleteOrigins failure .source trackers.source
        (originsRead failure order condition source.tracker) origin name with same | gone
      · exact same
      · exact gone.trans ((outcome.sourceContent origin name).trans present).symm
    · have recalls := outcome.recalls_source reads (source.mem_originRows present)
      exact deleteOrigins_keeps spared recalls spared name
  · intro deleted
    rw [Spared, Classical.not_imp] at deleted
    exact content_deleteOrigins_of_mem deleted.1 deleted.2 name

/-- The move is made when no database is left behind, or none is taken away. -/
theorem CopyOutcome.allOrNothing_iff
    (outcome : CopyOutcome failure order condition source destination trackers true)
    (reads : ∀ row, failure ≠ some (.populateOrigins .source row)) :
    let origins := originsRead failure order condition source.tracker
    let after : Trackers :=
      ⟨trackers.source.deleteOrigins failure .source origins, trackers.destination⟩
    (Moved condition source after ∨ Kept source destination after) ↔
      (∀ origin, selects condition origin = true → Spared failure .source origins origin →
        NoDatabases source.tracker origin) ∨
      (∀ origin ∈ origins, ¬Spared failure .source origins origin →
        NoDatabases source.tracker origin) ∧
      ∀ origin ∈ origins, ∀ name content, source.tracker.content origin name = some content →
        destination.tracker.content origin name = none ∨
          destination.tracker.content origin name = some content := by
  intro origins after
  have content := fun origin name => outcome.content_deleteOrigins reads origin name
  refine or_congr ?_ (and_congr ?_ outcome.overwrites_iff)
  · constructor
    · intro moved origin selected spared name
      cases stored : source.tracker.content origin name with
      | none => rfl
      | some bytes =>
        have gone := moved origin name bytes stored
        rw [if_pos selected] at gone
        exact stored.symm.trans (((content origin name).1 spared).symm.trans gone.2)
    · intro nothing origin name bytes stored
      by_cases selected : selects condition origin = true
      · rw [if_pos selected]
        have deleted : ¬Spared failure .source origins origin := by
          intro spared
          rw [nothing origin selected spared name] at stored
          cases stored
        have member := (Classical.not_imp.1 deleted).1
        exact ⟨outcome.copied rfl origin member name bytes stored, (content origin name).2 deleted⟩
      · rw [if_neg selected]
        refine ((content origin name).1 fun member => ?_).trans stored
        exact absurd (selects_of_mem_originsRead member) selected
  · constructor
    · intro kept origin _ deleted name
      exact (kept origin name).symm.trans ((content origin name).2 deleted)
    · intro nothing origin name
      by_cases spared : Spared failure .source origins origin
      · exact (content origin name).1 spared
      · have member := (Classical.not_imp.1 spared).1
        exact ((content origin name).2 spared).trans (nothing origin member spared name).symm

end Move

end Storage
end PalmWebKit
