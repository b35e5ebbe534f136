import PalmWebKit.Storage.AllOrNothing

/-!
# A move that fails

The source is as before, and the origins that were read are deleted from the
destination.
-/

namespace PalmWebKit
namespace Storage

open DatabaseTracker

section Move

variable {failure : Option Operation} {order : HashOrder}
variable {condition : Option (SecurityOrigin → Bool)}
variable {source destination : StoredTracker}
variable {trackers : Trackers}

/-- Nothing has left a source that is as before. -/
theorem moved_iff_of_same {kept : DatabaseTracker}
    (same : ∀ origin name, kept.content origin name = source.tracker.content origin name)
    (other : DatabaseTracker) :
    Moved condition source ⟨kept, other⟩ ↔ ∀ origin, selects condition origin = true →
        NoDatabases source.tracker origin := by
  constructor
  · intro moved origin selected name
    cases stored : source.tracker.content origin name with
    | none => rfl
    | some content =>
      have gone := moved origin name content stored
      rw [if_pos selected] at gone
      exact absurd (stored.symm.trans ((same origin name).symm.trans gone.2)) nofun
  · intro nothing origin name content stored
    by_cases selected : selects condition origin = true
    · rw [nothing origin selected name] at stored
      cases stored
    · rw [if_neg selected]
      exact (same origin name).trans stored

/-- What stops the copies does not concern the other statements. -/
theorem not_deleting_of_stops {origin : SecurityOrigin} {source destination : DatabaseTracker}
    (stops : StopsOrigin failure source destination origin) :
    (∀ side otherOrigin, failure ≠ some (.selectNames .deleting side otherOrigin)) ∧
      (∀ side row, failure ≠ some (.populateOrigins side row)) ∧
      ∀ row, failure ≠ some (.selectOrigins row) := by
  rcases stops with fails | ⟨_, _, fails | ⟨_, fails | ⟨_, fails⟩ | ⟨_, fails | fails⟩⟩⟩
  all_goals
    subst fails
    simp

variable (outcome : CopyOutcome failure order condition source destination trackers false)
include outcome

/-- The rollback takes away the databases of the origins that were read, and no
others. -/
theorem kept_rollback_iff
    (works : ∀ origin, failure ≠ some (.selectNames .deleting .destination origin))
    (reads : ∀ row, failure ≠ some (.populateOrigins .destination row)) :
    Kept source destination ⟨trackers.source,
        trackers.destination.deleteOrigins failure .destination
          (originsRead failure order condition source.tracker)⟩ ↔
      ∀ origin ∈ originsRead failure order condition source.tracker,
        NoDatabases destination.tracker origin := by
  constructor
  · rintro ⟨-, kept⟩ origin member name
    cases stored : destination.tracker.content origin name with
    | none => rfl
    | some content =>
      have gone := @content_deleteOrigins_of_mem failure .destination
        trackers.destination origin _ member (works origin) name
      exact absurd (gone.symm.trans (kept origin name content stored)) nofun
  · intro nothing
    refine ⟨outcome.sourceContent, fun origin name content stored => ?_⟩
    have notRead : origin ∉ originsRead failure order condition source.tracker := by
      intro member
      rw [nothing origin member name] at stored
      cases stored
    have spared : Spared failure .destination
        (originsRead failure order condition source.tracker) origin :=
      fun member => absurd member notRead
    have recalls := outcome.recalls reads origin (destination.mem_originRows (by
      rw [stored]
      exact Option.some_ne_none content))
    exact (deleteOrigins_keeps spared recalls spared name).trans
      ((outcome.outside origin notRead name).trans stored)

/-- A move that fails is made not at all under the condition. -/
theorem allOrNothing_failed :
    (Moved condition source ⟨trackers.source,
          trackers.destination.deleteOrigins failure .destination
            (originsRead failure order condition source.tracker)⟩ ∨
        Kept source destination ⟨trackers.source,
          trackers.destination.deleteOrigins failure .destination
            (originsRead failure order condition source.tracker)⟩) ↔
      HoldsWhen failure order condition source destination := by
  by_cases stops : ∃ origin ∈ originsRead failure order condition source.tracker,
      StopsOrigin failure source.tracker destination.tracker origin
  · have stopped := stops
    obtain ⟨_, _, stopsOrigin⟩ := stopped
    obtain ⟨deletes, populates, selects⟩ := not_deleting_of_stops stopsOrigin
    rw [moved_iff_of_same outcome.sourceContent,
      kept_rollback_iff outcome (deletes .destination) (populates .destination)]
    constructor
    · intro holds
      exact {
        copies := fun _ => holds
        select := fun row _ fails => absurd fails (selects row)
        populate := fun row fails => absurd fails (populates .source row)
        forget := fun row _ _ _ fails => absurd fails (populates .source row)
        delete := fun origin _ fails => absurd fails (deletes .source origin) }
    · intro holds
      exact holds.copies stops
  · have missing : (failure = some (.createDatabases .source) ∧ ¬source.tracker.HasDatabases) ∨
        failure = some (.createDatabases .destination) ∧
          ¬destination.tracker.HasDatabases := by
      by_contra present
      rw [not_or, not_and_not_right, not_and_not_right] at present
      exact Bool.false_ne_true (outcome.succeeds present.1 present.2 stops)
    have holds : HoldsWhen failure order condition source destination := by
      rcases missing with ⟨rfl, -⟩ | ⟨rfl, -⟩
      all_goals exact {
        copies := fun isStopped => absurd isStopped stops
        select := fun _ _ fails => by cases fails
        populate := fun _ fails => by cases fails
        forget := fun _ _ _ _ fails => by cases fails
        delete := fun _ _ fails => by cases fails }
    refine iff_of_true ?_ holds
    rcases missing with ⟨-, none⟩ | ⟨-, none⟩
    · exact .inl ((moved_iff_of_same outcome.sourceContent _).2 fun origin _ name =>
        content_of_no_databases none origin name)
    · refine .inr ⟨outcome.sourceContent, fun origin name content stored => ?_⟩
      rw [content_of_no_databases none] at stored
      cases stored

end Move

end Storage
end PalmWebKit
