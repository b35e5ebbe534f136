import PalmWebKit.Storage.FinishedMove

/-!
# When a move is made as a whole or not at all

What can go wrong behind successful copies depends on the one statement that
fails.
-/

namespace PalmWebKit
namespace Storage

open List DatabaseTracker

section Move

variable {failure : Option Operation} {order : HashOrder}
variable {condition : Option (SecurityOrigin → Bool)}
variable {source destination : StoredTracker}
variable {trackers : Trackers}

/-- The trackers when the origins that were read are deleted from the source. -/
def finished (failure : Option Operation) (order : HashOrder)
    (condition : Option (SecurityOrigin → Bool)) (source : StoredTracker)
    (trackers : Trackers) : Trackers :=
  ⟨trackers.source.deleteOrigins failure .source
    (originsRead failure order condition source.tracker), trackers.destination⟩

/-- The databases of an origin cannot be listed for deletion. -/
theorem allOrNothing_of_unlisted {origin : SecurityOrigin}
    (outcome : CopyOutcome failure order condition source destination trackers true)
    (member : origin ∈ originsRead failure order condition source.tracker)
    (fails : failure = some (.selectNames .deleting .source origin)) :
    (Moved condition source (finished failure order condition source trackers) ∨
        Kept source destination (finished failure order condition source trackers)) ↔
      NoDatabases source.tracker origin ∨
        (∀ other ∈ originsRead failure order condition source.tracker, other ≠ origin →
          NoDatabases source.tracker other) ∧
        ∀ name content, source.tracker.content origin name = some content →
          destination.tracker.content origin name = none ∨
            destination.tracker.content origin name = some content := by
  have isOther : ∀ other, failure = some (.selectNames .deleting .source other) ↔
      other = origin := fun other => by simp [fails, eq_comm]
  refine (outcome.allOrNothing_iff (by simp [fails])).trans (or_congr ?_ ?_)
  · constructor
    · intro nothing
      exact nothing origin (selects_of_mem_originsRead member) fun _ => fails
    · intro nothing other selected spared
      by_cases isRead : other ∈ originsRead failure order condition source.tracker
      · rw [(isOther other).1 (spared isRead)]
        exact nothing
      · exact noDatabases_of_unread (by rw [fails]; rfl) selected isRead
  · constructor
    · rintro ⟨nothing, overwrites⟩
      refine ⟨fun other isRead ne => nothing other isRead fun spared => ?_,
        overwrites origin member⟩
      exact ne ((isOther other).1 (spared isRead))
    · rintro ⟨nothing, overwrites⟩
      refine ⟨fun other isRead deleted => nothing other isRead ?_, ?_⟩
      · rintro rfl
        exact deleted fun _ => fails
      · intro other isRead name content stored
        by_cases same : other = origin
        · subst same
          exact overwrites name content stored
        · rw [nothing other isRead same name] at stored
          cases stored

/-- The deletion of every origin that was read works, and nothing fails that the
source reads its origins with. -/
theorem allOrNothing_of_listed
    (outcome : CopyOutcome failure order condition source destination trackers true)
    (reads : ∀ row, failure ≠ some (.populateOrigins .source row))
    (lists : ∀ origin ∈ originsRead failure order condition source.tracker,
      failure ≠ some (.selectNames .deleting .source origin)) :
    (Moved condition source (finished failure order condition source trackers) ∨
        Kept source destination (finished failure order condition source trackers)) ↔
      (∀ origin, selects condition origin = true →
        origin ∉ originsRead failure order condition source.tracker →
          NoDatabases source.tracker origin) ∨
        ∀ origin ∈ originsRead failure order condition source.tracker,
          NoDatabases source.tracker origin := by
  have spared_iff : ∀ origin,
      Spared failure .source (originsRead failure order condition source.tracker) origin ↔
        origin ∉ originsRead failure order condition source.tracker := fun origin =>
    ⟨fun spared member => lists origin member (spared member),
      fun notRead member => absurd member notRead⟩
  refine (outcome.allOrNothing_iff reads).trans (or_congr ?_ ?_)
  · exact forall₂_congr fun origin _ => imp_congr_left (spared_iff origin)
  · constructor
    · rintro ⟨nothing, -⟩ origin member
      exact nothing origin member fun spared => (spared_iff origin).1 spared member
    · intro nothing
      refine ⟨fun origin member _ => nothing origin member, ?_⟩
      intro origin member name content stored
      rw [nothing origin member name] at stored
      cases stored

/-! ## When the source fails to read its origins -/

theorem kept_of_nothing_read
    (outcome : CopyOutcome failure order condition source destination trackers true)
    (nothing : originsRead failure order condition source.tracker = []) :
    Kept source destination (finished failure order condition source trackers) := by
  rw [finished, nothing]
  refine ⟨outcome.sourceContent, fun origin name content stored => ?_⟩
  refine (outcome.kept rfl origin name (.inl ?_)).trans stored
  rw [nothing]
  exact not_mem_nil

/-- A source that is left without databases has lost those that were not
copied. -/
theorem allOrNothing_of_empty
    (empty : ∀ origin name,
      (finished failure order condition source trackers).source.content origin name = none) :
    (Moved condition source (finished failure order condition source trackers) ∨
        Kept source destination (finished failure order condition source trackers)) ↔
      ∀ origin name content, source.tracker.content origin name = some content →
        selects condition origin = true ∧
          trackers.destination.content origin name = some content := by
  constructor
  · rintro (moved | kept) origin name content stored
    · have outcome := moved origin name content stored
      by_cases selected : selects condition origin = true
      · rw [if_pos selected] at outcome
        exact ⟨selected, outcome.1⟩
      · rw [if_neg selected, empty] at outcome
        cases outcome
    · rw [← kept.1, empty] at stored
      cases stored
  · intro copied
    refine .inl fun origin name content stored => ?_
    obtain ⟨selected, isCopied⟩ := copied origin name content stored
    rw [if_pos selected]
    exact ⟨isCopied, empty origin name⟩

variable {row : Nat}

/-- Only some of all origins were read, and the source recalls no others. -/
theorem allOrNothing_of_populate
    (outcome : CopyOutcome failure order none source destination trackers true)
    (fails : failure = some (.populateOrigins .source row))
    (someRead : originsRead failure order none source.tracker ≠ []) :
    (Moved none source (finished failure order none source trackers) ∨
        Kept source destination (finished failure order none source trackers)) ↔
      ∀ origin, origin ∉ originsRead failure order none source.tracker →
        ∀ name content, source.tracker.content origin name = some content →
          destination.tracker.content origin name = some content := by
  have missing := @tables_deleteOrigins failure .source trackers.source _ _ someRead
    outcome.sourceOpen (outcome.sourceHasDatabases (by simp [fails]))
    (outcome.sourceHasOrigins (by simp [fails])) outcome.sourceQuotas
    (fun origin isKnown => mem_originsRead.2 (mem_quotasOf.1 isKnown))
    fun origin => by simp [fails]
  rw [allOrNothing_of_empty fun origin name => content_of_no_tables missing origin name]
  constructor
  · intro copied origin notRead name content stored
    rw [← outcome.kept rfl origin name (.inl notRead)]
    exact (copied origin name content stored).2
  · intro held origin name content stored
    refine ⟨rfl, ?_⟩
    by_cases member : origin ∈ originsRead failure order none source.tracker
    · exact outcome.copied rfl origin member name content stored
    · rw [outcome.kept rfl origin name (.inl member)]
      exact held origin member name content stored

/-- The source before it looks for origins other than the first. -/
theorem quotas_of_populate {side : TrackerSide} {tracker : DatabaseTracker}
    (isOpen : tracker.isOpen = true) (unread : tracker.quotaMap = none)
    (fails : failure = some (.populateOrigins side row)) :
    (tracker.populateOriginsIfNeeded failure side).quotas =
      quotasOf (tracker.originRows.take row) := by
  have read : readRows (fun index => failure = some (.populateOrigins side index))
      tracker.originRows = tracker.originRows.take row :=
    readRows_eq_take fun index => by simp [fails, eq_comm]
  rw [populateOriginsIfNeeded, unread]
  rw [openTrackerDatabase_of_isOpen isOpen, if_pos isOpen, read]
  rfl

/-- The source without the first origin, before it looks for others. -/
structure FirstCleared (failure : Option Operation) (row : Nat) (source : StoredTracker)
    (first : SecurityOrigin) (tracker : DatabaseTracker) : Prop where
  isOpen : tracker.isOpen = true
  hasDatabases : tracker.HasDatabases
  hasOrigins : tracker.HasOrigins
  content : ∀ origin ≠ first, ∀ name,
    tracker.content origin name = source.tracker.content origin name
  quotas : (tracker.populateOriginsIfNeeded failure .source).quotas =
    quotasOf ((source.tracker.originRows.filter (·.origin ≠ first)).take row)

variable {like : SecurityOrigin → Bool}

theorem CopyOutcome.firstCleared
    (outcome : CopyOutcome failure order (some like) source destination trackers true)
    (fails : failure = some (.populateOrigins .source row)) (first : SecurityOrigin) :
    ∃ tracker, FirstCleared failure row source first tracker ∧
      trackers.source.deleteOrigin failure .source first =
        tracker.forgetOrigin failure .source first := by
  have hasDatabases := outcome.sourceHasDatabases (by simp [fails])
  have hasOrigins := outcome.sourceHasOrigins (by simp [fails])
  obtain ⟨erased, erases, same⟩ := @deleteOrigin_of_works failure .source trackers.source
    first outcome.sourceOpen hasDatabases hasOrigins (by simp [fails]) (by simp [fails])
    (by simp [fails])
  refine ⟨clearOrigin first (clearRows first erased), ?_, same⟩
  have isOpen : (clearOrigin first (clearRows first erased)).isOpen = true :=
    erases.isOpen.trans outcome.sourceOpen
  have originRows : (clearOrigin first (clearRows first erased)).originRows =
      source.tracker.originRows.filter (·.origin ≠ first) := by
    rw [clearOrigin, originRows_updateOriginRows rfl, originRows_clearRows,
      erases.originRows, outcome.sourceRows]
  refine ⟨isOpen, hasDatabases_clear (erases.hasDatabases hasDatabases),
    hasOrigins_clear (erases.hasOrigins hasOrigins), ?_, ?_⟩
  · intro origin ne name
    rw [content_clearOrigin, content_clearRows_of_ne ne, ← outcome.sourceContent]
    exact (erases.content origin name).resolve_right fun own => ne own.1
  · rw [← originRows]
    exact quotas_of_populate isOpen (erases.quotaMap.trans outcome.sourceQuotas) fails

variable
  {first : SecurityOrigin}
  {rest : List SecurityOrigin}

/-- An origin that is not moved is in memory when the others are deleted. -/
theorem moved_of_remembered {other : OriginRow}
    (outcome : CopyOutcome failure order (some like) source destination trackers true)
    (fails : failure = some (.populateOrigins .source row))
    (read : originsRead failure order (some like) source.tracker = first :: rest)
    (remembered : other ∈ (source.tracker.originRows.filter (·.origin ≠ first)).take row)
    (isOther : like other.origin = false) :
    Moved (some like) source (finished failure order (some like) source trackers) := by
  obtain ⟨tracker, cleared, same⟩ := outcome.firstCleared fails first
  have notRead : ∀ origin, like origin = false → origin ∉ first :: rest := by
    intro origin isUnlike member
    rw [← read] at member
    exact Bool.false_ne_true (isUnlike.symm.trans (selects_of_mem_originsRead member))
  have known : other.origin ∈ (tracker.populateOriginsIfNeeded failure .source).quotas := by
    rw [cleared.quotas]
    exact mem_quotasOf.2 (mem_map.2 ⟨other, remembered, rfl⟩)
  have ne : other.origin ≠ first := ne_of_not_mem_cons (notRead other.origin isOther)
  intro origin name content stored
  by_cases selected : selects (some like) origin = true
  · rw [if_pos selected]
    have present : source.tracker.content origin name ≠ none := by
      rw [stored]
      exact Option.some_ne_none content
    have member := @mem_originsRead_of_selects failure order (some like) origin _
      (by rw [fails]; rfl) (source.mem_originRows present) selected
    exact ⟨outcome.copied rfl origin member name content stored,
      content_deleteOrigins_of_mem member (by simp [fails]) name⟩
  · rw [if_neg selected, finished, read, deleteOrigins, foldl_cons, same,
      forgetOrigin_of_mem ne known]
    have isUnlike : like origin = false := Bool.eq_false_iff.2 selected
    have spared : ∀ origin, like origin = false → Spared failure .source rest origin :=
      fun origin isUnlike member =>
        absurd (.tail first member) (notRead origin isUnlike)
    refine (deleteOrigins_keeps (spared other.origin isOther) ?_ (spared origin isUnlike)
      name).trans ?_
    · exact AList.mem_erase.2 ⟨ne, known⟩
    · have populated := @sameDatabases_populateOriginsIfNeeded failure .source tracker
      refine (SameDatabases.content ⟨populated.rows, populated.files⟩ origin name).trans ?_
      rw [cleared.content origin (ne_of_not_mem_cons (notRead origin isUnlike))]
      exact stored

/-- Only origins that are moved are in memory when the first is deleted. -/
theorem tables_finished_of_forgotten
    (outcome : CopyOutcome failure order (some like) source destination trackers true)
    (fails : failure = some (.populateOrigins .source row))
    (read : originsRead failure order (some like) source.tracker = first :: rest)
    (forgotten : ∀ other ∈ (source.tracker.originRows.filter (·.origin ≠ first)).take row, like
      other.origin = true) :
    (finished failure order (some like) source trackers).source.tables = none := by
  obtain ⟨tracker, cleared, same⟩ := outcome.firstCleared fails first
  have known : ∀ origin ∈ (tracker.populateOriginsIfNeeded failure .source).quotas,
      origin ∈ rest := by
    intro origin isKnown
    rw [cleared.quotas, mem_quotasOf] at isKnown
    obtain ⟨other, isRow, rfl⟩ := mem_map.1 isKnown
    obtain ⟨stored, ne⟩ := mem_filter.1 (mem_of_mem_take isRow)
    have member := @mem_originsRead_of_selects failure order (some like) other.origin _
      (by rw [fails]; rfl) (mem_map.2 ⟨other, stored, rfl⟩) (forgotten other isRow)
    rw [read] at member
    exact (mem_cons.1 member).resolve_left (of_decide_eq_true ne)
  rw [finished, read, deleteOrigins, foldl_cons, same]
  by_cases last : ∀ origin ∈ (tracker.populateOriginsIfNeeded failure .source).quotas,
      origin = first
  · obtain ⟨missing, closed⟩ := forgetOrigin_of_forall last
    exact tables_deleteOrigins_of_no_tables rest missing closed
  · push Not at last
    obtain ⟨origin, isKnown, ne⟩ := last
    rw [forgetOrigin_of_mem ne isKnown]
    obtain ⟨tables, isOpen⟩ :=
      @tables_populateOriginsIfNeeded_of_isOpen failure .source tracker cleared.isOpen
    refine @tables_deleteOrigins failure .source _ rest _
      (ne_nil_of_mem (known origin isKnown)) isOpen ?_ ?_ rfl ?_ ?_
    · rw [HasDatabases]
      exact tables ▸ cleared.hasDatabases
    · rw [HasOrigins]
      exact tables ▸ cleared.hasOrigins
    · intro origin stays
      exact known origin (AList.mem_erase.1 stays).2
    · intro origin
      simp [fails]

/-- The source reads its origins only while the first one is deleted. -/
theorem allOrNothing_of_forget
    (outcome : CopyOutcome failure order (some like) source destination trackers true)
    (fails : failure = some (.populateOrigins .source row))
    (read : originsRead failure order (some like) source.tracker = first :: rest) :
    (Moved (some like) source (finished failure order (some like) source trackers) ∨
        Kept source destination
          (finished failure order (some like) source trackers)) ↔
      (∀ origin, like origin = false → NoDatabases source.tracker origin) ∨
        ∃ other ∈ (source.tracker.originRows.filter (·.origin ≠ first)).take row,
          like other.origin = false := by
  by_cases remembered : ∃ other ∈
      (source.tracker.originRows.filter (·.origin ≠ first)).take row,
      like other.origin = false
  · obtain ⟨other, isRow, isOther⟩ := remembered
    exact iff_of_true (.inl (moved_of_remembered outcome fails read isRow isOther))
      (.inr ⟨other, isRow, isOther⟩)
  · rw [or_iff_left remembered]
    push Not at remembered
    have missing := tables_finished_of_forgotten outcome fails read fun other isRow =>
      Bool.ne_false_iff.1 (remembered other isRow)
    rw [allOrNothing_of_empty fun origin name => content_of_no_tables missing origin name]
    constructor
    · intro copied origin isUnlike name
      cases stored : source.tracker.content origin name with
      | none => rfl
      | some content =>
        exact absurd (isUnlike.symm.trans (copied origin name content stored).1)
          Bool.false_ne_true
    · intro nothing origin name content stored
      have present : source.tracker.content origin name ≠ none := by
        rw [stored]
        exact Option.some_ne_none content
      have selected : like origin = true := by
        by_contra isUnlike
        exact present (nothing origin (Bool.eq_false_iff.2 isUnlike) name)
      have member := @mem_originsRead_of_selects failure order (some like) origin _
        (by rw [fails]; rfl) (source.mem_originRows present) selected
      exact ⟨selected, outcome.copied rfl origin member name content stored⟩

/-! ## The condition -/

/-- What the condition says when the copies succeed and one statement fails. -/
theorem holdsWhen_iff_of_copied
    (outcome : CopyOutcome failure order condition source destination trackers true)
    (reads : ∀ row, failure ≠ some (.populateOrigins .source row)) :
    HoldsWhen failure order condition source destination ↔
      (∀ row like, failure = some (.selectOrigins row) → condition = some like →
        (∀ origin, like origin = true →
          origin ∉ originsRead failure order condition source.tracker →
            NoDatabases source.tracker origin) ∨
          ∀ origin ∈ originsRead failure order condition source.tracker,
            NoDatabases source.tracker origin) ∧
      ∀ origin ∈ originsRead failure order condition source.tracker,
        failure = some (.selectNames .deleting .source origin) → NoDatabases source.tracker origin ∨
            (∀ other ∈ originsRead failure order condition source.tracker,
              other ≠ origin → NoDatabases source.tracker other) ∧
            ∀ name content, source.tracker.content origin name = some content →
              destination.tracker.content origin name = none ∨
                destination.tracker.content origin name = some content := by
  constructor
  · intro holds
    exact ⟨holds.select, holds.delete⟩
  · rintro ⟨select, delete⟩
    exact {
      copies := fun stops => absurd (outcome.stops stops) Bool.false_ne_true.symm
      select := select
      populate := fun row fails => absurd fails (reads row)
      forget := fun row _ _ _ fails => absurd fails (reads row)
      delete := delete }

/-- A move with successful copies, by the statement that fails. -/
theorem allOrNothing_finished
    (outcome : CopyOutcome failure order condition source destination trackers true) :
    (Moved condition source (finished failure order condition source trackers) ∨
        Kept source destination (finished failure order condition source trackers)) ↔
      HoldsWhen failure order condition source destination := by
  by_cases populates : ∃ row, failure = some (.populateOrigins .source row)
  · obtain ⟨row, rfl⟩ := populates
    have others : ∀ populate forget,
        HoldsWhen (some (.populateOrigins .source row)) order condition source
          destination := fun populate forget =>
      { copies := fun stops => absurd (outcome.stops stops) Bool.false_ne_true.symm
        populate := populate
        forget := forget
        select := fun _ _ fails => by cases fails
        delete := fun _ _ fails => by cases fails }
    cases read : originsRead (some (.populateOrigins .source row)) order condition
        source.tracker with
    | nil =>
      refine iff_of_true (.inr (kept_of_nothing_read outcome read)) (others ?_ ?_)
      · exact fun _ _ _ someRead => absurd read someRead
      · intro _ _ _ _ _ _ isRead
        rw [read] at isRead
        cases isRead
    | cons first rest =>
      have someRead : originsRead (some (.populateOrigins .source row)) order condition
          source.tracker ≠ [] := by simp [read]
      cases condition with
      | none =>
        rw [allOrNothing_of_populate outcome rfl someRead]
        constructor
        · exact fun held => others (fun _ _ _ _ => held)
            fun _ _ _ _ _ isSome => by cases isSome
        · exact fun holds => holds.populate row rfl rfl someRead
      | some like =>
        rw [allOrNothing_of_forget outcome rfl read]
        constructor
        · intro remembered
          refine others (fun _ _ isNone => by cases isNone) ?_
          intro anyRow anyLike anyFirst anyRest fails isLike isRead
          cases fails
          cases isLike
          rw [read] at isRead
          cases isRead
          exact remembered
        · exact fun holds => holds.forget row like first rest rfl rfl read
  · push Not at populates
    rw [holdsWhen_iff_of_copied outcome populates]
    by_cases unlisted : ∃ origin ∈ originsRead failure order condition source.tracker,
        failure = some (.selectNames .deleting .source origin)
    · obtain ⟨origin, member, fails⟩ := unlisted
      rw [allOrNothing_of_unlisted outcome member fails]
      constructor
      · intro holds
        refine ⟨fun row _ selects => by simp [fails] at selects, ?_⟩
        intro other _ same
        rw [fails] at same
        cases same
        exact holds
      · exact fun holds => holds.2 origin member fails
    · push Not at unlisted
      rw [allOrNothing_of_listed outcome populates unlisted]
      cases failed : failedRow failure condition with
      | none =>
        refine iff_of_true (.inl fun origin selected unread =>
          noDatabases_of_unread failed selected unread) ⟨?_, ?_⟩
        · intro row like selects isLike
          rw [isLike, failedRow_some_iff.2 selects] at failed
          cases failed
        · exact fun origin member fails => absurd fails (unlisted origin member)
      | some row =>
        cases condition with
        | none => exact absurd (failedRow_none_iff.1 failed) (populates row)
        | some like =>
          have fails := failedRow_some_iff.1 failed
          constructor
          · intro holds
            refine ⟨fun anyRow anyLike _ isLike => ?_, fun origin member isDeleting =>
              absurd isDeleting (unlisted origin member)⟩
            cases isLike
            exact holds
          · exact fun holds => holds.1 row like fails rfl

end Move

/-- A tracker with one database. -/
def StoredTracker.oneDatabase (origin : SecurityOrigin) (name : DatabaseName)
    (content : Content) : StoredTracker where
  tables := some ⟨some [⟨origin, 1024⟩], some [⟨origin, name, .numbered 1⟩], 1⟩
  files := AList.singleton (origin, 1) content
  tidy := by
    refine ⟨nodup_singleton _, ?_, ?_, ?_⟩
    · intro row isRow other isOther _ _
      rw [mem_singleton.1 isRow, mem_singleton.1 isOther]
    · intro row isRow
      rw [mem_singleton.1 isRow]
      exact ⟨1, Nat.le_refl 1, rfl⟩
    · intro key member
      rw [mem_singleton.1 (AList.mem_keys.1 member)]
      exact Nat.le_refl 1
  established := by
    intro row isRow
    rw [mem_singleton.1 isRow]
    exact mem_singleton_self origin

end Storage
end PalmWebKit
