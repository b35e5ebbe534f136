import PalmWebKit.Storage.GrownDestination

/-!
# What copying does to the two trackers

Copying succeeds when nothing fails that it needs.  Then the destination holds
what was copied; otherwise it may hold some of it.
-/

namespace PalmWebKit
namespace Storage

open List DatabaseTracker

variable {failure : Option Operation}
variable {trackers others thirds : Trackers}
variable {origin : SecurityOrigin} {name : DatabaseName}
variable {touched later : SecurityOrigin → DatabaseName → Prop}
variable {works laterWorks : Prop} {success : Bool}

/-- Both trackers are open and tidy, and the source has its table. -/
structure CanCopy (trackers : Trackers) : Prop where
  sourceOpen : trackers.source.isOpen = true
  sourceTidy : trackers.source.Tidy
  destinationOpen : trackers.destination.isOpen = true
  destinationTidy : trackers.destination.Tidy

/-- What copying some databases does, and when it succeeds. -/
structure CopyEffect (failure : Option Operation) (touched : SecurityOrigin → DatabaseName → Prop)
    (works : Prop) (trackers others : Trackers) (success : Bool) : Prop where
  source : KeptWhileCopied touched trackers.source others.source
  destination : GrownByCopies failure touched trackers.destination others.destination
  success_iff : success = true ↔ works
  holds : success = true → Holds touched trackers.source trackers.destination others.destination

/-- Nothing fails that a copy of a database needs.  A database without a file is
not copied. -/
def CanCopyDatabase (failure : Option Operation) (trackers : Trackers) (origin : SecurityOrigin)
    (name : DatabaseName) : Prop :=
  failure ≠ some (.selectPath .copying .source origin name) ∧
    (trackers.source.content origin name ≠ none →
      CanReceive failure trackers.destination origin name)

namespace CopyEffect

theorem canCopy (effect : CopyEffect failure touched works trackers others true)
    (canCopy : CanCopy trackers) : CanCopy others where
  sourceOpen := effect.source.isOpen.trans canCopy.sourceOpen
  sourceTidy := effect.source.tidy
  destinationOpen := effect.destination.isOpen.trans canCopy.destinationOpen
  destinationTidy := (effect.holds rfl).tidy

/-- Copying goes on after a success. -/
theorem trans (first : CopyEffect failure touched works trackers others true)
    (second : CopyEffect failure later laterWorks others thirds success)
    (disjoint : ∀ origin name, touched origin name → ¬later origin name) :
    CopyEffect failure (fun origin name => touched origin name ∨ later origin name)
      (works ∧ laterWorks) trackers thirds success where
  source := first.source.trans second.source
  destination := first.destination.trans second.destination
  success_iff := second.success_iff.trans
    (and_iff_right (first.success_iff.1 rfl)).symm
  holds succeeds := by
    have firstHolds := first.holds rfl
    have secondHolds := second.holds succeeds
    refine ⟨secondHolds.tidy, ?_, ?_⟩
    · intro origin name content isTouched isContent
      rcases isTouched with isFirst | isLater
      · rw [secondHolds.kept origin name (.inl (disjoint origin name isFirst))]
        exact firstHolds.copied origin name content isFirst isContent
      · refine secondHolds.copied origin name content isLater ?_
        rw [first.source.content]
        exact isContent
    · intro origin name isOther
      rw [secondHolds.kept origin name, firstHolds.kept origin name]
      · exact isOther.imp_left fun isOther => isOther ∘ .inl
      · rw [first.source.content]
        exact isOther.imp_left fun isOther => isOther ∘ .inr

/-- Copying stops at a failure. -/
theorem stop (effect : CopyEffect failure touched works trackers others false)
    (wider : ∀ origin name, touched origin name → later origin name) (needed : laterWorks → works) :
    CopyEffect failure later laterWorks trackers others false where
  source := effect.source.mono wider
  destination := effect.destination.mono wider
  success_iff := iff_of_false Bool.false_ne_true fun allWorks =>
    Bool.false_ne_true (effect.success_iff.2 (needed allWorks))
  holds := fun succeeds => absurd succeeds Bool.false_ne_true

/-- Nothing happens to a database that has no contents. -/
theorem congr {allWorks : Prop} (effect : CopyEffect failure touched works trackers others success)
    (wider : ∀ origin name, touched origin name → later origin name)
    (noContent : ∀ origin name, later origin name → ¬touched origin name →
      trackers.source.content origin name = none)
    (sameWorks : works ↔ allWorks) : CopyEffect failure later allWorks trackers others success where
  source := effect.source.mono wider
  destination := effect.destination.mono wider
  success_iff := effect.success_iff.trans sameWorks
  holds succeeds := by
    have holds := effect.holds succeeds
    refine ⟨holds.tidy, ?_, ?_⟩
    · intro origin name content isLater isContent
      by_cases isTouched : touched origin name
      · exact holds.copied origin name content isTouched isContent
      · rw [noContent origin name isLater isTouched] at isContent
        cases isContent
    · intro origin name isOther
      exact holds.kept origin name
        (isOther.imp_left fun isOther => isOther ∘ wider origin name)

end CopyEffect

/-! ## One database -/

theorem effect_copyFile {row : DatabaseRow} {src : FileName} {content : Content} {number : Nat}
    (sourceTidy : trackers.source.Tidy) (tidy : trackers.destination.Tidy)
    (isSource : trackers.source.fileContent origin src = some content)
    (isContent : trackers.source.content origin name = some content)
    (found : trackers.destination.findRow origin name = some row)
    (isNumbered : row.path = .numbered number) : CopyEffect failure (only origin name)
      (∀ created, failure ≠ some (.copyFile origin name created)) trackers
      (copyFile failure trackers name origin origin src (.numbered number)).1
      (copyFile failure trackers name origin origin src (.numbered number)).2 := by
  have file : ∀ files : AList fun _ : SecurityOrigin × Nat => Content,
      (∀ key ∈ files, key = (origin, number) ∨ key ∈ trackers.destination.files) →
      (∀ key ≠ (origin, number), files.lookup key = trackers.destination.files.lookup key) →
      FileTouched origin name trackers.destination
        { trackers.destination with files := files } := fun _ =>
    tidy.fileTouched found isNumbered
  simp only [copyFile, isSource]
  by_cases failsEarly : failure = some (.copyFile origin name false)
  · rw [if_pos failsEarly]
    exact ⟨.refl sourceTidy, .refl _, iff_of_false Bool.false_ne_true
      fun works => works false failsEarly, fun succeeds => absurd succeeds Bool.false_ne_true⟩
  · rw [if_neg failsEarly]
    by_cases failsLate : failure = some (.copyFile origin name true)
    · rw [if_pos failsLate]
      refine ⟨.refl sourceTidy, ?_, iff_of_false Bool.false_ne_true
        fun works => works true failsLate,
        fun succeeds => absurd succeeds Bool.false_ne_true⟩
      exact (file _ (fun key member => .inr (AList.mem_erase.1 member).2)
        fun key isOther => AList.lookup_erase_ne isOther).grownByCopies
    · rw [if_neg failsLate]
      have written := file (trackers.destination.files.insert (origin, number) content)
        (fun key member => (AList.mem_insert _).1 member)
        (fun key isOther => AList.lookup_insert_ne isOther)
      refine ⟨.refl sourceTidy, written.grownByCopies, iff_of_true rfl ?_, fun _ =>
        ⟨written.tidy, ?_, ?_⟩⟩
      · intro created
        cases created with
        | false => exact failsEarly
        | true => exact failsLate
      · rintro otherOrigin otherName otherContent ⟨rfl, rfl⟩ isOther
        rw [isContent] at isOther
        rw [content_of_findRow ((written.findRow _ _).trans found), isNumbered, ← isOther]
        exact AList.lookup_insert _
      · intro otherOrigin otherName isOther
        rcases isOther with isOther | noContent
        · exact written.content otherOrigin otherName isOther
        · refine written.content otherOrigin otherName ?_
          rintro ⟨rfl, rfl⟩
          rw [isContent] at noContent
          cases noContent

theorem copyOriginDatabase_effect {row : DatabaseRow} (canCopy : CanCopy trackers)
    (hasDatabases : trackers.source.HasDatabases)
    (found : trackers.source.findRow origin name = some row) :
    CopyEffect failure (only origin name) (CanCopyDatabase failure trackers origin name)
      trackers (copyOriginDatabase failure trackers name origin origin).1
      (copyOriginDatabase failure trackers name origin origin).2 := by
  rw [copyOriginDatabase, fullPathForDatabase_false]
  by_cases fails : failure = some (.selectPath .copying .source origin name)
  · rw [if_pos (.inr (.inr fails))]
    exact ⟨.refl canCopy.sourceTidy, .refl _, iff_of_false Bool.false_ne_true
      fun works => works.1 fails, fun succeeds => absurd succeeds Bool.false_ne_true⟩
  · rw [if_neg (by
      rintro (closed | missing | fails')
      · rw [canCopy.sourceOpen] at closed
        cases closed
      · exact hasDatabases missing
      · exact fails fails'), found, Option.map_some]
    dsimp only
    obtain ⟨number, -, isNumbered⟩ := canCopy.sourceTidy.rowsNumbered row (mem_of_findRow found).1
    have exists_iff : trackers.source.fileExists origin row.path = true ↔
        trackers.source.content origin name ≠ none := by
      rw [content_of_findRow found, isNumbered, fileExists, fileContent,
        decide_eq_true_iff, ne_eq, AList.lookup_eq_none, not_not]
    by_cases isMissing : trackers.source.content origin name = none
    · rw [if_neg (fun isFile => exists_iff.1 isFile isMissing)]
      refine ⟨keptWhileCopied_cleanUpDatabase canCopy.sourceOpen hasDatabases
        canCopy.sourceTidy found isMissing, .refl _, iff_of_true rfl
        ⟨fails, fun isContent => absurd isMissing isContent⟩, fun _ =>
        ⟨canCopy.destinationTidy, ?_, fun _ _ _ => rfl⟩⟩
      rintro otherOrigin otherName content ⟨rfl, rfl⟩ isContent
      rw [isMissing] at isContent
      cases isContent
    · rw [if_pos (exists_iff.2 isMissing)]
      have same := @sameButOrigins_ensureOrigin failure _ canCopy.destinationOpen origin
      have works_iff : CanReceive failure (ensureOrigin failure trackers.destination origin)
          origin name ↔ CanCopyDatabase failure trackers origin name :=
        (canReceive_congr same).trans
          ⟨fun works => ⟨fails, fun _ => works⟩, fun works => works.2 isMissing⟩
      rcases @fullPathForDatabase_true failure _ origin name
          (same.isOpen.trans canCopy.destinationOpen)
          (canCopy.destinationTidy.congr same.databases same.sequence) with
        ⟨other, path, isSame, blocked⟩ | ⟨other, path, grown, blocked⟩ |
        ⟨other, otherRow, otherNumber, path, grown, tidy, otherFound, isOtherNumbered,
          sameContent, receives⟩
      · rw [path]
        exact ⟨.refl canCopy.sourceTidy, .ofSameButOrigins (same.trans isSame),
          iff_of_false Bool.false_ne_true (mt works_iff.2 blocked),
          fun succeeds => absurd succeeds Bool.false_ne_true⟩
      · have notCopied : copyFile failure ⟨trackers.source, other⟩ name origin origin
            row.path .empty = (⟨trackers.source, other⟩, false) := by
          rw [copyFile]
          simp
        rw [path]
        dsimp only
        rw [notCopied]
        exact ⟨.refl canCopy.sourceTidy, grown.after same,
          iff_of_false Bool.false_ne_true (mt works_iff.2 blocked),
          fun succeeds => absurd succeeds Bool.false_ne_true⟩
      · obtain ⟨content, isContent⟩ := Option.ne_none_iff_exists'.1 isMissing
        have isSource := (content_of_findRow found).symm.trans isContent
        have effect := @effect_copyFile failure ⟨trackers.source, other⟩ origin name _ _ _ _
          canCopy.sourceTidy tidy isSource isContent otherFound isOtherNumbered
        rw [path]
        refine ⟨effect.source, ?_, effect.success_iff.trans (receives.symm.trans works_iff),
          fun succeeds => ?_⟩
        · exact ((grown.after same).trans effect.destination).mono fun _ _ isTouched =>
            isTouched.elim id id
        · have holds := effect.holds succeeds
          refine ⟨holds.tidy, holds.copied, fun otherOrigin otherName isOther => ?_⟩
          rw [holds.kept otherOrigin otherName isOther]
          have isOther : ¬only origin name otherOrigin otherName := by
            rintro ⟨rfl, rfl⟩
            exact isOther.elim (fun isOther => isOther ⟨rfl, rfl⟩) isMissing
          exact (sameContent otherOrigin otherName isOther).trans
            (same.databases.content otherOrigin otherName)

/-! ## The databases of an origin -/

namespace CopyEffect

/-- Nothing is copied. -/
theorem refl (canCopy : CanCopy trackers) (untouched : ∀ origin name, ¬touched origin name)
    (isTrue : works) : CopyEffect failure touched works trackers trackers true where
  source := .refl canCopy.sourceTidy
  destination := .refl trackers.destination
  success_iff := iff_of_true rfl isTrue
  holds _ := ⟨canCopy.destinationTidy,
    fun origin name _ isTouched => absurd isTouched (untouched origin name),
    fun _ _ _ => rfl⟩

/-- Nothing has started. -/
theorem failed (canCopy : CanCopy trackers)
    (isFalse : ¬works) : CopyEffect failure touched works trackers trackers false where
  source := .refl canCopy.sourceTidy
  destination := .refl trackers.destination
  success_iff := iff_of_false Bool.false_ne_true isFalse
  holds succeeds := absurd succeeds Bool.false_ne_true

/-- What the other databases need has not changed. -/
theorem canCopyDatabase_iff (effect : CopyEffect failure touched works trackers others success)
    (isOther : ¬touched origin name) : CanCopyDatabase failure others origin name ↔
      CanCopyDatabase failure trackers origin name := by
  have row := effect.destination.findRow origin name isOther
  rw [CanCopyDatabase, effect.source.content]
  refine and_congr_right fun _ => forall_congr' fun _ => ?_
  constructor
  · rintro ⟨hasDatabases, path, new, file⟩
    exact ⟨effect.destination.hasDatabases.1 hasDatabases, path,
      fun isNew => new (row.trans isNew), file⟩
  · rintro ⟨hasDatabases, path, new, file⟩
    exact ⟨effect.destination.hasDatabases.2 hasDatabases, path,
      fun isNew => new (row.symm.trans isNew), file⟩

end CopyEffect

theorem copyDatabases_effect {names : List DatabaseName} (canCopy : CanCopy trackers)
    (hasDatabases : trackers.source.HasDatabases) (distinct : names.Nodup)
    (found : ∀ name ∈ names, trackers.source.findRow origin name ≠ none) :
    CopyEffect failure (fun otherOrigin name => otherOrigin = origin ∧ name ∈ names)
      (∀ name ∈ names, CanCopyDatabase failure trackers origin name) trackers
      (copyDatabases failure origin origin names trackers).1
      (copyDatabases failure origin origin names trackers).2 := by
  induction names generalizing trackers with
  | nil => exact .refl canCopy (fun _ _ isTouched => not_mem_nil isTouched.2) (by simp)
  | cons name names ih =>
    obtain ⟨isLater, distinct⟩ := nodup_cons.1 distinct
    obtain ⟨row, isRow⟩ := Option.ne_none_iff_exists'.1 (found name (.head _))
    have first := @copyOriginDatabase_effect failure _ _ _ _ canCopy hasDatabases isRow
    rw [copyDatabases]
    have touched_iff : ∀ otherOrigin otherName, (only origin name otherOrigin otherName ∨
          otherOrigin = origin ∧ otherName ∈ names) ↔
        otherOrigin = origin ∧ otherName ∈ name :: names := by
      intro otherOrigin otherName
      rw [mem_cons, and_or_left]
      rfl
    rcases result : copyOriginDatabase failure trackers name origin origin with
      ⟨others, success⟩
    rw [result] at first
    cases success with
    | false =>
      exact first.stop (fun otherOrigin otherName isTouched =>
        (touched_iff otherOrigin otherName).1 (.inl isTouched))
        fun works => works name (.head _)
    | true =>
      have isOther : ∀ otherName ∈ names, ¬only origin name origin otherName := by
        rintro otherName member ⟨-, rfl⟩
        exact isLater member
      have second := ih (first.canCopy canCopy)
        (first.source.hasDatabases.2 hasDatabases) distinct
        (fun otherName member => by
          rw [first.source.findRow origin otherName (isOther otherName member)]
          exact found otherName (.tail _ member))
      refine (first.trans second ?_).congr (fun _ _ => (touched_iff _ _).1)
        (fun _ _ isTouched isOther => absurd ((touched_iff _ _).2 isTouched) isOther)
        ?_
      · rintro otherOrigin otherName ⟨rfl, rfl⟩ isTouched
        exact isLater isTouched.2
      · rw [forall_mem_cons]
        exact and_congr_right fun _ => forall₂_congr fun otherName member =>
          first.canCopyDatabase_iff (isOther otherName member)

/-! ## Origins -/

/-- Nothing fails that the copies of the databases of an origin need. -/
structure CanCopyOrigin (failure : Option Operation) (trackers : Trackers)
    (origin : SecurityOrigin) : Prop where
  hasDatabases : trackers.source.HasDatabases
  names : failure ≠ some (.selectNames .copying .source origin)
  databases : ∀ name, trackers.source.findRow origin name ≠ none →
    CanCopyDatabase failure trackers origin name

theorem findRow_ne_none_iff_mem_names {tracker : DatabaseTracker} :
    tracker.findRow origin name ≠ none ↔
      name ∈ (tracker.databaseRows.filter (·.origin = origin)).map (·.name) := by
  constructor
  · intro found
    obtain ⟨row, isRow⟩ := Option.ne_none_iff_exists'.1 found
    obtain ⟨member, isOwn, isNamed⟩ := mem_of_findRow isRow
    exact mem_map.2
      ⟨row, mem_filter.2 ⟨member, decide_eq_true isOwn⟩, isNamed⟩
  · intro member missing
    obtain ⟨row, isRow, isNamed⟩ := mem_map.1 member
    obtain ⟨member, isOwn⟩ := mem_filter.1 isRow
    exact findRow_eq_none_iff.1 missing row member (of_decide_eq_true isOwn) isNamed

theorem DatabaseTracker.Tidy.names_nodup {tracker : DatabaseTracker} (tidy : tracker.Tidy)
    (origin : SecurityOrigin) :
    ((tracker.databaseRows.filter (·.origin = origin)).map (·.name)).Nodup := by
  have pairs := tidy.namesNodup.sublist ((filter_sublist
    (l := tracker.databaseRows) (p := fun row => row.origin = origin)).map _)
  have same : (tracker.databaseRows.filter (·.origin = origin)).map
      (fun row => (row.origin, row.name)) =
      ((tracker.databaseRows.filter (·.origin = origin)).map (·.name)).map
        fun name => (origin, name) := by
    rw [map_map]
    apply map_congr_left
    intro row member
    rw [of_decide_eq_true (mem_filter.1 member).2]
    rfl
  rw [same] at pairs
  exact pairs.of_map _

theorem copyOriginDatabases_effect (canCopy : CanCopy trackers) (origin : SecurityOrigin) :
    CopyEffect failure (fun otherOrigin _ => otherOrigin = origin)
      (CanCopyOrigin failure trackers origin) trackers
      (copyOriginDatabases failure trackers origin origin).1
      (copyOriginDatabases failure trackers origin origin).2 := by
  rw [copyOriginDatabases, openTrackerDatabase_of_isOpen canCopy.sourceOpen, databaseNamesForOrigin]
  by_cases unreadable : trackers.source.isOpen = false ∨
      trackers.source.tables.bind (·.databases) = none ∨
      failure = some (.selectNames .copying .source origin)
  · rw [if_pos unreadable]
    refine .failed canCopy fun works => ?_
    rcases unreadable with closed | missing | fails
    · rw [canCopy.sourceOpen] at closed
      cases closed
    · exact works.hasDatabases missing
    · exact works.names fails
  · rw [if_neg unreadable]
    have hasDatabases : trackers.source.HasDatabases := fun missing =>
      unreadable (.inr (.inl missing))
    have effect := @copyDatabases_effect failure _ origin _ canCopy hasDatabases
      (canCopy.sourceTidy.names_nodup origin)
      fun name => findRow_ne_none_iff_mem_names.2
    refine effect.congr (fun _ _ => And.left) ?_ ?_
    · rintro otherOrigin name rfl isOther
      refine content_of_no_row ?_
      by_contra found
      exact isOther ⟨rfl, findRow_ne_none_iff_mem_names.1 found⟩
    · constructor
      · intro works
        exact ⟨hasDatabases, fun fails => unreadable (.inr (.inr fails)), fun name found =>
          works name (findRow_ne_none_iff_mem_names.1 found)⟩
      · intro works name member
        exact works.databases name (findRow_ne_none_iff_mem_names.2 member)

theorem CopyEffect.canCopyOrigin_iff
    (effect : CopyEffect failure touched works trackers others success)
    (isOther : ∀ name, ¬touched origin name) :
    CanCopyOrigin failure others origin ↔ CanCopyOrigin failure trackers origin := by
  have rows := fun name => effect.source.findRow origin name (isOther name)
  have databases := fun name => effect.canCopyDatabase_iff (isOther name)
  constructor
  · rintro ⟨hasDatabases, names, works⟩
    exact ⟨effect.source.hasDatabases.1 hasDatabases, names, fun name found =>
      (databases name).1 (works name (by rwa [rows]))⟩
  · rintro ⟨hasDatabases, names, works⟩
    exact ⟨effect.source.hasDatabases.2 hasDatabases, names, fun name found =>
      (databases name).2 (works name (by rwa [← rows]))⟩

theorem copyOrigins_effect {origins : List SecurityOrigin} (canCopy : CanCopy trackers)
    (distinct : origins.Nodup) : CopyEffect failure (fun origin _ => origin ∈ origins)
      (∀ origin ∈ origins, CanCopyOrigin failure trackers origin) trackers
      (copyOrigins failure origins trackers).1
      (copyOrigins failure origins trackers).2 := by
  induction origins generalizing trackers with
  | nil => exact .refl canCopy (fun _ _ => not_mem_nil) (by simp)
  | cons origin origins ih =>
    obtain ⟨isLater, distinct⟩ := nodup_cons.1 distinct
    have first := @copyOriginDatabases_effect failure _ canCopy origin
    rw [copyOrigins]
    rcases result : copyOriginDatabases failure trackers origin origin with
      ⟨others, success⟩
    rw [result] at first
    cases success with
    | false =>
      exact first.stop (fun _ _ same => same ▸ (.head _))
        fun works => works origin (.head _)
    | true =>
      have second := ih (first.canCopy canCopy) distinct
      refine (first.trans second ?_).congr (fun _ _ => mem_cons.2)
        (fun _ _ isTouched isOther => absurd (mem_cons.1 isTouched) isOther) ?_
      · rintro otherOrigin name rfl
        exact isLater
      · rw [forall_mem_cons]
        refine and_congr_right fun _ => forall₂_congr fun otherOrigin member => ?_
        refine first.canCopyOrigin_iff fun _ same => ?_
        rw [same] at member
        exact isLater member

end Storage
end PalmWebKit
