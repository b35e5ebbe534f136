import Mathlib

/-!
# Opening the cookie database

`CookieService::init` opens the database and prepares two statements.  Its
validator, `isValidDatabase`, removes a corrupt file and calls `init` again
before it answers `false`, and the outer call goes on with whatever the nested
one has left behind.  The outcomes of all calls into the file system and SQLite
are given for each depth of the recursion.
-/

namespace PalmWebKit
namespace Cookie

/-- What one call of `init` meets. -/
structure Attempt where
  /-- `g_mkdir_with_parents` -/
  directoryCreated : Bool
  /-- `new SQLiteDatabase` -/
  databaseAllocated : Bool
  opened : Bool
  /-- `PRAGMA integrity_check` steps to a row that says `ok`. -/
  integrityOk : Bool
  tablesExist : Bool
  versionCurrent : Bool
  /-- All statements of `createDatabaseTables`. -/
  tablesCreated : Bool
  insertAllocated : Bool
  insertPrepared : Bool
  selectAllocated : Bool
  selectPrepared : Bool
  deriving DecidableEq, Repr

/-- Which of `m_db`, `m_insertCookieStmt` and `m_selectCookieStmt` are set. -/
structure Handles where
  db : Bool
  insertCookieStmt : Bool
  selectCookieStmt : Bool
  deriving DecidableEq, Repr

namespace Handles

def allNull : Handles := ⟨false, false, false⟩

def allSet : Handles := ⟨true, true, true⟩

/-- `CookieService::shutdown` -/
def shutdown (_ : Handles) : Handles := allNull

end Handles

/-- How a call of `init` ends. -/
inductive InitResult
  | returned (handles : Handles)
  /-- A call through a null `m_db`. -/
  | nullDereference
  /-- The call is deeper than the fuel allows. -/
  | outOfFuel
  deriving DecidableEq, Repr

/-- The database and both statements are all set or all null. -/
def InitResult.AllOrNothing (result : InitResult) : Prop :=
  result = .returned .allNull ∨ result = .returned .allSet

instance (result : InitResult) : Decidable result.AllOrNothing :=
  inferInstanceAs (Decidable (_ ∨ _))

namespace Attempt

/-- The end of `init`, behind a valid or a new database. -/
def prepareStatements (attempt : Attempt) (handles : Handles) : Handles :=
  if !attempt.insertAllocated then
    { handles with db := false, insertCookieStmt := false }
  else if !attempt.insertPrepared then
    { handles with db := false, insertCookieStmt := false }
  else if !attempt.selectAllocated then
    { db := false, insertCookieStmt := false, selectCookieStmt := false }
  else if !attempt.selectPrepared then
    { db := false, insertCookieStmt := false, selectCookieStmt := false }
  else
    { handles with insertCookieStmt := true, selectCookieStmt := true }

/-- What `init` does after `isValidDatabase` has returned `false`. -/
def rebuild (attempt : Attempt) (handles : Handles) : InitResult :=
  if !handles.db then
    -- `m_db->clearAllTables()`
    .nullDereference
  else if !attempt.tablesCreated then
    .returned { handles with db := false }
  else
    .returned (attempt.prepareStatements handles)

/-- `CookieService::isValidDatabase` with the nested call of `init`. -/
def isValidDatabase (attempt : Attempt) (init : Handles → InitResult)
    (handles : Handles) : InitResult × Bool :=
  if !attempt.integrityOk then
    -- The result of `unlink` is not looked at.
    (init handles.shutdown, false)
  else if !attempt.tablesExist then (.returned handles, false)
  else if !attempt.versionCurrent then (.returned handles, false)
  else (.returned handles, true)

/-- The body of `CookieService::init`, given its nested call. -/
def init (attempt : Attempt) (nested : Handles → InitResult) (handles : Handles) : InitResult :=
  if handles.db then .returned handles
  else if !attempt.directoryCreated then .returned handles
  else if !attempt.databaseAllocated then .returned { handles with db := false }
  else if !attempt.opened then .returned { handles with db := false }
  else
    match attempt.isValidDatabase nested { handles with db := true } with
    | (.returned handles, false) => attempt.rebuild handles
    | (.returned handles, true) => .returned (attempt.prepareStatements handles)
    | (failed, _) => failed

end Attempt

/-- `CookieService::init` at a depth of its recursion. -/
def init (attempts : Nat → Attempt) : Nat → Nat → Handles → InitResult
  | 0, _ => fun _ => .outOfFuel
  | fuel + 1, depth => (attempts depth).init (init attempts fuel (depth + 1))

/-! ## One call -/

namespace Attempt

/-- The attempt opens a file that fails the integrity check. -/
def FindsCorrupt (attempt : Attempt) : Prop :=
  attempt.directoryCreated = true ∧ attempt.databaseAllocated = true ∧
    attempt.opened = true ∧ attempt.integrityOk = false

instance (attempt : Attempt) : Decidable attempt.FindsCorrupt :=
  inferInstanceAs (Decidable (_ ∧ _ ∧ _ ∧ _))

/-- The tables are created and the first statement is prepared. -/
def Creates (attempt : Attempt) : Prop :=
  attempt.tablesCreated = true ∧ attempt.insertAllocated = true ∧ attempt.insertPrepared = true

/-- The second statement is prepared. -/
def Selects (attempt : Attempt) : Prop :=
  attempt.selectAllocated = true ∧ attempt.selectPrepared = true

/-- The attempt opens a sound file and completes. -/
def Completes (attempt : Attempt) : Prop :=
  (attempt.directoryCreated = true ∧ attempt.databaseAllocated = true ∧
    attempt.opened = true ∧ attempt.integrityOk = true) ∧
  ((attempt.tablesExist = true ∧ attempt.versionCurrent = true) ∨ attempt.tablesCreated = true) ∧
  (attempt.insertAllocated = true ∧ attempt.insertPrepared = true) ∧ attempt.Selects

instance (attempt : Attempt) : Decidable attempt.Creates := inferInstanceAs (Decidable (_ ∧ _ ∧ _))

instance (attempt : Attempt) : Decidable attempt.Selects := inferInstanceAs (Decidable (_ ∧ _))

instance (attempt : Attempt) : Decidable attempt.Completes :=
  inferInstanceAs (Decidable (_ ∧ _ ∧ _ ∧ _))

/-- The result of a call that does not recurse. -/
def settled (attempt : Attempt) : InitResult :=
  .returned (if attempt.Completes then .allSet else .allNull)

/-- The result of a call after its nested one. -/
def afterNested (attempt : Attempt) : InitResult → InitResult
  | .returned handles => attempt.rebuild handles
  | failed => failed

variable (nested : Handles → InitResult)

theorem init_of_findsCorrupt {attempt : Attempt} (corrupt : attempt.FindsCorrupt) :
    attempt.init nested .allNull = attempt.afterNested (nested .allNull) := by
  obtain ⟨directory, allocated, opened, broken⟩ := corrupt
  rw [init, isValidDatabase, directory, allocated, opened, broken]
  change (match (nested .allNull, false) with
    | (.returned handles, false) => attempt.rebuild handles
    | (.returned handles, true) => .returned (attempt.prepareStatements handles)
    | (failed, _) => failed) = _
  cases nested .allNull
  all_goals rfl

/-- A call that finds no corrupt file leaves everything set or null. -/
theorem init_of_not_findsCorrupt {attempt : Attempt}
    (sound : ¬ attempt.FindsCorrupt) : attempt.init nested .allNull = attempt.settled := by
  obtain ⟨directory, allocated, opened, integrity, exist, version, created, insertAllocated,
    insertPrepared, selectAllocated, selectPrepared⟩ := attempt
  cases directory with
  | false => rfl
  | true =>
  cases allocated with
  | false => rfl
  | true =>
  cases opened with
  | false => rfl
  | true =>
  cases integrity with
  | false => exact absurd ⟨rfl, rfl, rfl, rfl⟩ sound
  | true =>
  -- A valid database and a new one go on in the same way.
  cases exist
  all_goals cases version
  all_goals cases created
  all_goals cases insertAllocated
  all_goals cases insertPrepared
  all_goals cases selectAllocated
  all_goals cases selectPrepared
  all_goals rfl

/-- Behind a complete nested call everything is set again only when the tables
are created and both statements prepared. -/
theorem rebuild_allSet_iff (attempt : Attempt) :
    attempt.rebuild .allSet = .returned .allSet ↔ attempt.Creates ∧ attempt.Selects := by
  unfold rebuild prepareStatements Creates Selects
  cases attempt.tablesCreated
  all_goals cases attempt.insertAllocated
  all_goals cases attempt.insertPrepared
  all_goals cases attempt.selectAllocated
  all_goals cases attempt.selectPrepared
  all_goals decide

/-- A failure before the second statement leaves the nested call's one. -/
theorem rebuild_allOrNothing_iff (attempt : Attempt) :
    (attempt.rebuild .allSet).AllOrNothing ↔ attempt.Creates := by
  unfold rebuild prepareStatements Creates
  cases attempt.tablesCreated
  all_goals cases attempt.insertAllocated
  all_goals cases attempt.insertPrepared
  all_goals cases attempt.selectAllocated
  all_goals cases attempt.selectPrepared
  all_goals decide

end Attempt

/-! ## The recursion -/

/-- The result of a call whose recursion goes some levels deeper. -/
def resultAfter (attempts : Nat → Attempt) : Nat → Nat → InitResult
  | 0, depth => (attempts depth).settled
  | levels + 1, depth => (attempts depth).afterNested (resultAfter attempts levels (depth + 1))

variable {attempts : Nat → Attempt}

/-- The recursion ends at the first attempt that finds no corrupt file. -/
theorem init_eq_resultAfter {levels depth : Nat}
    (corrupt : ∀ level < levels, (attempts (depth + level)).FindsCorrupt)
    (sound : ¬ (attempts (depth + levels)).FindsCorrupt) (fuel : Nat) :
    init attempts fuel depth .allNull =
      if fuel ≤ levels then .outOfFuel else resultAfter attempts levels depth := by
  induction levels generalizing depth fuel with
  | zero =>
    cases fuel with
    | zero => rfl
    | succ fuel => exact Attempt.init_of_not_findsCorrupt _ sound
  | succ levels ih =>
    cases fuel with
    | zero => rfl
    | succ fuel =>
      have here : (attempts depth).FindsCorrupt := corrupt 0 (Nat.succ_pos levels)
      have deeper := @ih (depth + 1)
        (fun level below => by
          have next := corrupt (level + 1) (Nat.succ_lt_succ below)
          rwa [← Nat.add_assoc, Nat.add_right_comm] at next)
        (by rwa [Nat.add_right_comm]) fuel
      refine (Attempt.init_of_findsCorrupt _ here).trans ?_
      rw [deeper]
      by_cases short : fuel ≤ levels
      · rw [if_pos short, if_pos (Nat.succ_le_succ short)]
        rfl
      · rw [if_neg short, if_neg (fun enough => short (Nat.le_of_succ_le_succ enough))]
        rfl

/-- While every attempt finds a corrupt file the recursion does not end. -/
theorem init_of_always_corrupt (corrupt : ∀ depth, (attempts depth).FindsCorrupt)
    (fuel depth : Nat) : init attempts fuel depth .allNull = .outOfFuel := by
  induction fuel generalizing depth with
  | zero => rfl
  | succ fuel ih =>
    refine (Attempt.init_of_findsCorrupt _ (corrupt depth)).trans ?_
    rw [ih]
    rfl

theorem prepareStatements_db {attempt : Attempt} {handles : Handles} (isOpen : handles.db = true)
    (stays : (attempt.prepareStatements handles).db = true) :
    attempt.prepareStatements handles = .allSet := by
  unfold Attempt.prepareStatements at stays ⊢
  split_ifs at stays ⊢
  rw [isOpen]
  rfl

/-- The database is open at the end only with both statements. -/
theorem resultAfter_db {levels depth : Nat} {handles : Handles}
    (result : resultAfter attempts levels depth = .returned handles) (isOpen : handles.db = true) :
    handles = .allSet := by
  cases levels with
  | zero =>
    have settled := InitResult.returned.inj result
    by_cases completes : (attempts depth).Completes
    · rw [← settled, if_pos completes]
    · rw [← settled, if_neg completes] at isOpen
      cases isOpen
  | succ levels =>
    change (attempts depth).afterNested _ = _ at result
    cases nested : resultAfter attempts levels (depth + 1) with
    | returned nestedHandles =>
      rw [nested] at result
      change (attempts depth).rebuild nestedHandles = _ at result
      unfold Attempt.rebuild at result
      split_ifs at result with isNull notCreated
      · rw [← InitResult.returned.inj result] at isOpen
        cases isOpen
      · have prepared := InitResult.returned.inj result
        rw [← prepared] at isOpen ⊢
        exact prepareStatements_db (by simpa using isNull) isOpen
    | nullDereference | outOfFuel =>
      rw [nested] at result
      cases result

variable (attempts : Nat → Attempt)

/-- Behind a nested call, the statements follow the tables only when the
nested call has set everything. -/
theorem afterNested_cases (levels depth : Nat) :
    (resultAfter attempts levels (depth + 1) = .returned .allSet ∧
      resultAfter attempts (levels + 1) depth = (attempts depth).rebuild .allSet) ∨
    (resultAfter attempts levels (depth + 1) ≠ .returned .allSet ∧
      resultAfter attempts (levels + 1) depth ≠ .returned .allSet ∧
      ¬ (resultAfter attempts (levels + 1) depth).AllOrNothing) := by
  change (_ ∧ (attempts depth).afterNested _ = _) ∨ (_ ∧ (attempts depth).afterNested _ ≠ _ ∧
    ¬ ((attempts depth).afterNested _).AllOrNothing)
  cases nested : resultAfter attempts levels (depth + 1) with
  | returned handles =>
    cases isOpen : handles.db with
    | true =>
      rw [resultAfter_db nested isOpen]
      exact .inl ⟨rfl, rfl⟩
    | false =>
      have crashes : (attempts depth).afterNested (.returned handles) = .nullDereference := by
        change (attempts depth).rebuild handles = _
        rw [Attempt.rebuild, isOpen]
        rfl
      rw [crashes]
      refine .inr ⟨?_, nofun, nofun⟩
      intro same
      rw [InitResult.returned.inj same] at isOpen
      cases isOpen
  | nullDereference | outOfFuel => exact .inr ⟨nofun, nofun, nofun⟩

/-- The last attempt completes and every one above it is rebuilt completely. -/
theorem resultAfter_allSet_iff (levels depth : Nat) :
    resultAfter attempts levels depth = .returned .allSet ↔ (attempts (depth + levels)).Completes ∧
        ∀ level < levels, (attempts (depth + level)).Creates ∧
          (attempts (depth + level)).Selects := by
  induction levels generalizing depth with
  | zero =>
    rw [resultAfter, Attempt.settled]
    by_cases completes : (attempts depth).Completes
    · simp [completes]
    · simp [completes, Handles.allNull, Handles.allSet]
  | succ levels ih =>
    have shift (level : Nat) : depth + 1 + level = depth + (level + 1) := by omega
    have deeper := ih (depth + 1)
    simp only [shift] at deeper
    rw [Nat.forall_lt_succ_left']
    obtain ⟨nestedSet, result⟩ | ⟨nestedUnset, unset, -⟩ := afterNested_cases attempts levels depth
    · obtain ⟨completes, rebuilt⟩ := deeper.1 nestedSet
      rw [result, Attempt.rebuild_allSet_iff]
      exact ⟨fun here => ⟨completes, here, rebuilt⟩, fun both => both.2.1⟩
    · refine iff_of_false unset ?_
      rintro ⟨completes, -, rebuilt⟩
      exact nestedUnset (deeper.2 ⟨completes, rebuilt⟩)

/-- The recursion comes to an attempt without a corrupt file.  It is the first
one, or it completes, every attempt in between is rebuilt completely, and the
first one creates the tables and prepares the first statement. -/
def Recovers (attempts : Nat → Attempt) : Prop :=
  ∃ last, (∀ depth < last, (attempts depth).FindsCorrupt) ∧ ¬ (attempts last).FindsCorrupt ∧
    (last = 0 ∨ (attempts last).Completes ∧ (∀ depth < last, 0 < depth → (attempts depth).Creates ∧
        (attempts depth).Selects) ∧ (attempts 0).Creates)

/-- The result of the outermost call. -/
theorem resultAfter_allOrNothing_iff (last : Nat) :
    (resultAfter attempts last 0).AllOrNothing ↔ last = 0 ∨ (attempts last).Completes ∧
          (∀ depth < last, 0 < depth → (attempts depth).Creates ∧ (attempts depth).Selects) ∧
          (attempts 0).Creates := by
  cases last with
  | zero =>
    refine iff_of_true ?_ (.inl rfl)
    by_cases completes : (attempts 0).Completes
    · exact .inr (congrArg InitResult.returned (if_pos completes))
    · exact .inl (congrArg InitResult.returned (if_neg completes))
  | succ levels =>
    rw [or_iff_right (Nat.succ_ne_zero levels), Nat.forall_lt_succ_left']
    have deeper := resultAfter_allSet_iff attempts levels 1
    simp only [Nat.add_comm 1] at deeper
    obtain ⟨nestedSet, result⟩ | ⟨nestedUnset, -, neither⟩ := afterNested_cases attempts levels 0
    · obtain ⟨completes, rebuilt⟩ := deeper.1 nestedSet
      rw [result, Attempt.rebuild_allOrNothing_iff]
      exact ⟨fun creates => ⟨completes, ⟨nofun, fun level below _ => rebuilt level below⟩, creates⟩,
        fun all => all.2.2⟩
    · refine iff_of_false neither ?_
      rintro ⟨completes, ⟨-, rebuilt⟩, -⟩
      exact nestedUnset (deeper.2
        ⟨completes, fun level below => rebuilt level below (Nat.succ_pos level)⟩)

/-- `init` ends with everything set or everything null exactly when everything
was set or the recursion recovers. -/
theorem init_allOrNothing_iff (attempts : Nat → Attempt) {handles : Handles}
    (consistent : handles = .allNull ∨ handles = .allSet) :
    (∃ fuel, (init attempts fuel 0 handles).AllOrNothing) ↔
      handles = .allSet ∨ Recovers attempts := by
  obtain rfl | rfl := consistent
  · rw [or_iff_right (show Handles.allNull ≠ Handles.allSet by decide)]
    constructor
    · rintro ⟨fuel, ended⟩
      by_cases ends : ∃ last, ¬ (attempts last).FindsCorrupt
      · classical
        have sound := Nat.find_spec ends
        have corrupt : ∀ depth < Nat.find ends, (attempts depth).FindsCorrupt :=
          fun depth below => not_not.1 (Nat.find_min ends below)
        have result := @init_eq_resultAfter attempts (Nat.find ends) 0
          (fun level below => by rw [Nat.zero_add]; exact corrupt level below)
          (by rwa [Nat.zero_add]) fuel
        rw [result] at ended
        split_ifs at ended with short
        · exact absurd ended nofun
        · exact ⟨_, corrupt, sound, (resultAfter_allOrNothing_iff _ _).1 ended⟩
      · push Not at ends
        rw [init_of_always_corrupt ends] at ended
        exact absurd ended nofun
    · rintro ⟨last, corrupt, sound, recovered⟩
      refine ⟨last + 1, ?_⟩
      have result := @init_eq_resultAfter attempts last 0
        (fun level below => by rw [Nat.zero_add]; exact corrupt level below)
        (by rwa [Nat.zero_add]) (last + 1)
      rw [result, if_neg (Nat.not_succ_le_self last)]
      exact (resultAfter_allOrNothing_iff _ _).2 recovered
  · exact iff_of_true ⟨1, .inr rfl⟩ (.inl rfl)

/-- Every call succeeds. -/
def Attempt.allSucceed : Attempt :=
  ⟨true, true, true, true, true, true, true, true, true, true, true⟩

/-- The theorem on a first start where every call succeeds. -/
theorem init_allOrNothing_iff_allSucceed :
    (∃ fuel, (init (fun _ => Attempt.allSucceed) fuel 0 .allNull).AllOrNothing) ↔
      Handles.allNull = .allSet ∨ Recovers fun _ => Attempt.allSucceed :=
  init_allOrNothing_iff _ (.inl rfl)

/-- A corrupt file, and then a directory that cannot be made: the outer call
uses the database that the nested one has not opened. -/
theorem init_dereferences_null :
    init (fun depth => if depth = 0 then { Attempt.allSucceed with integrityOk := false }
        else { Attempt.allSucceed with directoryCreated := false }) 2 0 .allNull =
      .nullDereference ∧
    ¬ ∃ fuel, (init (fun depth =>
        if depth = 0 then { Attempt.allSucceed with integrityOk := false }
        else { Attempt.allSucceed with directoryCreated := false }) fuel 0 .allNull).AllOrNothing := by
  refine ⟨by decide, ?_⟩
  rintro ⟨fuel, ended⟩
  match fuel with
  | 0 => exact absurd ended (by decide)
  | 1 => exact absurd ended (by decide)
  | fuel + 2 => exact absurd ended nofun

end Cookie
end PalmWebKit
