import PalmWebKit.Text.CodeUnits

/-!
# Cookie entries

The record of one cookie and the two list operations on the cookies of a
domain tail: storing a cookie over its older value and removing one.
-/

namespace PalmWebKit
namespace Cookie

open List

/-- One stored cookie.  A row of the database table has the same columns. -/
structure CookieEntry where
  domainHead : WString
  domainTail : WString
  path : WString
  name : WString
  value : WString
  /-- Seconds since the epoch, `-1` for a session cookie. -/
  expires : Int
  isSecure : Bool
  deriving DecidableEq, Repr

/-- Two entries of one set stand for the same cookie. -/
def CookieEntry.SameCookie (first second : CookieEntry) : Prop :=
  first.domainHead = second.domainHead ∧ first.path = second.path ∧ first.name = second.name

instance (first second : CookieEntry) :
    Decidable (first.SameCookie second) := inferInstanceAs (Decidable (_ ∧ _ ∧ _))

/-- No two entries stand for the same cookie. -/
def DistinctCookies (entries : List CookieEntry) : Prop :=
  entries.Pairwise fun first second => ¬first.SameCookie second

/-- Overwrite the first entry for the same cookie, or append. -/
def storeEntry (entry : CookieEntry) : List CookieEntry → List CookieEntry
  | [] => [entry]
  | first :: rest =>
    if first.SameCookie entry then entry :: rest
    else first :: storeEntry entry rest

/-- Remove the first entry for a cookie. -/
def removeEntry (domainHead path name : WString) (entries : List CookieEntry) : List CookieEntry :=
  entries.eraseP fun entry => entry.domainHead = domainHead ∧ entry.path = path ∧ entry.name = name

theorem CookieEntry.SameCookie.symm {first second : CookieEntry} (same : first.SameCookie second) :
    second.SameCookie first := ⟨same.1.symm, same.2.1.symm, same.2.2.symm⟩

theorem CookieEntry.SameCookie.trans {first second third : CookieEntry}
    (same : first.SameCookie second) (next : second.SameCookie third) : first.SameCookie third :=
  ⟨same.1.trans next.1, same.2.1.trans next.2.1, same.2.2.trans next.2.2⟩

variable {entries : List CookieEntry}

variable (distinct : DistinctCookies entries)
include distinct

theorem DistinctCookies.nodup :
    entries.Nodup := distinct.imp fun ne equal => ne (by simp [equal, CookieEntry.SameCookie])

/-- Distinct entries for the same cookie are one entry. -/
theorem DistinctCookies.eq_of_sameCookie {first second : CookieEntry}
    (firstMember : first ∈ entries) (secondMember : second ∈ entries)
    (same : first.SameCookie second) : first = second := by
  by_contra ne
  have symmetric : Std.Symm fun first second : CookieEntry =>
      ¬first.SameCookie second := ⟨fun _ _ unlike like => unlike like.symm⟩
  exact List.Pairwise.forall distinct firstMember secondMember ne same

theorem mem_storeEntry {entry stored : CookieEntry} :
    stored ∈ storeEntry entry entries ↔
      stored = entry ∨ (stored ∈ entries ∧ ¬stored.SameCookie entry) := by
  induction entries with
  | nil => simp [storeEntry]
  | cons first rest ih =>
    obtain ⟨unlikeFirst, restDistinct⟩ := pairwise_cons.1 distinct
    rw [storeEntry]
    split_ifs with same
    · simp only [mem_cons]
      constructor
      · rintro (equal | member)
        · exact .inl equal
        · exact .inr ⟨.inr member, fun like => unlikeFirst stored member (same.trans like.symm)⟩
      · rintro (equal | ⟨equal | member, unlike⟩)
        · exact .inl equal
        · exact absurd same (equal ▸ unlike)
        · exact .inr member
    · simp only [mem_cons, ih restDistinct]
      constructor
      · rintro (equal | equal | ⟨member, unlike⟩)
        · exact .inr ⟨.inl equal, equal ▸ same⟩
        · exact .inl equal
        · exact .inr ⟨.inr member, unlike⟩
      · rintro (equal | ⟨equal | member, unlike⟩)
        · exact .inr (.inl equal)
        · exact .inl equal
        · exact .inr (.inr ⟨member, unlike⟩)

omit distinct

theorem DistinctCookies.storeEntry (distinct : DistinctCookies entries) (entry : CookieEntry) :
    DistinctCookies (storeEntry entry entries) := by
  induction entries with
  | nil => exact pairwise_singleton _ _
  | cons first rest ih =>
    obtain ⟨unlikeFirst, restDistinct⟩ := pairwise_cons.1 distinct
    rw [Cookie.storeEntry]
    split_ifs with same
    · exact pairwise_cons.2 ⟨fun other member like =>
        unlikeFirst other member (same.trans like), restDistinct⟩
    · refine pairwise_cons.2 ⟨fun other member => ?_, ih restDistinct⟩
      rcases (mem_storeEntry restDistinct).1 member with rfl | ⟨old, -⟩
      · exact same
      · exact unlikeFirst other old

theorem mem_removeEntry (distinct : DistinctCookies entries) {domainHead path name : WString}
    {entry : CookieEntry} : entry ∈ removeEntry domainHead path name entries ↔ entry ∈ entries ∧
        ¬(entry.domainHead = domainHead ∧ entry.path = path ∧
          entry.name = name) := by
  induction entries with
  | nil => simp [removeEntry]
  | cons first rest ih =>
    obtain ⟨unlikeFirst, restDistinct⟩ := pairwise_cons.1 distinct
    have later := ih restDistinct
    rw [removeEntry] at later ⊢
    rw [eraseP_cons]
    by_cases found : first.domainHead = domainHead ∧ first.path = path ∧ first.name = name
    · rw [decide_eq_true found, mem_cons]
      constructor
      · intro member
        refine ⟨.inr member, ?_⟩
        rintro ⟨rfl, rfl, rfl⟩
        exact unlikeFirst entry member found
      · rintro ⟨rfl | member, unlike⟩
        · exact absurd found unlike
        · exact member
    · rw [decide_eq_false found, cond_false, mem_cons, mem_cons, later]
      constructor
      · rintro (rfl | ⟨member, unlike⟩)
        · exact ⟨.inl rfl, found⟩
        · exact ⟨.inr member, unlike⟩
      · rintro ⟨rfl | member, unlike⟩
        · exact .inl rfl
        · exact .inr ⟨member, unlike⟩

theorem DistinctCookies.removeEntry (distinct : DistinctCookies entries)
    (domainHead path name : WString) : DistinctCookies (removeEntry domainHead path name entries) :=
  distinct.sublist eraseP_sublist

end Cookie
end PalmWebKit
