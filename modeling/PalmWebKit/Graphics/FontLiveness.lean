import PalmWebKit.Graphics.FontCache

/-!
# Liveness of cached fonts

The inactive set is the set of cached font data without references, a purge
deletes members of it only, and the platform data of cached fonts outlives the
purge.
-/

namespace PalmWebKit
namespace Graphics

open List

variable {Key PlatformData : Type*}

namespace FontCache

/-- What the cache promises: which font data is inactive, what was deleted and
what the purges left of the platform data. -/
structure Live (cache : FontCache Key PlatformData) : Prop where
  inactive_iff : ∀ fontData, fontData ∈ cache.inactive ↔
    ∃ item ∈ cache.fontDataCache, item.fontData = fontData ∧ item.refCount = 0
  deletions_inactive : ∀ deletion ∈ cache.deletions, deletion.2 = some 0
  used_kept : ∀ purge ∈ cache.purges, ∀ key platformData, (key, some platformData) ∈ purge.before →
      ((key, some platformData) ∈ purge.after ↔ platformData ∈ purge.used)

/-- A font data object is released by someone who refers to it: its item has
references left, and the last one is to this very object. -/
def Held (items : List (CachedFontItem PlatformData))
    (fontData : SimpleFontData PlatformData) : Prop :=
  ∀ item ∈ items, item.platformData = fontData.platformData →
    item.refCount ≠ 0 ∧ (item.refCount = 1 → item.fontData = fontData)

variable [DecidableEq PlatformData]

/-- The small caps that the deletions of a purge release are held. -/
def SmallCapsHeld (env : FontCachePlatform PlatformData) :
    Nat → FontCache Key PlatformData → Prop
  | 0, _ => True
  | turns + 1, cache =>
    match cache.inactive with
    | [] => True
    | fontData :: _ =>
      (∀ smallCaps, cache.smallCaps fontData = some smallCaps →
        Held (cache.fontDataCache.eraseP (·.fontData = fontData)) smallCaps) ∧
      SmallCapsHeld env turns (cache.deleteInactive env fontData)

/-- A purge finds no platform data, and deletes nothing whose small caps have
been released before. -/
def PurgeHarmless (env : FontCachePlatform PlatformData) (cache : FontCache Key PlatformData)
    (count : Int) : Prop :=
  cache.allocated = true → (∀ entry ∈ cache.platformDataCache, entry.2 = none) ∧
      SmallCapsHeld env count.toNat cache

/-- The condition on a call. -/
def Harmless (env : FontCachePlatform PlatformData)
    (cache : FontCache Key PlatformData) : FontCacheCall Key PlatformData → Prop
  | .releaseFontData fontData =>
    Held cache.fontDataCache fontData ∧ ((cache.releaseItem env fontData).2 = true →
        PurgeHarmless env (cache.releaseItem env fontData).1
          (env.aboveTarget (cache.releaseItem env fontData).1.inactive.length))
  | .purgeInactiveFontData count => PurgeHarmless env cache count
  | _ => True

end FontCache

/-! ## Items and the set of inactive font data -/

section Items

/-- Items are found by their platform data, which is that of their object. -/
structure Keyed (items : List (CachedFontItem PlatformData)) : Prop where
  nodup : (items.map (·.platformData)).Nodup
  own : ∀ item ∈ items, item.fontData.platformData = item.platformData

/-- No reference count is negative and a set holds the objects of count zero. -/
structure Balanced (items : List (CachedFontItem PlatformData))
    (inactive : SimpleFontData PlatformData → Prop) : Prop where
  keyed : Keyed items
  nonneg : ∀ item ∈ items, 0 ≤ item.refCount
  inactive_iff : ∀ fontData, inactive fontData ↔
    ∃ item ∈ items, item.fontData = fontData ∧ item.refCount = 0

/-- Something the calls do not mend: an inactive object of negative count or an
inactive object that is not cached. -/
def Damaged (items : List (CachedFontItem PlatformData))
    (inactive : SimpleFontData PlatformData → Prop) : Prop :=
  (∃ item ∈ items, item.refCount < 0 ∧ inactive item.fontData) ∨
    ∃ fontData, inactive fontData ∧ ∀ item ∈ items, item.fontData ≠ fontData

theorem find?_eq_some_iff_of_unique {Element : Type*} {test : Element → Bool}
    {elements : List Element}
    (unique : ∀ first ∈ elements, ∀ second ∈ elements, test first → test second → first = second)
    {element : Element} :
    elements.find? test = some element ↔ element ∈ elements ∧ test element := by
  constructor
  · intro found
    exact ⟨mem_of_find?_eq_some found, find?_some found⟩
  · rintro ⟨isMember, passes⟩
    cases found : elements.find? test with
    | none => exact absurd passes (find?_eq_none.1 found element isMember)
    | some other =>
      rw [unique other (mem_of_find?_eq_some found) element isMember
        (find?_some found) passes]

namespace Keyed

variable {items : List (CachedFontItem PlatformData)}

variable {first second : CachedFontItem PlatformData}

theorem eq_of_platformData (keyed : Keyed items) (firstMember : first ∈ items)
    (secondMember : second ∈ items) (equal : first.platformData = second.platformData) :
    first = second := inj_on_of_nodup_map keyed.nodup firstMember secondMember equal

theorem eq_of_fontData (keyed : Keyed items) (firstMember : first ∈ items)
    (secondMember : second ∈ items)
    (equal : first.fontData = second.fontData) : first = second := by
  apply keyed.eq_of_platformData firstMember secondMember
  rw [← keyed.own first firstMember, ← keyed.own second secondMember, equal]

theorem sublist (keyed : Keyed items) {fewer : List (CachedFontItem PlatformData)}
    (isSublist : fewer.Sublist items) : Keyed fewer where
  nodup := keyed.nodup.sublist (isSublist.map _)
  own := fun item isMember => keyed.own item (isSublist.subset isMember)

variable [DecidableEq PlatformData]

variable
  {platformData : PlatformData}
  {item : CachedFontItem PlatformData}

theorem find?_eq_some_iff (keyed : Keyed items) :
    items.find? (·.platformData = platformData) = some item ↔
      item ∈ items ∧ item.platformData = platformData := by
  rw [find?_eq_some_iff_of_unique]
  · simp
  · intro first firstMember second secondMember firstEqual secondEqual
    simp only [decide_eq_true_eq] at firstEqual secondEqual
    exact keyed.eq_of_platformData firstMember secondMember
      (firstEqual.trans secondEqual.symm)

variable {fontData : SimpleFontData PlatformData}

theorem find?_fontData_eq_some_iff (keyed : Keyed items) :
    items.find? (·.fontData = fontData) = some item ↔
      item ∈ items ∧ item.fontData = fontData := by
  rw [find?_eq_some_iff_of_unique]
  · simp
  · intro first firstMember second secondMember firstEqual secondEqual
    simp only [decide_eq_true_eq] at firstEqual secondEqual
    exact keyed.eq_of_fontData firstMember secondMember
      (firstEqual.trans secondEqual.symm)

/-- The change of a reference count reaches no other item. -/
theorem mem_changeRefCount_iff (keyed : Keyed items) {change : Int → Int} :
    item ∈ changeRefCount platformData change items ↔
      item ∈ items ∧ item.platformData ≠ platformData ∨
        ∃ old ∈ items, old.platformData = platformData ∧
          item = { old with refCount := change old.refCount } := by
  induction items with
  | nil => simp [changeRefCount]
  | cons head tail ih =>
    have tailKeyed : Keyed tail := keyed.sublist (sublist_cons_self _ _)
    have apart : ∀ other ∈ tail, other.platformData ≠ head.platformData := by
      intro other isMember equal
      have notMember := (nodup_cons.1 keyed.nodup).1
      exact notMember (mem_map.2 ⟨other, isMember, equal⟩)
    rw [changeRefCount]
    by_cases found : head.platformData = platformData
    · rw [if_pos found, mem_cons, exists_mem_cons_iff, mem_cons]
      constructor
      · rintro (rfl | isMember)
        · exact .inr (.inl ⟨found, rfl⟩)
        · exact .inl ⟨.inr isMember, found ▸ apart item isMember⟩
      · rintro (⟨rfl | isMember, differ⟩ | ⟨-, rfl⟩ | ⟨old, isMember, equal, -⟩)
        · exact absurd found differ
        · exact .inr isMember
        · exact .inl rfl
        · exact absurd (equal.trans found.symm) (apart old isMember)
    · rw [if_neg found, mem_cons, ih tailKeyed, exists_mem_cons_iff, mem_cons]
      constructor
      · rintro (rfl | ⟨isMember, differ⟩ | later)
        · exact .inl ⟨.inl rfl, found⟩
        · exact .inl ⟨.inr isMember, differ⟩
        · exact .inr (.inr later)
      · rintro (⟨rfl | isMember, differ⟩ | ⟨equal, -⟩ | later)
        · exact .inl rfl
        · exact .inr (.inl ⟨isMember, differ⟩)
        · exact absurd equal found
        · exact .inr (.inr later)

theorem mem_changeRefCount (keyed : Keyed items) (change : Int → Int) (isMember : item ∈ items)
    (equal : item.platformData = platformData) : { item with refCount := change item.refCount } ∈
      changeRefCount platformData change items :=
  keyed.mem_changeRefCount_iff.2 (.inr ⟨item, isMember, equal, rfl⟩)

theorem changeRefCount (keyed : Keyed items) (platformData : PlatformData) (change : Int → Int) :
    Keyed (changeRefCount platformData change items) where
  nodup := by
    have same : (Graphics.changeRefCount platformData change items).map
        (·.platformData) = items.map (·.platformData) := by
      clear keyed
      induction items with
      | nil => rfl
      | cons head tail ih =>
        rw [Graphics.changeRefCount]
        split
        · rfl
        · rw [map_cons, map_cons, ih]
    rw [same]
    exact keyed.nodup
  own := by
    intro item isMember
    rcases keyed.mem_changeRefCount_iff.1 isMember with
      ⟨isOld, -⟩ | ⟨old, isOld, -, rfl⟩
    · exact keyed.own item isOld
    · exact keyed.own old isOld

/-- Erasing the item of an object leaves the items of the others. -/
theorem mem_eraseP_iff (keyed : Keyed items) : item ∈ items.eraseP (·.fontData = fontData) ↔
      item ∈ items ∧ item.fontData ≠ fontData := by
  induction items with
  | nil => simp
  | cons head tail ih =>
    have tailKeyed : Keyed tail := keyed.sublist (sublist_cons_self _ _)
    by_cases found : head.fontData = fontData
    · rw [eraseP_cons_of_pos (by simpa using found), mem_cons]
      constructor
      · intro isMember
        refine ⟨.inr isMember, ?_⟩
        intro equal
        have same := keyed.eq_of_fontData (.tail _ isMember)
          (.head _) (equal.trans found.symm)
        have notMember := (nodup_cons.1 keyed.nodup).1
        exact notMember (mem_map.2 ⟨item, isMember, by rw [same]⟩)
      · rintro ⟨rfl | isMember, differ⟩
        · exact absurd found differ
        · exact isMember
    · rw [eraseP_cons_of_neg (by simpa using found), mem_cons,
        mem_cons, ih tailKeyed]
      constructor
      · rintro (rfl | ⟨isMember, differ⟩)
        · exact ⟨.inl rfl, found⟩
        · exact ⟨.inr isMember, differ⟩
      · rintro ⟨rfl | isMember, differ⟩
        · exact .inl rfl
        · exact .inr ⟨isMember, differ⟩

end Keyed

variable
  [DecidableEq PlatformData]
  {items : List (CachedFontItem PlatformData)}
  {inactive : SimpleFontData PlatformData → Prop}

/-- A release makes the object inactive it is for when one reference is left. -/
def InactiveAfterRelease (items : List (CachedFontItem PlatformData))
    (inactive : SimpleFontData PlatformData → Prop)
    (fontData other : SimpleFontData PlatformData) : Prop :=
  inactive other ∨ other = fontData ∧ ∃ item ∈ items,
      item.platformData = fontData.platformData ∧ item.refCount = 1

namespace Balanced

omit [DecidableEq PlatformData] in
theorem congr (balanced : Balanced items inactive) {others : SimpleFontData PlatformData → Prop}
    (same : ∀ fontData, others fontData ↔ inactive fontData) : Balanced items others where
  keyed := balanced.keyed
  nonneg := balanced.nonneg
  inactive_iff := fun fontData => (same fontData).trans (balanced.inactive_iff fontData)

variable {fontData : SimpleFontData PlatformData}

theorem release (balanced : Balanced items inactive) (held : FontCache.Held items fontData) :
    Balanced (changeRefCount fontData.platformData (· - 1) items)
      (InactiveAfterRelease items inactive fontData) where
  keyed := balanced.keyed.changeRefCount _ _
  nonneg := by
    intro item isMember
    rcases balanced.keyed.mem_changeRefCount_iff.1 isMember with
      ⟨isOld, -⟩ | ⟨old, isOld, equal, rfl⟩
    · exact balanced.nonneg item isOld
    · have nonneg := balanced.nonneg old isOld
      have nonzero := (held old isOld equal).1
      dsimp only
      omega
  inactive_iff := by
    intro other
    simp only [InactiveAfterRelease, balanced.inactive_iff, balanced.keyed.mem_changeRefCount_iff]
    constructor
    · rintro (⟨item, isMember, rfl, isZero⟩ | ⟨rfl, item, isMember, equal, isOne⟩)
      · refine ⟨item, .inl ⟨isMember, ?_⟩, rfl, isZero⟩
        intro equal
        exact (held item isMember equal).1 isZero
      · refine ⟨_, .inr ⟨item, isMember, equal, rfl⟩, (held item isMember equal).2 isOne, ?_⟩
        simp [isOne]
    · rintro ⟨item, ⟨isMember, -⟩ | ⟨old, isOld, equal, rfl⟩, rfl, isZero⟩
      · exact .inl ⟨item, isMember, rfl, isZero⟩
      · have isOne : old.refCount = 1 := by
          dsimp only at isZero
          omega
        exact .inr ⟨(held old isOld equal).2 isOne, old, isOld, equal, isOne⟩

theorem delete (balanced : Balanced items inactive) (fontData : SimpleFontData PlatformData) :
    Balanced (items.eraseP (·.fontData = fontData))
      (fun other => inactive other ∧ other ≠ fontData) where
  keyed := balanced.keyed.sublist eraseP_sublist
  nonneg := fun item isMember => balanced.nonneg item (balanced.keyed.mem_eraseP_iff.1 isMember).1
  inactive_iff := by
    intro other
    simp only [balanced.inactive_iff, balanced.keyed.mem_eraseP_iff]
    constructor
    · rintro ⟨⟨item, isMember, rfl, isZero⟩, differ⟩
      exact ⟨item, ⟨isMember, differ⟩, rfl, isZero⟩
    · rintro ⟨item, ⟨isMember, differ⟩, rfl, isZero⟩
      exact ⟨⟨item, isMember, rfl, isZero⟩, differ⟩

variable {platformData : PlatformData}

variable (balanced : Balanced items inactive)
include balanced

/-- A new reference takes the object out of the inactive set. -/
theorem acquire {item : CachedFontItem PlatformData} (isMember : item ∈ items)
    (equal : item.platformData = platformData) :
    Balanced (changeRefCount platformData (· + 1) items)
      (fun other => inactive other ∧ (item.refCount = 0 → other ≠ item.fontData)) where
  keyed := balanced.keyed.changeRefCount _ _
  nonneg := by
    intro other otherMember
    rcases balanced.keyed.mem_changeRefCount_iff.1 otherMember with
      ⟨isOld, -⟩ | ⟨old, isOld, -, rfl⟩
    · exact balanced.nonneg other isOld
    · have nonneg := balanced.nonneg old isOld
      dsimp only
      omega
  inactive_iff := by
    intro fontData
    simp only [balanced.inactive_iff, balanced.keyed.mem_changeRefCount_iff]
    constructor
    · rintro ⟨⟨other, otherMember, rfl, isZero⟩, differ⟩
      refine ⟨other, .inl ⟨otherMember, ?_⟩, rfl, isZero⟩
      intro otherEqual
      have same := balanced.keyed.eq_of_platformData otherMember isMember
        (otherEqual.trans equal.symm)
      rw [same] at isZero differ
      exact differ isZero rfl
    · rintro ⟨other, ⟨otherMember, apart⟩ | ⟨old, isOld, -, rfl⟩, rfl, isZero⟩
      · refine ⟨⟨other, otherMember, rfl, isZero⟩, fun _ same => apart ?_⟩
        rw [balanced.keyed.eq_of_fontData otherMember isMember same, equal]
      · have nonneg := balanced.nonneg old isOld
        dsimp only at isZero
        omega

/-- A new object starts with a reference. -/
theorem append_new (notFound : items.find? (·.platformData = platformData) = none)
    {allocation : Nat} :
    Balanced (items ++ [⟨1, platformData, ⟨allocation, platformData⟩⟩])
      inactive where
  keyed :=
    { nodup := by
        rw [map_append, map_singleton, ← concat_eq_append]
        refine balanced.keyed.nodup.concat ?_
        intro isMember
        obtain ⟨item, itemMember, equal⟩ := mem_map.1 isMember
        have differ := find?_eq_none.1 notFound item itemMember
        simp [equal] at differ
      own := by
        intro item isMember
        rcases mem_append.1 isMember with isOld | isNew
        · exact balanced.keyed.own item isOld
        · rw [mem_singleton.1 isNew] }
  nonneg := by
    intro item isMember
    rcases mem_append.1 isMember with isOld | isNew
    · exact balanced.nonneg item isOld
    · rw [mem_singleton.1 isNew]
      exact Int.zero_le_ofNat 1
  inactive_iff := by
    intro fontData
    rw [balanced.inactive_iff]
    constructor
    · rintro ⟨item, isMember, rest⟩
      exact ⟨item, mem_append_left _ isMember, rest⟩
    · rintro ⟨item, isMember, equal, isZero⟩
      rcases mem_append.1 isMember with isOld | isNew
      · exact ⟨item, isOld, equal, isZero⟩
      · rw [mem_singleton.1 isNew] at isZero
        exact absurd isZero Int.one_ne_zero

/-- A release that is not held does damage. -/
theorem damaged_of_not_held (notHeld : ¬ FontCache.Held items fontData) :
    Damaged (changeRefCount fontData.platformData (· - 1) items)
      (InactiveAfterRelease items inactive fontData) := by
  simp only [FontCache.Held, not_forall, not_and_or, not_not] at notHeld
  obtain ⟨item, isMember, equal, isZero | ⟨isOne, differ⟩⟩ := notHeld
  · refine .inl ⟨_, balanced.keyed.mem_changeRefCount (· - 1) isMember equal, ?_, .inl ?_⟩
    · dsimp only
      omega
    · exact (balanced.inactive_iff _).2 ⟨item, isMember, rfl, isZero⟩
  · refine .inr ⟨fontData, .inr ⟨rfl, item, isMember, equal, isOne⟩, ?_⟩
    have keyed := balanced.keyed.changeRefCount fontData.platformData (· - 1)
    have changed := balanced.keyed.mem_changeRefCount (· - 1) isMember equal
    intro other otherMember otherEqual
    have otherData : other.platformData = fontData.platformData := by
      rw [← keyed.own other otherMember, otherEqual]
    have same := keyed.eq_of_platformData otherMember changed
      (otherData.trans equal.symm)
    rw [same] at otherEqual
    exact differ otherEqual

end Balanced

namespace Damaged

theorem release (damaged : Damaged items inactive) (keyed : Keyed items)
    (fontData : SimpleFontData PlatformData) :
    Damaged (changeRefCount fontData.platformData (· - 1) items)
      (InactiveAfterRelease items inactive fontData) := by
  rcases damaged with ⟨item, isMember, negative, isInactive⟩ |
    ⟨other, isInactive, uncached⟩
  · by_cases equal : item.platformData = fontData.platformData
    · refine .inl ⟨_, keyed.mem_changeRefCount (· - 1) isMember equal, ?_, .inl isInactive⟩
      dsimp only
      omega
    · exact .inl ⟨item, keyed.mem_changeRefCount_iff.2 (.inl ⟨isMember, equal⟩),
        negative, .inl isInactive⟩
  · refine .inr ⟨other, .inl isInactive, ?_⟩
    intro item isMember
    rcases keyed.mem_changeRefCount_iff.1 isMember with
      ⟨isOld, -⟩ | ⟨old, isOld, -, rfl⟩
    · exact uncached item isOld
    · exact uncached old isOld

/-- Deleting an object with references left, or one that is not cached, is what
damage leads to; any other deletion leaves the damage. -/
theorem delete (damaged : Damaged items inactive) (keyed : Keyed items)
    (fontData : SimpleFontData PlatformData) :
    (¬ ∃ item ∈ items, item.fontData = fontData ∧ item.refCount = 0) ∨
      Damaged (items.eraseP (·.fontData = fontData))
        (fun other => inactive other ∧ other ≠ fontData) := by
  rcases damaged with ⟨item, isMember, negative, isInactive⟩ |
    ⟨other, isInactive, uncached⟩
  · by_cases same : item.fontData = fontData
    · left
      rintro ⟨found, foundMember, equal, isZero⟩
      rw [keyed.eq_of_fontData isMember foundMember (same.trans equal.symm)]
        at negative
      omega
    · exact .inr (.inl ⟨item, keyed.mem_eraseP_iff.2 ⟨isMember, same⟩, negative, isInactive, same⟩)
  · by_cases same : other = fontData
    · left
      rintro ⟨found, foundMember, equal, -⟩
      exact uncached found foundMember (equal.trans same.symm)
    · refine .inr (.inr ⟨other, ⟨isInactive, same⟩, ?_⟩)
      intro item isMember
      exact uncached item (keyed.mem_eraseP_iff.1 isMember).1

end Damaged

end Items

namespace FontCache

variable
  [DecidableEq PlatformData]
  {env : FontCachePlatform PlatformData}
  {cache : FontCache Key PlatformData}

/-! ## One release -/

theorem mem_insertInactive_iff {fontData other : SimpleFontData PlatformData} :
    other ∈ (cache.insertInactive env fontData).inactive ↔
      other ∈ cache.inactive ∨ other = fontData := by
  rw [insertInactive]
  split
  · constructor
    · exact .inl
    · rintro (isMember | rfl)
      · exact isMember
      · assumption
  · rw [mem_orderedInsert, or_comm]

theorem changeRefCount_of_find?_eq_none {items : List (CachedFontItem PlatformData)}
    {platformData : PlatformData} (notFound : items.find? (·.platformData = platformData) = none)
    (change : Int → Int) : changeRefCount platformData change items = items := by
  induction items with
  | nil => rfl
  | cons head tail ih =>
    rw [find?_eq_none] at notFound
    have differ := notFound head (.head _)
    rw [changeRefCount, if_neg (by simpa using differ), ih]
    exact find?_eq_none.2 fun item isMember =>
      notFound item (.tail _ isMember)

/-- What a release does before it may purge. -/
structure Released (cache : FontCache Key PlatformData) (fontData : SimpleFontData PlatformData)
    (released : FontCache Key PlatformData) : Prop where
  items : released.fontDataCache = changeRefCount fontData.platformData (· - 1) cache.fontDataCache
  inactive_iff : ∀ other, other ∈ released.inactive ↔
    InactiveAfterRelease cache.fontDataCache (· ∈ cache.inactive) fontData other
  platformDataCache : released.platformDataCache = cache.platformDataCache
  allocated : released.allocated = cache.allocated
  deletions : released.deletions = cache.deletions
  purges : released.purges = cache.purges

theorem released_releaseItem (keyed : Keyed cache.fontDataCache)
    (fontData : SimpleFontData PlatformData) :
    Released cache fontData (cache.releaseItem env fontData).1 := by
  rw [releaseItem]
  cases found : cache.fontDataCache.find?
      (·.platformData = fontData.platformData) with
  | none =>
    refine ⟨(changeRefCount_of_find?_eq_none found _).symm, ?_, rfl, rfl, rfl, rfl⟩
    intro other
    refine (or_iff_left ?_).symm
    rintro ⟨-, item, isMember, equal, -⟩
    have differ := find?_eq_none.1 found item isMember
    simp [equal] at differ
  | some item =>
    obtain ⟨isMember, equal⟩ := keyed.find?_eq_some_iff.1 found
    dsimp only
    split
    next isZero =>
      have isOne : item.refCount = 1 := by omega
      refine ⟨?_, ?_, ?_, ?_, ?_, ?_⟩
      · rw [insertInactive]
        split <;> rfl
      · intro other
        rw [mem_insertInactive_iff]
        refine or_congr_right ?_
        exact ⟨fun same => ⟨same, item, isMember, equal, isOne⟩, And.left⟩
      all_goals
        rw [insertInactive]
        split <;> rfl
    next notZero =>
      refine ⟨rfl, ?_, rfl, rfl, rfl, rfl⟩
      intro other
      refine (or_iff_left ?_).symm
      rintro ⟨-, one, oneMember, oneEqual, isOne⟩
      rw [keyed.eq_of_platformData oneMember isMember (oneEqual.trans equal.symm)] at isOne
      omega

/-! ## One deletion -/

/-- What a deletion leaves as it was, and what it logs. -/
structure Deleted (cache : FontCache Key PlatformData) (fontData : SimpleFontData PlatformData)
    (deleted : FontCache Key PlatformData) : Prop where
  keyed : Keyed deleted.fontDataCache
  deletions : deleted.deletions = (fontData, (cache.fontDataCache.find? (·.fontData = fontData)).map
      CachedFontItem.refCount) :: cache.deletions
  platformDataCache : deleted.platformDataCache = cache.platformDataCache
  allocated : deleted.allocated = cache.allocated
  purges : deleted.purges = cache.purges

theorem deleted_deleteInactive (keyed : Keyed cache.fontDataCache)
    (fontData : SimpleFontData PlatformData) :
    Deleted cache fontData (cache.deleteInactive env fontData) := by
  have erasedKeyed : Keyed (cache.eraseItem fontData).fontDataCache :=
    keyed.sublist eraseP_sublist
  rw [deleteInactive]
  cases cache.smallCaps fontData with
  | none => exact ⟨erasedKeyed, rfl, rfl, rfl, rfl⟩
  | some smallCaps =>
    have released := @released_releaseItem _ _ _ env _ erasedKeyed smallCaps
    refine ⟨?_, released.deletions, released.platformDataCache, released.allocated, released.purges⟩
    rw [released.items]
    exact erasedKeyed.changeRefCount _ _

variable {fontData : SimpleFontData PlatformData}

/-- An object without small caps just leaves the cache. -/
theorem deleteInactive_of_none (noSmallCaps : cache.smallCaps fontData = none) :
    (cache.deleteInactive env fontData).fontDataCache =
        cache.fontDataCache.eraseP (·.fontData = fontData) ∧
      ∀ other, other ∈ (cache.deleteInactive env fontData).inactive ↔
        other ∈ cache.inactive ∧ other ≠ fontData := by
  simp [deleteInactive, eraseItem, noSmallCaps]

/-- The small caps are released once the object has left the cache. -/
theorem deleteInactive_of_some (keyed : Keyed cache.fontDataCache)
    {fontData smallCaps : SimpleFontData PlatformData}
    (hasSmallCaps : cache.smallCaps fontData = some smallCaps)
    (cached : ∃ item ∈ cache.fontDataCache, item.fontData = fontData) :
    (cache.deleteInactive env fontData).fontDataCache =
        changeRefCount smallCaps.platformData (· - 1)
          (cache.fontDataCache.eraseP (·.fontData = fontData)) ∧
      ∀ other, other ∈ (cache.deleteInactive env fontData).inactive ↔
        InactiveAfterRelease (cache.fontDataCache.eraseP (·.fontData = fontData))
          (fun other => other ∈ cache.inactive ∧ other ≠ fontData) smallCaps other := by
  have erasedKeyed : Keyed (cache.eraseItem fontData).fontDataCache :=
    keyed.sublist eraseP_sublist
  have released := @released_releaseItem _ _ _ env _ erasedKeyed smallCaps
  rw [deleteInactive, hasSmallCaps]
  refine ⟨released.items, ?_⟩
  intro other
  rw [mem_filter, released.inactive_iff, decide_eq_true_eq]
  constructor
  · rintro ⟨isMember | becomesInactive, differ⟩
    · exact .inl ⟨isMember, differ⟩
    · exact .inr becomesInactive
  · rintro (both | ⟨rfl, item, isMember, equal, isOne⟩)
    · exact ⟨.inl both.1, both.2⟩
    · refine ⟨.inr ⟨rfl, item, isMember, equal, isOne⟩, ?_⟩
      rintro rfl
      -- the object has left the cache, and with it the item of its platform data
      obtain ⟨own, ownMember, ownEqual⟩ := cached
      obtain ⟨itemMember, differ⟩ := keyed.mem_eraseP_iff.1 isMember
      have same : item = own := by
        apply keyed.eq_of_platformData itemMember ownMember
        rw [equal, ← ownEqual, keyed.own own ownMember]
      exact differ (same ▸ ownEqual)

theorem balanced_deleteInactive (balanced : Balanced cache.fontDataCache (· ∈ cache.inactive))
    (isInactive : fontData ∈ cache.inactive)
    (held : ∀ smallCaps, cache.smallCaps fontData = some smallCaps →
      Held (cache.fontDataCache.eraseP (·.fontData = fontData)) smallCaps) :
    Balanced (cache.deleteInactive env fontData).fontDataCache
      (· ∈ (cache.deleteInactive env fontData).inactive) := by
  cases hasSmallCaps : cache.smallCaps fontData with
  | none =>
    obtain ⟨items, inactive⟩ := deleteInactive_of_none hasSmallCaps
    rw [items]
    exact (balanced.delete fontData).congr inactive
  | some smallCaps =>
    obtain ⟨item, isMember, equal, -⟩ := (balanced.inactive_iff fontData).1 isInactive
    obtain ⟨items, inactive⟩ := deleteInactive_of_some balanced.keyed hasSmallCaps
      ⟨item, isMember, equal⟩
    rw [items]
    exact ((balanced.delete fontData).release (held smallCaps hasSmallCaps)).congr
      inactive

/-! ## Damage stays -/

/-- Damage shows in the caches or in the log of the deletions. -/
def IsDamaged (cache : FontCache Key PlatformData) : Prop :=
  (∃ deletion ∈ cache.deletions, deletion.2 ≠ some 0) ∨
    Damaged cache.fontDataCache (· ∈ cache.inactive)

omit [DecidableEq PlatformData] in
theorem Live.not_isDamaged (live : cache.Live) (keyed : Keyed cache.fontDataCache) :
    ¬ cache.IsDamaged := by
  rintro (⟨deletion, isMember, differ⟩ | ⟨item, isMember, negative, isInactive⟩ |
    ⟨fontData, isInactive, uncached⟩)
  · exact differ (live.deletions_inactive deletion isMember)
  · obtain ⟨other, otherMember, equal, isZero⟩ := (live.inactive_iff _).1 isInactive
    rw [keyed.eq_of_fontData otherMember isMember equal] at isZero
    omega
  · obtain ⟨item, isMember, equal, -⟩ := (live.inactive_iff _).1 isInactive
    exact uncached item isMember equal

/-- A deletion of an object that is not cached without references is logged. -/
theorem isDamaged_of_not_unreferenced (keyed : Keyed cache.fontDataCache)
    (notUnreferenced : ¬ ∃ item ∈ cache.fontDataCache,
      item.fontData = fontData ∧ item.refCount = 0) :
    (cache.deleteInactive env fontData).IsDamaged := by
  refine .inl ⟨(fontData, (cache.fontDataCache.find? (·.fontData = fontData)).map
    CachedFontItem.refCount), ?_, ?_⟩
  · rw [(deleted_deleteInactive keyed fontData).deletions]
    exact .head _
  · intro logged
    obtain ⟨item, found, isZero⟩ := Option.map_eq_some_iff.1 logged
    obtain ⟨isMember, equal⟩ := keyed.find?_fontData_eq_some_iff.1 found
    exact notUnreferenced ⟨item, isMember, equal, isZero⟩

theorem IsDamaged.deleteInactive (damaged : cache.IsDamaged) (keyed : Keyed cache.fontDataCache)
    (fontData : SimpleFontData PlatformData) :
    (cache.deleteInactive env fontData).IsDamaged := by
  rcases damaged with ⟨deletion, isMember, differ⟩ | damaged
  · refine .inl ⟨deletion, ?_, differ⟩
    rw [(deleted_deleteInactive keyed fontData).deletions]
    exact .tail _ isMember
  rcases damaged.delete keyed fontData with notUnreferenced | damagedAfter
  · exact isDamaged_of_not_unreferenced keyed notUnreferenced
  by_cases unreferenced : ∃ item ∈ cache.fontDataCache, item.fontData = fontData ∧ item.refCount = 0
  · obtain ⟨item, isMember, equal, -⟩ := unreferenced
    right
    cases hasSmallCaps : cache.smallCaps fontData with
    | none =>
      obtain ⟨items, inactive⟩ := @deleteInactive_of_none _ _ _ env _ _ hasSmallCaps
      simpa only [items, inactive] using damagedAfter
    | some smallCaps =>
      obtain ⟨items, inactive⟩ := @deleteInactive_of_some _ _ _ env _ keyed
        _ _ hasSmallCaps ⟨item, isMember, equal⟩
      simpa only [items, inactive] using
        damagedAfter.release (keyed.sublist eraseP_sublist) smallCaps
  · exact isDamaged_of_not_unreferenced keyed unreferenced

/-- A deletion whose small caps are not held does damage. -/
theorem isDamaged_of_not_smallCaps_held
    (balanced : Balanced cache.fontDataCache (· ∈ cache.inactive))
    {fontData smallCaps : SimpleFontData PlatformData} (isInactive : fontData ∈ cache.inactive)
    (hasSmallCaps : cache.smallCaps fontData = some smallCaps)
    (notHeld : ¬ Held (cache.fontDataCache.eraseP (·.fontData = fontData))
      smallCaps) : (cache.deleteInactive env fontData).IsDamaged := by
  obtain ⟨item, isMember, equal, -⟩ := (balanced.inactive_iff fontData).1 isInactive
  obtain ⟨items, inactive⟩ := @deleteInactive_of_some _ _ _ env _
    balanced.keyed _ _ hasSmallCaps ⟨item, isMember, equal⟩
  right
  simpa only [items, inactive] using
    (balanced.delete fontData).damaged_of_not_held notHeld

/-! ## The deletions of a purge -/

/-- What the deletions of a purge leave as it was. -/
structure Kept (cache after : FontCache Key PlatformData) : Prop where
  keyed : Keyed after.fontDataCache
  platformDataCache : after.platformDataCache = cache.platformDataCache
  allocated : after.allocated = cache.allocated
  purges : after.purges = cache.purges

theorem kept_deleteInactives (keyed : Keyed cache.fontDataCache) (turns : Nat) :
    Kept cache (deleteInactives env turns cache) := by
  induction turns generalizing cache with
  | zero => exact ⟨keyed, rfl, rfl, rfl⟩
  | succ turns ih =>
    rw [deleteInactives]
    split
    · exact ⟨keyed, rfl, rfl, rfl⟩
    next fontData _ _ =>
      have deleted := @deleted_deleteInactive _ _ _ env _ keyed fontData
      have kept := ih deleted.keyed
      exact ⟨kept.keyed, kept.platformDataCache.trans deleted.platformDataCache,
        kept.allocated.trans deleted.allocated, kept.purges.trans deleted.purges⟩

/-- The deletions of a purge keep the count of references and delete font data
without references only, as long as the small caps they release are held. -/
theorem balanced_deleteInactives (balanced : Balanced cache.fontDataCache (· ∈ cache.inactive))
    (unreferenced : ∀ deletion ∈ cache.deletions, deletion.2 = some 0) {turns : Nat}
    (held : SmallCapsHeld env turns cache) :
    Balanced (deleteInactives env turns cache).fontDataCache
        (· ∈ (deleteInactives env turns cache).inactive) ∧
      ∀ deletion ∈ (deleteInactives env turns cache).deletions,
        deletion.2 = some 0 := by
  induction turns generalizing cache with
  | zero => exact ⟨balanced, unreferenced⟩
  | succ turns ih =>
    rw [deleteInactives]
    rw [SmallCapsHeld] at held
    cases inactiveEqual : cache.inactive with
    | nil => exact ⟨by simpa [inactiveEqual] using balanced, unreferenced⟩
    | cons fontData others =>
      rw [inactiveEqual] at held
      have isInactive : fontData ∈ cache.inactive := by simp [inactiveEqual]
      apply ih
      · exact balanced_deleteInactive balanced isInactive held.1
      · rw [(deleted_deleteInactive balanced.keyed fontData).deletions]
        obtain ⟨item, isMember, equal, isZero⟩ := (balanced.inactive_iff fontData).1 isInactive
        rw [balanced.keyed.find?_fontData_eq_some_iff.2 ⟨isMember, equal⟩]
        simpa [isZero] using unreferenced
      · exact held.2

theorem IsDamaged.deleteInactives (damaged : cache.IsDamaged) (keyed : Keyed cache.fontDataCache)
    (turns : Nat) : (deleteInactives env turns cache).IsDamaged := by
  induction turns generalizing cache with
  | zero => exact damaged
  | succ turns ih =>
    rw [FontCache.deleteInactives]
    split
    · exact damaged
    · exact ih (damaged.deleteInactive keyed _)
        (deleted_deleteInactive keyed _).keyed

/-- Deletions that do no damage release only small caps that are held. -/
theorem smallCapsHeld_of_not_isDamaged
    (balanced : Balanced cache.fontDataCache (· ∈ cache.inactive)) {turns : Nat}
    (notDamaged : ¬ (deleteInactives env turns cache).IsDamaged) :
    SmallCapsHeld env turns cache := by
  induction turns generalizing cache with
  | zero => trivial
  | succ turns ih =>
    rw [deleteInactives] at notDamaged
    rw [SmallCapsHeld]
    cases inactiveEqual : cache.inactive with
    | nil => trivial
    | cons fontData others =>
      rw [inactiveEqual] at notDamaged
      have isInactive : fontData ∈ cache.inactive := by simp [inactiveEqual]
      have deleted := @deleted_deleteInactive _ _ _ env _ balanced.keyed
        fontData
      have held : ∀ smallCaps, cache.smallCaps fontData = some smallCaps →
          Held (cache.fontDataCache.eraseP (·.fontData = fontData))
            smallCaps := by
        intro smallCaps hasSmallCaps
        by_contra notHeld
        exact notDamaged ((isDamaged_of_not_smallCaps_held balanced isInactive
          hasSmallCaps notHeld).deleteInactives deleted.keyed turns)
      exact ⟨held, ih (balanced_deleteInactive balanced isInactive held) notDamaged⟩

/-! ## The platform data -/

theorem mem_keysToRemove_iff {key : Key} :
    key ∈ cache.keysToRemove ↔ ∃ platformData, (key, some platformData) ∈ cache.platformDataCache ∧
        platformData ∈ cache.fontDataCache.map (·.platformData) := by
  simp only [keysToRemove, mem_filterMap, mem_map]
  constructor
  · rintro ⟨⟨entryKey, entry⟩, isEntry, found⟩
    cases entry with
    | none => simp at found
    | some platformData =>
      simp only [any_eq_true, decide_eq_true_eq, Option.ite_none_right_eq_some,
        Option.some.injEq] at found
      obtain ⟨⟨item, isMember, equal⟩, rfl⟩ := found
      exact ⟨platformData, isEntry, item, isMember, equal⟩
  · rintro ⟨platformData, isEntry, item, isMember, equal⟩
    refine ⟨(key, some platformData), isEntry, ?_⟩
    have isUsed : cache.fontDataCache.any (·.platformData = platformData) = true :=
      any_eq_true.2 ⟨item, isMember, by simpa using equal⟩
    simp [isUsed]

variable [DecidableEq Key]

/-- The second loop takes away what is used and leaves what is not, so it meets
its purpose only where there is nothing. -/
theorem platformData_none_of_used_kept
    (usedKept : ∀ purge ∈ cache.removePlatformData.purges, ∀ key platformData,
      (key, some platformData) ∈ purge.before →
        ((key, some platformData) ∈ purge.after ↔ platformData ∈ purge.used)) :
    ∀ entry ∈ cache.platformDataCache, entry.2 = none := by
  have keptIff := usedKept _ (.head _)
  rintro ⟨key, entry⟩ isEntry
  cases entry with
  | none => rfl
  | some platformData =>
    exfalso
    have goes : key ∈ cache.keysToRemove := by
      by_contra stays
      have isKept : (key, some platformData) ∈
          cache.platformDataCache.filter (·.1 ∉ cache.keysToRemove) := by
        simp [isEntry, stays]
      have isUsed := (keptIff key platformData isEntry).1 isKept
      exact stays (mem_keysToRemove_iff.2 ⟨platformData, isEntry, isUsed⟩)
    obtain ⟨used, usedEntry, isUsed⟩ := mem_keysToRemove_iff.1 goes
    have isKept := (keptIff key used usedEntry).2 isUsed
    simp [goes] at isKept

/-! ## Runs -/

/-- The invariant of a run of harmless calls. -/
structure Sound (cache : FontCache Key PlatformData) : Prop where
  balanced : Balanced cache.fontDataCache (· ∈ cache.inactive)
  deletions_inactive : ∀ deletion ∈ cache.deletions, deletion.2 = some 0
  used_kept : ∀ purge ∈ cache.purges, ∀ key platformData, (key, some platformData) ∈ purge.before →
      ((key, some platformData) ∈ purge.after ↔ platformData ∈ purge.used)

omit [DecidableEq PlatformData] [DecidableEq Key] in
theorem Sound.live (sound : cache.Sound) :
    cache.Live := ⟨sound.balanced.inactive_iff, sound.deletions_inactive, sound.used_kept⟩

omit [DecidableEq PlatformData] [DecidableEq Key] in
theorem sound_empty : (empty : FontCache Key PlatformData).Sound where
  balanced := ⟨⟨.nil, by simp [empty]⟩, by simp [empty], by simp [empty]⟩
  deletions_inactive := by simp [empty]
  used_kept := by simp [empty]

omit [DecidableEq PlatformData] in
theorem Sound.getCachedFontPlatformData (sound : cache.Sound) (key : Key)
    (created : Option PlatformData) (alternate : Option (Key × Option PlatformData)) :
    (cache.getCachedFontPlatformData key created alternate).Sound := by
  have set : ∀ {cache : FontCache Key PlatformData}, cache.Sound →
      ∀ key result, (cache.setPlatformData key result).Sound :=
    fun sound _ _ => ⟨sound.balanced, sound.deletions_inactive, sound.used_kept⟩
  have found : ∀ {cache : FontCache Key PlatformData}, cache.Sound →
      ∀ key created, (cache.findOrCreate key created).1.Sound := by
    intro cache sound key created
    rw [findOrCreate]
    split
    · exact sound
    · exact set sound key created
  unfold FontCache.getCachedFontPlatformData
  split
  next _ _ _ alternateKey alternateCreated _ =>
    have alternateSound := found (set sound key none) alternateKey alternateCreated
    split
    next result equal =>
      rw [equal] at alternateSound
      exact set alternateSound key (some result)
    next equal =>
      rw [equal] at alternateSound
      exact alternateSound
  · exact found sound key _

omit [DecidableEq Key] in
theorem Sound.getCachedFontData (sound : cache.Sound) (platformData : Option PlatformData) :
    (cache.getCachedFontData platformData).Sound := by
  cases platformData with
  | none => exact sound
  | some platformData =>
    refine ⟨?_, ?_, ?_⟩
    · rw [FontCache.getCachedFontData]
      cases found : cache.fontDataCache.find? (·.platformData = platformData) with
      | none => exact sound.balanced.append_new found
      | some item =>
        obtain ⟨isMember, equal⟩ := sound.balanced.keyed.find?_eq_some_iff.1 found
        refine (sound.balanced.acquire isMember equal).congr ?_
        intro fontData
        dsimp only
        split <;> simp [*]
    · rw [FontCache.getCachedFontData]
      split <;> exact sound.deletions_inactive
    · rw [FontCache.getCachedFontData]
      split <;> exact sound.used_kept

theorem Sound.purgeInactiveFontData (sound : cache.Sound) {count : Int}
    (harmless : PurgeHarmless env cache count) :
    (cache.purgeInactiveFontData env count).Sound := by
  rw [FontCache.purgeInactiveFontData]
  split
  next allocated =>
    obtain ⟨noPlatformData, held⟩ := harmless allocated
    have kept := @kept_deleteInactives _ _ _ env _ sound.balanced.keyed
      count.toNat
    obtain ⟨balanced, unreferenced⟩ := balanced_deleteInactives sound.balanced
      sound.deletions_inactive held
    refine ⟨balanced, unreferenced, ?_⟩
    rw [removePlatformData, kept.purges, kept.platformDataCache, forall_mem_cons]
    refine ⟨?_, sound.used_kept⟩
    intro key platformData isEntry
    exact absurd (noPlatformData _ isEntry) (by simp)
  next => exact sound

omit [DecidableEq Key] in
theorem Sound.releaseItem (sound : cache.Sound) (held : Held cache.fontDataCache fontData) :
    (cache.releaseItem env fontData).1.Sound := by
  have released := @released_releaseItem _ _ _ env _ sound.balanced.keyed
    fontData
  refine ⟨?_, ?_, ?_⟩
  · rw [released.items]
    exact (sound.balanced.release held).congr released.inactive_iff
  · rw [released.deletions]
    exact sound.deletions_inactive
  · rw [released.purges]
    exact sound.used_kept

theorem Sound.step (sound : cache.Sound) {call : FontCacheCall Key PlatformData}
    (harmless : Harmless env cache call) : (step env cache call).Sound := by
  cases call with
  | getCachedFontPlatformData key created alternate =>
    exact sound.getCachedFontPlatformData key created alternate
  | getCachedFontData platformData => exact sound.getCachedFontData platformData
  | setSmallCaps fontData smallCaps =>
    exact ⟨sound.balanced, sound.deletions_inactive, sound.used_kept⟩
  | releaseFontData fontData =>
    obtain ⟨held, purgeHarmless⟩ := harmless
    have releasedSound : (cache.releaseItem env fontData).1.Sound := sound.releaseItem held
    rw [FontCache.step, releaseFontData]
    split
    next released equal =>
      rw [equal] at purgeHarmless releasedSound
      exact releasedSound.purgeInactiveFontData (purgeHarmless rfl)
    next released equal =>
      rw [equal] at releasedSound
      exact releasedSound
  | purgeInactiveFontData count => exact sound.purgeInactiveFontData harmless

/-- A purge that leaves the cache live was harmless. -/
theorem purgeHarmless_of_live (balanced : Balanced cache.fontDataCache (· ∈ cache.inactive))
    {count : Int} (live : (cache.purgeInactiveFontData env count).Live) :
    PurgeHarmless env cache count := by
  intro allocated
  rw [purgeInactiveFontData, if_pos allocated] at live
  have kept := @kept_deleteInactives _ _ _ env _ balanced.keyed count.toNat
  refine ⟨?_, ?_⟩
  · rw [← kept.platformDataCache]
    exact platformData_none_of_used_kept live.used_kept
  · exact smallCapsHeld_of_not_isDamaged balanced (live.not_isDamaged kept.keyed)

/-- A release that does damage leaves it, whether it purges or not. -/
theorem held_of_live (balanced : Balanced cache.fontDataCache (· ∈ cache.inactive))
    (live : (cache.releaseFontData env fontData).Live) :
    Held cache.fontDataCache fontData := by
  by_contra notHeld
  have released := @released_releaseItem _ _ _ env _ balanced.keyed fontData
  have keyed : Keyed (cache.releaseItem env fontData).1.fontDataCache := by
    rw [released.items]
    exact balanced.keyed.changeRefCount _ _
  have damaged : (cache.releaseItem env fontData).1.IsDamaged := by
    right
    simpa only [released.items, released.inactive_iff] using
      balanced.damaged_of_not_held notHeld
  rw [releaseFontData] at live
  split at live
  next released equal =>
    rw [equal] at damaged keyed
    rw [purgeInactiveFontData] at live
    split at live
    · exact live.not_isDamaged (kept_deleteInactives keyed _).keyed
        (damaged.deleteInactives keyed _)
    · exact live.not_isDamaged keyed damaged
  next released equal =>
    rw [equal] at damaged keyed
    exact live.not_isDamaged keyed damaged

theorem Sound.harmless_of_live (sound : cache.Sound) {call : FontCacheCall Key PlatformData}
    (live : (FontCache.step env cache call).Live) : Harmless env cache call := by
  cases call with
  | releaseFontData fontData =>
    have held := held_of_live sound.balanced live
    refine ⟨held, ?_⟩
    intro asks
    have releasedSound : (cache.releaseItem env fontData).1.Sound := sound.releaseItem held
    apply purgeHarmless_of_live releasedSound.balanced
    rw [FontCache.step, releaseFontData] at live
    split at live
    next released equal =>
      rw [equal]
      exact live
    next released equal =>
      rw [equal] at asks
      exact absurd asks (by simp)
  | purgeInactiveFontData count => exact purgeHarmless_of_live sound.balanced live
  | getCachedFontPlatformData key created alternate | getCachedFontData platformData
  | setSmallCaps fontData smallCaps => trivial

end FontCache

end Graphics
end PalmWebKit
