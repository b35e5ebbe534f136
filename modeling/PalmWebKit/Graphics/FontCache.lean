import PalmWebKit.Logic.Runs

/-!
# The font cache

`FontCache` keeps platform data by font description, font data by platform
data with a reference count, and the set of font data nobody refers to.  A
purge deletes font data of that set and then looks through the platform data.
-/

namespace PalmWebKit
namespace Graphics

/-- A font data object, told apart from other objects for equal platform data
by the number of its allocation. -/
structure SimpleFontData (PlatformData : Type*) where
  allocation : Nat
  platformData : PlatformData
  deriving DecidableEq, Repr

structure CachedFontItem (PlatformData : Type*) where
  refCount : Int
  platformData : PlatformData
  fontData : SimpleFontData PlatformData
  deriving DecidableEq, Repr

/-- The entries of the platform data cache before and after a purge, and the
platform data that cached font data used when the purge looked at them. -/
structure PurgeRecord (Key PlatformData : Type*) where
  before : List (Key × Option PlatformData)
  used : List PlatformData
  after : List (Key × Option PlatformData)
  deriving DecidableEq, Repr

/-- Addresses order the inactive set, and the settings say when a release
purges and how many objects; the difference to `targetInactiveFontData` is a
float that is cut to an `int`. -/
structure FontCachePlatform (PlatformData : Type*) where
  address : SimpleFontData PlatformData → Nat
  maxInactiveFontData : Int
  aboveTarget : Nat → Int

/-- The caches.  `allocated` says that the first font data was asked for; the
two logs hold every deletion with the reference count the object had in the
cache, and every purge. -/
structure FontCache (Key PlatformData : Type*) where
  platformDataCache : List (Key × Option PlatformData)
  fontDataCache : List (CachedFontItem PlatformData)
  inactive : List (SimpleFontData PlatformData)
  allocated : Bool
  nextAllocation : Nat
  smallCaps : SimpleFontData PlatformData → Option (SimpleFontData PlatformData)
  deletions : List (SimpleFontData PlatformData × Option Int)
  purges : List (PurgeRecord Key PlatformData)

/-- The calls on the cache.  The platform creates platform data, also for the
alternate family name, and sets the small caps of a font data object. -/
inductive FontCacheCall (Key PlatformData : Type*)
  | getCachedFontPlatformData
      (key : Key)
      (created : Option PlatformData)
      (alternate : Option (Key × Option PlatformData))
  | getCachedFontData (platformData : Option PlatformData)
  | setSmallCaps (fontData smallCaps : SimpleFontData PlatformData)
  | releaseFontData (fontData : SimpleFontData PlatformData)
  | purgeInactiveFontData (count : Int)

variable {Key PlatformData : Type*}

/-- Change the reference count of the first item for some platform data. -/
def changeRefCount [DecidableEq PlatformData] (platformData : PlatformData) (change : Int → Int) :
    List (CachedFontItem PlatformData) → List (CachedFontItem PlatformData)
  | [] => []
  | item :: items =>
    if item.platformData = platformData then
      { item with refCount := change item.refCount } :: items
    else item :: changeRefCount platformData change items

namespace FontCache

def empty : FontCache Key PlatformData where
  platformDataCache := []
  fontDataCache := []
  inactive := []
  allocated := false
  nextAllocation := 0
  smallCaps _ := none
  deletions := []
  purges := []

section PlatformDataCache

variable [DecidableEq Key]

def setPlatformData (cache : FontCache Key PlatformData) (key : Key)
    (result : Option PlatformData) : FontCache Key PlatformData :=
  { cache with
    platformDataCache := (key, result) :: cache.platformDataCache.filter (·.1 ≠ key) }

/-- The lookup of an alternate name, which looks no further. -/
def findOrCreate (cache : FontCache Key PlatformData) (key : Key) (created : Option PlatformData) :
    FontCache Key PlatformData × Option PlatformData :=
  match cache.platformDataCache.lookup key with
  | some result => (cache, result)
  | none => (cache.setPlatformData key created, created)

def getCachedFontPlatformData (cache : FontCache Key PlatformData) (key : Key)
    (created : Option PlatformData)
    (alternate : Option (Key × Option PlatformData)) : FontCache Key PlatformData :=
  match cache.platformDataCache.lookup key, created, alternate with
  | none, none, some (alternateKey, alternateCreated) =>
    match (cache.setPlatformData key none).findOrCreate alternateKey
        alternateCreated with
    | (cache, some result) => cache.setPlatformData key (some result)
    | (cache, none) => cache
  | _, _, _ => (cache.findOrCreate key created).1

end PlatformDataCache

variable [DecidableEq PlatformData]

def getCachedFontData (cache : FontCache Key PlatformData) :
    Option PlatformData → FontCache Key PlatformData
  | none => cache
  | some platformData =>
    match cache.fontDataCache.find? (·.platformData = platformData) with
    | some item =>
      { cache with
        fontDataCache := changeRefCount platformData (· + 1) cache.fontDataCache
        inactive :=
          if item.refCount = 0 then cache.inactive.filter (· ≠ item.fontData)
          else cache.inactive
        allocated := true }
    | none =>
      { cache with
        fontDataCache := cache.fontDataCache ++
          [⟨1, platformData, ⟨cache.nextAllocation, platformData⟩⟩]
        nextAllocation := cache.nextAllocation + 1
        allocated := true }

def setSmallCaps (cache : FontCache Key PlatformData)
    (fontData smallCaps : SimpleFontData PlatformData) : FontCache Key PlatformData :=
  { cache with
    smallCaps := fun other => if other = fontData then some smallCaps else cache.smallCaps other }

variable (env : FontCachePlatform PlatformData)

/-- Insert into the set of inactive font data, which is ordered by address. -/
def insertInactive (cache : FontCache Key PlatformData)
    (fontData : SimpleFontData PlatformData) : FontCache Key PlatformData :=
  if fontData ∈ cache.inactive then cache
  else
    { cache with
      inactive := cache.inactive.orderedInsert
        (fun first second => env.address first ≤ env.address second)
        fontData }

/-- `releaseFontData` up to the purge, and whether it asks for one. -/
def releaseItem (cache : FontCache Key PlatformData)
    (fontData : SimpleFontData PlatformData) : FontCache Key PlatformData × Bool :=
  match cache.fontDataCache.find? (·.platformData = fontData.platformData) with
  | none => (cache, false)
  | some item =>
    let released :=
      { cache with
        fontDataCache := changeRefCount fontData.platformData (· - 1) cache.fontDataCache }
    if item.refCount - 1 = 0 then
      let released := released.insertInactive env fontData
      (released, env.maxInactiveFontData < released.inactive.length)
    else (released, false)

/-- Erase the item of an object that is deleted next. -/
def eraseItem (cache : FontCache Key PlatformData)
    (fontData : SimpleFontData PlatformData) : FontCache Key PlatformData :=
  let item := cache.fontDataCache.find? (·.fontData = fontData)
  { cache with
    fontDataCache := cache.fontDataCache.eraseP (·.fontData = fontData)
    deletions := (fontData, item.map CachedFontItem.refCount) :: cache.deletions }

/-- A turn of the first loop of a purge.  The destructor releases the small
caps; a purge that this asks for finds `isPurging` set and returns. -/
def deleteInactive (cache : FontCache Key PlatformData)
    (fontData : SimpleFontData PlatformData) : FontCache Key PlatformData :=
  let deleted :=
    match cache.smallCaps fontData with
    | none => cache.eraseItem fontData
    | some smallCaps => ((cache.eraseItem fontData).releaseItem env smallCaps).1
  { deleted with inactive := deleted.inactive.filter (· ≠ fontData) }

/-- The first loop of a purge. -/
def deleteInactives : Nat → FontCache Key PlatformData → FontCache Key PlatformData
  | 0, cache => cache
  | turns + 1, cache =>
    match cache.inactive with
    | [] => cache
    | fontData :: _ => deleteInactives turns (cache.deleteInactive env fontData)

/-- The keys whose platform data is that of some cached font data. -/
def keysToRemove (cache : FontCache Key PlatformData) : List Key :=
  cache.platformDataCache.filterMap fun (key, platformData) =>
    match platformData with
    | none => none
    | some platformData =>
      if cache.fontDataCache.any (·.platformData = platformData) then some key
      else none

/-- The second loop of a purge. -/
def removePlatformData [DecidableEq Key]
    (cache : FontCache Key PlatformData) : FontCache Key PlatformData :=
  let kept := cache.platformDataCache.filter (·.1 ∉ cache.keysToRemove)
  { cache with
    platformDataCache := kept
    purges :=
      ⟨cache.platformDataCache, cache.fontDataCache.map (·.platformData), kept⟩ ::
        cache.purges }

def purgeInactiveFontData [DecidableEq Key] (cache : FontCache Key PlatformData)
    (count : Int) : FontCache Key PlatformData :=
  if cache.allocated then
    (deleteInactives env count.toNat cache).removePlatformData
  else cache

def releaseFontData [DecidableEq Key] (cache : FontCache Key PlatformData)
    (fontData : SimpleFontData PlatformData) : FontCache Key PlatformData :=
  match cache.releaseItem env fontData with
  | (released, true) =>
    released.purgeInactiveFontData env
      (env.aboveTarget released.inactive.length)
  | (released, false) => released

def step [DecidableEq Key] (cache : FontCache Key PlatformData) :
    FontCacheCall Key PlatformData → FontCache Key PlatformData
  | .getCachedFontPlatformData key created alternate =>
    cache.getCachedFontPlatformData key created alternate
  | .getCachedFontData platformData => cache.getCachedFontData platformData
  | .setSmallCaps fontData smallCaps => cache.setSmallCaps fontData smallCaps
  | .releaseFontData fontData => cache.releaseFontData env fontData
  | .purgeInactiveFontData count => cache.purgeInactiveFontData env count

end FontCache
end Graphics
end PalmWebKit
