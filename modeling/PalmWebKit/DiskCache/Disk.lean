import PalmWebKit.DiskCache.EntryFile
import PalmWebKit.Logic.WeightedMap

/-!
# The disk cache

The operations of `DiskCacheDisk` over the files of its directory.  The file
system is given by the size it reports for a file of some length, and by the
sizes it reports for the names that start with a dot.
-/

namespace PalmWebKit
namespace DiskCache

/-- What the cache takes from its surroundings. -/
structure Settings where
  diskCacheEnabled : Bool
  diskCacheLargestObjectSize : Nat
  /-- `BLOCK_SIZE`, the block size of the file system as an `int`. -/
  blockSize : Int
  /-- `st_blocks * S_BLKSIZE` of a file of some length. -/
  sizeOnDisk : Nat → Nat
  /-- `SHA1` of OpenSSL. -/
  sha1 : StdString → StdString

/-- Files by name. -/
abbrev Files := AList fun _ : StdString => StdString

/-- The clock at the start of an operation and when a scan of the directory
has finished. -/
structure Clock where
  now : Int
  scanned : Int
  deriving DecidableEq, Repr

structure ScoredFile where
  name : StdString
  score : Int
  deriving DecidableEq, Repr

structure DiskCacheDisk (env : Platform) where
  maxSizeBytes : Long env
  currentSizeBytes : Long env
  lastPruneExpiredAndScore : Int
  /-- `m_scores`, highest score first. -/
  scores : List ScoredFile
  files : Files
  /-- A subtraction has gone below zero. -/
  wrapped : Bool

/-- Conversion to `int`. -/
def toInt32 (value : Int) : Int := value.bmod (2 ^ 32)

def Settings.roundUpToBlockSize (settings : Settings) (size : Int) : Int :=
  toInt32 (toInt32 ((toInt32 size).tdiv settings.blockSize + 1) * settings.blockSize)

def hexDigit (value : UInt8) : UInt8 :=
  if value < 10 then 48 + value else 87 + value

/-- The name of the file of a URL. -/
def Settings.formUrlFileName (settings : Settings) (url : WString) : StdString :=
  (settings.sha1 (WString.utf8 url)).flatMap fun byte : UInt8 =>
    [hexDigit (byte >>> 4), hexDigit (byte &&& 0x0f)]

/-- `sizeof(long)` -/
def Platform.sizeofLong (env : Platform) : Nat := env.longBits / 8

/-- Where `fseek(f, payloadsize + sizeof(long), SEEK_SET)` leaves a file that
stands behind its first integer. -/
def seekBehindPayload {env : Platform} (payloadSize : Long env) : Nat :=
  let position := payloadSize + BitVec.ofNat _ env.sizeofLong
  if position.toInt < 0 then 4 else position.toInt.toNat

/-- Bytes written into a file from a position on. -/
def overwrite (file : StdString) (position : Nat) (bytes : StdString) : StdString :=
  (file ++ List.replicate (position - file.length) 0).take position ++ bytes ++
    file.drop (position + bytes.length)

namespace DiskCacheEntry

variable {env : Platform}

def isExpired (entry : DiskCacheEntry env) (now : Int) : Bool :=
  entry.expiresAt = 0 || entry.expiresAt.toInt ≤ now

def size (entry : DiskCacheEntry env) : Nat := entry.payload.length

end DiskCacheEntry

namespace DiskCacheDisk

variable {env : Platform}

/-- The sizes on disk of the entries in the cache. -/
def total (settings : Settings) (cache : DiskCacheDisk env) : Nat :=
  WeightedMap.total (fun file => settings.sizeOnDisk file.length) cache.files

/-- The size on disk under a name, zero when there is no such file. -/
def fileSize (settings : Settings) (cache : DiskCacheDisk env) (name : StdString) : Nat :=
  WeightedMap.weightAt (fun file => settings.sizeOnDisk file.length)
    cache.files name

/-! ## Removing files -/

/-- A file that can be found is unlinked and its size on disk is taken off. -/
def unlinkCounted (settings : Settings) (cache : DiskCacheDisk env)
    (name : StdString) : DiskCacheDisk env :=
  match cache.files.lookup name with
  | none => cache
  | some file =>
    { cache with
      currentSizeBytes := cache.currentSizeBytes -
        BitVec.ofNat _ (settings.sizeOnDisk file.length)
      files := cache.files.erase name
      wrapped := cache.wrapped ||
        cache.currentSizeBytes.toNat < settings.sizeOnDisk file.length }

def remove (settings : Settings) (cache : DiskCacheDisk env)
    (url : WString) : DiskCacheDisk env :=
  if url = [] then cache
  else cache.unlinkCounted settings (settings.formUrlFileName url)

/-- `clear`; names that start with a dot are not touched. -/
def clear (cache : DiskCacheDisk env) : DiskCacheDisk env :=
  { cache with
    files := ∅
    currentSizeBytes := 0
    lastPruneExpiredAndScore := 0
    scores := [] }

/-! ## Pruning -/

/-- The score of a file that is not expired. -/
def scoreFile (env : Platform) (now sizeOnDisk : Int)
    (lastAccess accessCount : Long env) : Int :=
  let sz := if sizeOnDisk = 0 then 1 else sizeOnDisk
  let accessCount := if accessCount = 0 then 1 else accessCount
  let denom := toInt32 (sz * (now - lastAccess.toInt))
  let denom := if denom = 0 then 1 else denom
  toInt32 ((accessCount <<< 16).toInt.tdiv denom)

/-- One turn of the loop over the directory in `pruneExpiredAndScore`. -/
def pruneOrScore (settings : Settings) (now : Int) (cache : DiskCacheDisk env)
    (name : StdString) (file : StdString) : DiskCacheDisk env :=
  let (_, payloadSize) := (readIntFromFile env file).1
  let (fields, _) := (do
    let lastAccess ← readLong env
    let expiresAt ← readLong env
    let accessCount ← readLong env
    pure (lastAccess, expiresAt, accessCount) : FileReader _)
      (file.drop (seekBehindPayload payloadSize))
  if fields.2.1 ≠ 0 ∧ fields.2.1.toInt ≤ now then
    cache.unlinkCounted settings name
  else
    { cache with
      scores := cache.scores ++ [⟨name, scoreFile env now (settings.sizeOnDisk file.length)
          fields.1 fields.2.2⟩] }

/-- The loop over the directory, whose files are found as they were when it
was opened. -/
def scanDirectory (settings : Settings) (now : Int) :
    DiskCacheDisk env → List (Sigma fun _ : StdString => StdString) → DiskCacheDisk env
  | cache, [] => cache
  | cache, ⟨name, file⟩ :: rest =>
    scanDirectory settings now (cache.pruneOrScore settings now name file) rest

/-- `pruneExpiredAndScore`, which scans at most once a minute unless nothing is
scored. -/
def pruneExpiredAndScore (settings : Settings) (clock : Clock)
    (cache : DiskCacheDisk env) : DiskCacheDisk env :=
  if clock.now - cache.lastPruneExpiredAndScore ≥ 60 ∨ cache.scores = [] then
    let scanned := scanDirectory settings clock.now { cache with scores := [] }
      cache.files.entries
    { scanned with
      scores := scanned.scores.mergeSort fun first second => first.score ≥ second.score
      lastPruneExpiredAndScore := clock.scanned }
  else
    cache

/-- `pruneLowestScore`, `none` when nothing is scored. -/
def pruneLowestScore (settings : Settings)
    (cache : DiskCacheDisk env) : Option (DiskCacheDisk env) :=
  cache.scores.getLast?.map fun lowest =>
    { cache.unlinkCounted settings lowest.name with
      scores := cache.scores.dropLast }

/-- `deltaSize + m_currentSizeBytes <= m_maxSizeBytes` -/
def fits (cache : DiskCacheDisk env) (deltaSize : Long env) : Bool :=
  (deltaSize + cache.currentSizeBytes).toNat ≤ cache.maxSizeBytes.toNat

/-- The loop of `pruneToFit`, with a bound on its turns. -/
def pruneWhile (settings : Settings) (deltaSize : Long env) :
    Nat → DiskCacheDisk env → DiskCacheDisk env × Bool
  | 0, cache => (cache, false)
  | turns + 1, cache =>
    match cache.pruneLowestScore settings with
    | none => (cache, false)
    | some pruned =>
      if pruned.fits deltaSize then (pruned, true)
      else pruneWhile settings deltaSize turns pruned

def pruneToFit (settings : Settings) (clock : Clock) (cache : DiskCacheDisk env)
    (deltaSize : Long env) : DiskCacheDisk env × Bool :=
  if !settings.diskCacheEnabled then (cache, true)
  else if cache.fits deltaSize then (cache, true)
  else
    let pruned := cache.pruneExpiredAndScore settings clock
    if pruned.fits deltaSize then (pruned, true)
    -- Every turn takes one file off the scores.
    else pruned.pruneWhile settings deltaSize pruned.scores.length

/-! ## Adding and looking up -/

/-- How writing the file of an entry went. -/
inductive WriteOutcome
  /-- `fopen` failed and the old file is as it was. -/
  | notOpened
  /-- A write failed and the file is deleted when it is closed. -/
  | failed
  | written
  deriving DecidableEq, Repr

/-- `writeToFile` on the directory, with the position it returns. -/
def write (cache : DiskCacheDisk env) (name : StdString) (entry : DiskCacheEntry env) :
    WriteOutcome → DiskCacheDisk env × Nat
  | .notOpened => (cache, 0)
  | .failed => ({ cache with files := cache.files.erase name }, 0)
  | .written =>
    ({ cache with files := cache.files.insert name (writeToFile entry) },
      (writeToFile entry).length)

/-- `add`, and whether the entry is in the cache afterwards. -/
def add (settings : Settings) (clock : Clock) (cache : DiskCacheDisk env) (url : WString)
    (entry : DiskCacheEntry env) (outcome : WriteOutcome) : DiskCacheDisk env × Bool :=
  if settings.diskCacheLargestObjectSize ≤ entry.size then (cache, false)
  else
    let pruned := cache.pruneToFit settings clock
      (BitVec.ofInt _ (settings.roundUpToBlockSize entry.size))
    if !pruned.2 then (pruned.1, false)
    else
      let written := pruned.1.write (settings.formUrlFileName url) entry outcome
      ({ written.1 with
          currentSizeBytes := written.1.currentSizeBytes +
            BitVec.ofInt _ (settings.roundUpToBlockSize written.2) },
        outcome = .written)

/-- The access count of a file that is hit, written behind its payload. -/
def updateAccessCount (cache : DiskCacheDisk env) (name file : StdString)
    (accessCount : Long env) : DiskCacheDisk env :=
  match (readIntFromFile env file).1 with
  | (true, payloadSize) =>
    { cache with
      files := cache.files.insert name
        (overwrite file (seekBehindPayload payloadSize) (writeIntToFile (accessCount + 1))) }
  | (false, _) => cache

/-- `contains`, with the entry that it finds. -/
def contains (settings : Settings) (clock : Clock) (cache : DiskCacheDisk env)
    (url : WString) : DiskCacheDisk env × Option (DiskCacheEntry env) :=
  if url = [] then (cache, none)
  else
    match cache.files.lookup (settings.formUrlFileName url) with
    | none => (cache, none)
    | some file =>
      match (readFromFile env settings.diskCacheLargestObjectSize file).1 with
      | none => (cache, none)
      | some entry =>
        if entry.isExpired clock.now then (cache.remove settings url, none)
        else
          (cache.updateAccessCount (settings.formUrlFileName url) file
            entry.accessCount, some entry)

/-! ## Starting and capacity -/

def setMaxCapacity (settings : Settings) (clock : Clock) (cache : DiskCacheDisk env)
    (size : Long env) (prune : Bool) : DiskCacheDisk env :=
  let resized := { cache with maxSizeBytes := size }
  if size = 0 then resized.clear
  else if prune then (resized.pruneToFit settings clock 1).1
  else resized

/-- `init` with the files that are in the directory.  The inventory counts
every name that `readdir` reports, `"."` and `".."` among them. -/
def init (settings : Settings) (dotNames : List Nat) (files : Files) : DiskCacheDisk env where
  maxSizeBytes := BitVec.ofNat _ (8 * 1024 * 1024)
  currentSizeBytes := BitVec.ofNat _ (dotNames.sum +
    WeightedMap.total (fun file => settings.sizeOnDisk file.length) files)
  lastPruneExpiredAndScore := 0
  scores := []
  files := files
  wrapped := false

end DiskCacheDisk

end DiskCache
end PalmWebKit
