import PalmWebKit.DiskCache.Disk
import PalmWebKit.DiskCache.RoundTrip

/-!
# The access count of a hit

`contains` writes the new access count where `fseek` leaves the file: behind
the payload and `sizeof(long)`, which is the last access where a `long` has
four bytes and the expiry where it has eight.
-/

namespace PalmWebKit
namespace DiskCache

open List

variable {env : Platform}

/-! ## Writing into a file -/

theorem overwrite_append {front field bytes : StdString} (sameLength : field.length = bytes.length)
    (back : StdString) :
    overwrite (front ++ (field ++ back)) front.length bytes = front ++ (bytes ++ back) := by
  have inside : front.length - (front ++ (field ++ back)).length = 0 := by
    rw [length_append]
    omega
  have behind : (front ++ (field ++ back)).drop (front.length + bytes.length) = back := by
    rw [← sameLength, ← drop_drop, drop_left, drop_left]
  rw [overwrite, inside, replicate_zero, append_nil, behind, take_left,
    append_assoc]

@[simp] theorem length_writeIntToFile (value : Long env) :
    (writeIntToFile value).length = 4 := rfl

/-- Four bytes tell a count from the next one. -/
theorem writeIntToFile_succ_ne (value : Long env) :
    writeIntToFile (value + 1) ≠ writeIntToFile value := by
  intro same
  have read := congrArg (fun file => (readIntFromFile env (file ++ [])).1.2) same
  simp only [readIntFromFile_writeIntToFile] at read
  have values := congrArg BitVec.toNat read
  simp only [storedLong, BitVec.toNat_setWidth, BitVec.toNat_add] at values
  have one : (1 : Long env).toNat = 1 := by
    cases env <;> rfl
  rw [one] at values
  cases env <;> simp only [Platform.longBits] at values <;> omega

/-! ## Reading the file of an entry -/

theorem readLong_writeIntToFile (value : Long env) (rest : StdString) :
    readLong env (writeIntToFile value ++ rest) = (storedLong value, rest) :=
  congrArg (fun result => (result.1.2, result.2)) (readIntFromFile_writeIntToFile value rest)

theorem readIntFromFile_writeToFile (entry : DiskCacheEntry env) :
    (readIntFromFile env (writeToFile entry)).1 =
      (true, payloadSize env entry.payload) := by
  rw [writeToFile_eq, writePayload, append_assoc, readIntFromFile_writeIntToFile,
    storedLong_payloadSize]

theorem readMetaData_writeMetaData (metaData : MetaData env) :
    (readMetaData env (writeMetaData metaData)).1.1 = storedLong metaData.1 ∧
      (readMetaData env (writeMetaData metaData)).1.2.1 = storedLong metaData.2.1 ∧
      (readMetaData env (writeMetaData metaData)).1.2.2.1 = storedLong metaData.2.2.1 := by
  simp only [readMetaData, writeMetaData, Reader.bind_apply, Reader.pure_apply,
    readLong_writeIntToFile, and_self]

/-- The expiry that is read back from the file of an entry has passed. -/
def ReadExpired (entry : DiskCacheEntry env) (now : Int) : Prop :=
  storedLong entry.expiresAt = 0 ∨ (storedLong entry.expiresAt).toInt ≤ now

theorem readFromFile_writeToFile (limit : Nat) (entry : DiskCacheEntry env) :
    if (payloadSize env entry.payload).toInt < 0 then
      (readFromFile env limit (writeToFile entry)).1 = none
    else
      ∃ read, (readFromFile env limit (writeToFile entry)).1 = some read ∧
        read.accessCount = storedLong entry.accessCount ∧
        ∀ now, read.isExpired now = true ↔ ReadExpired entry now := by
  rw [readFromFile_apply, writeToFile_eq, readPayload_writePayload]
  have fields := readMetaData_writeMetaData entry.metaData
  split
  · rfl
  · refine ⟨_, rfl, fields.2.2, fun now => ?_⟩
    have expiry : storedLong entry.expiresAt =
        (readMetaData env (writeMetaData entry.metaData)).1.2.1 := fields.2.1.symm
    rw [DiskCacheEntry.isExpired, Bool.or_eq_true, decide_eq_true_iff, decide_eq_true_iff,
      ReadExpired, expiry]
    rfl

/-! ## What a hit writes -/

/-- The entry whose file is left by a hit that writes a count. -/
def DiskCacheEntry.afterHit (entry : DiskCacheEntry env)
    (count : Long env) : DiskCacheEntry env :=
  match env, entry, count with
  | .ilp32, entry, count =>
    if (payloadSize .ilp32 entry.payload).toNat + 4 < 2 ^ 31 then
      { entry with lastAccess := count }
    else { entry with payload := writeIntToFile count ++ entry.payload.drop 4 }
  | .lp64, entry, count => { entry with expiresAt := count }

theorem length_writePayload (payload : StdString) :
    (writePayload env payload).length = 4 + (payloadSize env payload).toNat := by
  have bound : (payloadSize env payload).toNat ≤ payload.length := by
    rw [toNat_payloadSize]
    exact Nat.mod_le _ _
  rw [writePayload, length_append, length_writeIntToFile, length_take,
    Nat.min_eq_left bound]

@[simp] theorem DiskCacheEntry.accessCount_afterHit (entry : DiskCacheEntry env)
    (count : Long env) : (entry.afterHit count).accessCount = entry.accessCount := by
  cases env with
  | ilp32 =>
    rw [DiskCacheEntry.afterHit]
    split <;> rfl
  | lp64 => rfl

/-- The size in front tells where a file keeps the access count. -/
theorem accessCount_of_writeToFile_eq {first second : DiskCacheEntry env}
    (same : writeToFile first = writeToFile second) :
    writeIntToFile first.accessCount = writeIntToFile second.accessCount := by
  have counted : ∀ entry : DiskCacheEntry env, ((writeToFile entry).drop
        (4 + (payloadSize env entry.payload).toNat + 8)).take 4 =
          writeIntToFile entry.accessCount := by
    intro entry
    rw [writeToFile_eq, ← length_writePayload, ← drop_drop, drop_left]
    rfl
  have sizes : payloadSize env first.payload = payloadSize env second.payload := by
    have read := readIntFromFile_writeToFile first
    rw [same, readIntFromFile_writeToFile] at read
    exact ((Prod.mk.injEq ..).mp read).2.symm
  rw [← counted first, ← counted second, same, sizes]

theorem length_payload_le (payload : StdString) :
    (payloadSize env payload).toNat ≤ payload.length := by
  rw [toNat_payloadSize]
  exact Nat.mod_le _ _

/-- Where a long payload is replaced from its beginning on, its size stays. -/
theorem writePayload_overwrite {payload bytes : StdString}
    (isLong : bytes.length ≤ (payloadSize env payload).toNat) :
    writePayload env (bytes ++ payload.drop bytes.length) =
      writeIntToFile (payloadSize env payload) ++ (bytes ++ (payload.drop bytes.length).take
          ((payloadSize env payload).toNat - bytes.length)) := by
  have bound := @length_payload_le env payload
  have sameLength : (bytes ++ payload.drop bytes.length).length = payload.length := by
    rw [length_append, length_drop]
    omega
  have sameSize : payloadSize env (bytes ++ payload.drop bytes.length) =
      payloadSize env payload := by
    rw [payloadSize, sameLength, payloadSize]
  rw [writePayload, sameSize, take_append, take_of_length_le isLong]

/-- The position behind the payload, unless it is too large for a `long`. -/
theorem seekBehindPayload_eq {size : Long env}
    (fits : size.toNat + env.sizeofLong < 2 ^ env.longBits) : seekBehindPayload size =
      if 2 * (size.toNat + env.sizeofLong) < 2 ^ env.longBits then
        size.toNat + env.sizeofLong
      else 4 := by
  have small : env.sizeofLong < 2 ^ env.longBits := by omega
  have sum : (size + BitVec.ofNat _ env.sizeofLong).toNat =
      size.toNat + env.sizeofLong := by
    rw [BitVec.toNat_add, BitVec.toNat_ofNat, Nat.mod_eq_of_lt small, Nat.mod_eq_of_lt fits]
  have sumInt := BitVec.toInt_eq_toNat_cond (size + BitVec.ofNat _ env.sizeofLong)
  rw [sum] at sumInt
  rw [seekBehindPayload]
  simp only [sumInt]
  split_ifs <;> omega

theorem toNat_lt_of_nonneg {size : Long .ilp32} (nonneg : ¬size.toInt < 0) :
    size.toNat < 2 ^ 31 := by
  have bound : size.toNat < 2 ^ 32 := size.isLt
  have value : size.toInt = if 2 * size.toNat < 2 ^ 32 then (size.toNat : Int)
      else (size.toNat : Int) - ((2 ^ 32 : Nat) : Int) := BitVec.toInt_eq_toNat_cond size
  omega

variable (entry : DiskCacheEntry env)
include entry

theorem overwrite_lastAccess (count : Long env) :
    overwrite (writeToFile entry) (writePayload env entry.payload).length
        (writeIntToFile count) =
      writeToFile { entry with lastAccess := count } := by
  rw [writeToFile_eq, writeToFile_eq]
  exact @overwrite_append _ (writeIntToFile entry.lastAccess) (writeIntToFile count) rfl _

theorem overwrite_expiresAt (count : Long env) :
    overwrite (writeToFile entry) ((writePayload env entry.payload).length + 4)
        (writeIntToFile count) =
      writeToFile { entry with expiresAt := count } := by
  have written := @overwrite_append
    (writePayload env entry.payload ++ writeIntToFile entry.lastAccess)
    (writeIntToFile entry.expiresAt) (writeIntToFile count) rfl
  simp only [append_assoc, length_append, length_writeIntToFile] at written
  rw [writeToFile_eq, writeToFile_eq]
  exact written _

theorem overwrite_payload (count : Long env)
    (isLong : 4 ≤ (payloadSize env entry.payload).toNat) :
    overwrite (writeToFile entry) 4 (writeIntToFile count) =
      writeToFile { entry with payload := writeIntToFile count ++ entry.payload.drop 4 } := by
  have bound := @length_payload_le env entry.payload
  have first : (entry.payload.take 4).length = (writeIntToFile count).length := by
    rw [length_take, length_writeIntToFile]
    omega
  have whole : writePayload env entry.payload =
      writeIntToFile (payloadSize env entry.payload) ++ (entry.payload.take 4 ++
        (entry.payload.drop 4).take ((payloadSize env entry.payload).toNat - 4)) := by
    have sum : 4 + ((payloadSize env entry.payload).toNat - 4) =
        (payloadSize env entry.payload).toNat := by
      omega
    rw [writePayload, ← take_add, sum]
  have replaced := @writePayload_overwrite env entry.payload (writeIntToFile count) isLong
  have written := @overwrite_append (writeIntToFile (payloadSize env entry.payload)) _
    (writeIntToFile count) first
  rw [length_writeIntToFile] at replaced written
  rw [writeToFile_eq, writeToFile_eq, whole, append_assoc, append_assoc, written,
    replaced]
  rfl

omit entry

theorem seekBehindPayload_ilp32 {size : Long .ilp32} (small : size.toNat < 2 ^ 31) :
    seekBehindPayload size = if size.toNat + 4 < 2 ^ 31 then 4 + size.toNat else 4 := by
  have position : seekBehindPayload size =
      if 2 * (size.toNat + 4) < 2 ^ 32 then size.toNat + 4 else 4 :=
    seekBehindPayload_eq (show size.toNat + 4 < 2 ^ 32 by omega)
  rw [position]
  split_ifs <;> omega

theorem seekBehindPayload_lp64 {size : Long .lp64} (fits : size.toNat < 2 ^ 32) :
    seekBehindPayload size = 4 + size.toNat + 4 := by
  have position : seekBehindPayload size =
      if 2 * (size.toNat + 8) < 2 ^ 64 then size.toNat + 8 else 4 :=
    seekBehindPayload_eq (show size.toNat + 8 < 2 ^ 64 by omega)
  rw [position, if_pos (by omega)]
  omega

/-- The count is written over the last access, over the expiry, or over the
beginning of a payload behind whose end `fseek` does not reach. -/
theorem overwrite_writeToFile (entry : DiskCacheEntry env)
    (nonneg : ¬(payloadSize env entry.payload).toInt < 0) (count : Long env) :
    overwrite (writeToFile entry) (seekBehindPayload (payloadSize env entry.payload))
        (writeIntToFile count) =
      writeToFile (entry.afterHit count) := by
  have payloadLength := @length_writePayload env entry.payload
  cases env with
  | ilp32 =>
    have small := toNat_lt_of_nonneg nonneg
    have position := seekBehindPayload_ilp32 small
    by_cases isShort : (payloadSize .ilp32 entry.payload).toNat + 4 < 2 ^ 31
    · rw [if_pos isShort, ← payloadLength] at position
      rw [position, overwrite_lastAccess, DiskCacheEntry.afterHit, if_pos isShort]
    · rw [if_neg isShort] at position
      rw [position, overwrite_payload entry count (by omega), DiskCacheEntry.afterHit,
        if_neg isShort]
  | lp64 =>
    have fits : (payloadSize .lp64 entry.payload).toNat < 2 ^ 32 := by
      exact Nat.mod_lt _ (by decide)
    rw [seekBehindPayload_lp64 fits, ← payloadLength, overwrite_expiresAt, DiskCacheEntry.afterHit]

/-! ## Hits -/

section Hits

variable (settings : Settings) (clock : Clock) (cache : DiskCacheDisk env) (url : WString)
  (entry : DiskCacheEntry env)

/-- The file of the entry is looked up, read whole and has not expired. -/
structure IsHit : Prop where
  named : url ≠ []
  readable : ¬(payloadSize env entry.payload).toInt < 0
  fresh : ¬ReadExpired entry clock.now

/-- A hit changes the file of the entry in its access count only, which goes up
by one, and what is read afterwards is what was found but for the count. -/
def HitOnlyCounts : Prop :=
  ∀ found, (cache.contains settings clock url).2 = some found →
    (cache.contains settings clock url).1.files = cache.files.insert (settings.formUrlFileName url)
          (writeToFile { entry with accessCount := entry.accessCount + 1 }) ∧
      ∃ file reread,
        (cache.contains settings clock url).1.files.lookup (settings.formUrlFileName url) =
            some file ∧
          (readFromFile env settings.diskCacheLargestObjectSize file).1 = some reread ∧
          { reread with accessCount := found.accessCount } = found

variable {settings clock cache url entry}

section Stored

variable (stored : cache.files.lookup (settings.formUrlFileName url) = some (writeToFile entry))

include stored

/-- What a hit leaves in the cache. -/
theorem contains_of_isHit (isHit : IsHit clock url entry) :
    ∃ found, (cache.contains settings clock url).2 = some found ∧
      (cache.contains settings clock url).1.files =
        cache.files.insert (settings.formUrlFileName url)
          (writeToFile (entry.afterHit (storedLong entry.accessCount + 1))) := by
  have read := readFromFile_writeToFile settings.diskCacheLargestObjectSize entry
  rw [if_neg isHit.readable] at read
  obtain ⟨found, isFound, count, expiry⟩ := read
  have fresh : ¬found.isExpired clock.now = true := fun expired =>
    isHit.fresh ((expiry clock.now).1 expired)
  have size := readIntFromFile_writeToFile entry
  have contained : cache.contains settings clock url =
      (cache.updateAccessCount (settings.formUrlFileName url) (writeToFile entry)
        found.accessCount, some found) := by
    rw [DiskCacheDisk.contains, if_neg isHit.named, stored]
    simp only [isFound, if_neg fresh]
  refine ⟨found, by rw [contained], ?_⟩
  rw [contained, DiskCacheDisk.updateAccessCount, size, count]
  simp only [overwrite_writeToFile entry isHit.readable]

theorem contains_eq_none_of_not_isHit (isMiss : ¬IsHit clock url entry) :
    (cache.contains settings clock url).2 = none := by
  have read := readFromFile_writeToFile settings.diskCacheLargestObjectSize entry
  rw [DiskCacheDisk.contains]
  by_cases named : url = []
  · rw [if_pos named]
  · rw [if_neg named, stored]
    by_cases readable : (payloadSize env entry.payload).toInt < 0
    · rw [if_pos readable] at read
      simp only [read]
    · rw [if_neg readable] at read
      obtain ⟨found, isFound, -, expiry⟩ := read
      have expired : found.isExpired clock.now = true :=
        (expiry clock.now).2 (by_contra fun fresh => isMiss ⟨named, readable, fresh⟩)
      simp only [isFound, if_pos expired]

/-- The count is never written where it is read, so that no hit counts. -/
theorem hitOnlyCounts_iff :
    HitOnlyCounts settings clock cache url entry ↔ ¬IsHit clock url entry := by
  constructor
  · intro onlyCounts isHit
    obtain ⟨found, isFound, files⟩ := contains_of_isHit stored isHit
    have counted := (onlyCounts found isFound).1
    rw [files] at counted
    have sameFile : writeToFile (entry.afterHit (storedLong entry.accessCount + 1)) =
        writeToFile { entry with accessCount := entry.accessCount + 1 } := by
      have looked := congrArg
        (fun files : Files => files.lookup (settings.formUrlFileName url)) counted
      simpa only [AList.lookup_insert, Option.some.injEq] using looked
    have counts := accessCount_of_writeToFile_eq sameFile
    rw [DiskCacheEntry.accessCount_afterHit] at counts
    exact writeIntToFile_succ_ne entry.accessCount counts.symm
  · intro isMiss found isFound
    rw [contains_eq_none_of_not_isHit stored isMiss] at isFound
    cases isFound

end Stored

end Hits

/-- An entry of one byte that never expires before the year 2038. -/
def smallEntry (env : Platform) : DiskCacheEntry env where
  payload := [120]
  lastAccess := 1
  expiresAt := 0x7fffffff
  accessCount := 0
  statusCode := 200
  expectedContentLength := 1
  mimeType := WString.lit "text/html"
  fileName := []
  encodingName := []
  setCookie := []
  headers := []

/-- A cache that holds the small entry under the name of every URL. -/
def smallSettings : Settings where
  diskCacheEnabled := true
  diskCacheLargestObjectSize := 6291456
  blockSize := 4096
  sizeOnDisk := fun _ => 4096
  sha1 := fun _ => [0]

def smallCache (env : Platform) : DiskCacheDisk env :=
  DiskCacheDisk.init smallSettings []
    ((∅ : Files).insert (smallSettings.formUrlFileName (WString.lit "a"))
      (writeToFile (smallEntry env)))

/-- The last access of a hit becomes 1 instead of the access count. -/
theorem not_hitOnlyCounts_smallEntry :
    ¬HitOnlyCounts smallSettings ⟨1000, 1000⟩ (smallCache .ilp32) (WString.lit "a")
      (smallEntry .ilp32) := by
  intro onlyCounts
  have hit := onlyCounts (smallEntry .ilp32) (by decide +kernel)
  have file := congrArg
    (fun files : Files => files.lookup (smallSettings.formUrlFileName (WString.lit "a"))) hit.1
  exact absurd file (by decide +kernel)

theorem hitOnlyCounts_iff_smallEntry :
    (smallCache .lp64).files.lookup (smallSettings.formUrlFileName (WString.lit "a")) =
        some (writeToFile (smallEntry .lp64)) ∧
      (HitOnlyCounts smallSettings ⟨1000, 1000⟩ (smallCache .lp64) (WString.lit "a")
          (smallEntry .lp64) ↔
        ¬IsHit ⟨1000, 1000⟩ (WString.lit "a") (smallEntry .lp64)) :=
  ⟨AList.lookup_insert _, hitOnlyCounts_iff (AList.lookup_insert _)⟩

end DiskCache
end PalmWebKit
