import PalmWebKit.Logic.Runs
import PalmWebKit.Network.CredentialsCache
import PalmWebKit.Text.StdString

/-!
# The scope of cached credentials

An entry is found by its key and a test on its directory or its realm.  The
key tells protocol, host and port apart; the tests do not look at the scheme,
compare directories as strings, and are used for taking entries out as well.
-/

namespace PalmWebKit
namespace Network

open List WString

/-! ## The key -/

/-- `'\\'` -/
def backslash : UChar := 92

/-- `String::number` of a port. -/
def portNumber (port : Int16) : WString := lit (toString port.toInt)

theorem cacheKey_eq (protocol host : WString) (port : Int16) : cacheKey protocol host port =
      protocol ++ backslash :: (host ++ backslash :: portNumber port) := by
  rw [cacheKey, append_assoc, append_assoc, append_assoc]
  rfl

variable {character : Char}

theorem isDigit_of_mem_repr {value : Nat} (member : character ∈ value.repr.toList) :
    character.isDigit = true := by
  rw [Nat.repr_eq_ofList_toDigits, String.toList_ofList] at member
  exact Nat.isDigit_of_mem_toDigits (by decide) (by decide) member

/-- The characters of a number are digits, and a minus sign. -/
theorem mem_toString {number : Int} (member : character ∈ (toString number).toList) :
    character.isDigit = true ∨ character = '-' := by
  rw [Int.toString_eq_repr, Int.repr_eq_if] at member
  split at member
  · exact .inl (isDigit_of_mem_repr member)
  · rw [String.toList_append, mem_append] at member
    obtain isMinus | isMember := member
    · exact .inr (mem_singleton.1 isMinus)
    · exact .inl (isDigit_of_mem_repr isMember)

theorem repr_toList_inj {value value' : Nat} (same : value.repr.toList = value'.repr.toList) :
    value = value' := by
  rw [Nat.repr_eq_ofList_toDigits, Nat.repr_eq_ofList_toDigits, String.toList_ofList,
    String.toList_ofList] at same
  rw [← @Nat.ofDigitChars_ten_toDigits value, same, Nat.ofDigitChars_ten_toDigits]

theorem toString_toList_inj {number number' : Int}
    (same : (toString number).toList = (toString number').toList) : number = number' := by
  have noMinus (value : Nat) (rest : List Char) : value.repr.toList ≠ '-' :: rest := by
    intro isMinus
    have isDigit : '-'.isDigit = true := isDigit_of_mem_repr (isMinus ▸ mem_cons_self)
    revert isDigit
    decide
  rw [Int.toString_eq_repr, Int.toString_eq_repr, Int.repr_eq_if, Int.repr_eq_if] at same
  split at same
  · split at same
    · have := repr_toList_inj same
      omega
    · rw [String.toList_append] at same
      exact absurd same (noMinus _ _)
  · split at same
    · rw [String.toList_append] at same
      exact absurd same.symm (noMinus _ _)
    · rw [String.toList_append, String.toList_append, append_cancel_left_eq] at same
      have := repr_toList_inj same
      omega

/-- The characters of a number are told apart as code units, and none of them
is a backslash. -/
theorem unit_of_mem_toString {number : Int} (member : character ∈ (toString number).toList) :
    Char.ofNat (UInt16.ofNat character.toNat).toNat = character ∧
      UInt16.ofNat character.toNat ≠ backslash := by
  have small : character.toNat ≤ 57 := by
    obtain isDigit | rfl := mem_toString member
    · rw [Char.isDigit, Bool.and_eq_true, decide_eq_true_eq, decide_eq_true_eq] at isDigit
      exact isDigit.2
    · decide
  have unit : (UInt16.ofNat character.toNat).toNat = character.toNat :=
    UInt16.toNat_ofNat_of_lt' (Nat.lt_of_le_of_lt small (by decide))
  constructor
  · rw [unit, Char.ofNat_toNat]
  · intro isBackslash
    rw [isBackslash] at unit
    rw [← unit] at small
    exact absurd small (by decide)

theorem backslash_notMem_portNumber (port : Int16) : backslash ∉ portNumber port := by
  intro member
  obtain ⟨character, isMember, isBackslash⟩ := mem_map.1 member
  exact (unit_of_mem_toString isMember).2 isBackslash

theorem portNumber_inj {port port' : Int16} (same : portNumber port = portNumber port') :
    port = port' := by
  have read (number : Int) : (lit (toString number)).map (fun unit => Char.ofNat unit.toNat) =
        (toString number).toList := by
    rw [lit, map_map]
    exact (map_congr_left fun character member => (unit_of_mem_toString member).1).trans
      (map_id _)
  have lists := congrArg (List.map fun unit => Char.ofNat unit.toNat) same
  rw [portNumber, portNumber, read, read] at lists
  exact Int16.toInt_inj.1 (toString_toList_inj lists)

/-- The key tells protocol, host and port apart. -/
theorem cacheKey_inj {protocol protocol' host host' : WString} {port port' : Int16}
    (plain : backslash ∉ protocol) (plain' : backslash ∉ protocol')
    (same : cacheKey protocol host port = cacheKey protocol' host' port') :
    protocol = protocol' ∧ host = host' ∧ port = port' := by
  rw [cacheKey_eq, cacheKey_eq] at same
  obtain ⟨sameProtocol, sameRest⟩ := StdString.append_cons_inj same plain plain'
  -- The last backslash is the one before the port.
  have reversed := congrArg List.reverse sameRest
  simp only [reverse_append, reverse_cons, append_assoc,
    singleton_append] at reversed
  obtain ⟨samePort, sameHost⟩ := StdString.append_cons_inj reversed
    (by simpa using backslash_notMem_portNumber port)
    (by simpa using backslash_notMem_portNumber port')
  exact ⟨sameProtocol, reverse_injective sameHost,
    portNumber_inj (reverse_injective samePort)⟩

/-! ## What the cache holds -/

/-- The entries that are the same for `add`. -/
def CredentialEntry.SamePlace (first second : CredentialEntry) : Prop :=
  first.scheme = second.scheme ∧ first.path = second.path ∧ first.realm = second.realm

namespace CredentialsCache

/-- Every entry is in the list of its own key, its protocol has no backslash,
and no list has two entries that are the same for `add`. -/
structure WellKept (cache : CredentialsCache) : Prop where
  keyed : ∀ key, ∀ entry ∈ cache key,
    cacheKey entry.protocol entry.host entry.port = key ∧ backslash ∉ entry.protocol
  distinct : ∀ key, (cache key).Pairwise fun first second => ¬ first.SamePlace second

theorem insertEntry_cases (entry : CredentialEntry) (entries : List CredentialEntry) :
    ((∀ present ∈ entries, ¬ present.SamePlace entry) ∧
      insertEntry entry entries = entries ++ [entry]) ∨
    ∃ front present rest, entries = front ++ present :: rest ∧ present.SamePlace entry ∧
      insertEntry entry entries = front ++ entry :: rest := by
  induction entries with
  | nil => exact .inl ⟨nofun, rfl⟩
  | cons present rest ih =>
    rw [insertEntry]
    by_cases same : present.SamePlace entry
    · rw [if_pos (by simpa [CredentialEntry.SamePlace, and_assoc] using same)]
      exact .inr ⟨[], present, rest, rfl, same, rfl⟩
    · rw [if_neg (by simpa [CredentialEntry.SamePlace, and_assoc] using same)]
      obtain ⟨noneSame, inserted⟩ | ⟨front, old, later, restEq, samePlace, inserted⟩ := ih
      · rw [inserted]
        exact .inl ⟨forall_mem_cons.2 ⟨same, noneSame⟩, rfl⟩
      · rw [inserted, restEq]
        exact .inr ⟨present :: front, old, later, rfl, samePlace, rfl⟩

variable {entries : List CredentialEntry}

theorem distinct_insertEntry (entry : CredentialEntry)
    (distinct : entries.Pairwise fun first second => ¬ first.SamePlace second) :
    (insertEntry entry entries).Pairwise fun first second => ¬ first.SamePlace second := by
  obtain ⟨noneSame, inserted⟩ | ⟨front, old, rest, rfl, same, inserted⟩ :=
    insertEntry_cases entry entries
  · rw [inserted, pairwise_append]
    refine ⟨distinct, pairwise_singleton _ _, ?_⟩
    intro present member other isEntry
    rw [mem_singleton.1 isEntry]
    exact noneSame present member
  · rw [inserted]
    rw [pairwise_append, pairwise_cons] at distinct ⊢
    obtain ⟨frontDistinct, ⟨oldUnlike, restDistinct⟩, apart⟩ := distinct
    have likeOld {other : CredentialEntry} : entry.SamePlace other ↔ old.SamePlace other := by
      rw [CredentialEntry.SamePlace, CredentialEntry.SamePlace, same.1, same.2.1, same.2.2]
    have likeOld' {other : CredentialEntry} : other.SamePlace entry ↔ other.SamePlace old := by
      rw [CredentialEntry.SamePlace, CredentialEntry.SamePlace, same.1, same.2.1, same.2.2]
    refine ⟨frontDistinct, ⟨fun other member => likeOld.not.2 (oldUnlike other member),
      restDistinct⟩, ?_⟩
    intro first firstMember second secondMember
    obtain rfl | later := mem_cons.1 secondMember
    · exact likeOld'.not.2 (apart first firstMember old (.head _))
    · exact apart first firstMember second (.tail _ later)

theorem mem_insertEntry {entry present : CredentialEntry}
    (member : present ∈ insertEntry entry entries) : present = entry ∨ present ∈ entries := by
  obtain ⟨-, inserted⟩ | ⟨front, old, rest, rfl, -, inserted⟩ := insertEntry_cases entry entries
  · rw [inserted, mem_append, mem_singleton] at member
    exact member.symm
  · rw [inserted, mem_append, mem_cons] at member
    rw [mem_append, mem_cons]
    tauto

variable {cache : CredentialsCache}

theorem WellKept.add (wellKept : cache.WellKept) {entry : CredentialEntry}
    (plain : backslash ∉ entry.protocol) : (cache.add entry).WellKept := by
  constructor
  · intro key present member
    by_cases here : key = cacheKey entry.protocol entry.host entry.port
    · rw [CredentialsCache.add, here, Function.update_self] at member
      obtain rfl | old := mem_insertEntry member
      · exact ⟨here.symm, plain⟩
      · rw [here]
        exact wellKept.keyed _ present old
    · rw [CredentialsCache.add, Function.update_of_ne here] at member
      exact wellKept.keyed key present member
  · intro key
    by_cases here : key = cacheKey entry.protocol entry.host entry.port
    · rw [CredentialsCache.add, here, Function.update_self]
      exact distinct_insertEntry entry (wellKept.distinct _)
    · rw [CredentialsCache.add, Function.update_of_ne here]
      exact wellKept.distinct key

theorem remove_sublist (cache : CredentialsCache) (protocol host : WString) (port : Int16)
    (path realm key : WString) :
    ((cache.remove protocol host port path realm) key).Sublist (cache key) := by
  have updated (test : CredentialEntry → Bool) :
      (Function.update cache (cacheKey protocol host port)
        ((cache (cacheKey protocol host port)).eraseP test) key).Sublist (cache key) := by
    by_cases here : key = cacheKey protocol host port
    · rw [here, Function.update_self]
      exact eraseP_sublist
    · rw [Function.update_of_ne here]
  rw [CredentialsCache.remove]
  split_ifs
  · exact updated _
  · exact updated _
  · exact .refl _

theorem WellKept.remove (wellKept : cache.WellKept) (protocol host : WString) (port : Int16)
    (path realm : WString) : (cache.remove protocol host port path realm).WellKept := by
  have sublist := cache.remove_sublist protocol host port path realm
  exact ⟨fun key entry member => wellKept.keyed key entry ((sublist key).subset member),
    fun key => (wellKept.distinct key).sublist (sublist key)⟩

/-- No lookup finds the entry. -/
def NotFound (cache : CredentialsCache) (entry : CredentialEntry) : Prop :=
  (∀ protocol host port path, cache.getForPath protocol host port path ≠ some entry) ∧
    ∀ protocol host port realm, cache.getForRealm protocol host port realm ≠ some entry

/-- An entry that is not in its list is not found. -/
theorem WellKept.notFound (wellKept : cache.WellKept) {entry : CredentialEntry}
    (absent : entry ∉ cache (cacheKey entry.protocol entry.host entry.port)) :
    cache.NotFound entry := by
  have elsewhere {key : WString} (member : entry ∈ cache key) : False := by
    rw [← (wellKept.keyed key entry member).1] at member
    exact absent member
  constructor
  · intro protocol host port path found
    exact elsewhere (mem_of_find?_eq_some found)
  · intro protocol host port realm found
    exact elsewhere (mem_of_find?_eq_some found)

end CredentialsCache

/-! ## The calls -/

/-- The calls of the cache.  A lookup is made on behalf of a scheme. -/
inductive CacheCall
  | add (entry : CredentialEntry)
  | remove (protocol host : WString) (port : Int16) (path realm : WString)
  | getForPath (scheme : AuthenticationScheme)
      (protocol host : WString) (port : Int16) (path : WString)
  | getForRealm (scheme : AuthenticationScheme)
      (protocol host : WString) (port : Int16) (realm : WString)
  deriving DecidableEq, Repr

/-- The cache after a call. -/
def cacheStep (cache : CredentialsCache) : CacheCall → CredentialsCache
  | .add entry => cache.add entry
  | .remove protocol host port path realm => cache.remove protocol host port path realm
  | .getForPath .. => cache
  | .getForRealm .. => cache

/-- The directory is the path or one of its ancestors, segment by segment. -/
def SegmentPrefix (directory path : WString) : Prop :=
  ∃ rest, path = directory ++ rest ∧
    (rest = [] ∨ directory.getLast? = some slash ∨ rest.head? = some slash)

/-- The entry that a call of `remove` is meant for: the one with that directory
and realm, or the one that the same lookup finds. -/
def IsRemoved (cache : CredentialsCache) (protocol host : WString) (port : Int16)
    (path realm : WString) (entry : CredentialEntry) : Prop :=
  (entry.protocol = protocol ∧ entry.host = host ∧ entry.port = port ∧
    entry.path = path ∧ entry.realm = realm) ∨
  (realm = [] ∧ cache.getForPath protocol host port path = some entry) ∨
  (path = [] ∧ cache.getForRealm protocol host port realm = some entry)

/-- The result of a call is in its scope. -/
def InScope (cache : CredentialsCache) : CacheCall → Prop
  | .add _ => True
  | .remove protocol host port path realm =>
    ∀ entry, IsRemoved cache protocol host port path realm entry →
      (cache.remove protocol host port path realm).NotFound entry
  | .getForPath scheme protocol host port path =>
    ∀ entry, cache.getForPath protocol host port path = some entry → entry.scheme = scheme ∧
        (entry.protocol = protocol ∧ entry.host = host ∧ entry.port = port) ∧
        SegmentPrefix entry.path path
  | .getForRealm scheme protocol host port realm =>
    ∀ entry, cache.getForRealm protocol host port realm = some entry → entry.scheme = scheme ∧
        (entry.protocol = protocol ∧ entry.host = host ∧ entry.port = port) ∧
        entry.realm = realm

/-- No entry of a list stands behind one that passes the test. -/
def ComesFirst (test : CredentialEntry → Bool) (entries : List CredentialEntry)
    (entry : CredentialEntry) : Prop :=
  ∀ front rest, entries = front ++ entry :: rest → ∀ earlier ∈ front, test earlier = false

/-- Protocols have no backslash.  The first entry whose directory begins the path,
or whose realm is the same, was stored with the scheme of the lookup, and its
directory ends at the end of a segment.  An entry is taken out by its directory
and its realm only when no directory that begins its own, or no equal realm,
comes before it, and by an empty directory and realm only when no entry has
either. -/
def KeepsScope (cache : CredentialsCache) : CacheCall → Prop
  | .add entry => backslash ∉ entry.protocol
  | .remove protocol host port path realm =>
    ∀ entry ∈ cache (cacheKey protocol host port),
      if path = [] ∧ realm = [] then entry.path ≠ [] ∧ entry.realm ≠ []
      else
        entry.path = path → entry.realm = realm → ComesFirst
            (fun other => if path = [] then realm == other.realm else startsWith path other.path)
            (cache (cacheKey protocol host port)) entry
  | .getForPath scheme protocol host port path =>
    backslash ∉ protocol ∧ ∀ entry ∈ cache (cacheKey protocol host port),
        startsWith path entry.path = true →
        ComesFirst (fun other => startsWith path other.path)
          (cache (cacheKey protocol host port)) entry →
        entry.scheme = scheme ∧ (entry.path = path ∨ entry.path.getLast? = some slash ∨
            (path.drop entry.path.length).head? = some slash)
  | .getForRealm scheme protocol host port realm =>
    backslash ∉ protocol ∧ ∀ entry ∈ cache (cacheKey protocol host port), entry.realm = realm →
        ComesFirst (fun other => realm == other.realm)
          (cache (cacheKey protocol host port)) entry →
        entry.scheme = scheme

section Calls

variable
  {cache : CredentialsCache} {entries : List CredentialEntry} {entry : CredentialEntry}
  {test : CredentialEntry → Bool}

theorem find?_of_comesFirst (member : entry ∈ entries) (passes : test entry = true)
    (first : ComesFirst test entries entry) : entries.find? test = some entry := by
  obtain ⟨front, rest, entriesEq⟩ := append_of_mem member
  rw [find?_eq_some_iff_append]
  refine ⟨passes, front, rest, entriesEq, fun earlier isEarlier => ?_⟩
  rw [first front rest entriesEq earlier isEarlier]
  rfl

variable (distinct : entries.Pairwise fun first second => ¬ first.SamePlace second)
include distinct

/-- In a list without repetitions the entry that is found comes first. -/
theorem comesFirst_of_find?
    (found : entries.find? test = some entry) : ComesFirst test entries entry := by
  obtain ⟨-, before, after, foundEq, notEarlier⟩ := find?_eq_some_iff_append.1 found
  intro front rest entriesEq earlier isEarlier
  have once {front rest : List CredentialEntry} (isSplit : entries = front ++ entry :: rest) :
      entry ∉ front := by
    intro again
    rw [isSplit, pairwise_append] at distinct
    exact distinct.2.2 entry again entry (.head _) ⟨rfl, rfl, rfl⟩
  obtain ⟨sameFront, -⟩ := StdString.append_cons_inj (entriesEq.symm.trans foundEq)
    (once entriesEq) (once foundEq)
  rw [sameFront] at isEarlier
  simpa using notEarlier earlier isEarlier

/-- The entry that is found is the one that is taken out. -/
theorem notMem_eraseP_of_find?
    (found : entries.find? test = some entry) : entry ∉ entries.eraseP test := by
  obtain ⟨passes, before, after, rfl, notEarlier⟩ := find?_eq_some_iff_append.1 found
  rw [pairwise_append, pairwise_cons] at distinct
  rw [eraseP_append_right _ (fun earlier isEarlier => by
      simpa using notEarlier earlier isEarlier), eraseP_cons_of_pos passes, mem_append]
  rintro (early | late)
  · exact distinct.2.2 entry early entry (.head _) ⟨rfl, rfl, rfl⟩
  · exact distinct.2.1.1 entry late ⟨rfl, rfl, rfl⟩

omit distinct

variable {port : Int16}

variable {protocol host path realm : WString}

/-- The list of a call's key after `remove`. -/
theorem remove_eq_of_path_ne_nil (hasPath : path ≠ []) :
    cache.remove protocol host port path realm (cacheKey protocol host port) =
      (cache (cacheKey protocol host port)).eraseP fun other => startsWith path other.path := by
  have isNonempty : (!path.isEmpty) = true := by simpa using hasPath
  rw [CredentialsCache.remove, if_pos isNonempty, Function.update_self]

theorem remove_eq_of_realm_ne_nil {protocol host realm : WString} (hasRealm : realm ≠ []) :
    cache.remove protocol host port [] realm (cacheKey protocol host port) =
      (cache (cacheKey protocol host port)).eraseP fun other => realm == other.realm := by
  have isNonempty : (!realm.isEmpty) = true := by simpa using hasRealm
  rw [CredentialsCache.remove, if_neg (by simp), if_pos isNonempty, Function.update_self]

theorem inScope_remove (wellKept : cache.WellKept)
    (condition : KeepsScope cache (.remove protocol host port path realm)) :
    InScope cache (.remove protocol host port path realm) := by
  intro entry isRemoved
  apply (wellKept.remove protocol host port path realm).notFound
  have distinct := wellKept.distinct (cacheKey protocol host port)
  -- What the test of the call finds first is taken out.
  have found : entry ∈ cache (cacheKey protocol host port) →
      (path ≠ [] ∧ (cache (cacheKey protocol host port)).find?
          (fun other => startsWith path other.path) = some entry) ∨
        (path = [] ∧ realm ≠ [] ∧ (cache (cacheKey protocol host port)).find?
          (fun other => realm == other.realm) = some entry) := by
    intro member
    have met := condition entry member
    obtain ⟨-, -, -, samePath, sameRealm⟩ | ⟨noRealm, isFirst⟩ | ⟨noPath, isFirst⟩ := isRemoved
    · by_cases hasPath : path = []
      · by_cases hasRealm : realm = []
        · rw [if_pos ⟨hasPath, hasRealm⟩] at met
          exact absurd (samePath.trans hasPath) met.1
        · rw [if_neg fun both => hasRealm both.2] at met
          simp only [if_pos hasPath] at met
          exact .inr ⟨hasPath, hasRealm,
            find?_of_comesFirst member (by simpa using sameRealm.symm) (met samePath sameRealm)⟩
      · rw [if_neg fun both => hasPath both.1] at met
        simp only [if_neg hasPath] at met
        refine .inl ⟨hasPath, find?_of_comesFirst member ?_ (met samePath sameRealm)⟩
        rw [startsWith_iff, samePath]
    · by_cases hasPath : path = []
      · rw [if_pos ⟨hasPath, noRealm⟩] at met
        have starts := find?_some isFirst
        rw [startsWith_iff, hasPath, prefix_nil] at starts
        exact absurd starts met.1
      · exact .inl ⟨hasPath, isFirst⟩
    · by_cases hasRealm : realm = []
      · rw [if_pos ⟨noPath, hasRealm⟩] at met
        have same := CredentialsCache.realm_of_getForRealm isFirst
        exact absurd (same.trans hasRealm) met.2
      · exact .inr ⟨noPath, hasRealm, isFirst⟩
  have sameKey : entry ∈ cache (cacheKey entry.protocol entry.host entry.port) →
      cacheKey entry.protocol entry.host entry.port = cacheKey protocol host port := by
    intro member
    obtain ⟨rfl, rfl, rfl, -⟩ | ⟨-, isFirst⟩ | ⟨-, isFirst⟩ := isRemoved
    · rfl
    · exact (wellKept.keyed _ entry (mem_of_find?_eq_some isFirst)).1
    · exact (wellKept.keyed _ entry (mem_of_find?_eq_some isFirst)).1
  intro stays
  have old : entry ∈ cache (cacheKey entry.protocol entry.host entry.port) :=
    (cache.remove_sublist protocol host port path realm _).subset stays
  rw [sameKey old] at stays old
  obtain ⟨hasPath, isFirst⟩ | ⟨noPath, hasRealm, isFirst⟩ := found old
  · rw [remove_eq_of_path_ne_nil hasPath] at stays
    exact notMem_eraseP_of_find? distinct isFirst stays
  · rw [noPath, remove_eq_of_realm_ne_nil hasRealm] at stays
    exact notMem_eraseP_of_find? distinct isFirst stays

/-- An entry that is found under a key belongs to it. -/
theorem scope_of_mem (wellKept : cache.WellKept) {protocol host : WString}
    (plain : backslash ∉ protocol) (member : entry ∈ cache (cacheKey protocol host port)) :
    entry.protocol = protocol ∧ entry.host = host ∧ entry.port = port := by
  obtain ⟨sameKey, entryPlain⟩ := wellKept.keyed _ entry member
  exact cacheKey_inj entryPlain plain sameKey

theorem inScope_of_keepsScope (wellKept : cache.WellKept) {call : CacheCall}
    (condition : KeepsScope cache call) : InScope cache call := by
  cases call with
  | add entry => trivial
  | remove protocol host port path realm => exact inScope_remove wellKept condition
  | getForPath scheme protocol host port path =>
    obtain ⟨plain, met⟩ := condition
    intro entry found
    have member := mem_of_find?_eq_some found
    have starts := find?_some found
    obtain ⟨sameScheme, boundary⟩ := met entry member starts
      (comesFirst_of_find? (wellKept.distinct _) found)
    refine ⟨sameScheme, scope_of_mem wellKept plain member, ?_⟩
    obtain ⟨rest, rfl⟩ := (startsWith_iff _ _).1 starts
    refine ⟨rest, rfl, boundary.imp ?_ (Or.imp_right ?_)⟩
    · exact self_eq_append_right.1
    · rw [drop_left]
      exact id
  | getForRealm scheme protocol host port realm =>
    obtain ⟨plain, met⟩ := condition
    intro entry found
    have member := mem_of_find?_eq_some found
    have sameRealm := CredentialsCache.realm_of_getForRealm found
    exact ⟨met entry member sameRealm (comesFirst_of_find? (wellKept.distinct _) found),
      scope_of_mem wellKept plain member, sameRealm⟩

end Calls

/-- In every run whose calls all meet their condition, the result of every call
is in its scope. -/
theorem calls_in_scope {calls : List CacheCall}
    (met : Runs.StepsMeet cacheStep KeepsScope (fun _ => []) calls) :
    Runs.StepsMeet cacheStep InScope (fun _ => []) calls := by
  refine @Runs.stepsMeet_of_invariant _ _ cacheStep CredentialsCache.WellKept KeepsScope InScope
    ?_ ?_ calls (fun _ => []) ⟨nofun, fun _ => .nil⟩ met
  · intro cache call wellKept condition
    cases call with
    | add entry => exact wellKept.add condition
    | remove protocol host port path realm => exact wellKept.remove protocol host port path realm
    | getForPath | getForRealm => exact wellKept
  · exact fun cache call wellKept condition => inScope_of_keepsScope wellKept condition

/-- An entry for a directory of `http://a/`. -/
def entryFor (scheme : AuthenticationScheme) (directory : String) : CredentialEntry where
  scheme
  protocol := lit "http"
  host := lit "a"
  port := 80
  path := lit directory
  realm := lit "r"
  user := lit "u"
  password := lit "p"

/-- The theorem on one entry, found by its directory. -/
theorem calls_in_scope_oneEntry : Runs.StepsMeet cacheStep InScope (fun _ => [])
      [.add (entryFor .basic "/x/"), .getForPath .basic (lit "http") (lit "a") 80 (lit "/x/y")] := by
  have plain : backslash ∉ lit "http" := by decide
  refine calls_in_scope ⟨plain, ⟨plain, ?_⟩, trivial⟩
  intro entry member _ _
  have isEntry : entry ∈ [entryFor .basic "/x/"] := by
    rwa [cacheStep, CredentialsCache.add] at member
  rw [mem_singleton.1 isEntry]
  exact ⟨rfl, .inr (.inl rfl)⟩

/-- A Digest entry is found for Basic, one for `/x` is found for `/xy`, and taking
`/x/` out takes `/` out instead. -/
theorem calls_out_of_scope : (¬ Runs.StepsMeet cacheStep InScope (fun _ => [])
      [.add (entryFor .digest "/"), .getForRealm .basic (lit "http") (lit "a") 80 (lit "r")]) ∧
    (¬ Runs.StepsMeet cacheStep InScope (fun _ => [])
      [.add (entryFor .basic "/x"), .getForPath .basic (lit "http") (lit "a") 80 (lit "/xy")]) ∧
    ¬ Runs.StepsMeet cacheStep InScope (fun _ => [])
      [.add (entryFor .basic "/"), .add (entryFor .basic "/x/"),
        .remove (lit "http") (lit "a") 80 (lit "/x/") (lit "r")] := by
  refine ⟨?_, ?_, ?_⟩
  · rintro ⟨-, inScope, -⟩
    have sameScheme := (inScope (entryFor .digest "/") (by decide +kernel)).1
    cases sameScheme
  · rintro ⟨-, inScope, -⟩
    obtain ⟨rest, path, boundary⟩ := (inScope (entryFor .basic "/x") (by decide +kernel)).2.2
    have restEq : rest = lit "y" :=
      append_cancel_left (show lit "/x" ++ rest = lit "/x" ++ lit "y" from path.symm)
    rw [restEq] at boundary
    revert boundary
    decide
  · rintro ⟨-, -, inScope, -⟩
    have notFound := (inScope (entryFor .basic "/x/") (.inl ⟨rfl, rfl, rfl, rfl, rfl⟩)).2
      (lit "http") (lit "a") 80 (lit "r")
    exact notFound (by decide +kernel)

end Network
end PalmWebKit
