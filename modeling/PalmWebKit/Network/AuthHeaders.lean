import PalmWebKit.Logic.LinkedList
import PalmWebKit.Logic.Runs
import PalmWebKit.Network.AuthChallenge

/-!
# The authorization header among the custom headers

`addAuthHeader` appends a header to the `curl_slist` of the request and hands
the list to curl; `removeAuthHeader` unlinks the first header whose name begins
with `Authorization`, whoever has set it, and leaves curl with the pointer it
has.  `curl_slist_append` is curl's own and a parameter here.
-/

namespace PalmWebKit
namespace Network

open List StdString WString AuthChallenge Logic.LinkedList

/-- `curl_slist_append`: a null list where it fails, and otherwise the list with
one more cell at its end. -/
structure CurlSlist where
  append : Heap StdString → Option Nat → StdString → Heap StdString × Option Nat
  appended : ∀ heap list cells text, ListAt heap list cells → (append heap list text).2 ≠ none →
      ∃ address, ListAt (append heap list text).1 (append heap list text).2
        (cells ++ [(address, text)])

/-- What the two functions read and write. -/
structure HeaderLists where
  heap : Heap StdString
  /-- `m_customHeaders` -/
  customHeaders : Option Nat
  /-- The list that `CURLOPT_HTTPHEADER` was set to. -/
  httpHeader : Option Nat
  authHeaderAdded : Bool
  realmBasedAuthHeaderAdded : Bool
  pathBasedAuthHeaderAdded : Bool
  /-- The header that was added last and not removed since; nothing reads it. -/
  lastAdded : Option StdString

/-- The header is taken for an authorization. -/
def isAuthorization (text : StdString) : Bool := hasKeyword (bytes "Authorization") text

/-- The loop of `removeAuthHeader`: the heap and `m_customHeaders` afterwards,
`none` where it reads a freed cell or goes on for too long. -/
def removeLoop (heap : Heap StdString) (customHeaders : Option Nat) :
    Nat → Option Nat → Option Nat → Option (Heap StdString × Option Nat)
  | 0, _, _ => none
  | _ + 1, _, none => some (heap, customHeaders)
  | fuel + 1, prev, some head =>
    match heap head with
    | none => none
    | some cell =>
      if isAuthorization cell.data then
        match prev with
        | some before => some (setNext (free heap head) before cell.next, customHeaders)
        | none => some (free heap head, cell.next)
      else
        removeLoop heap customHeaders fuel (some head) cell.next

namespace HeaderLists

def removeAuthHeader (fuel : Nat) (lists : HeaderLists) : Option HeaderLists :=
  if !lists.authHeaderAdded then some lists
  else
    (removeLoop lists.heap lists.customHeaders fuel none lists.customHeaders).map
      fun (heap, customHeaders) =>
        { lists with
          heap
          customHeaders
          realmBasedAuthHeaderAdded := false
          pathBasedAuthHeaderAdded := false
          authHeaderAdded := false
          lastAdded := none }

def addAuthHeader (curl : CurlSlist) (lists : HeaderLists) (authHeader : WString) : HeaderLists :=
  if authHeader.isEmpty then lists
  else
    -- The text is handed over as a C string.
    let text := ofCString (latin1 authHeader)
    let (heap, customHeaders) := curl.append lists.heap lists.customHeaders text
    { lists with
      heap
      customHeaders
      httpHeader := customHeaders
      authHeaderAdded := true
      lastAdded := some text }

end HeaderLists

/-- The calls of the handler. -/
inductive HeaderCall
  | add (authHeader : WString)
  | remove
  deriving DecidableEq, Repr

/-- One call; `none` is a run that has come to its end in the loop. -/
def headerStep (curl : CurlSlist) (fuel : Nat) :
    Option HeaderLists → HeaderCall → Option HeaderLists
  | none, _ => none
  | some lists, .add authHeader => some (lists.addAuthHeader curl authHeader)
  | some lists, .remove => lists.removeAuthHeader fuel

/-! ## The loop -/

variable {heap : Heap StdString}

/-- Without an authorization behind its position the loop changes nothing. -/
theorem removeLoop_none {customHeaders prev head : Option Nat} {cells : List (Nat × StdString)}
    {fuel : Nat} (isList : ListAt heap head cells) (enough : cells.length < fuel)
    (noAuthorization : ∀ cell ∈ cells, isAuthorization cell.2 = false) :
    removeLoop heap customHeaders fuel prev head = some (heap, customHeaders) := by
  induction cells generalizing fuel prev head with
  | nil =>
    cases isList
    cases fuel with
    | zero => exact absurd enough (Nat.not_lt_zero _)
    | succ fuel => rfl
  | cons cell cells ih =>
    obtain ⟨rfl, next, allocated, isRest⟩ := isList
    obtain ⟨notHere, notLater⟩ := forall_mem_cons.1 noAuthorization
    cases fuel with
    | zero => exact absurd enough (Nat.not_lt_zero _)
    | succ fuel =>
      rw [removeLoop, allocated]
      dsimp only
      rw [notHere]
      exact ih isRest (Nat.lt_of_succ_lt_succ enough) notLater

/-- The loop comes to the first authorization, with the cell before it. -/
theorem removeLoop_found {customHeaders prev head : Option Nat} {keep rest : List (Nat × StdString)}
    {cell : Nat × StdString} {fuel : Nat} (isList : ListAt heap head (keep ++ cell :: rest))
    (enough : keep.length < fuel) (noAuthorization : ∀ kept ∈ keep, isAuthorization kept.2 = false)
    (isAuth : isAuthorization cell.2 = true) :
    ∃ next, heap cell.1 = some ⟨cell.2, next⟩ ∧ removeLoop heap customHeaders fuel prev head =
        match (keep.getLast?.map Prod.fst).or prev with
        | some before => some (setNext (free heap cell.1) before next, customHeaders)
        | none => some (free heap cell.1, next) := by
  induction keep generalizing fuel prev head with
  | nil =>
    obtain ⟨rfl, next, allocated, -⟩ := isList
    refine ⟨next, allocated, ?_⟩
    cases fuel with
    | zero => exact absurd enough (Nat.not_lt_zero _)
    | succ fuel =>
      rw [removeLoop, allocated]
      dsimp only
      rw [if_pos isAuth]
      cases prev
      all_goals rfl
  | cons kept keep ih =>
    obtain ⟨rfl, next, allocated, isRest⟩ := isList
    obtain ⟨notHere, notLater⟩ := forall_mem_cons.1 noAuthorization
    cases fuel with
    | zero => exact absurd enough (Nat.not_lt_zero _)
    | succ fuel =>
      rw [removeLoop, allocated]
      dsimp only
      rw [notHere]
      obtain ⟨cellNext, cellAllocated, result⟩ := @ih (some kept.1) next fuel
        isRest (Nat.lt_of_succ_lt_succ enough) notLater
      refine ⟨cellNext, cellAllocated, result.trans ?_⟩
      cases keep with
      | nil => rfl
      | cons other keep =>
        rw [getLast?_cons_cons]
        have someLast : ((other :: keep).getLast?.map Prod.fst).isSome := by simp
        obtain ⟨before, isLast⟩ := Option.isSome_iff_exists.1 someLast
        rfl

/-- The cell that the loop stops at is freed. -/
theorem freed_of_removeLoop_found {customHeaders prev next : Option Nat} {address : Nat}
    {result : Heap StdString × Option Nat}
    (found : (match prev with
      | some before => some (setNext (free heap address) before next, customHeaders)
      | none => some (free heap address, next)) = some result) : result.1 address = none := by
  have freed : free heap address address = none := Function.update_self ..
  cases prev with
  | none =>
    cases found
    exact freed
  | some before =>
    cases found
    change setNext (free heap address) before next address = none
    by_cases same : address = before
    · rw [← same, setNext, Function.update_self, freed]
      rfl
    · rw [setNext, Function.update_of_ne same]
      exact freed

/-! ## One call -/

/-- Curl sees the cells of the page, unchanged and in their order, and behind
them the header added last, if it was not removed. -/
def Framed (page : List (Nat × StdString)) (lists : HeaderLists) : Prop :=
  match lists.lastAdded with
  | none => ListAt lists.heap lists.httpHeader page
  | some text => ∃ address, ListAt lists.heap lists.httpHeader (page ++ [(address, text)])

/-- The list is framed, curl has the current pointer, and the flag is set while
a header is added. -/
structure Kept (page : List (Nat × StdString)) (lists : HeaderLists) : Prop where
  framed : Framed page lists
  same : lists.customHeaders = lists.httpHeader
  flag : lists.authHeaderAdded = lists.lastAdded.isSome

/-- A header is added only while none is, and `curl_slist_append` succeeds; one
is removed only when it is an authorization and is not the only header, and the
page has no authorization of its own. -/
def KeepsFrame (curl : CurlSlist)
    (page : List (Nat × StdString)) : Option HeaderLists → HeaderCall → Prop
  | none, _ => False
  | some lists, .add authHeader =>
    authHeader = [] ∨ lists.lastAdded = none ∧
        (curl.append lists.heap lists.customHeaders (ofCString (latin1 authHeader))).2 ≠ none
  | some lists, .remove =>
    ∀ text, lists.lastAdded = some text →
      page ≠ [] ∧ (∀ cell ∈ page, isAuthorization cell.2 = false) ∧ isAuthorization text = true

section Calls

variable {curl : CurlSlist} {page : List (Nat × StdString)} {lists : HeaderLists}

theorem Kept.addAuthHeader (kept : Kept page lists) {authHeader : WString}
    (condition : KeepsFrame curl page (some lists) (.add authHeader)) :
    Kept page (lists.addAuthHeader curl authHeader) := by
  obtain rfl | ⟨noneAdded, succeeds⟩ := condition
  · exact kept
  by_cases isEmpty : authHeader = []
  · rw [isEmpty]
    exact kept
  have framed := kept.framed
  rw [Framed, noneAdded, ← kept.same] at framed
  have appended := curl.appended _ _ _ _ framed succeeds
  rw [HeaderLists.addAuthHeader, if_neg fun empty => isEmpty (isEmpty_iff.1 empty)]
  exact ⟨appended, rfl, rfl⟩

theorem Kept.of_addAuthHeader (kept : Kept page lists) {authHeader : WString}
    (framed : Framed page (lists.addAuthHeader curl authHeader)) :
    KeepsFrame curl page (some lists) (.add authHeader) := by
  by_cases isEmpty : authHeader = []
  · exact .inl isEmpty
  right
  rw [HeaderLists.addAuthHeader, if_neg fun empty => isEmpty (isEmpty_iff.1 empty)] at framed
  obtain ⟨address, isList⟩ := framed
  have succeeds : (curl.append lists.heap lists.customHeaders (ofCString (latin1 authHeader))).2 ≠
      none := by
    intro failed
    dsimp only at isList
    rw [failed] at isList
    have empty := isList.unique (show ListAt _ none [] from rfl)
    exact append_ne_nil_of_right_ne_nil _ (cons_ne_nil _ _) empty
  refine ⟨?_, succeeds⟩
  have before := kept.framed
  rw [Framed, ← kept.same] at before
  cases added : lists.lastAdded with
  | none => rfl
  | some text =>
    rw [added] at before
    obtain ⟨old, before⟩ := before
    obtain ⟨new, after⟩ := curl.appended _ _ _ _ before succeeds
    have lengths := congrArg List.length (isList.unique after)
    simp only [length_append, length_singleton] at lengths
    omega

theorem Kept.removeAuthHeader {fuel : Nat} (enough : page.length + 1 < fuel)
    (kept : Kept page lists) (condition : KeepsFrame curl page (some lists) .remove) :
    ∃ after, lists.removeAuthHeader fuel = some after ∧ Kept page after := by
  rw [HeaderLists.removeAuthHeader, kept.flag]
  cases added : lists.lastAdded with
  | none => exact ⟨lists, rfl, kept⟩
  | some text =>
    obtain ⟨nonempty, noAuthorization, isAuth⟩ := condition text added
    have framed := kept.framed
    rw [Framed, added] at framed
    obtain ⟨address, isList⟩ := framed
    obtain ⟨next, allocated, result⟩ := @removeLoop_found lists.heap lists.customHeaders none
      lists.httpHeader page [] (address, text) fuel isList (by omega) noAuthorization isAuth
    rw [← dropLast_concat_getLast nonempty, append_assoc] at isList
    obtain ⟨unlinkedNext, unlinkedAllocated, unlinked⟩ := isList.unlink
    rw [allocated] at unlinkedAllocated
    cases unlinkedAllocated
    rw [dropLast_concat_getLast nonempty] at unlinked
    rw [getLast?_eq_some_getLast nonempty] at result
    rw [kept.same] at result ⊢
    rw [result]
    exact ⟨_, rfl, unlinked, rfl, rfl⟩

theorem Kept.of_removeAuthHeader {fuel : Nat} (enough : page.length + 1 < fuel)
    (kept : Kept page lists) {after : HeaderLists}
    (result : lists.removeAuthHeader fuel = some after) (framed : Framed page after) :
    KeepsFrame curl page (some lists) .remove := by
  intro text added
  have before := kept.framed
  rw [Framed, added] at before
  obtain ⟨address, isList⟩ := before
  rw [HeaderLists.removeAuthHeader, kept.flag, added, kept.same, Option.isSome_some, Bool.not_true] at result
  obtain ⟨⟨heap, customHeaders⟩, loop, rfl⟩ := Option.map_eq_some_iff.1 result
  change ListAt heap lists.httpHeader page at framed
  have noAuthorization : ∀ cell ∈ page, isAuthorization cell.2 = false := by
    by_contra someAuth
    -- The first of them is freed.
    have isSome : (page.find? fun cell => isAuthorization cell.2).isSome := by
      rw [find?_isSome]
      push Not at someAuth
      obtain ⟨cell, member, isAuth⟩ := someAuth
      exact ⟨cell, member, by simpa using isAuth⟩
    obtain ⟨cell, isFirst⟩ := Option.isSome_iff_exists.1 isSome
    obtain ⟨isAuth, keep, rest, pageEq, notEarlier⟩ := find?_eq_some_iff_append.1 isFirst
    rw [pageEq, append_assoc] at isList
    have bound : keep.length < page.length := by
      rw [pageEq, length_append, length_cons]
      omega
    obtain ⟨next, -, found⟩ := @removeLoop_found lists.heap lists.httpHeader none
      lists.httpHeader keep _ cell fuel isList (by omega)
      (fun kept member => by simpa using notEarlier kept member) isAuth
    rw [loop] at found
    have freed : heap cell.1 = none := freed_of_removeLoop_found found.symm
    obtain ⟨cellNext, allocated⟩ := framed.allocated
      (pageEq ▸ mem_append_right keep (.head _))
    rw [freed] at allocated
    cases allocated
  refine ⟨?_, noAuthorization, ?_⟩
  · rintro rfl
    rw [isList.1] at framed
    cases framed
  · by_contra notAuth
    have unchanged := @removeLoop_none lists.heap lists.httpHeader none lists.httpHeader
      (page ++ [(address, text)]) fuel isList (by simpa using enough) (by
        rw [forall_mem_append]
        exact ⟨noAuthorization, by simpa using notAuth⟩)
    rw [loop] at unchanged
    cases unchanged
    have lengths := congrArg List.length (isList.unique framed)
    simp only [length_append, length_singleton] at lengths
    omega

end Calls

/-! ## Every sequence of calls -/

/-- The run has not ended in the loop, and the headers are framed. -/
def FramedRun (page : List (Nat × StdString)) : Option HeaderLists → Prop
  | none => False
  | some lists => Framed page lists

/-- The state after the headers of the page are set. -/
def HeaderLists.ofPage (heap : Heap StdString) (headers : Option Nat) : HeaderLists where
  heap
  customHeaders := headers
  httpHeader := headers
  authHeaderAdded := false
  realmBasedAuthHeaderAdded := false
  pathBasedAuthHeaderAdded := false
  lastAdded := none

/-- The headers are framed throughout a run exactly when every call meets its
condition. -/
theorem headers_framed_iff {curl : CurlSlist} {fuel : Nat} {heap : Heap StdString}
    {headers : Option Nat} {page : List (Nat × StdString)} (isPage : ListAt heap headers page)
    (enough : page.length + 1 < fuel) (calls : List HeaderCall) :
    (∀ reached ∈ Runs.visited (headerStep curl fuel) (some (.ofPage heap headers)) calls,
        FramedRun page reached) ↔
      Runs.StepsMeet (headerStep curl fuel) (KeepsFrame curl page)
        (some (.ofPage heap headers)) calls := by
  have start : Kept page (.ofPage heap headers) := ⟨isPage, rfl, rfl⟩
  refine @Runs.visited_iff_stepsMeet_of_invariant _ _ (headerStep curl fuel)
    (fun state => ∃ lists, state = some lists ∧ Kept page lists) (FramedRun page)
    (KeepsFrame curl page) ?_ ?_ ?_ calls (some (.ofPage heap headers)) ⟨_, rfl, start⟩
  · rintro _ ⟨lists, rfl, kept⟩
    exact kept.framed
  · rintro _ call ⟨lists, rfl, kept⟩ condition
    cases call with
    | add authHeader => exact ⟨_, rfl, kept.addAuthHeader condition⟩
    | remove => exact kept.removeAuthHeader enough condition
  · rintro _ call ⟨lists, rfl, kept⟩ framed
    cases call with
    | add authHeader => exact kept.of_addAuthHeader framed
    | remove =>
      cases result : lists.removeAuthHeader fuel with
      | none =>
        rw [headerStep, result] at framed
        exact framed.elim
      | some after =>
        rw [headerStep, result] at framed
        exact kept.of_removeAuthHeader enough result framed

/-- An allocator for at most a hundred cells. -/
def hundredCells : CurlSlist where
  append heap list text :=
    match (List.range 100).find? fun address => (heap address).isNone, list with
    | none, _ => (heap, none)
    | some fresh, none => (Function.update heap fresh (some ⟨text, none⟩), some fresh)
    | some fresh, some first =>
      match lastOf heap 100 first with
      | none => (heap, none)
      | some last =>
        (setNext (Function.update heap fresh (some ⟨text, none⟩)) last (some fresh), some first)
  appended heap list cells text isList succeeds := by
    cases isFresh : (List.range 100).find? fun address => (heap address).isNone with
    | none =>
      rw [isFresh] at succeeds
      exact absurd rfl succeeds
    | some fresh =>
      have unallocated : heap fresh = none := by simpa using find?_some isFresh
      cases list with
      | none =>
        cases isList.unique (show ListAt heap none [] from rfl)
        exact ⟨fresh, rfl, none, Function.update_self .., rfl⟩
      | some first =>
        rw [isFresh] at succeeds
        dsimp only at succeeds ⊢
        cases isLast : lastOf heap 100 first with
        | none =>
          rw [isLast] at succeeds
          exact absurd rfl succeeds
        | some last => exact ⟨fresh, isList.append_cell isLast unallocated⟩

/-- Two headers of a page, in a heap. -/
def headersOfPage (first second : String) : Heap StdString
  | 0 => some ⟨bytes first, some 1⟩
  | 1 => some ⟨bytes second, none⟩
  | _ => none

/-- The theorem on a page with two headers and three calls. -/
theorem headers_framed_iff_twoHeaders : (∀ reached ∈ Runs.visited (headerStep hundredCells 10)
          (some (.ofPage (headersOfPage "Accept: text/html" "X-Page: 1") (some 0)))
          [.add (lit "Authorization: Basic YTpi"), .remove, .remove],
        FramedRun [(0, bytes "Accept: text/html"), (1, bytes "X-Page: 1")] reached) ↔
      Runs.StepsMeet (headerStep hundredCells 10)
        (KeepsFrame hundredCells [(0, bytes "Accept: text/html"), (1, bytes "X-Page: 1")])
        (some (.ofPage (headersOfPage "Accept: text/html" "X-Page: 1") (some 0)))
        [.add (lit "Authorization: Basic YTpi"), .remove, .remove] :=
  headers_framed_iff
    (show ListAt _ _ [(0, bytes "Accept: text/html"), (1, bytes "X-Page: 1")] from
      ⟨rfl, some 1, rfl, rfl, none, rfl, rfl⟩)
    (by decide) _

/-- The page's own authorization is removed, the handler's one stays. -/
theorem own_authorization_dropped : ¬ ∀ reached ∈ Runs.visited (headerStep hundredCells 10)
          (some (.ofPage (headersOfPage "Accept: text/html" "Authorization: Page") (some 0)))
          [.add (lit "Authorization: Basic YTpi"), .remove],
        FramedRun [(0, bytes "Accept: text/html"), (1, bytes "Authorization: Page")] reached := by
  intro framed
  have last := framed _ (Runs.final_mem_visited _ _)
  have dropped : ((Runs.final (headerStep hundredCells 10)
      (some (.ofPage (headersOfPage "Accept: text/html" "Authorization: Page") (some 0)))
      [.add (lit "Authorization: Basic YTpi"), .remove]).all
        fun lists => (lists.heap 1).isNone && lists.lastAdded.isNone) = true := by
    decide +kernel
  cases result : Runs.final (headerStep hundredCells 10)
      (some (.ofPage (headersOfPage "Accept: text/html" "Authorization: Page") (some 0)))
      [.add (lit "Authorization: Basic YTpi"), .remove] with
  | none =>
    rw [result] at last
    exact last
  | some lists =>
    rw [result] at last dropped
    rw [Option.all_some, Bool.and_eq_true, Option.isNone_iff_eq_none,
      Option.isNone_iff_eq_none] at dropped
    change Framed _ lists at last
    rw [Framed, dropped.2] at last
    obtain ⟨next, allocated⟩ := last.allocated (.tail _ (.head _))
    rw [dropped.1] at allocated
    cases allocated

end Network
end PalmWebKit
