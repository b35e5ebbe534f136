import PalmWebKit.Cookie.Parse
import PalmWebKit.Cookie.Database
import PalmWebKit.Cookie.LruCache

/-!
# The cookie service

`CookieService` answers lookups from the cache when the tail of the host is
cached and from the database otherwise, filling the cache on the way.  What
SQLite reports for the statements of one operation is an input of that
operation: a statement may fail, and a query may stop early.
-/

namespace PalmWebKit
namespace Cookie

open WString

structure CookieService where
  /-- The open database, `none` for a null `m_db`. -/
  db : Option CookieTable
  cache : CookieLruCache

/-- What a lookup knows besides the stored cookies. -/
structure Query where
  /-- The host without its trailing dot. -/
  host : WString
  path : WString
  protocol : WString
  /-- The application suffix appended to domain tails. -/
  appId : WString
  now : Int
  deriving DecidableEq, Repr

namespace Query

/-- The key a lookup selects by. -/
def hostTail (query : Query) : WString := Cookie.hostTail query.host ++ query.appId

/-- The domain of a cookie: its head and its tail without the suffix. -/
def entryDomain (query : Query) (entry : CookieEntry) : WString :=
  entry.domainHead ++ entry.domainTail.take (entry.domainTail.length - query.appId.length)

/-- A secure cookie is skipped on any other protocol, before its expiry is
looked at. -/
def insecure (query : Query) (entry : CookieEntry) : Bool :=
  entry.isSecure && query.protocol ≠ lit "https"

def expired (query : Query) (entry : CookieEntry) : Bool :=
  entry.expires ≠ -1 && entry.expires < query.now

def matchesUrl (query : Query) (entry : CookieEntry) : Bool :=
  domainTailMatch query.host (query.entryDomain entry) &&
    subPathMatch query.path entry.path

/-- The cookie is found expired by a lookup. -/
def dropped (query : Query) (entry : CookieEntry) : Bool :=
  !query.insecure entry && query.expired entry

/-- The cookie is sent. -/
def selected (query : Query) (entry : CookieEntry) : Bool :=
  !query.insecure entry && !query.expired entry && query.matchesUrl entry

end Query

def addSeparator (cookieStr : WString) : WString :=
  if cookieStr ≠ [] then cookieStr ++ lit "; " else cookieStr

/-- The cache path leaves out the name of a nameless cookie, with its `=`. -/
def appendCached (cookieStr : WString) (entry : CookieEntry) : WString :=
  let cookieStr := addSeparator cookieStr
  let cookieStr := if entry.name ≠ [] then cookieStr ++ entry.name ++ lit "=" else cookieStr
  cookieStr ++ entry.value

/-- The database path always writes the name and `=`. -/
def appendRow (cookieStr : WString) (entry : CookieEntry) : WString :=
  addSeparator cookieStr ++ entry.name ++ lit "=" ++ entry.value

/-- The loop over a cached set. -/
def cachedLoop (query : Query) : WString → List CookieEntry → WString
  | cookieStr, [] => cookieStr
  | cookieStr, entry :: rest =>
    if query.insecure entry then cachedLoop query cookieStr rest
    else if query.expired entry then cachedLoop query cookieStr rest
    else if query.matchesUrl entry then
      cachedLoop query (appendCached cookieStr entry) rest
    else
      cachedLoop query cookieStr rest

/-- What the loop over the rows of a query has done so far. -/
structure RowsRead where
  cache : CookieLruCache
  cookieStr : WString
  expiredCookies : List CookieEntry

/-- The loop over the rows of a query. -/
def rowsLoop (query : Query) : RowsRead → List CookieEntry → RowsRead
  | read, [] => read
  | read, entry :: rest =>
    let read := { read with cache := read.cache.addCookie entry }
    if query.insecure entry then rowsLoop query read rest
    else if query.expired entry then
      rowsLoop query
        { read with expiredCookies := read.expiredCookies ++ [entry] } rest
    else if query.matchesUrl entry then
      rowsLoop query
        { read with cookieStr := appendRow read.cookieStr entry } rest
    else
      rowsLoop query read rest

/-- The expired cookies of a lookup leave the table.  The statement binds the
path of the cookie to the column `name` and its name to the column `path`. -/
def deleteExpired (table : CookieTable) (expired : List CookieEntry) : CookieTable :=
  expired.foldl
    (fun table entry => table.deleteCookie entry.domainTail entry.domainHead
      entry.path entry.name)
    table

/-- The expired cookies of a lookup leave the cache. -/
def uncacheExpired (cache : CookieLruCache) (expired : List CookieEntry) : CookieLruCache :=
  expired.foldl
    (fun cache entry => cache.delCookie entry.domainHead entry.domainTail
      entry.path entry.name)
    cache

/-- What SQLite reports for the statements of one operation. -/
structure SqlOutcome where
  /-- The `INSERT` steps to `SQLITE_DONE`. -/
  insertDone : Bool
  /-- The transaction of `DELETE`s is committed. -/
  deleteDone : Bool
  /-- Rows delivered before the query fails; `none` when it does not. -/
  rowsDelivered : Option Nat
  deriving DecidableEq, Repr

/-- Every statement succeeds. -/
def SqlOutcome.success : SqlOutcome where
  insertDone := true
  deleteDone := true
  rowsDelivered := none

/-- The rows a query delivers. -/
def SqlOutcome.delivered (outcome : SqlOutcome) (rows : List CookieEntry) : List CookieEntry :=
  match outcome.rowsDelivered with
  | none => rows
  | some count => rows.take count

/-- The entry that a header asks to store: its domain is split at the second
dot and the tail gets the application suffix. -/
def ParsedCookie.entry (parsed : ParsedCookie) (appId : WString) : CookieEntry :=
  let secondDotPos := secondDotFromTailPos parsed.domain
  { domainHead := left parsed.domain (secondDotPos + 1)
    domainTail := parsed.domain.drop (secondDotPos + 1) ++ appId
    path := parsed.path
    name := parsed.name
    value := parsed.value
    expires := parsed.expires
    isSecure := parsed.isSecure }

namespace CookieService

section Operations

variable (parseDate : WString → Int)

def setCookies (service : CookieService) (url : KURL) (cookieStr appId : WString) (now : Int)
    (outcome : SqlOutcome) : CookieService :=
  match service.db with
  | none => service
  | some table =>
    match parseCookie parseDate now (cookieStr.take maxCookieLen) url with
    | none => service
    | some parsed =>
      let entry := parsed.entry appId
      if entry.expires ≠ -1 ∧ entry.expires ≤ now then
        { db := some
            (if outcome.deleteDone then
              table.deleteCookie entry.domainTail entry.domainHead
                entry.name entry.path
            else table)
          cache := service.cache.delCookie entry.domainHead
            entry.domainTail entry.path entry.name }
      else
        { db := some
            (if outcome.insertDone then table.insert entry else table)
          cache := service.cache.addCookie entry }

/-- The query of a lookup; `none` when the host or the path is empty. -/
def queryFor (url : KURL) (appId : WString) (now : Int) : Option Query :=
  let host :=
    if endsWith url.host (lit ".") then url.host.take (url.host.length - 1)
    else url.host
  if host.isEmpty || url.path.isEmpty then none
  else some { host, path := url.path, protocol := url.protocol, appId, now }

/-- The database path of a lookup. -/
def lookupRows (query : Query) (table : CookieTable) (cache : CookieLruCache)
    (outcome : SqlOutcome) : WString × CookieService :=
  let rows := outcome.delivered (table.select query.hostTail)
  let read := rowsLoop query { cache, cookieStr := [], expiredCookies := [] } rows
  let expired := read.expiredCookies
  let cleaned := uncacheExpired read.cache expired
  (read.cookieStr,
    { db := some (if outcome.deleteDone then deleteExpired table expired else table)
      cache :=
        if rows.isEmpty then cleaned.addDummyCookieEntrySet query.hostTail
        else cleaned })

def cookies (service : CookieService) (url : KURL) (appId : WString) (now : Int)
    (outcome : SqlOutcome) : WString × CookieService :=
  match service.db, queryFor url appId now with
  | some table, some query =>
    let (entrySet, cache) := service.cache.cookieEntrySet query.hostTail
    match entrySet with
    | some entrySet => (cachedLoop query [] entrySet.entries, { service with cache })
    | none => lookupRows query table cache outcome
  | _, _ => ([], service)

/-- `clear`: drop the tables, close the database and open it again.  `found`
is what opening finds in a file whose tables were not dropped, `none` when it
cannot be opened. -/
def clear (service : CookieService) (runningInBrowserServer : Bool)
    (found : Option CookieTable) : CookieService where
  db := found.map fun table =>
    if service.db.isSome then CookieTable.empty
    else if runningInBrowserServer then table.deleteSession
    else table
  cache := service.cache.clear

def clearForDomain (service : CookieService) (url : KURL) (outcome : SqlOutcome) : CookieService :=
  match service.db with
  | none => service
  | some table =>
    let domain := getDomainForUrl url
    if domain.isEmpty then service
    else
      let (domainHead, domainTail) := (splitDomain domain).getD ([], [])
      { db := some
          (if outcome.deleteDone then table.deleteDomain domainTail domainHead
          else table)
        cache := service.cache.clear }

def copyCookiesToDomain (service : CookieService) (srcUrl dstUrl : KURL)
    (outcome : SqlOutcome) : CookieService :=
  match service.db with
  | none => service
  | some table =>
    if (getDomainForUrl srcUrl).isEmpty || (getDomainForUrl dstUrl).isEmpty then
      service
    else
      match splitDomain (getDomainForUrl srcUrl), splitDomain (getDomainForUrl dstUrl) with
      | some (srcHead, srcTail), some (dstHead, dstTail) =>
        { db := some
            (if outcome.insertDone then
              table.copyDomain dstHead dstTail srcHead srcTail
            else table)
          cache := service.cache.clear }
      | _, _ => service

end Operations

/-- The operations of the service with everything they read. -/
inductive Operation
  | setCookies
      (url : KURL) (cookieStr appId : WString) (now : Int)
      (outcome : SqlOutcome)
  | cookies (url : KURL) (appId : WString) (now : Int) (outcome : SqlOutcome)
  | clear (runningInBrowserServer : Bool) (found : Option CookieTable)
  | clearForDomain (url : KURL) (outcome : SqlOutcome)
  | copyCookiesToDomain (srcUrl dstUrl : KURL) (outcome : SqlOutcome)

/-- The state after an operation. -/
def step (parseDate : WString → Int) (service : CookieService) : Operation → CookieService
  | .setCookies url cookieStr appId now outcome =>
    service.setCookies parseDate url cookieStr appId now outcome
  | .cookies url appId now outcome => (service.cookies url appId now outcome).2
  | .clear runningInBrowserServer found => service.clear runningInBrowserServer found
  | .clearForDomain url outcome => service.clearForDomain url outcome
  | .copyCookiesToDomain srcUrl dstUrl outcome => service.copyCookiesToDomain srcUrl dstUrl outcome

/-- The service after `init` on a database: nothing is cached. -/
def start (db : Option CookieTable) (maxCount : Nat) : CookieService where
  db := db
  cache := CookieLruCache.create maxCount

end CookieService
end Cookie
end PalmWebKit
