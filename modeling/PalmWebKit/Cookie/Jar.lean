import PalmWebKit.Cookie.HotCold

/-!
# The cookie jar

`CookieJar` is the entry to the cookie services for documents.  A document
belongs to an application, known by the identifier of the client of its frame.
In the browser server every application has a service with a database of its
own.  Elsewhere all share one service, and the identifier goes into the domain
tail: `amazon.com-my.app.com` for the cookies of `my.app.com` at `amazon.com`.
-/

namespace PalmWebKit
namespace Cookie

open WString

/-- The settings that the jar reads. -/
structure JarSettings where
  acceptCookies : Bool
  runningInBrowserServer : Bool
  deriving DecidableEq, Repr

/-- `isspace` of the C library. -/
def isspace (unit : UChar) : Bool := unit = 32 || (9 ≤ unit && unit ≤ 13)

/-- The process id is tacked on to the end of an identifier. -/
def withoutProcessId (identifier : WString) : WString :=
  identifier.takeWhile fun unit => !isspace unit

/-- The application of a document; empty for a document without a client. -/
def appIdentifier (identifier : Option WString) : WString :=
  (identifier.map withoutProcessId).getD []

/-- What is appended to the domain tails of an application. -/
def appIdSuffix (app : WString) : WString :=
  if app ≠ [] then dash :: app else []

/-- Empty in the browser server and for `file:` URLs. -/
def getAppIdDomainTail (settings : JarSettings) (identifier : Option WString)
    (url : KURL) : WString :=
  if settings.runningInBrowserServer ∨ lit "file" <:+: lower url.protocol then []
  else appIdSuffix (appIdentifier identifier)

/-- The services by the application they were created for; one not yet created
is the one that `sharedInstance` would create. -/
abbrev CookieJar := WString → CookieService

namespace CookieJar

/-- Services on empty databases. -/
def start (maxCount : Nat) : CookieJar :=
  fun _ => CookieService.start (some CookieTable.empty) maxCount

/-- The application whose service a document uses. -/
def serviceId (settings : JarSettings) (identifier : Option WString) : WString :=
  if settings.runningInBrowserServer then appIdentifier identifier else []

/-- A call of the jar for a document with everything it reads. -/
structure Request where
  identifier : Option WString
  url : KURL
  now : Int
  outcome : SqlOutcome

def setCookies (settings : JarSettings) (parseDate : WString → Int) (jar : CookieJar)
    (request : Request) (value : WString) : CookieJar :=
  if settings.acceptCookies then
    let service := serviceId settings request.identifier
    Function.update jar service
      ((jar service).setCookies parseDate request.url value (getAppIdDomainTail settings
        request.identifier request.url) request.now request.outcome)
  else
    jar

def cookies (settings : JarSettings) (jar : CookieJar) (request : Request) : WString × CookieJar :=
  let service := serviceId settings request.identifier
  let (cookieStr, next) :=
    (jar service).cookies request.url
      (getAppIdDomainTail settings request.identifier request.url)
      request.now request.outcome
  (cookieStr, Function.update jar service next)

/-- The cookies whose names and values `cookies` returns. -/
def returned (settings : JarSettings) (jar : CookieJar) (request : Request) : List CookieEntry :=
  (jar (serviceId settings request.identifier)).sent request.url
    (getAppIdDomainTail settings request.identifier request.url)
    request.now request.outcome

/-- Calls of the jar. -/
inductive Call
  | setCookies (request : Request) (value : WString)
  | cookies (request : Request)

def step (settings : JarSettings) (parseDate : WString → Int) (jar : CookieJar) : Call → CookieJar
  | .setCookies request value => jar.setCookies settings parseDate request value
  | .cookies request => (jar.cookies settings request).2

end CookieJar
end Cookie
end PalmWebKit
