import PalmWebKit.Cookie.Domain

/-!
# Set-Cookie headers

`CookieService::parseCookie` reads the name, the value and the attributes of
one `Set-Cookie` header.  Dates are left to `parseDate`, a parameter here; it
answers `-1` for a text it cannot read.
-/

namespace PalmWebKit
namespace Cookie

open WString

/-- `kMaxCookieLen` -/
def maxCookieLen : Nat := 5100

/-- What a header says about a cookie. -/
structure ParsedCookie where
  domain : WString
  path : WString
  name : WString
  value : WString
  expires : Int
  isSecure : Bool
  deriving DecidableEq, Repr

/-- The attributes read so far.  An empty domain or path was not given. -/
structure Attributes where
  domain : WString
  path : WString
  expires : Int
  isSecure : Bool
  deriving DecidableEq, Repr

section Parse

variable (parseDate : WString → Int) (now : Int)

/-- One turn of the attribute loop; `none` rejects the header. -/
def parseAttribute (attributes : Attributes) (text : WString) : Option Attributes :=
  match find text equals with
  | none =>
    if stripWhiteSpace (lower text) = lit "secure" then
      some { attributes with isSecure := true }
    else
      some attributes
  | some splitPos =>
    let key := stripWhiteSpace (lower (left text splitPos))
    let val := stripWhiteSpace (text.drop (splitPos + 1))
    if key = lit "domain" then
      some { attributes with
        domain := if startsWith val (lit ".") then val else lit "." ++ val }
    else if key = lit "path" then
      some { attributes with path := val }
    else if key = lit "max-age" then
      match toInt64 val with
      | none => none
      | some age => some { attributes with expires := (age + now).bmod (2 ^ 64) }
    else if key = lit "expires" then
      if val.isEmpty then some { attributes with expires := -1 }
      else if parseDate val = -1 then none
      else some { attributes with expires := parseDate val }
    else
      some attributes

/-- The attribute loop. -/
def parseAttributes : Attributes → List WString → Option Attributes
  | attributes, [] => some attributes
  | attributes, text :: rest =>
    (parseAttribute parseDate now attributes text).bind fun next => parseAttributes next rest

/-- Name and value: without `=` the whole text is the value. -/
def parseNameValue (text : WString) : WString × WString :=
  match find text equals with
  | none => ([], text)
  | some splitPos => (stripWhiteSpace (left text splitPos), text.drop (splitPos + 1))

/-- The path of a cookie: the one given without its last slash, or the
directory of the URL.  `none` when the URL has no path either. -/
def cookiePath (given : WString) (url : KURL) : Option WString :=
  if given.isEmpty then
    if url.path.isEmpty then none
    else if url.path = lit "/" then some url.path
    else
      match reverseFind url.path slash with
      | none => some url.path
      | some lastSlashPos => some (substring url.path 0 lastSlashPos)
  else if given ≠ lit "/" ∧ charAt given (given.length - 1) = slash then
    some (substring given 0 (given.length - 1))
  else
    some given

/-- The domain of a cookie; `none` when neither the header nor the URL has
one. -/
def cookieDomain (given : WString) (url : KURL) : Option WString :=
  if given.isEmpty then
    let domain := getDomainForUrl url
    if domain.isEmpty then none else some domain
  else
    some given

/-- The domain has a dot other than its first and its last code unit. -/
def hasEmbeddedDot (domain : WString) : Bool :=
  (substring domain 1 (domain.length - 2)).contains dot

def parseCookie (cookieStr : WString) (url : KURL) : Option ParsedCookie :=
  match split cookieStr semicolon with
  | [] => none
  | first :: rest =>
    let (name, value) := parseNameValue first
    if startsWith name (lit "$") then none
    else
      let start : Attributes := { domain := [], path := [], expires := -1, isSecure := false }
      (parseAttributes parseDate now start rest).bind fun attributes =>
        (cookieDomain attributes.domain url).bind fun domain =>
          (cookiePath attributes.path url).bind fun path =>
            if !hasEmbeddedDot domain then none
            else if !domainTailMatch url.host domain then none
            else if name.contains 9 || path.contains 9 then none
            else
              some
                { domain, path, name, value
                  expires := attributes.expires
                  isSecure := attributes.isSecure }

/-- The key of an attribute with an `=`. -/
def attributeKey (text : WString) : Option WString :=
  (find text equals).map fun splitPos => stripWhiteSpace (lower (left text splitPos))

/-- The value of an attribute with an `=`. -/
def attributeValue (text : WString) : Option WString :=
  (find text equals).map fun splitPos => stripWhiteSpace (text.drop (splitPos + 1))

/-- What one turn of the attribute loop changes. -/
theorem parseAttribute_cases {attributes next : Attributes} {text : WString}
    (parsed : parseAttribute parseDate now attributes text = some next) :
    (next = attributes ∨ next = { attributes with isSecure := true }) ∨
    (∃ val, attributeKey text = some (lit "domain") ∧ next = { attributes with
        domain := if startsWith val (lit ".") then val else lit "." ++ val }) ∨
    (∃ val, attributeKey text = some (lit "path") ∧ next = { attributes with path := val }) ∨
    (∃ val age, attributeKey text = some (lit "max-age") ∧
      attributeValue text = some val ∧ toInt64 val = some age ∧
      next = { attributes with expires := (age + now).bmod (2 ^ 64) }) ∨
    ∃ date, attributeKey text = some (lit "expires") ∧
      next = { attributes with expires := date } := by
  unfold parseAttribute at parsed
  unfold attributeKey attributeValue
  cases found : find text equals with
  | none =>
    rw [found] at parsed
    dsimp only at parsed
    split_ifs at parsed
    · exact .inl (.inr (Option.some.inj parsed).symm)
    · exact .inl (.inl (Option.some.inj parsed).symm)
  | some splitPos =>
    rw [found] at parsed
    dsimp only at parsed
    simp only [Option.map_some, Option.some.injEq]
    by_cases isDomain : stripWhiteSpace (lower (left text splitPos)) = lit "domain"
    · rw [if_pos isDomain] at parsed
      exact .inr (.inl ⟨_, isDomain, (Option.some.inj parsed).symm⟩)
    rw [if_neg isDomain] at parsed
    by_cases isPath : stripWhiteSpace (lower (left text splitPos)) = lit "path"
    · rw [if_pos isPath] at parsed
      exact .inr (.inr (.inl ⟨_, isPath, (Option.some.inj parsed).symm⟩))
    rw [if_neg isPath] at parsed
    by_cases isMaxAge : stripWhiteSpace (lower (left text splitPos)) = lit "max-age"
    · rw [if_pos isMaxAge] at parsed
      cases isNumber : toInt64 (stripWhiteSpace (text.drop (splitPos + 1))) with
      | none =>
        rw [isNumber] at parsed
        cases parsed
      | some age =>
        rw [isNumber] at parsed
        exact .inr (.inr (.inr (.inl
          ⟨_, age, isMaxAge, rfl, isNumber, (Option.some.inj parsed).symm⟩)))
    rw [if_neg isMaxAge] at parsed
    by_cases isExpires : stripWhiteSpace (lower (left text splitPos)) = lit "expires"
    · split_ifs at parsed
      all_goals
        exact .inr (.inr (.inr (.inr ⟨_, isExpires, (Option.some.inj parsed).symm⟩)))
    · rw [if_neg isExpires] at parsed
      exact .inl (.inl (Option.some.inj parsed).symm)

/-- A run of the attribute loop over two parts. -/
theorem parseAttributes_append (attributes : Attributes) (texts rest : List WString) :
    parseAttributes parseDate now attributes (texts ++ rest) =
      (parseAttributes parseDate now attributes texts).bind fun next =>
        parseAttributes parseDate now next rest := by
  induction texts generalizing attributes with
  | nil => rfl
  | cons text texts ih =>
    rw [List.cons_append, parseAttributes, parseAttributes, Option.bind_assoc]
    congr 1
    funext next
    exact ih next

/-- The parts of an accepted header. -/
theorem parseCookie_attributes {cookieStr : WString} {url : KURL} {parsed : ParsedCookie}
    (accepted : parseCookie parseDate now cookieStr url = some parsed) :
    ∃ first rest attributes, split cookieStr semicolon = first :: rest ∧
      parseAttributes parseDate now
          { domain := [], path := [], expires := -1, isSecure := false } rest =
        some attributes ∧
      cookieDomain attributes.domain url = some parsed.domain ∧
      cookiePath attributes.path url = some parsed.path ∧
      parsed.expires = attributes.expires ∧ parsed.isSecure = attributes.isSecure := by
  unfold parseCookie at accepted
  split at accepted
  · simp at accepted
  · next first rest texts =>
    simp only at accepted
    split at accepted
    · simp at accepted
    · obtain ⟨attributes, parsedAttributes, accepted⟩ := Option.bind_eq_some_iff.1 accepted
      obtain ⟨domain, isDomain, accepted⟩ := Option.bind_eq_some_iff.1 accepted
      obtain ⟨path, isPath, accepted⟩ := Option.bind_eq_some_iff.1 accepted
      split_ifs at accepted
      cases accepted
      exact ⟨first, rest, attributes, texts, parsedAttributes, isDomain, isPath, rfl, rfl⟩

/-- An accepted domain is long enough to have a tail. -/
theorem parseCookie_domain {cookieStr : WString} {url : KURL} {parsed : ParsedCookie}
    (accepted : parseCookie parseDate now cookieStr url = some parsed) :
    hasEmbeddedDot parsed.domain = true ∧
      domainTailMatch url.host parsed.domain = true := by
  unfold parseCookie at accepted
  split at accepted
  · simp at accepted
  · simp only at accepted
    split at accepted
    · simp at accepted
    · obtain ⟨attributes, -, accepted⟩ := Option.bind_eq_some_iff.1 accepted
      obtain ⟨domain, -, accepted⟩ := Option.bind_eq_some_iff.1 accepted
      obtain ⟨path, -, accepted⟩ := Option.bind_eq_some_iff.1 accepted
      split_ifs at accepted with noDot noMatch tab
      cases accepted
      exact ⟨by simpa using noDot, by simpa using noMatch⟩

theorem two_le_length_of_hasEmbeddedDot {domain : WString}
    (embedded : hasEmbeddedDot domain = true) : 2 ≤ domain.length := by
  by_contra short
  have noRoom : domain.length - 2 = 0 := by omega
  simp [hasEmbeddedDot, substring, noRoom] at embedded

example : parseCookie (fun _ => -1) 0 (lit "a=1; path=/x/; secure")
        ⟨lit "http", lit "www.a.b", 80, lit "/"⟩ =
      some ⟨lit ".www.a.b", lit "/x", lit "a", lit "1", -1, true⟩ := by
  decide

end Parse

end Cookie
end PalmWebKit
