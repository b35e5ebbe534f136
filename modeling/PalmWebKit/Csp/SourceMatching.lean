import PalmWebKit.Csp.SourcePieces

/-!
# Source matching against the grammar

Where the matcher and the grammar differ on one source: the sources that the matcher reads
too widely, and those that the parser does not read.  Everywhere else they agree.
-/

namespace PalmWebKit
namespace Csp

section Tests

variable (env : Environment)

/-- A port that the parser reads. -/
def IsReadablePort (text : WString) : Prop :=
  text = [star] ∨ (IsNumber text ∧ portNumber text < 2 ^ 31)

/-- The URL has the host behind the wildcard itself. -/
def ApexMatches (host urlHost : WString) : Prop :=
  ∃ name, IsHostName name ∧ host = subdomainsOf name ∧ equalIgnoringCase env urlHost name = true

/-- A host that ends in a dot is found in the URL. -/
def DottedMatches (host urlHost : WString) : Prop :=
  ∃ name, IsDottedName name ∧ ((host = name ∧ equalIgnoringCase env urlHost name = true) ∨
      (host = subdomainsOf name ∧ (equalIgnoringCase env urlHost name = true ∨
          endsWithIgnoringCase env urlHost (WString.dot :: name) = true)))

/-- A port that is zero, or too large for a port and the default one modulo `2 ^ 16`. -/
def PortMisread (scheme : WString) (port : Option WString) (urlPort : Nat) : Prop :=
  ∃ text, port = some text ∧ IsNumber text ∧ portNumber text < 2 ^ 31 ∧
    ((portNumber text = 0 ∧ urlPort ≠ 0 ∧ urlPort = defaultPort env scheme) ∨
      (urlPort = 0 ∧ 2 ^ 16 ≤ portNumber text ∧ scheme ≠ [] ∧
        portNumber text % 2 ^ 16 = defaultPort env scheme))

/-- A path that ends in a slash is a prefix only up to case. -/
def PathMiscased (path urlPath : WString) : Prop :=
  path ≠ [] ∧ WString.endsWith (parsePath path) [WString.slash] = true ∧
    startsWithIgnoringCase env (Text.decodeURLEscapeSequences urlPath)
      (parsePath path) = true ∧
      ¬ parsePath path <+: Text.decodeURLEscapeSequences urlPath

/-- The sources that match a URL in the code and not under the grammar: an authority that
is empty, a wildcard for the whole host behind a scheme, which leaves the port and the path
out, and a host with one of the four tests that are too wide. -/
inductive Misread (url : KURL) : SourcePieces → Prop
  | emptyAuthority
      (scheme : WString)
      (isScheme : IsScheme scheme)
      (sameScheme : equalIgnoringCase env url.protocol scheme = true) :
      Misread url (.emptyAuthority scheme)
  | wildcardOnly
      (scheme host : WString)
      (port : Option WString)
      (path : WString)
      (isScheme : IsScheme scheme)
      (isWildcard : host = anyHost ∨ host = subdomainsOf [])
      (isPort : ∀ text ∈ port, IsReadablePort text)
      (isPath : IsPath path)
      (sameScheme : equalIgnoringCase env url.protocol scheme = true)
      (differs : host = anyHost →
        ¬ (PortMatches env scheme port url.port ∧ PathMatches path url.path)) :
      Misread url (.hostSource (some scheme) host port path)
  | named
      (scheme : Option WString)
      (host : WString)
      (port : Option WString)
      (path : WString)
      (isScheme : ∀ text ∈ scheme, IsScheme text)
      (isRead : scheme = none → port = none → path = [])
      (isHost : host ≠ anyHost)
      (isPort : ∀ text ∈ port, IsReadablePort text)
      (isPath : IsPath path)
      (sameScheme : equalIgnoringCase env url.protocol (scheme.getD env.protocol) = true)
      (hostFound : (IsHost host ∧ HostMatches env host url.host) ∨
        ApexMatches env host url.host ∨ DottedMatches env host url.host)
      (portFound : PortMatches env (scheme.getD env.protocol) port url.port ∨
        PortMisread env (scheme.getD env.protocol) port url.port)
      (pathFound : PathMatches path url.path ∨ PathMiscased env path url.path)
      (differs : ApexMatches env host url.host ∨ DottedMatches env host url.host ∨
        PortMisread env (scheme.getD env.protocol) port url.port ∨
        PathMiscased env path url.path) : Misread url (.hostSource scheme host port path)

/-- The sources of the grammar that the code does not read: a path behind a host without a
scheme and a port, and a wildcard for the whole host without a scheme. -/
def IsUnread : SourcePieces → Prop
  | .hostSource none host port path => (port = none ∧ path ≠ []) ∨ (host = anyHost ∧ port ≠ none)
  | _ => False

end Tests

section Components

variable {env : Environment} {source : CSPSource} {url : KURL}

theorem defaultPort_lt (env : Environment) (scheme : WString) :
    defaultPort env scheme < 2 ^ 16 := by
  unfold defaultPort
  repeat' split
  all_goals decide

theorem defaultPort_nil (env : Environment) : defaultPort env [] = 0 := by
  have differs : ∀ text : String, text.toList ≠ [] →
      equalIgnoringCase env [] (WString.lit text) = false := by
    intro text nonempty
    simp [equalIgnoringCase, WString.lit, nonempty]
  simp [defaultPort, differs]

theorem parsePath_ne_nil {path : WString} (isPath : IsPath path) (present : path ≠ []) :
    parsePath path ≠ [] := by
  rcases isPath with absent | startsWithSlash
  · exact absurd absent present
  · cases path with
    | nil => cases startsWithSlash
    | cons unit path =>
      cases Option.some.inj startsWithSlash
      exact List.cons_ne_nil _ _

/-- The test of the path is the grammar's, with prefixes up to case. -/
theorem pathMatches_iff {path : WString} (isPath : IsPath path)
    (atSource : source.path = if path ≠ [] then parsePath path else []) :
    source.pathMatches env url = true ↔
      PathMatches path url.path ∨ PathMiscased env path url.path := by
  unfold CSPSource.pathMatches PathMatches PathMiscased
  rw [atSource]
  by_cases absent : path = []
  · simp [absent]
  · rw [if_pos absent, if_neg (parsePath_ne_nil isPath absent)]
    by_cases isDirectory : WString.endsWith (parsePath path) [WString.slash] = true
    · have isPrefix : parsePath path <+: Text.decodeURLEscapeSequences url.path →
          startsWithIgnoringCase env (Text.decodeURLEscapeSequences url.path)
            (parsePath path) = true := by
        rintro ⟨rest, equal⟩
        rw [← equal, startsWithIgnoringCase, WString.startsWith, List.isPrefixOf_iff_prefix,
          List.map_append]
        exact List.prefix_append _ _
      simp only [absent, false_or, ne_eq, not_false_eq_true, isDirectory, true_and]
      by_cases exact : parsePath path <+: Text.decodeURLEscapeSequences url.path
      · simp [exact, isPrefix exact]
      · simp [exact]
    · simp [isDirectory, absent]

theorem isDefaultPortForProtocol_iff (port : Nat) (scheme : WString) :
    isDefaultPortForProtocol env port scheme = true ↔
      scheme ≠ [] ∧ port % 2 ^ 16 = defaultPort env scheme := by
  unfold isDefaultPortForProtocol
  by_cases noScheme : scheme = []
  · simp [noScheme]
  · rw [if_neg noScheme, decide_eq_true_iff]
    exact ⟨fun equal => ⟨noScheme, equal.symm⟩, fun both => both.2.symm⟩

/-- The test of the port is the grammar's, with the ports that are misread. -/
theorem portMatches_iff {port : Option WString} (small : url.port < 2 ^ 16)
    (isRead : (port.map parsePort).getD (some (0, false)) =
      some (source.port, source.portHasWildcard)) : source.portMatches env url = true ↔
      PortMatches env source.scheme port url.port ∨
        PortMisread env source.scheme port url.port := by
  have unnamed := defaultPort_nil env
  have defaultSmall := defaultPort_lt env source.scheme
  unfold CSPSource.portMatches PortMatches PortMisread
  cases port with
  | none =>
    obtain ⟨noPort, noWildcard⟩ := Prod.mk.inj (Option.some.inj isRead)
    rw [← noPort, ← noWildcard, if_neg Bool.false_ne_true]
    by_cases urlPort : url.port = 0
    · simp [urlPort]
    · rw [if_neg urlPort, if_neg urlPort, if_pos rfl, isDefaultPortForProtocol_iff,
        Nat.mod_eq_of_lt small]
      simp only [urlPort, false_or, reduceCtorEq, false_and, exists_const, or_false]
      refine ⟨fun both => both.2, fun isDefault => ⟨fun noScheme => ?_, isDefault⟩⟩
      rw [noScheme] at isDefault
      exact urlPort isDefault
  | some text =>
    rw [Option.map_some, Option.getD_some, parsePort_eq_some_iff] at isRead
    rcases isRead with ⟨isStar, -, wildcard⟩ | ⟨isNumber, fits, number, noWildcard⟩
    · rw [if_pos wildcard]
      exact iff_of_true rfl (.inl (.inl isStar))
    · have notStar : text ≠ [star] := fun isStar =>
        absurd (isNumber.2 star (by simp [isStar])) (by decide)
      have misread : (∃ other, some text = some other ∧ IsNumber other ∧
          portNumber other < 2 ^ 31 ∧ ((portNumber other = 0 ∧ url.port ≠ 0 ∧
                url.port = defaultPort env source.scheme) ∨
              (url.port = 0 ∧ 2 ^ 16 ≤ portNumber other ∧ source.scheme ≠ [] ∧
                portNumber other % 2 ^ 16 = defaultPort env source.scheme))) ↔
          (source.port = 0 ∧ url.port ≠ 0 ∧ url.port = defaultPort env source.scheme) ∨
            (url.port = 0 ∧ 2 ^ 16 ≤ source.port ∧ source.scheme ≠ [] ∧
              source.port % 2 ^ 16 = defaultPort env source.scheme) := by
        rw [number]
        exact ⟨fun ⟨_, equal, _, _, cases⟩ => Option.some.inj equal ▸ cases,
          fun cases => ⟨text, rfl, isNumber, fits, cases⟩⟩
      rw [misread, noWildcard, if_neg Bool.false_ne_true]
      simp only [notStar, false_or, ← number]
      by_cases same : url.port = source.port
      · simp [same]
      by_cases noUrlPort : url.port = 0
      · rw [if_neg same, if_pos noUrlPort, isDefaultPortForProtocol_iff]
        by_cases noScheme : source.scheme = []
        · rw [noScheme]
          simp only [ne_eq, not_true_eq_false, false_and, and_false, or_false, false_iff]
          omega
        · simp only [noScheme, ne_eq, not_false_eq_true, true_and]
          omega
      · rw [if_neg same, if_neg noUrlPort]
        by_cases noPort : source.port = 0
        · rw [if_pos noPort, isDefaultPortForProtocol_iff, Nat.mod_eq_of_lt small]
          by_cases noScheme : source.scheme = []
          · rw [noScheme, unnamed]
            simp only [ne_eq, not_true_eq_false, false_and, and_false, or_false, false_iff]
            omega
          · simp only [noScheme, ne_eq, not_false_eq_true, true_and]
            omega
        · rw [if_neg noPort]
          simp only [Bool.false_eq_true, false_iff]
          omega

theorem length_le_of_endsWith {text ending : WString}
    (ends : endsWithIgnoringCase env text ending = true) : ending.length ≤ text.length := by
  rw [endsWithIgnoringCase, WString.endsWith_iff] at ends
  simpa using ends.length_le

theorem length_eq_of_equal {first second : WString}
    (equal : equalIgnoringCase env first second = true) : first.length = second.length := by
  have mapped := of_decide_eq_true equal
  simpa using congrArg List.length mapped

theorem subdomainsOf_inj {first second : WString}
    (equal : subdomainsOf first = subdomainsOf second) : first = second := by
  simpa [subdomainsOf] using equal

variable {name : WString}

theorem not_isHostName_subdomainsOf :
    ¬ (IsHostName (subdomainsOf name) ∨ IsDottedName (subdomainsOf name)) :=
  fun isName => head_ne_star isName rfl

theorem ne_anyHost (isName : IsHostName name ∨ IsDottedName name) :
    name ≠ anyHost := head_ne_star isName

theorem subdomainsOf_ne_anyHost : subdomainsOf name ≠ anyHost := by
  simp [subdomainsOf, anyHost]

theorem getLast?_of_isHostName (isName : IsHostName name) : name.getLast? ≠ some WString.dot := by
  induction isName with
  | label text nonempty characters =>
    intro isLast
    have isHost := characters _ (List.mem_of_getLast? isLast)
    exact absurd isHost (by decide)
  | dotted text rest nonempty characters isName ih =>
    cases rest with
    | nil => exact absurd rfl isName.ne_nil
    | cons unit rest => simpa [List.getLast?_cons] using ih

theorem not_isHost_of_isDottedName {name host : WString} (isDotted : IsDottedName name)
    (isName : host = name ∨ host = subdomainsOf name) : ¬ IsHost host := by
  have notName : ¬ IsHostName name := by
    obtain ⟨other, -, rfl⟩ := isDotted
    exact fun isHostName => getLast?_of_isHostName isHostName (by simp)
  rcases isName with rfl | rfl
  · rintro (isAny | isHostName | ⟨other, equal, -⟩)
    · exact ne_anyHost (.inr isDotted) isAny
    · exact notName isHostName
    · rw [equal] at isDotted
      exact not_isHostName_subdomainsOf (.inr isDotted)
  · rintro (isAny | isHostName | ⟨other, equal, isHostName⟩)
    · exact subdomainsOf_ne_anyHost isAny
    · exact not_isHostName_subdomainsOf (.inl isHostName)
    · exact notName (subdomainsOf_inj equal ▸ isHostName)

/-- The test of a host with a name is the grammar's, or finds the name behind a wildcard or
one that ends in a dot. -/
theorem hostMatches_iff {host : WString}
    (isName : IsHostName source.host ∨ IsDottedName source.host)
    (isRead : host = if source.hostHasWildcard then subdomainsOf source.host else source.host) :
    source.hostMatches env url = true ↔ (IsHost host ∧ HostMatches env host url.host) ∨
        ApexMatches env host url.host ∨ DottedMatches env host url.host := by
  unfold CSPSource.hostMatches
  cases wildcard : source.hostHasWildcard with
  | true =>
    rw [wildcard] at isRead
    subst isRead
    simp only [Bool.true_and, Bool.or_eq_true]
    constructor
    · intro found
      rcases isName with isHostName | isDotted
      · rcases found with atApex | below
        · exact .inr (.inl ⟨_, isHostName, rfl, atApex⟩)
        · exact .inl ⟨.inr (.inr ⟨_, rfl, isHostName⟩), .inr (.inl ⟨_, rfl, below⟩)⟩
      · exact .inr (.inr ⟨_, isDotted, .inr ⟨rfl, found⟩⟩)
    · rintro (⟨-, isAny | ⟨name, equal, below⟩ | ⟨isHostName, -⟩⟩ |
        ⟨name, -, equal, atApex⟩ | ⟨name, isDotted, ⟨equal, -⟩ | ⟨equal, found⟩⟩)
      · exact absurd isAny subdomainsOf_ne_anyHost
      · rw [subdomainsOf_inj equal]
        exact .inr below
      · exact absurd (.inl isHostName) not_isHostName_subdomainsOf
      · rw [subdomainsOf_inj equal]
        exact .inl atApex
      · rw [← equal] at isDotted
        exact absurd (.inr isDotted) not_isHostName_subdomainsOf
      · rw [subdomainsOf_inj equal]
        exact found
  | false =>
    rw [wildcard, if_neg Bool.false_ne_true] at isRead
    subst isRead
    simp only [Bool.false_and, Bool.or_false]
    have notSubdomains : ∀ name, source.host ≠ subdomainsOf name := fun name equal =>
      not_isHostName_subdomainsOf (equal ▸ isName)
    constructor
    · intro found
      rcases isName with isHostName | isDotted
      · exact .inl ⟨.inr (.inl isHostName), .inr (.inr ⟨isHostName, found⟩)⟩
      · exact .inr (.inr ⟨_, isDotted, .inl ⟨rfl, found⟩⟩)
    · rintro (⟨-, isAny | ⟨name, equal, -⟩ | ⟨-, found⟩⟩ |
        ⟨name, -, equal, -⟩ | ⟨name, isDotted, ⟨equal, found⟩ | ⟨equal, -⟩⟩)
      · exact absurd isAny (ne_anyHost isName)
      · exact absurd equal (notSubdomains name)
      · exact found
      · exact absurd equal (notSubdomains name)
      · rw [equal]
        exact found
      · exact absurd equal (notSubdomains name)

end Components

section Pieces

variable (env : Environment)

/-- The source that the parts of a text become. -/
def sourceOf (parts : SourceParts) : CSPSource :=
  { scheme := if parts.scheme = [] then env.protocol else parts.scheme
    host := parts.host, port := parts.port, path := parts.path
    hostHasWildcard := parts.hostHasWildcard, portHasWildcard := parts.portHasWildcard }

/-- What the list does with the parts: without a scheme and a host it drops them. -/
def partsMatch (url : KURL) (parts : SourceParts) : Bool :=
  !(parts.scheme = [] && parts.host = []) && (sourceOf env parts).isMatch env url

variable {env} {url : KURL}

variable {scheme : WString}

theorem IsScheme.ne_nil (isScheme : IsScheme scheme) : scheme ≠ [] := by
  obtain ⟨first, rest, rfl, -⟩ := isScheme
  exact List.cons_ne_nil _ _

theorem schemeOnly_matches_iff (parts : SourceParts)
    (isParts : parts = { scheme, host := [], port := 0, path := [], hostHasWildcard := false
                         portHasWildcard := false })
    (nonempty : scheme ≠ []) : partsMatch env url parts = true ↔
      equalIgnoringCase env url.protocol scheme = true := by
  subst isParts
  simp [partsMatch, sourceOf, nonempty, CSPSource.isMatch, CSPSource.isSchemeOnly,
    CSPSource.schemeMatches]

theorem parse_hostSource_eq_some_iff {scheme port : Option WString} {host path : WString}
    {parts : SourceParts} : (SourcePieces.hostSource scheme host port path).parse = some parts ↔
      (scheme = none → port = none → path = []) ∧ (∀ text ∈ scheme, IsScheme text) ∧
        parts.scheme = scheme.getD [] ∧ parseHost host = some (parts.host, parts.hostHasWildcard) ∧
            (port.map parsePort).getD (some (0, false)) = some (parts.port, parts.portHasWildcard) ∧
              parts.path = if path ≠ [] then parsePath path else [] := by
  rw [SourcePieces.parse]
  by_cases unread : scheme = none ∧ port = none ∧ path ≠ []
  · rw [if_pos unread]
    simp only [reduceCtorEq, false_iff]
    exact fun read => unread.2.2 (read.1 unread.1 unread.2.1)
  · have isRead : scheme = none → port = none → path = [] := by
      intro noScheme noPort
      by_contra present
      exact unread ⟨noScheme, noPort, present⟩
    have schemeRead : ∀ text, scheme.elim (some []) parseScheme = some text ↔
        (∀ other ∈ scheme, IsScheme other) ∧ text = scheme.getD [] := by
      intro text
      cases scheme with
      | none => simp [eq_comm]
      | some scheme => simpa using parseScheme_eq_some_iff scheme text
    rw [if_neg unread, Option.bind_eq_some_iff]
    constructor
    · rintro ⟨text, isText, equal⟩
      obtain ⟨isScheme, rfl⟩ := (schemeRead text).1 isText
      split at equal
      · rename_i hostRead portRead
        cases equal
        exact ⟨isRead, isScheme, rfl, hostRead, portRead, rfl⟩
      · cases equal
    · rintro ⟨-, isScheme, schemeEqual, hostRead, portRead, pathEqual⟩
      refine ⟨scheme.getD [], (schemeRead _).2 ⟨isScheme, rfl⟩, ?_⟩
      rw [hostRead, portRead]
      rw [← schemeEqual, ← pathEqual]

variable {port : Option WString}

theorem readablePort_of_read {number : Nat} {hasWildcard : Bool}
    (isRead : (port.map parsePort).getD (some (0, false)) = some (number, hasWildcard)) :
    ∀ text ∈ port, IsReadablePort text := by
  rintro text isPort
  cases Option.mem_def.1 isPort
  rw [Option.map_some, Option.getD_some, parsePort_eq_some_iff] at isRead
  rcases isRead with ⟨isStar, -⟩ | ⟨isNumber, fits, -⟩
  · exact .inl isStar
  · exact .inr ⟨isNumber, fits⟩

theorem exists_read_of_readablePort (isPort : ∀ text ∈ port, IsReadablePort text) :
    ∃ number hasWildcard,
      (port.map parsePort).getD (some (0, false)) = some (number, hasWildcard) := by
  cases port with
  | none => exact ⟨0, false, rfl⟩
  | some text =>
    simp only [Option.map_some, Option.getD_some, parsePort_eq_some_iff]
    rcases isPort text rfl with isStar | ⟨isNumber, fits⟩
    · exact ⟨0, true, .inl ⟨isStar, rfl, rfl⟩⟩
    · exact ⟨_, false, .inr ⟨isNumber, fits, rfl, rfl⟩⟩

variable {host urlHost : WString}

/-- A host that is found in a URL has a name. -/
theorem exists_name_of_hostFound (notAny : host ≠ anyHost)
    (hostFound : (IsHost host ∧ HostMatches env host urlHost) ∨
      ApexMatches env host urlHost ∨ DottedMatches env host urlHost) :
    ∃ (name : WString) (hasWildcard : Bool), (IsHostName name ∨ IsDottedName name) ∧
      host = if hasWildcard then subdomainsOf name else name := by
  rcases hostFound with ⟨isAny | isHostName | ⟨name, equal, isHostName⟩, -⟩ |
    ⟨name, isHostName, equal, -⟩ | ⟨name, isDotted, ⟨equal, -⟩ | ⟨equal, -⟩⟩
  · exact absurd isAny notAny
  · exact ⟨host, false, .inl isHostName, rfl⟩
  · exact ⟨name, true, .inl isHostName, equal⟩
  · exact ⟨name, true, .inl isHostName, equal⟩
  · exact ⟨name, false, .inr isDotted, equal⟩
  · exact ⟨name, true, .inr isDotted, equal⟩

theorem isMatch_iff {source : CSPSource} :
    source.isMatch env url = true ↔ source.schemeMatches env url = true ∧
        (source.host = [] ∨ (source.hostMatches env url = true ∧ source.portMatches env url = true ∧
              source.pathMatches env url = true)) := by
  unfold CSPSource.isMatch CSPSource.isSchemeOnly
  cases source.schemeMatches env url with
  | false => simp
  | true => by_cases noHost : source.host = [] <;> simp [noHost, and_assoc]

theorem scheme_sourceOf {parts : SourceParts} {scheme : Option WString}
    (isScheme : ∀ text ∈ scheme, IsScheme text) (equal : parts.scheme = scheme.getD []) :
    (sourceOf env parts).scheme = scheme.getD env.protocol := by
  cases scheme with
  | none => simp [sourceOf, equal]
  | some scheme => simp [sourceOf, equal, (isScheme scheme rfl).ne_nil]

theorem ne_nil_of_isName {name : WString} (isName : IsHostName name ∨ IsDottedName name) :
    name ≠ [] := by
  rcases isName with isHostName | ⟨other, -, rfl⟩
  · exact isHostName.ne_nil
  · simp

/-- When the code matches a source with a host: it reads the parts, the scheme is equal, and
either a wildcard for the whole host is behind a scheme or the three tests pass. -/
theorem hostSource_accepted_iff {scheme port : Option WString} {host path : WString}
    (small : url.port < 2 ^ 16) (isPath : IsPath path) :
    (SourcePieces.hostSource scheme host port path).parse.any
        (partsMatch env url) = true ↔
      (scheme = none → port = none → path = []) ∧ (∀ text ∈ scheme, IsScheme text) ∧
        (∀ text ∈ port, IsReadablePort text) ∧ equalIgnoringCase env url.protocol
              (scheme.getD env.protocol) = true ∧
            ((scheme ≠ none ∧ (host = anyHost ∨ host = subdomainsOf [])) ∨ (host ≠ anyHost ∧
                ((IsHost host ∧ HostMatches env host url.host) ∨
                  ApexMatches env host url.host ∨ DottedMatches env host url.host) ∧
                (PortMatches env (scheme.getD env.protocol) port url.port ∨
                  PortMisread env (scheme.getD env.protocol) port url.port) ∧
                (PathMatches path url.path ∨ PathMiscased env path url.path))) := by
  have acceptedName : ∀ {parts : SourceParts}, (∀ text ∈ scheme, IsScheme text) →
      parts.scheme = scheme.getD [] → IsHostName parts.host ∨ IsDottedName parts.host →
      host = (if parts.hostHasWildcard then subdomainsOf parts.host else parts.host) →
      (port.map parsePort).getD (some (0, false)) = some (parts.port, parts.portHasWildcard) →
      parts.path = (if path ≠ [] then parsePath path else []) →
      (partsMatch env url parts = true ↔
        equalIgnoringCase env url.protocol (scheme.getD env.protocol) = true ∧
          ((IsHost host ∧ HostMatches env host url.host) ∨
            ApexMatches env host url.host ∨ DottedMatches env host url.host) ∧
          (PortMatches env (scheme.getD env.protocol) port url.port ∨
            PortMisread env (scheme.getD env.protocol) port url.port) ∧
          (PathMatches path url.path ∨ PathMiscased env path url.path)) := by
    intro parts isScheme schemeEqual isName hostEqual portRead pathEqual
    have sourceScheme := @scheme_sourceOf env parts scheme isScheme schemeEqual
    have nonempty := ne_nil_of_isName isName
    have atHost := @hostMatches_iff env (sourceOf env parts) url host isName
      hostEqual
    have atPort := @portMatches_iff env (sourceOf env parts) url port small
      portRead
    have atPath := @pathMatches_iff env (sourceOf env parts) url path isPath
      pathEqual
    have atScheme : (sourceOf env parts).schemeMatches env url = true ↔
        equalIgnoringCase env url.protocol
          (scheme.getD env.protocol) = true := by
      rw [CSPSource.schemeMatches, sourceScheme]
    rw [sourceScheme] at atPort
    have hasHost : (sourceOf env parts).host ≠ [] := nonempty
    rw [partsMatch, Bool.and_eq_true, isMatch_iff, atScheme, atHost, atPort, atPath]
    simp [nonempty, hasHost]
  constructor
  · intro accepted
    obtain ⟨parts, parsed, found⟩ := (Option.any_eq_true _ _).1 accepted
    obtain ⟨isRead, isScheme, schemeEqual, hostRead, portRead, pathEqual⟩ :=
      parse_hostSource_eq_some_iff.1 parsed
    refine ⟨isRead, isScheme, readablePort_of_read portRead, ?_⟩
    rcases (parseHost_eq_some_iff _ _ _).1 hostRead with
      ⟨-, noHost, isWildcard⟩ | ⟨isName, hostEqual⟩
    · rw [partsMatch, Bool.and_eq_true, isMatch_iff, CSPSource.schemeMatches,
        scheme_sourceOf isScheme schemeEqual] at found
      refine ⟨found.2.1, .inl ⟨fun noScheme => ?_, isWildcard⟩⟩
      rw [schemeEqual, noScheme] at found
      simp [noHost] at found
    · have tests := (acceptedName isScheme schemeEqual isName hostEqual portRead pathEqual).1 found
      refine ⟨tests.1, .inr ⟨fun isAny => ?_, tests.2⟩⟩
      rw [hostEqual] at isAny
      split at isAny
      · exact subdomainsOf_ne_anyHost isAny
      · exact ne_anyHost isName isAny
  · rintro ⟨isRead, isScheme, isPort, sameScheme, wildcardOnly | ⟨notAny, tests⟩⟩
    · obtain ⟨number, portHasWildcard, portRead⟩ := exists_read_of_readablePort isPort
      obtain ⟨hasScheme, isWildcard⟩ := wildcardOnly
      let parts : SourceParts :=
        { scheme := scheme.getD [], host := [], port := number
          path := if path ≠ [] then parsePath path else [], hostHasWildcard := true
          portHasWildcard }
      have parsed : (SourcePieces.hostSource scheme host port path).parse = some parts :=
        parse_hostSource_eq_some_iff.2 ⟨isRead, isScheme, rfl,
          (parseHost_eq_some_iff _ _ _).2 (.inl ⟨rfl, rfl, isWildcard⟩), portRead, rfl⟩
      refine (Option.any_eq_true _ _).2 ⟨parts, parsed, ?_⟩
      have schemeNonempty : parts.scheme ≠ [] := by
        cases scheme with
        | none => exact absurd rfl hasScheme
        | some scheme => exact (isScheme scheme rfl).ne_nil
      rw [partsMatch, Bool.and_eq_true, isMatch_iff, CSPSource.schemeMatches,
        scheme_sourceOf isScheme rfl]
      exact ⟨by simp [schemeNonempty], sameScheme, .inl rfl⟩
    · obtain ⟨name, hasWildcard, isName, hostEqual⟩ := exists_name_of_hostFound notAny tests.1
      obtain ⟨number, portHasWildcard, portRead⟩ := exists_read_of_readablePort isPort
      let parts : SourceParts :=
        { scheme := scheme.getD [], host := name, port := number
          path := if path ≠ [] then parsePath path else [], hostHasWildcard := hasWildcard
          portHasWildcard }
      have parsed : (SourcePieces.hostSource scheme host port path).parse = some parts :=
        parse_hostSource_eq_some_iff.2 ⟨isRead, isScheme, rfl,
          (parseHost_eq_some_iff _ _ _).2 (.inr ⟨isName, hostEqual⟩), portRead, rfl⟩
      refine (Option.any_eq_true _ _).2 ⟨parts, parsed, ?_⟩
      exact (@acceptedName parts isScheme rfl isName hostEqual portRead rfl).2
        ⟨sameScheme, tests⟩

theorem IsReadablePort.isPort {text : WString} (readable : IsReadablePort text) :
    IsPort text := readable.imp_right And.left

/-- A port that matches is small enough to be read. -/
theorem readablePort_of_matches {urlPort : Nat} (small : urlPort < 2 ^ 16)
    (isPort : ∀ text ∈ port, IsPort text) (found : PortMatches env scheme port urlPort) :
    ∀ text ∈ port, IsReadablePort text := by
  rintro text isText
  cases Option.mem_def.1 isText
  have defaultSmall := defaultPort_lt env scheme
  rcases isPort text rfl with isStar | isNumber
  · exact .inl isStar
  · refine .inr ⟨isNumber, ?_⟩
    rcases found with isStar | same | ⟨-, isDefault⟩
    · exact absurd (isNumber.2 star (by simp [isStar])) (by decide)
    · omega
    · omega

theorem not_portMatches_of_misread {urlPort : Nat}
    (misread : PortMisread env scheme port urlPort) : ¬ PortMatches env scheme port urlPort := by
  obtain ⟨text, rfl, isNumber, -, differs⟩ := misread
  rintro (isStar | same | ⟨noUrlPort, isDefault⟩)
  · exact absurd (isNumber.2 star (by simp [isStar])) (by decide)
  · omega
  · omega

theorem not_pathMatches_of_miscased {path urlPath : WString}
    (miscased : PathMiscased env path urlPath) : ¬ PathMatches path urlPath := by
  obtain ⟨present, isDirectory, -, notPrefix⟩ := miscased
  rintro (absent | found)
  · exact present absent
  · rw [if_pos isDirectory] at found
    exact notPrefix found

theorem not_hostMatches_of_apex (atApex : ApexMatches env host urlHost) :
    ¬ HostMatches env host urlHost := by
  obtain ⟨name, -, rfl, equal⟩ := atApex
  rintro (isAny | ⟨other, isOther, below⟩ | ⟨isHostName, -⟩)
  · exact subdomainsOf_ne_anyHost isAny
  · have sameLength := length_eq_of_equal equal
    have longer := length_le_of_endsWith below
    rw [← subdomainsOf_inj isOther, List.length_cons] at longer
    omega
  · exact not_isHostName_subdomainsOf (.inl isHostName)

theorem not_isHost_of_dotted (dotted : DottedMatches env host urlHost) : ¬ IsHost host := by
  obtain ⟨name, isDotted, isName⟩ := dotted
  exact not_isHost_of_isDottedName isDotted (isName.imp And.left And.left)

theorem not_isHost_subdomainsOf_nil : ¬ IsHost (subdomainsOf []) := by
  rintro (isAny | isHostName | ⟨name, equal, isHostName⟩)
  · exact subdomainsOf_ne_anyHost isAny
  · exact not_isHostName_subdomainsOf (.inl isHostName)
  · exact isHostName.ne_nil (subdomainsOf_inj equal).symm

variable {pieces : SourcePieces}

/-- A misread source is not one of the grammar that matches. -/
theorem Misread.not_matches (misread : Misread env url pieces) :
    ¬ (pieces.Valid ∧ pieces.Matches env url) := by
  rintro ⟨valid, found⟩
  cases misread with
  | emptyAuthority => exact valid
  | wildcardOnly scheme host port path _ isWildcard _ _ _ differs =>
    rcases isWildcard with isAny | rfl
    · exact differs isAny found.2.2
    · exact not_isHost_subdomainsOf_nil valid.2.1
  | named scheme host port path _ _ _ _ _ _ _ _ _ differs =>
    obtain ⟨-, atHost, atPort, atPath⟩ := found
    rcases differs with atApex | dotted | misread | miscased
    · exact not_hostMatches_of_apex atApex atHost
    · exact not_isHost_of_dotted dotted valid.2.1
    · exact not_portMatches_of_misread misread atPort
    · exact not_pathMatches_of_miscased miscased atPath

theorem schemeParts_accepted_iff (scheme : WString) : ((parseScheme scheme).map fun scheme =>
        ({ scheme, host := [], port := 0, path := [], hostHasWildcard := false
           portHasWildcard := false } : SourceParts)).any (partsMatch env url) = true ↔
      IsScheme scheme ∧ equalIgnoringCase env url.protocol scheme = true := by
  by_cases isScheme : IsScheme scheme
  · rw [(parseScheme_eq_some_iff scheme scheme).2 ⟨isScheme, rfl⟩, Option.map_some,
      Option.any_some, schemeOnly_matches_iff _ rfl isScheme.ne_nil]
    exact (and_iff_right isScheme).symm
  · cases parsed : parseScheme scheme with
    | none => simp [isScheme]
    | some text => exact absurd ((parseScheme_eq_some_iff scheme text).1 parsed).1 isScheme

/-- What the code matches beyond the grammar is what it misreads. -/
theorem accepted_beyond_iff (small : url.port < 2 ^ 16)
    (isPath : ∀ scheme host port path, pieces = .hostSource scheme host port path → IsPath path) :
    pieces.parse.any (partsMatch env url) = true ∧ ¬ (pieces.Valid ∧ pieces.Matches env url) ↔
      Misread env url pieces := by
  cases pieces with
  | schemeOnly scheme =>
    rw [SourcePieces.parse, schemeParts_accepted_iff]
    refine ⟨fun both => absurd both.1 both.2, fun misread => by cases misread⟩
  | emptyAuthority scheme =>
    rw [SourcePieces.parse, schemeParts_accepted_iff]
    constructor
    · exact fun both => .emptyAuthority scheme both.1.1 both.1.2
    · intro misread
      cases misread with
      | emptyAuthority _ isScheme sameScheme => exact ⟨⟨isScheme, sameScheme⟩, fun both => both.1⟩
  | hostSource scheme host port path =>
    have startsPath := isPath scheme host port path rfl
    rw [hostSource_accepted_iff small startsPath]
    constructor
    · rintro ⟨⟨isRead, isScheme, isPort, sameScheme, tests⟩, differs⟩
      have validPort : ∀ text ∈ port, IsPort text := fun text isText => (isPort text isText).isPort
      rcases tests with ⟨hasScheme, isWildcard⟩ | ⟨notAny, hostFound, portFound, pathFound⟩
      · cases scheme with
        | none => exact absurd rfl hasScheme
        | some scheme =>
          refine .wildcardOnly scheme host port path (isScheme scheme rfl) isWildcard isPort
            startsPath sameScheme fun isAny both => differs ?_
          exact ⟨⟨isScheme, .inl isAny, validPort, startsPath⟩, sameScheme, .inl isAny, both⟩
      · refine .named scheme host port path isScheme isRead notAny isPort startsPath
          sameScheme hostFound portFound pathFound ?_
        by_contra exact
        push Not at exact
        obtain ⟨notApex, notDotted, notMisread, notMiscased⟩ := exact
        have atHost := hostFound.resolve_right (not_or.2 ⟨notApex, notDotted⟩)
        exact differs ⟨⟨isScheme, atHost.1, validPort, startsPath⟩, sameScheme, atHost.2,
          portFound.resolve_right notMisread, pathFound.resolve_right notMiscased⟩
    · intro misread
      refine ⟨?_, misread.not_matches⟩
      cases misread with
      | wildcardOnly scheme _ _ _ isScheme isWildcard isPort _ sameScheme _ =>
        refine ⟨by simp, ?_, isPort, sameScheme, .inl ⟨by simp, isWildcard⟩⟩
        rintro text isText
        cases Option.mem_def.1 isText
        exact isScheme
      | named _ _ _ _ isScheme isRead notAny isPort _ sameScheme hostFound portFound pathFound =>
        exact ⟨isRead, isScheme, isPort, sameScheme, .inr ⟨notAny, hostFound, portFound, pathFound⟩⟩

/-- A source of the grammar that matches is matched by the code unless it is not read. -/
theorem accepted_iff_of_matches (small : url.port < 2 ^ 16) (notStar : pieces.text ≠ anyHost)
    (valid : pieces.Valid) (found : pieces.Matches env url) :
    pieces.parse.any (partsMatch env url) = true ↔ ¬ IsUnread pieces := by
  cases pieces with
  | schemeOnly scheme =>
    rw [SourcePieces.parse, schemeParts_accepted_iff]
    exact iff_of_true ⟨valid, found⟩ not_false
  | emptyAuthority scheme => exact absurd valid not_false
  | hostSource scheme host port path =>
    obtain ⟨isScheme, isHost, isPort, isPath⟩ := valid
    obtain ⟨sameScheme, atHost, atPort, atPath⟩ := found
    rw [hostSource_accepted_iff small isPath]
    have readable := readablePort_of_matches small isPort atPort
    cases scheme with
    | some scheme =>
      refine iff_of_true ⟨by simp, isScheme, readable, sameScheme, ?_⟩ not_false
      by_cases isAny : host = anyHost
      · exact .inl ⟨by simp, .inl isAny⟩
      · exact .inr ⟨isAny, .inl ⟨isHost, atHost⟩, .inl atPort, .inl atPath⟩
    | none =>
      rw [IsUnread]
      constructor
      · rintro ⟨isRead, -, -, -, ⟨hasScheme, -⟩ | ⟨notAny, -⟩⟩
        · exact absurd rfl hasScheme
        · rintro (⟨noPort, hasPath⟩ | ⟨isAny, -⟩)
          · exact hasPath (isRead rfl noPort)
          · exact notAny isAny
      · intro isRead
        push Not at isRead
        refine ⟨fun _ => isRead.1, isScheme, readable, sameScheme, .inr ⟨?_, .inl ⟨isHost,
          atHost⟩, .inl atPort, .inl atPath⟩⟩
        intro isAny
        have noPort := isRead.2 isAny
        refine notStar ?_
        rw [isAny, noPort, isRead.1 noPort]
        rfl

end Pieces

end Csp
end PalmWebKit
