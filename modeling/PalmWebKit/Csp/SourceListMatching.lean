import PalmWebKit.Csp.SourceMatching

/-!
# Source lists against the grammar

When a source list matches a URL exactly if one of its source expressions does under the
grammar.
-/

namespace PalmWebKit
namespace Csp

open List

section Expressions

variable (env : Environment) (url : KURL)

/-- The source that stands for the origin. -/
def selfSource : CSPSource :=
  { scheme := env.protocol, host := env.host, port := env.port
    path := [], hostHasWildcard := false, portHasWildcard := false }

/-- Whether the source that a text adds to the list matches. -/
def expressionFound (text : WString) : Bool :=
  match parseSource env text with
  | none => false
  | some .star => true
  | some .self => (selfSource env).isMatch env url
  | some .unsafeInline => false
  | some .unsafeEval => false
  | some (.parts parts) => partsMatch env url parts

/-- A source expression that matches in the code and not under the grammar: a misread
source, `'self'` in a context without a host, which stands for the scheme, or a piece of
`'self'` that is taken for it. -/
def ExpressionMisread (text : WString) : Prop :=
  (∃ pieces : SourcePieces, pieces.text = text ∧ Misread env url pieces) ∨
    (isKeyword env "'self'" text = true ∧ env.host = [] ∧
      equalIgnoringCase env url.protocol env.protocol = true ∧ ¬ SelfMatches env url) ∨
    (isKeyword env "'self'" text = false ∧
      equalsLiteral env "'self'" 0 text = true ∧ (SelfMatches env url ∨ (env.host = [] ∧
            equalIgnoringCase env url.protocol env.protocol = true)))

/-- A source expression of the grammar that the code does not read. -/
def ExpressionUnread (text : WString) : Prop :=
  ∃ pieces : SourcePieces, pieces.text = text ∧ pieces.Valid ∧ IsUnread pieces

variable {env url}

theorem IsScheme.characters {scheme : WString} (isScheme : IsScheme scheme) :
    ∀ unit ∈ scheme, isNotColonOrSlash unit = true := by
  obtain ⟨first, rest, rfl, isAlpha, continues⟩ := isScheme
  have notColonOrSlash : ∀ unit : UChar, isSchemeContinuationCharacter unit = true →
      isNotColonOrSlash unit = true := by
    intro unit continues
    unfold isNotColonOrSlash
    by_contra isEither
    have equal : unit = colon ∨ unit = WString.slash := by
      by_contra neither
      exact isEither (by simp_all)
    rcases equal with rfl | rfl <;> revert continues <;> decide
  intro unit member
  rcases mem_cons.1 member with rfl | later
  · exact notColonOrSlash _ (by simp [isSchemeContinuationCharacter, isASCIIAlphanumeric, isAlpha])
  · exact notColonOrSlash unit (continues unit later)

theorem characters_of_isName {name host : WString} (isName : IsHostName name ∨ IsDottedName name)
    (isHost : host = name ∨ host = subdomainsOf name) :
    host ≠ [] ∧ ∀ unit ∈ host, isNotColonOrSlash unit = true := by
  have inName : ∀ unit ∈ name, isNotColonOrSlash unit = true := by
    intro unit member
    rcases isName with isHostName | ⟨other, isHostName, rfl⟩
    · exact isNotColonOrSlash_of_isHostCharacter (isHostName.characters unit member)
    · rcases mem_append.1 member with inOther | atEnd
      · exact isNotColonOrSlash_of_isHostCharacter (isHostName.characters unit inOther)
      · rw [mem_singleton] at atEnd
        exact isNotColonOrSlash_of_isHostCharacter (.inr atEnd)
  rcases isHost with rfl | rfl
  · exact ⟨ne_nil_of_isName isName, inName⟩
  · refine ⟨by simp [subdomainsOf], ?_⟩
    intro unit member
    rcases mem_cons.1 member with rfl | behindStar
    · decide
    · rcases mem_cons.1 behindStar with rfl | inside
      · decide
      · exact inName unit inside

variable {text : WString}

theorem IsPort.isCut (isPort : IsPort text) : text ≠ [] ∧ ∀ unit ∈ text, unit ≠ WString.slash := by
  rcases isPort with rfl | isNumber
  · exact ⟨by simp, by simp [star, WString.slash]⟩
  · refine ⟨isNumber.1, fun unit member isSlash => ?_⟩
    have isDigit := isNumber.2 unit member
    rw [isSlash] at isDigit
    exact absurd isDigit (by decide)

/-- The parts of a source of the grammar are the parts the parser cuts. -/
theorem SourcePieces.Valid.isCut {pieces : SourcePieces} (valid : pieces.Valid) : pieces.IsCut := by
  cases pieces with
  | schemeOnly scheme => exact IsScheme.characters valid
  | emptyAuthority scheme => exact absurd valid not_false
  | hostSource scheme host port path =>
    obtain ⟨isScheme, isHost, isPort, isPath⟩ := valid
    have atHost : host ≠ [] ∧ ∀ unit ∈ host, isNotColonOrSlash unit = true := by
      rcases isHost with rfl | isHostName | ⟨name, isHost, isHostName⟩
      · exact ⟨by decide, fun unit member => by rw [mem_singleton.1 member]; decide⟩
      · exact characters_of_isName (.inl isHostName) (.inl rfl)
      · exact characters_of_isName (.inl isHostName) (.inr isHost)
    exact ⟨fun text isText => (isScheme text isText).characters, atHost.1, atHost.2,
      fun text isText => IsPort.isCut (isPort text isText), isPath⟩

theorem Misread.isCut {pieces : SourcePieces} (misread : Misread env url pieces) :
    pieces.IsCut := by
  cases misread with
  | emptyAuthority scheme isScheme => exact isScheme.characters
  | wildcardOnly scheme host port path isScheme isWildcard isPort isPath =>
    refine ⟨?_, ?_, ?_, fun text isText => IsPort.isCut (isPort text isText).isPort, isPath⟩
    · intro text isText
      cases Option.mem_def.1 isText
      exact isScheme.characters
    · rcases isWildcard with rfl | rfl <;> decide
    · simp only [anyHost, subdomainsOf] at isWildcard
      rcases isWildcard with rfl | rfl <;>
        simp [isNotColonOrSlash, star, colon, WString.slash, WString.dot]
  | named scheme host port path isScheme _ notAny isPort isPath _ hostFound =>
    obtain ⟨name, hasWildcard, isName, equal⟩ := exists_name_of_hostFound notAny hostFound
    have atHost := @characters_of_isName name host isName
      (by cases hasWildcard <;> simp_all)
    exact ⟨fun text isText => (isScheme text isText).characters, atHost.1, atHost.2,
      fun text isText => IsPort.isCut (isPort text isText).isPort, isPath⟩

theorem accepted_of_parse (text : WString) :
    ((parseSourceParts text).any (partsMatch env url) = true) ↔
      ∃ pieces, readPieces text = some pieces ∧
        pieces.parse.any (partsMatch env url) = true := by
  rw [parseSourceParts_eq]
  cases readPieces text <;> simp

theorem expressionFound_iff (text : WString) (notStar : text ≠ anyHost)
    (notSelf : equalsLiteral env "'self'" 0 text ≠ true)
    (notInline : equalsLiteral env "'unsafe-inline'" 0 text ≠ true)
    (notEval : equalsLiteral env "'unsafe-eval'" 0 text ≠ true) :
    expressionFound env url text = true ↔ ∃ pieces, readPieces text = some pieces ∧
        pieces.parse.any (partsMatch env url) = true := by
  rw [← accepted_of_parse]
  unfold expressionFound parseSource
  by_cases isEmpty : text = []
  · rw [isEmpty]
    simp [parseSourceParts, parseHost]
  rw [if_neg isEmpty, if_neg (show text ≠ [star] from notStar), if_neg notSelf,
    if_neg notInline, if_neg notEval]
  cases parseSourceParts text <;> simp

/-- The origin's own source matches the origin, and every URL of the scheme when the origin
has no host. -/
theorem selfSource_matches_iff (originSmall : env.port < 2 ^ 16)
    (small : url.port < 2 ^ 16) : (selfSource env).isMatch env url = true ↔ SelfMatches env url ∨
        (env.host = [] ∧
          equalIgnoringCase env url.protocol env.protocol = true) := by
  have atPort : (selfSource env).portMatches env url = true ↔ (url.port = env.port ∨
        (url.port = 0 ∧ env.port = defaultPort env env.protocol) ∨
        (env.port = 0 ∧
          url.port = defaultPort env env.protocol)) := by
    have unnamed := defaultPort_nil env
    unfold CSPSource.portMatches selfSource
    rw [if_neg Bool.false_ne_true]
    by_cases same : url.port = env.port
    · simp [same]
    · rw [if_neg same]
      by_cases noScheme : env.protocol = []
      · have never : ∀ port, isDefaultPortForProtocol env port [] = false :=
          fun _ => if_pos rfl
        simp only [noScheme, never, unnamed, ite_self, Bool.false_eq_true, false_iff]
        omega
      · by_cases noUrlPort : url.port = 0
        · rw [if_pos noUrlPort, isDefaultPortForProtocol_iff]
          simp only [ne_eq, noScheme, not_false_eq_true, true_and]
          omega
        · rw [if_neg noUrlPort]
          by_cases noPort : env.port = 0
          · rw [if_pos noPort, isDefaultPortForProtocol_iff]
            simp only [ne_eq, noScheme, not_false_eq_true, true_and]
            omega
          · rw [if_neg noPort]
            simp only [Bool.false_eq_true, false_iff]
            omega
  rw [isMatch_iff]
  simp only [selfSource, CSPSource.schemeMatches, CSPSource.hostMatches, CSPSource.pathMatches,
    Bool.false_and, Bool.or_false, if_true, and_true, SelfMatches]
  tauto

theorem equalsLiteral_of_isKeyword {keyword : String}
    (isKeyword : isKeyword env keyword text = true) : equalsLiteral env keyword 0 text = true := by
  have mapped : (WString.lit keyword).map env.foldCase =
      text.map env.foldCase := of_decide_eq_true isKeyword
  have fromPosition : ∀ (rest : WString) (position : Nat),
      ((WString.lit keyword).drop position).map env.foldCase = rest.map env.foldCase →
          equalsLiteral env keyword position rest = true := by
    intro rest
    induction rest with
    | nil => exact fun _ _ => rfl
    | cons unit rest ih =>
      intro position equal
      have inside : position < (WString.lit keyword).length := by
        by_contra outside
        rw [drop_eq_nil_of_le (Nat.le_of_not_lt outside)] at equal
        cases equal
      rw [drop_eq_getElem_cons inside, map_cons, map_cons, List.cons.injEq] at equal
      have atPosition : memoryAt env keyword position =
          (WString.lit keyword)[position] := by
        rw [memoryAt, getD_eq_getElem?_getD, getElem?_append_left inside,
          getElem?_eq_getElem inside, Option.getD_some]
      rw [equalsLiteral, atPosition, equal.1, ih _ equal.2]
      simp
  exact fromPosition text 0 mapped

/-- `'\''` -/
def quote : UChar := 39

/-- A text that is taken for a keyword starts with a quote, which only a quote folds to. -/
theorem head_of_equalsLiteral
    (quoteFolds : ∀ unit, env.foldCase unit = env.foldCase quote → unit = quote) {keyword : String}
    (startsQuoted : memoryAt env keyword 0 = quote) (nonempty : text ≠ [])
    (equal : equalsLiteral env keyword 0 text = true) : text.head? = some quote := by
  cases text with
  | nil => exact absurd rfl nonempty
  | cons unit rest =>
    rw [equalsLiteral, startsQuoted, Bool.and_eq_true, decide_eq_true_iff] at equal
    rw [head?_cons, quoteFolds unit equal.1]

theorem head_scheme {scheme rest : WString} (isScheme : IsScheme scheme) :
    (scheme ++ rest).head? ≠ some quote := by
  obtain ⟨first, others, rfl, isAlpha, -⟩ := isScheme
  intro isHead
  cases Option.some.inj isHead
  exact absurd isAlpha (by decide)

theorem head_host {name host rest : WString} (isName : IsHostName name ∨ IsDottedName name)
    (isHost : host = name ∨ host = subdomainsOf name) : (host ++ rest).head? ≠ some quote := by
  have named : ∀ {other : WString}, IsHostName other → ∀ behind : WString,
      (other ++ behind).head? ≠ some quote := by
    intro other isHostName behind isHead
    cases other with
    | nil => exact isHostName.ne_nil rfl
    | cons first others =>
      cases Option.some.inj isHead
      rcases isHostName.characters quote (.head _) with isHostUnit | isDot
      · exact absurd isHostUnit (by decide)
      · exact absurd isDot (by decide)
  rcases isHost with rfl | rfl
  · rcases isName with isHostName | ⟨other, isHostName, rfl⟩
    · exact named isHostName rest
    · rw [append_assoc]
      exact named isHostName _
  · simp [subdomainsOf, star, quote]

/-- No source of the grammar, and none that is misread, starts with a quote. -/
theorem SourcePieces.head_text {pieces : SourcePieces}
    (isSource : pieces.Valid ∨ Misread env url pieces) : pieces.text.head? ≠ some quote := by
  have ofScheme : ∀ {scheme : WString} (rest : WString), IsScheme scheme →
      (schemeText (some scheme) ++ rest).head? ≠ some quote := by
    intro scheme rest isScheme
    rw [schemeText, append_assoc]
    exact head_scheme isScheme
  rcases isSource with valid | misread
  · cases pieces with
    | schemeOnly scheme => exact head_scheme valid
    | emptyAuthority scheme => exact absurd valid not_false
    | hostSource scheme host port path =>
      obtain ⟨isScheme, isHost, -⟩ := valid
      cases scheme with
      | some scheme => exact ofScheme _ (isScheme scheme rfl)
      | none =>
        rcases isHost with rfl | isHostName | ⟨name, isHost, isHostName⟩
        · simp [text, schemeText, anyHost, star, quote]
        · rw [text, schemeText, nil_append]
          exact head_host (.inl isHostName) (.inl rfl)
        · rw [text, schemeText, nil_append]
          exact head_host (.inl isHostName) (.inr isHost)
  · cases misread with
    | emptyAuthority scheme isScheme =>
      have found := @ofScheme scheme [] isScheme
      rwa [append_nil] at found
    | wildcardOnly scheme host port path isScheme => exact ofScheme _ isScheme
    | named scheme host port path isScheme _ notAny _ _ _ hostFound =>
      cases scheme with
      | some scheme => exact ofScheme _ (isScheme scheme rfl)
      | none =>
        obtain ⟨name, hasWildcard, isName, equal⟩ := exists_name_of_hostFound notAny hostFound
        have isHost : host = name ∨ host = subdomainsOf name := by
          cases hasWildcard with
          | false => exact .inl equal
          | true => exact .inr equal
        rw [text, schemeText, nil_append]
        exact head_host isName isHost

theorem expressionFound_star : expressionFound env url anyHost = true := by
  rw [expressionFound, parseSource, if_neg (by decide), if_pos (by rfl)]

theorem expressionFound_self (nonempty : text ≠ []) (notStar : text ≠ anyHost)
    (isSelf : equalsLiteral env "'self'" 0 text = true) :
    expressionFound env url text = (selfSource env).isMatch env url := by
  rw [expressionFound, parseSource, if_neg nonempty, if_neg (show text ≠ [star] from notStar),
    if_pos isSelf]

theorem expressionFound_ofUnsafeKeyword (notStar : text ≠ anyHost)
    (notSelf : equalsLiteral env "'self'" 0 text ≠ true)
    (isUnsafe : equalsLiteral env "'unsafe-inline'" 0 text = true ∨
      equalsLiteral env "'unsafe-eval'" 0 text = true) : expressionFound env url text = false := by
  rw [expressionFound, parseSource]
  by_cases isEmpty : text = []
  · rw [if_pos isEmpty]
  · rw [if_neg isEmpty, if_neg (show text ≠ [star] from notStar), if_neg notSelf]
    by_cases isInline : equalsLiteral env "'unsafe-inline'" 0 text = true
    · rw [if_pos isInline]
    · rw [if_neg isInline, if_pos (isUnsafe.resolve_left isInline)]

/-- Under the grammar a text that starts with a quote is a keyword or nothing. -/
theorem expressionMatches_iff_of_quote (isQuoted : text.head? = some quote) :
    ExpressionMatches env url text ↔
      isKeyword env "'self'" text = true ∧ SelfMatches env url := by
  have notStar : text ≠ anyHost := by
    rintro rfl
    exact absurd isQuoted (by decide)
  unfold ExpressionMatches
  rw [if_neg notStar]
  by_cases isSelf : isKeyword env "'self'" text = true
  · simp [isSelf]
  · rw [if_neg isSelf]
    refine iff_of_false ?_ fun both => isSelf both.1
    split
    · exact not_false
    · rintro ⟨pieces, spells, valid, -⟩
      rw [← spells] at isQuoted
      exact @SourcePieces.head_text env url pieces (.inl valid) isQuoted

theorem expressionMatches_iff_of_plain (notStar : text ≠ anyHost)
    (notSelf : equalsLiteral env "'self'" 0 text ≠ true)
    (notInline : equalsLiteral env "'unsafe-inline'" 0 text ≠ true)
    (notEval : equalsLiteral env "'unsafe-eval'" 0 text ≠ true) : ExpressionMatches env url text ↔
      ∃ pieces : SourcePieces, pieces.text = text ∧ pieces.Valid ∧
        pieces.Matches env url := by
  unfold ExpressionMatches
  rw [if_neg notStar, if_neg fun isSelf => notSelf (equalsLiteral_of_isKeyword isSelf),
    if_neg (not_or.2 ⟨fun isInline => notInline (equalsLiteral_of_isKeyword isInline),
      fun isEval => notEval (equalsLiteral_of_isKeyword isEval)⟩)]

section Beyond

variable (quoteFolds : ∀ unit, env.foldCase unit = env.foldCase quote → unit = quote)

include quoteFolds

/-- Where the code takes a text for a keyword, the text starts with a quote. -/
theorem head_of_keyword {text : WString} (nonempty : text ≠ [])
    (isKeyword : equalsLiteral env "'self'" 0 text = true ∨
      equalsLiteral env "'unsafe-inline'" 0 text = true ∨
        equalsLiteral env "'unsafe-eval'" 0 text = true) : text.head? = some quote := by
  rcases isKeyword with equal | equal | equal <;>
    exact head_of_equalsLiteral quoteFolds rfl nonempty equal

omit quoteFolds in
theorem not_misread_of_quote {text : WString} (isQuoted : text.head? = some quote) :
    ¬ ∃ pieces : SourcePieces, pieces.text = text ∧ Misread env url pieces := by
  rintro ⟨pieces, spells, misread⟩
  rw [← spells] at isQuoted
  exact SourcePieces.head_text (.inr misread) isQuoted

omit quoteFolds in
theorem not_misread_of_star :
    ¬ ∃ pieces : SourcePieces, pieces.text = anyHost ∧ Misread env url pieces := by
  rintro ⟨pieces, spells, misread⟩
  have isRead := readPieces_text misread.isCut
  rw [spells] at isRead
  have isPieces : readPieces anyHost = some (.hostSource none anyHost none []) := by decide
  rw [isPieces, Option.some_inj] at isRead
  subst isRead
  cases misread with
  | named _ _ _ _ _ _ notAny => exact notAny rfl

omit quoteFolds in
theorem not_isKeyword_of_length {keyword : String} {text : WString}
    (differs : keyword.toList.length ≠ text.length) : isKeyword env keyword text = false := by
  by_contra isKeyword
  rw [Bool.not_eq_false] at isKeyword
  have sameLength := length_eq_of_equal isKeyword
  rw [WString.lit, length_map] at sameLength
  exact differs sameLength

/-- What the code finds beyond the grammar. -/
theorem expressionFound_beyond_iff (originSmall : env.port < 2 ^ 16)
    (small : url.port < 2 ^ 16) (text : WString) (nonempty : text ≠ []) :
    expressionFound env url text = true ∧ ¬ ExpressionMatches env url text ↔
      ExpressionMisread env url text := by
  have isQuoted := @head_of_keyword env quoteFolds text nonempty
  by_cases isStar : text = anyHost
  · subst isStar
    have notKeyword := @not_isKeyword_of_length env "'self'" anyHost (by decide)
    have notPiece : equalsLiteral env "'self'" 0 anyHost ≠ true := fun equal =>
      absurd (isQuoted (.inl equal)) (by decide)
    simp [ExpressionMatches, ExpressionMisread, not_misread_of_star, notKeyword, notPiece]
  by_cases isSelf : equalsLiteral env "'self'" 0 text = true
  · have isHead := isQuoted (.inl isSelf)
    rw [expressionFound_self nonempty isStar isSelf, selfSource_matches_iff originSmall small,
      expressionMatches_iff_of_quote isHead, ExpressionMisread]
    have notMisread := @not_misread_of_quote env url text isHead
    rcases Bool.eq_false_or_eq_true (isKeyword env "'self'" text) with exactly | pieceOf
    · simp only [exactly, true_and, notMisread, false_or]
      tauto
    · simp only [pieceOf, isSelf, notMisread, false_or]
      tauto
  by_cases isUnsafe : equalsLiteral env "'unsafe-inline'" 0 text = true ∨
      equalsLiteral env "'unsafe-eval'" 0 text = true
  · have isHead := isQuoted (.inr isUnsafe)
    have notMisread := @not_misread_of_quote env url text isHead
    rw [expressionFound_ofUnsafeKeyword isStar isSelf isUnsafe]
    refine iff_of_false (fun both => absurd both.1 (by simp)) ?_
    rintro (misread | ⟨isKeyword, -⟩ | ⟨-, equal, -⟩)
    · exact notMisread misread
    · exact isSelf (equalsLiteral_of_isKeyword isKeyword)
    · exact isSelf equal
  obtain ⟨notInline, notEval⟩ := not_or.1 isUnsafe
  rw [expressionFound_iff text isStar isSelf notInline notEval,
    expressionMatches_iff_of_plain isStar isSelf notInline notEval]
  constructor
  · rintro ⟨⟨pieces, isRead, accepted⟩, notFound⟩
    have spells := text_of_readPieces isRead
    refine .inl ⟨pieces, spells, (accepted_beyond_iff small ?_).1 ⟨accepted, ?_⟩⟩
    · rintro scheme host port path rfl
      exact isPath_of_readPieces isRead
    · exact fun both => notFound ⟨pieces, spells, both.1, both.2⟩
  · rintro (⟨pieces, spells, misread⟩ | ⟨isKeyword, -⟩ | ⟨-, equal, -⟩)
    · have isRead := readPieces_text misread.isCut
      rw [spells] at isRead
      have beyond := (accepted_beyond_iff small (by
        rintro scheme host port path rfl
        exact isPath_of_readPieces isRead)).2 misread
      refine ⟨⟨pieces, isRead, beyond.1⟩, ?_⟩
      rintro ⟨other, otherSpells, valid, found⟩
      have otherRead := readPieces_text valid.isCut
      rw [otherSpells, isRead] at otherRead
      cases otherRead
      exact beyond.2 ⟨valid, found⟩
    · exact absurd (equalsLiteral_of_isKeyword isKeyword) isSelf
    · exact absurd equal isSelf

/-- What the grammar has and the code does not find. -/
theorem expressionMatches_beyond_iff (originSmall : env.port < 2 ^ 16)
    (small : url.port < 2 ^ 16) (text : WString) (nonempty : text ≠ []) :
    ExpressionMatches env url text ∧ expressionFound env url text ≠ true ↔
      ExpressionMatches env url text ∧ ExpressionUnread text := by
  have isQuoted := @head_of_keyword env quoteFolds text nonempty
  have notUnread : text.head? = some quote → ¬ ExpressionUnread text := by
    rintro isHead ⟨pieces, spells, valid, -⟩
    rw [← spells] at isHead
    exact @SourcePieces.head_text env url pieces (.inl valid) isHead
  refine and_congr_right fun found => ?_
  by_cases isStar : text = anyHost
  · subst isStar
    refine iff_of_false (fun notFound => notFound expressionFound_star) ?_
    rintro ⟨pieces, spells, valid, isUnread⟩
    have isRead := readPieces_text valid.isCut
    rw [spells] at isRead
    have isPieces : readPieces anyHost = some (.hostSource none anyHost none []) := by decide
    rw [isPieces, Option.some_inj] at isRead
    subst isRead
    simp [IsUnread] at isUnread
  by_cases isSelf : equalsLiteral env "'self'" 0 text = true
  · have isHead := isQuoted (.inl isSelf)
    have atOrigin := ((expressionMatches_iff_of_quote isHead).1 found).2
    rw [expressionFound_self nonempty isStar isSelf]
    exact iff_of_false
      (fun notFound => notFound ((selfSource_matches_iff originSmall small).2 (.inl atOrigin)))
      (notUnread isHead)
  by_cases isUnsafe : equalsLiteral env "'unsafe-inline'" 0 text = true ∨
      equalsLiteral env "'unsafe-eval'" 0 text = true
  · have isHead := isQuoted (.inr isUnsafe)
    have isKeyword := ((expressionMatches_iff_of_quote isHead).1 found).1
    exact absurd (equalsLiteral_of_isKeyword isKeyword) isSelf
  obtain ⟨notInline, notEval⟩ := not_or.1 isUnsafe
  rw [expressionMatches_iff_of_plain isStar isSelf notInline notEval] at found
  rw [ne_eq, expressionFound_iff text isStar isSelf notInline notEval]
  obtain ⟨pieces, spells, valid, found⟩ := found
  have isRead := readPieces_text valid.isCut
  rw [spells] at isRead
  have accepted := accepted_iff_of_matches small (by rw [spells]; exact isStar) valid found
  constructor
  · intro notAccepted
    refine ⟨pieces, spells, valid, ?_⟩
    by_contra isRead'
    exact notAccepted ⟨pieces, isRead, accepted.2 isRead'⟩
  · rintro ⟨other, otherSpells, otherValid, isUnread⟩ ⟨third, thirdRead, thirdAccepted⟩
    have otherRead := readPieces_text otherValid.isCut
    rw [otherSpells, isRead] at otherRead
    cases otherRead
    rw [isRead] at thirdRead
    cases thirdRead
    exact accepted.1 thirdAccepted isUnread

end Beyond

end Expressions

section Lists

variable (env : Environment)

/-- Whether the first text of the list is taken for `'none'`, which makes the list empty. -/
def startsWithNone (value : WString) : Bool :=
  (CSPSourceList.sourceTexts value).head?.any (equalsLiteral env "'none'" 0)

theorem isMatch_addSource (sources : CSPSourceList) (text : WString) (url : KURL) :
    (sources.addSource env text).isMatch env url = (sources.isMatch env url ||
        expressionFound env (env.effectiveURL url) text) := by
  unfold CSPSourceList.addSource expressionFound CSPSourceList.isMatch
  cases parseSource env text with
  | none => simp
  | some expression =>
    cases expression with
    | star | unsafeInline | unsafeEval => simp
    | self => by_cases allowStar : sources.allowStar = true <;> simp [allowStar, selfSource]
    | parts parts =>
      by_cases dropped : parts.scheme = [] ∧ parts.host = []
      · simp [dropped, partsMatch]
      · have kept : (parts.scheme = [] && parts.host = []) = false := by
          simpa using dropped
        by_cases allowStar : sources.allowStar = true <;>
          simp [dropped, allowStar, partsMatch, sourceOf, kept]

theorem isMatch_foldl_addSource (texts : List WString) (sources : CSPSourceList) (url : KURL) :
    (texts.foldl (CSPSourceList.addSource env) sources).isMatch env url =
      (sources.isMatch env url ||
        texts.any (expressionFound env (env.effectiveURL url))) := by
  induction texts generalizing sources with
  | nil => simp
  | cons text texts ih => rw [foldl_cons, ih, isMatch_addSource, any_cons, Bool.or_assoc]

theorem isMatch_parse (value : WString) (url : KURL) :
    (CSPSourceList.parse env value).isMatch env url = (!startsWithNone env value &&
        (CSPSourceList.sourceTexts value).any
          (expressionFound env (env.effectiveURL url))) := by
  have noneFound : CSPSourceList.empty.isMatch env url = false := rfl
  unfold CSPSourceList.parse startsWithNone
  cases CSPSourceList.sourceTexts value with
  | nil => exact noneFound
  | cons first others =>
    dsimp only
    by_cases isNone : equalsLiteral env "'none'" 0 first = true
    · rw [if_pos isNone, noneFound]
      simp [isNone]
    · rw [if_neg isNone, isMatch_foldl_addSource, noneFound]
      simp [isNone]

/-- Two ways to find something in a list agree exactly when something is found in both ways
or each finds something beyond the other or neither does. -/
theorem exists_iff_exists_iff {Item : Type*} (items : List Item) (first second : Item → Prop) :
    ((∃ item ∈ items, first item) ↔ ∃ item ∈ items, second item) ↔
      (∃ item ∈ items, first item ∧ second item) ∨ ((∃ item ∈ items, first item ∧ ¬ second item) ↔
          ∃ item ∈ items, second item ∧ ¬ first item) := by
  constructor
  · intro agree
    by_cases both : ∃ item ∈ items, first item ∧ second item
    · exact .inl both
    · right
      push Not at both
      constructor
      · rintro ⟨item, member, found, -⟩
        obtain ⟨other, otherMember, otherFound⟩ := agree.1 ⟨item, member, found⟩
        exact ⟨other, otherMember, otherFound, fun inFirst =>
          both other otherMember inFirst otherFound⟩
      · rintro ⟨item, member, found, -⟩
        obtain ⟨other, otherMember, otherFound⟩ := agree.2 ⟨item, member, found⟩
        exact ⟨other, otherMember, otherFound, both other otherMember otherFound⟩
  · rintro (⟨item, member, inFirst, inSecond⟩ | beyond)
    · exact iff_of_true ⟨item, member, inFirst⟩ ⟨item, member, inSecond⟩
    · constructor
      · rintro ⟨item, member, found⟩
        by_cases inSecond : second item
        · exact ⟨item, member, inSecond⟩
        · obtain ⟨other, otherMember, otherFound, -⟩ := beyond.1 ⟨item, member, found, inSecond⟩
          exact ⟨other, otherMember, otherFound⟩
      · rintro ⟨item, member, found⟩
        by_cases inFirst : first item
        · exact ⟨item, member, inFirst⟩
        · obtain ⟨other, otherMember, otherFound, -⟩ := beyond.2 ⟨item, member, found, inFirst⟩
          exact ⟨other, otherMember, otherFound⟩

theorem ne_nil_of_mem_sourceTexts {value text : WString}
    (member : text ∈ CSPSourceList.sourceTexts value) : text ≠ [] := by
  simpa using (mem_filter.1 member).2

/-- A source list matches as the grammar says exactly when it does not start with `'none'`
and one of its expressions matches that is read, or neither or both of two things happen: an
expression is misread, and one that matches is not read.  A list that starts with `'none'`
does so exactly when nothing in it matches. -/
theorem matchesGrammar_iff (value : WString) (url : KURL)
    (quoteFolds : ∀ unit, env.foldCase unit = env.foldCase quote → unit = quote)
    (originSmall : env.port < 2 ^ 16)
    (small : (env.effectiveURL url).port < 2 ^ 16) :
    ((CSPSourceList.parse env value).isMatch env url = true ↔
        ∃ text ∈ CSPSourceList.sourceTexts value,
          ExpressionMatches env (env.effectiveURL url) text) ↔
      if startsWithNone env value then
        ∀ text ∈ CSPSourceList.sourceTexts value,
          ¬ ExpressionMatches env (env.effectiveURL url) text
      else
        (∃ text ∈ CSPSourceList.sourceTexts value,
            ExpressionMatches env (env.effectiveURL url) text ∧ ¬ ExpressionUnread text) ∨
          ((∃ text ∈ CSPSourceList.sourceTexts value,
              ExpressionMisread env (env.effectiveURL url) text) ↔
            ∃ text ∈ CSPSourceList.sourceTexts value,
              ExpressionMatches env (env.effectiveURL url) text ∧
                ExpressionUnread text) := by
  rw [isMatch_parse]
  by_cases isNone : startsWithNone env value = true
  · simp [isNone]
  · have found : ((!startsWithNone env value &&
        (CSPSourceList.sourceTexts value).any
          (expressionFound env (env.effectiveURL url))) = true) ↔
        ∃ text ∈ CSPSourceList.sourceTexts value,
          expressionFound env (env.effectiveURL url) text = true := by
      simp [isNone]
    have beyond := fun text member => expressionMatches_beyond_iff quoteFolds originSmall small
      text (@ne_nil_of_mem_sourceTexts value text member)
    rw [if_neg isNone, found, exists_iff_exists_iff]
    refine or_congr ?_ (iff_congr ?_ ?_)
    · refine exists_congr fun text => and_congr_right fun member => ?_
      have atText := beyond text member
      tauto
    · exact exists_congr fun text => and_congr_right fun member =>
        expressionFound_beyond_iff quoteFolds originSmall small text
          (ne_nil_of_mem_sourceTexts member)
    · exact exists_congr fun text => and_congr_right fun member => beyond text member

end Lists

section Examples

/-- A page at `http://h/p`. -/
def pageAtHost : Environment :=
  { protocol := WString.lit "http", host := WString.lit "h", port := 0
    url := { protocol := WString.lit "http", host := WString.lit "h", port := 0
             path := WString.lit "/p" }
    foldCase := WString.toASCIILower, behindLiteral := fun _ => 0, effectiveURL := id
    schemeShouldBypass := fun _ => false, cspNext := false }

theorem pageAtHost_quoteFolds (unit : UChar)
    (equal : pageAtHost.foldCase unit = pageAtHost.foldCase quote) : unit = quote := by
  have folded : WString.toASCIILower unit = quote := equal
  rw [WString.toASCIILower] at folded
  split at folded
  · rename_i isUpper
    rw [Bool.and_eq_true, decide_eq_true_iff, decide_eq_true_iff] at isUpper
    have sum := congrArg UInt16.toNat folded
    have lower : 65 ≤ unit.toNat := isUpper.1
    have upper : unit.toNat ≤ 90 := isUpper.2
    have same : (unit.toNat + 32) % 2 ^ 16 = 39 := sum
    omega
  · exact folded

/-- `h:80/P` on the page `http://h/p`. -/
theorem matchesGrammar_iff_pageAtHost :
    ((CSPSourceList.parse pageAtHost (WString.lit "h:80/P")).isMatch pageAtHost
          pageAtHost.url = true ↔
        ∃ text ∈ CSPSourceList.sourceTexts (WString.lit "h:80/P"),
          ExpressionMatches pageAtHost (pageAtHost.effectiveURL pageAtHost.url) text) ↔
      if startsWithNone pageAtHost (WString.lit "h:80/P") then
        ∀ text ∈ CSPSourceList.sourceTexts (WString.lit "h:80/P"),
          ¬ ExpressionMatches pageAtHost (pageAtHost.effectiveURL pageAtHost.url) text
      else
        (∃ text ∈ CSPSourceList.sourceTexts (WString.lit "h:80/P"),
            ExpressionMatches pageAtHost (pageAtHost.effectiveURL pageAtHost.url) text ∧
              ¬ ExpressionUnread text) ∨
          ((∃ text ∈ CSPSourceList.sourceTexts (WString.lit "h:80/P"),
              ExpressionMisread pageAtHost (pageAtHost.effectiveURL pageAtHost.url) text) ↔
            ∃ text ∈ CSPSourceList.sourceTexts (WString.lit "h:80/P"),
              ExpressionMatches pageAtHost (pageAtHost.effectiveURL pageAtHost.url) text ∧
                ExpressionUnread text) :=
  matchesGrammar_iff pageAtHost (WString.lit "h:80/P") pageAtHost.url pageAtHost_quoteFolds
    (by decide) (by decide)

theorem isHostName_h : IsHostName (WString.lit "h") :=
  .label _ (by decide) fun unit member => by
    rw [mem_singleton.1 member]
    decide

/-- `h/p` is a source of the grammar that matches `http://h/p`, and the parser rejects it;
behind another source a quote by itself is taken for `'self'`, although it is no source. -/
theorem path_rejected_and_quote_accepted :
    ¬ ((CSPSourceList.parse pageAtHost (WString.lit "h/p")).isMatch pageAtHost
            pageAtHost.url = true ↔
          ∃ text ∈ CSPSourceList.sourceTexts (WString.lit "h/p"),
            ExpressionMatches pageAtHost (pageAtHost.effectiveURL pageAtHost.url) text) ∧
      ¬ ((CSPSourceList.parse pageAtHost (WString.lit "g: '")).isMatch pageAtHost
            pageAtHost.url = true ↔
          ∃ text ∈ CSPSourceList.sourceTexts (WString.lit "g: '"),
            ExpressionMatches pageAtHost (pageAtHost.effectiveURL pageAtHost.url) text) := by
  constructor
  · intro agree
    have notMatched : (CSPSourceList.parse pageAtHost (WString.lit "h/p")).isMatch pageAtHost
        pageAtHost.url ≠ true := by decide +kernel
    refine notMatched (agree.2 ⟨WString.lit "h/p", by decide +kernel, ?_⟩)
    rw [ExpressionMatches, if_neg (by decide), if_neg (by decide), if_neg (by decide)]
    refine ⟨.hostSource none (WString.lit "h") none (WString.lit "/p"), by decide,
      ⟨by simp, .inr (.inl isHostName_h), by simp, .inr (by decide)⟩, by decide,
      .inr (.inr ⟨isHostName_h, by decide⟩), .inl (by decide), .inr ?_⟩
    rw [if_neg (by decide +kernel)]
    decide +kernel
  · intro agree
    have isMatched : (CSPSourceList.parse pageAtHost (WString.lit "g: '")).isMatch pageAtHost
        pageAtHost.url = true := by decide +kernel
    obtain ⟨text, member, found⟩ := agree.1 isMatched
    have texts : CSPSourceList.sourceTexts (WString.lit "g: '") =
        [WString.lit "g:", WString.lit "'"] := by
      decide +kernel
    rw [texts, mem_pair] at member
    have notQuote : ¬ ExpressionMatches pageAtHost pageAtHost.url (WString.lit "'") := by
      rw [expressionMatches_iff_of_quote (by decide)]
      exact fun both => absurd both.1 (by decide)
    have notScheme : ¬ ExpressionMatches pageAtHost pageAtHost.url (WString.lit "g:") := by
      rw [expressionMatches_iff_of_plain (by decide) (by decide) (by decide) (by decide)]
      rintro ⟨pieces, spells, valid, atScheme⟩
      have isRead := readPieces_text valid.isCut
      rw [spells] at isRead
      have isPieces : readPieces (WString.lit "g:") = some (.schemeOnly (WString.lit "g")) := by
        decide
      rw [isPieces, Option.some_inj] at isRead
      subst isRead
      have sameScheme : equalIgnoringCase pageAtHost pageAtHost.url.protocol
          (WString.lit "g") = true := atScheme
      exact absurd sameScheme (by decide)
    rcases member with rfl | rfl
    · exact notScheme found
    · exact notQuote found

end Examples

end Csp
end PalmWebKit
