import PalmWebKit.Csp.SourceGrammar

/-!
# How the parser splits a source

The parser cuts a text at its first colon or slash and reads each part by itself.  Every
text has at most one way to be cut, and the parts that the grammar spells are the parts
that the parser cuts.
-/

namespace PalmWebKit
namespace Csp

open List

section Components

variable {name : WString}

theorem readLabels_of_isHostName (isName : IsHostName name) (trailing : WString)
    (isTrailing : trailing = [] ∨ trailing = [WString.dot]) :
    readLabels false (name ++ trailing) = true := by
  have run : ∀ (text rest : WString), (∀ unit ∈ text, isHostCharacter unit = true) →
      readLabels true (text ++ rest) = readLabels true rest := by
    intro text rest characters
    induction text with
    | nil => rfl
    | cons unit text ih =>
      rw [cons_append, readLabels, if_pos (characters unit mem_cons_self)]
      exact ih fun other member => characters other (.tail _ member)
  have label : ∀ (text rest : WString), text ≠ [] → (∀ unit ∈ text, isHostCharacter unit = true) →
        readLabels false (text ++ rest) = readLabels true rest := by
    intro text rest nonempty characters
    cases text with
    | nil => exact absurd rfl nonempty
    | cons unit text =>
      rw [cons_append, readLabels, if_pos (characters unit mem_cons_self)]
      exact run text rest fun other member => characters other (.tail _ member)
  induction isName with
  | label text nonempty characters =>
    rw [label text trailing nonempty characters]
    rcases isTrailing with rfl | rfl <;> decide
  | dotted text rest nonempty characters isName ih =>
    rw [append_assoc, label text _ nonempty characters, cons_append, readLabels]
    exact ih

variable (text : WString)

/-- Inside a label the loop reads to the end of the label. -/
theorem readLabels_true_cases (reads : readLabels true text = true) :
    ∃ label rest, text = label ++ rest ∧ (∀ unit ∈ label, isHostCharacter unit = true) ∧
        (rest = [] ∨ ∃ behind, rest = WString.dot :: behind ∧ readLabels false behind = true) := by
  induction text with
  | nil => exact ⟨[], [], rfl, by simp, .inl rfl⟩
  | cons unit text ih =>
    rw [readLabels] at reads
    by_cases isHost : isHostCharacter unit = true
    · rw [if_pos isHost] at reads
      obtain ⟨label, rest, rfl, characters, behind⟩ := ih reads
      refine ⟨unit :: label, rest, rfl, ?_, behind⟩
      intro other member
      rcases mem_cons.1 member with rfl | later
      · exact isHost
      · exact characters other later
    · rw [if_neg isHost] at reads
      by_cases isDot : unit = WString.dot
      · rw [if_pos isDot] at reads
        exact ⟨[], unit :: text, rfl, by simp, .inr ⟨text, by rw [isDot], reads⟩⟩
      · rw [if_neg isDot] at reads
        exact absurd reads (by simp)

theorem isHostName_of_readLabels (bound : Nat) (text : WString) (short : text.length ≤ bound)
    (reads : readLabels false text = true) :
    text = [] ∨ IsHostName text ∨ ∃ name, IsHostName name ∧ text = name ++ [WString.dot] := by
  induction bound generalizing text with
  | zero => exact .inl (eq_nil_of_length_eq_zero (Nat.le_zero.1 short))
  | succ bound ih =>
    cases text with
    | nil => exact .inl rfl
    | cons unit text =>
      rw [readLabels] at reads
      by_cases isHost : isHostCharacter unit = true
      · rw [if_pos isHost] at reads
        obtain ⟨label, rest, rfl, characters, ended⟩ := readLabels_true_cases text reads
        have inLabel : ∀ other ∈ unit :: label, isHostCharacter other = true := by
          intro other member
          rcases mem_cons.1 member with rfl | later
          · exact isHost
          · exact characters other later
        have nonempty : unit :: label ≠ [] := cons_ne_nil _ _
        right
        rcases ended with rfl | ⟨behind, rfl, readsBehind⟩
        · left
          rw [append_nil]
          exact .label _ nonempty inLabel
        · simp only [length_cons, length_append] at short
          rcases ih behind (by omega) readsBehind with
            rfl | isName | ⟨name, isName, rfl⟩
          · exact .inr ⟨unit :: label, .label _ nonempty inLabel, rfl⟩
          · exact .inl (.dotted (unit :: label) behind nonempty inLabel isName)
          · exact .inr ⟨_, .dotted (unit :: label) name nonempty inLabel isName, by simp⟩
      · rw [if_neg isHost] at reads
        exact absurd reads (by simp)

/-- The loop of the parser accepts a host name with or without a dot at its end, and the
empty text. -/
theorem readLabels_iff : readLabels false text = true ↔
      text = [] ∨ IsHostName text ∨ ∃ name, IsHostName name ∧ text = name ++ [WString.dot] := by
  constructor
  · exact isHostName_of_readLabels text.length text le_rfl
  · rintro (rfl | isName | ⟨name, isName, rfl⟩)
    · rfl
    · simpa using readLabels_of_isHostName isName [] (.inl rfl)
    · exact readLabels_of_isHostName isName _ (.inr rfl)

theorem IsHostName.ne_nil (isName : IsHostName name) : name ≠ [] := by
  cases isName with
  | label text nonempty characters => exact nonempty
  | dotted text rest nonempty characters isName => simp

theorem IsHostName.characters (isName : IsHostName name) :
    ∀ unit ∈ name, isHostCharacter unit = true ∨ unit = WString.dot := by
  induction isName with
  | label text nonempty characters => exact fun unit member => .inl (characters unit member)
  | dotted text rest nonempty characters isName ih =>
    intro unit member
    rcases mem_append.1 member with inLabel | behind
    · exact .inl (characters unit inLabel)
    · rcases mem_cons.1 behind with rfl | later
      · exact .inr rfl
      · exact ih unit later

/-- A host name that ends in a dot, which the grammar does not have. -/
def IsDottedName (text : WString) : Prop := ∃ name, IsHostName name ∧ text = name ++ [WString.dot]

theorem head_ne_star (isName : IsHostName name ∨ IsDottedName name) {rest : WString} :
    name ≠ star :: rest := by
  have noStar : ∀ other, IsHostName other → ∀ behind, other ++ behind ≠ star :: rest := by
    intro other isName behind equal
    cases other with
    | nil => exact isName.ne_nil rfl
    | cons unit other =>
      have isStar : unit = star := (List.cons.inj equal).1
      rcases isName.characters unit (.head _) with isHost | isDot
      · rw [isStar] at isHost
        exact absurd isHost (by decide)
      · rw [isStar] at isDot
        exact absurd isDot (by decide)
  rcases isName with isName | ⟨other, isName, rfl⟩
  · simpa using noStar name isName []
  · exact noStar other isName _

/-- What the parser reads as a host, and whether it has a wildcard. -/
theorem parseHost_eq_some_iff (text host : WString) (hasWildcard : Bool) :
    parseHost text = some (host, hasWildcard) ↔
      (hasWildcard = true ∧ host = [] ∧ (text = anyHost ∨ text = subdomainsOf [])) ∨
        (IsHostName host ∨ IsDottedName host) ∧
          text = if hasWildcard then subdomainsOf host else host := by
  constructor
  · intro parsed
    unfold parseHost at parsed
    split at parsed
    · cases parsed
    · rename_i first rest
      by_cases isStar : first = star
      · rw [if_pos isStar] at parsed
        subst isStar
        split at parsed
        · cases parsed
          exact .inl ⟨rfl, rfl, .inl rfl⟩
        · rename_i second others
          by_cases isDot : second = WString.dot
          · rw [if_neg (not_not.2 isDot)] at parsed
            by_cases reads : readLabels false others = true
            · rw [if_pos reads] at parsed
              cases parsed
              subst isDot
              rcases (readLabels_iff _).1 reads with rfl | isName
              · exact .inl ⟨rfl, rfl, .inr rfl⟩
              · exact .inr ⟨isName, rfl⟩
            · rw [if_neg reads] at parsed
              cases parsed
          · rw [if_pos isDot] at parsed
            cases parsed
      · rw [if_neg isStar] at parsed
        by_cases reads : readLabels false (first :: rest) = true
        · rw [if_pos reads] at parsed
          cases parsed
          rcases (readLabels_iff _).1 reads with empty | isName
          · exact absurd empty (cons_ne_nil _ _)
          · exact .inr ⟨isName, rfl⟩
        · rw [if_neg reads] at parsed
          cases parsed
  · rintro (⟨rfl, rfl, rfl | rfl⟩ | ⟨isName, rfl⟩)
    · rfl
    · rfl
    · have reads : readLabels false host = true := (readLabels_iff host).2 (.inr isName)
      cases hasWildcard with
      | true => simp [subdomainsOf, parseHost, reads]
      | false =>
        cases host with
        | nil =>
          rcases isName with isName | ⟨name, isName, equal⟩
          · exact absurd rfl isName.ne_nil
          · simp at equal
        | cons first rest =>
          have notStar : first ≠ star := fun isStar => head_ne_star isName (by rw [isStar])
          simp [parseHost, notStar, reads]

theorem parseScheme_eq_some_iff (text scheme : WString) :
    parseScheme text = some scheme ↔ IsScheme text ∧ scheme = text := by
  cases text with
  | nil => simp [parseScheme, IsScheme]
  | cons first rest =>
    rw [parseScheme]
    by_cases isAlpha : isASCIIAlpha first = true
    · by_cases continues : rest.dropWhile isSchemeContinuationCharacter = []
      · rw [if_pos ⟨isAlpha, continues⟩, Option.some_inj]
        rw [dropWhile_eq_nil_iff] at continues
        exact ⟨fun equal => ⟨⟨first, rest, rfl, isAlpha, continues⟩, equal.symm⟩,
          fun isScheme => isScheme.2.symm⟩
      · rw [if_neg fun both => continues both.2]
        simp only [reduceCtorEq, false_iff]
        rintro ⟨⟨_, _, equal, -, characters⟩, -⟩
        cases equal
        exact continues (dropWhile_eq_nil_iff.2 characters)
    · rw [if_neg fun both => isAlpha both.1]
      simp only [reduceCtorEq, false_iff]
      rintro ⟨⟨_, _, equal, isAlpha', -⟩, -⟩
      cases equal
      exact isAlpha isAlpha'

theorem digit_le {unit : UChar} (isDigit : WString.isASCIIDigit unit = true) :
    unit.toNat - 48 ≤ 9 := by
  rw [WString.isASCIIDigit, Bool.and_eq_true, decide_eq_true_iff, decide_eq_true_iff] at isDigit
  have upper : unit.toNat ≤ 57 := isDigit.2
  omega

theorem le_foldl_digits (value : Nat) :
    value ≤ text.foldl (fun value unit => 10 * value + (unit.toNat - 48)) value := by
  induction text generalizing value with
  | nil => exact le_rfl
  | cons unit text ih =>
    rw [foldl_cons]
    exact le_trans (by omega) (ih _)

/-- The loop over the digits stops only at an overflow. -/
theorem charactersToIntStrict_eq (value : Nat) (text : WString) (fits : value < 2 ^ 31)
    (digits : ∀ unit ∈ text, WString.isASCIIDigit unit = true) : charactersToIntStrict value text =
      if text.foldl (fun value unit => 10 * value + (unit.toNat - 48)) value < 2 ^ 31 then
        some (text.foldl (fun value unit => 10 * value + (unit.toNat - 48)) value)
      else none := by
  induction text generalizing value with
  | nil => rw [foldl_nil, if_pos fits, charactersToIntStrict]
  | cons unit text ih =>
    have small := digit_le (digits unit (.head _))
    have grows := le_foldl_digits text (10 * value + (unit.toNat - 48))
    rw [foldl_cons, charactersToIntStrict]
    by_cases next : 10 * value + (unit.toNat - 48) < 2 ^ 31
    · rw [if_neg (by omega)]
      exact ih _ next fun other member => digits other (.tail _ member)
    · rw [if_pos (by omega), if_neg (by omega)]

theorem parsePort_eq_some_iff (port : Nat) (hasWildcard : Bool) :
    parsePort text = some (port, hasWildcard) ↔ (text = [star] ∧ port = 0 ∧ hasWildcard = true) ∨
        (IsNumber text ∧ portNumber text < 2 ^ 31 ∧ port = portNumber text ∧
          hasWildcard = false) := by
  unfold parsePort
  by_cases isEmpty : text = []
  · simp [isEmpty, IsNumber]
  by_cases isStar : text = [star]
  · have notNumber : ¬ IsNumber text := fun isNumber =>
      absurd (isNumber.2 star (by simp [isStar])) (by decide)
    simp [isStar, isStar ▸ notNumber, eq_comm]
  rw [if_neg isEmpty, if_neg isStar]
  by_cases digits : ∀ unit ∈ text, WString.isASCIIDigit unit = true
  · have isNumber : IsNumber text := ⟨isEmpty, digits⟩
    rw [if_neg (not_not.2 (dropWhile_eq_nil_iff.2 digits)),
      charactersToIntStrict_eq 0 text (by decide) digits, ← portNumber]
    by_cases fits : portNumber text < 2 ^ 31
    · rw [if_pos fits]
      simp only [Option.map_some, Option.some_inj, Prod.mk.injEq, isStar, isNumber, fits,
        true_and, false_and, false_or]
      rw [eq_comm, @eq_comm _ false]
    · rw [if_neg fits]
      simp only [Option.map_none, reduceCtorEq, isStar, fits, false_and, and_false, or_self]
  · simp [isStar, IsNumber, digits]

end Components

section Splitting

/-- A host with what is behind it. -/
def readAuthority (scheme : Option WString) (host rest : WString) : SourcePieces :=
  if rest.head? = some colon then
    .hostSource scheme host (some (rest.tail.takeWhile (· ≠ WString.slash)))
      (rest.dropWhile (· ≠ WString.slash))
  else .hostSource scheme host none rest

/-- The parts of a text, as the parser cuts it. -/
def readPieces (text : WString) : Option SourcePieces :=
  let before := text.takeWhile isNotColonOrSlash
  match text.dropWhile isNotColonOrSlash with
  | [] => some (.hostSource none before none [])
  | unit :: behind =>
    if unit = WString.slash then some (.hostSource none before none (unit :: behind))
    else
      match behind with
      | [] => some (.schemeOnly before)
      | first :: others =>
        if first = WString.slash then
          match others with
          | [] => none
          | second :: authority =>
            if second ≠ WString.slash then none
            else if authority = [] then some (.emptyAuthority before)
            else
              some (readAuthority (some before) (authority.takeWhile isNotColonOrSlash)
                (authority.dropWhile isNotColonOrSlash))
        else some (readAuthority none before (unit :: behind))

/-- What the parser makes of the parts. -/
def SourcePieces.parse : SourcePieces → Option SourceParts
  | .schemeOnly scheme | .emptyAuthority scheme =>
    (parseScheme scheme).map fun scheme =>
      { scheme, host := [], port := 0, path := [], hostHasWildcard := false
        portHasWildcard := false }
  | .hostSource scheme hostText portText pathText =>
    if scheme = none ∧ portText = none ∧ pathText ≠ [] then none
    else
      (scheme.elim (some []) parseScheme).bind fun scheme =>
        match parseHost hostText, (portText.map parsePort).getD (some (0, false)) with
        | some (host, hostHasWildcard), some (port, portHasWildcard) =>
          some
            { scheme, host, port, hostHasWildcard, portHasWildcard
              path := if pathText ≠ [] then parsePath pathText else [] }
        | _, _ => none

variable (scheme : Option WString)

theorem parse_readAuthority (host rest : WString)
    (bounded : scheme = none → rest.head? = some colon) : (readAuthority scheme host rest).parse =
      (scheme.elim (some []) parseScheme).bind fun scheme =>
        parseHostPortPath scheme host rest := by
  have noHost : parseHost [] = none := rfl
  unfold readAuthority parseHostPortPath
  by_cases hasPort : rest.head? = some colon
  · simp only [if_pos hasPort, SourcePieces.parse, reduceCtorEq, false_and, and_false,
      if_false, Option.map_some, Option.getD_some]
    all_goals rfl
  · have hasScheme : scheme ≠ none := fun isNone => hasPort (bounded isNone)
    simp only [if_neg hasPort, SourcePieces.parse, hasScheme, false_and, if_false,
      Option.map_none, Option.getD_none, and_true]
    cases scheme.elim (some []) parseScheme with
    | none => rfl
    | some scheme =>
      simp only [Option.bind_some]
      by_cases noAuthority : rest ≠ [] ∧ host = []
      · rw [if_pos noAuthority, noAuthority.2, noHost]
      · rw [if_neg noAuthority]
        all_goals rfl

/-- Cutting a text first and reading the parts afterwards is what the parser does. -/
theorem parseSourceParts_eq (text : WString) :
    parseSourceParts text = (readPieces text).bind SourcePieces.parse := by
  unfold parseSourceParts readPieces
  have stops : ∀ unit behind, text.dropWhile isNotColonOrSlash = unit :: behind →
      unit ≠ WString.slash → unit = colon := by
    intro unit behind equal notSlash
    have failed := head?_dropWhile_not isNotColonOrSlash text
    rw [equal] at failed
    simpa [isNotColonOrSlash, notSlash] using failed
  cases behindBefore : text.dropWhile isNotColonOrSlash with
  | nil =>
    simp only [Option.bind_some, SourcePieces.parse, ne_eq, not_true_eq_false, and_false,
      if_false, Option.elim_none, Option.map_none, Option.getD_none]
    cases parseHost (text.takeWhile isNotColonOrSlash) <;> rfl
  | cons unit behind =>
    dsimp only
    by_cases isSlash : unit = WString.slash
    · rw [if_pos isSlash, if_pos isSlash]
      cases parseHost (text.takeWhile isNotColonOrSlash) <;> simp [SourcePieces.parse]
    · rw [if_neg isSlash, if_neg isSlash]
      have isColon := stops unit behind behindBefore isSlash
      cases behind with
      | nil => rfl
      | cons first others =>
        dsimp only
        by_cases firstIsSlash : first = WString.slash
        · rw [if_pos firstIsSlash, if_pos firstIsSlash]
          cases others with
          | nil => cases parseScheme (text.takeWhile isNotColonOrSlash) <;> rfl
          | cons second authority =>
            dsimp only
            by_cases secondIsSlash : second = WString.slash
            · rw [if_neg (not_not.2 secondIsSlash)]
              by_cases noAuthority : authority = []
              · cases parsed : parseScheme (text.takeWhile isNotColonOrSlash) <;>
                  simp [SourcePieces.parse, parsed, secondIsSlash, noAuthority]
              · rw [if_neg noAuthority, Option.bind_some, parse_readAuthority _ _ _ (by simp)]
                cases parsed : parseScheme (text.takeWhile isNotColonOrSlash) <;>
                  simp [parsed, secondIsSlash, noAuthority]
            · cases parseScheme (text.takeWhile isNotColonOrSlash) <;>
                simp [secondIsSlash]
        · rw [if_neg firstIsSlash, if_neg firstIsSlash, Option.bind_some,
            parse_readAuthority _ _ _ fun _ => by rw [isColon]; rfl]
          rfl

theorem text_readAuthority (host rest : WString) : (readAuthority scheme host rest).text =
      SourcePieces.schemeText scheme ++ (host ++ rest) := by
  unfold readAuthority
  by_cases hasPort : rest.head? = some colon
  · rw [if_pos hasPort]
    cases rest with
    | nil => cases hasPort
    | cons unit rest =>
      cases Option.some.inj hasPort
      rw [SourcePieces.text, SourcePieces.portText, tail_cons, dropWhile_cons_of_pos
        (by decide), cons_append, takeWhile_append_dropWhile]
  · rw [if_neg hasPort]
    rfl

/-- The parts spell the text they are cut from. -/
theorem text_of_readPieces {text : WString} {pieces : SourcePieces}
    (isRead : readPieces text = some pieces) : pieces.text = text := by
  have whole := @takeWhile_append_dropWhile _ isNotColonOrSlash text
  have stops := head?_dropWhile_not isNotColonOrSlash text
  unfold readPieces at isRead
  cases behindBefore : text.dropWhile isNotColonOrSlash with
  | nil =>
    rw [behindBefore] at isRead whole
    cases isRead
    simpa [SourcePieces.text, SourcePieces.schemeText, SourcePieces.portText] using whole
  | cons unit behind =>
    rw [behindBefore] at isRead whole stops
    dsimp only at isRead
    by_cases isSlash : unit = WString.slash
    · rw [if_pos isSlash] at isRead
      cases isRead
      exact whole
    · have isColon : unit = colon := by simpa [isNotColonOrSlash, isSlash] using stops
      subst isColon
      cases behind with
      | nil =>
        cases isRead
        exact whole
      | cons first others =>
        dsimp only at isRead
        by_cases firstIsSlash : first = WString.slash
        · subst firstIsSlash
          cases others with
          | nil => cases isRead
          | cons second authority =>
            dsimp only at isRead
            by_cases secondIsSlash : second = WString.slash
            · subst secondIsSlash
              by_cases noAuthority : authority = []
              · rw [if_pos noAuthority] at isRead
                cases isRead
                rw [noAuthority] at whole
                exact whole
              · rw [if_neg noAuthority] at isRead
                cases isRead
                rw [text_readAuthority]
                simpa [SourcePieces.schemeText] using whole
            · rw [if_pos secondIsSlash] at isRead
              cases isRead
        · rw [if_neg firstIsSlash] at isRead
          cases isRead
          rw [text_readAuthority]
          exact whole

theorem isPath_dropWhile (text : WString) : IsPath (text.dropWhile (· ≠ WString.slash)) := by
  have stops := head?_dropWhile_not (· ≠ WString.slash) text
  cases equal : text.dropWhile (· ≠ WString.slash) with
  | nil => exact .inl rfl
  | cons unit rest =>
    rw [equal] at stops
    exact .inr (by simpa using stops)

theorem isPath_readAuthority {scheme other port : Option WString} {host host' rest path : WString}
    (isRest : rest.head? ≠ some colon → IsPath rest)
    (equal : readAuthority scheme host rest = .hostSource other host' port path) : IsPath path := by
  unfold readAuthority at equal
  by_cases hasPort : rest.head? = some colon
  · rw [if_pos hasPort] at equal
    cases equal
    exact isPath_dropWhile rest
  · rw [if_neg hasPort] at equal
    cases equal
    exact isRest hasPort

/-- The path that the parser cuts is absent or starts with a slash. -/
theorem isPath_of_readPieces {text : WString} {scheme port : Option WString} {host path : WString}
    (isRead : readPieces text = some (.hostSource scheme host port path)) : IsPath path := by
  unfold readPieces at isRead
  have stops : ∀ other : WString, (other.dropWhile isNotColonOrSlash).head? ≠ some colon →
      IsPath (other.dropWhile isNotColonOrSlash) := by
    intro other notColon
    have failed := head?_dropWhile_not isNotColonOrSlash other
    cases equal : other.dropWhile isNotColonOrSlash with
    | nil => exact .inl rfl
    | cons unit rest =>
      rw [equal] at failed notColon
      right
      rw [head?_cons, Option.some_inj]
      have isEither : unit ≠ colon → unit = WString.slash := by
        simpa [isNotColonOrSlash] using failed
      exact isEither fun isColon => notColon (by rw [isColon]; rfl)
  have behindText := stops text
  split at isRead
  · cases isRead
    exact .inl rfl
  · rename_i unit behind equal
    rw [equal] at behindText
    by_cases isSlash : unit = WString.slash
    · rw [if_pos isSlash] at isRead
      cases isRead
      exact .inr (by rw [isSlash]; rfl)
    · rw [if_neg isSlash] at isRead
      split at isRead
      · cases isRead
      · rename_i first others
        by_cases firstIsSlash : first = WString.slash
        · rw [if_pos firstIsSlash] at isRead
          split at isRead
          · cases isRead
          · rename_i second authority
            by_cases secondIsSlash : second = WString.slash
            · rw [if_neg (not_not.2 secondIsSlash)] at isRead
              by_cases noAuthority : authority = []
              · rw [if_pos noAuthority] at isRead
                cases isRead
              · rw [if_neg noAuthority] at isRead
                exact isPath_readAuthority (stops authority) (Option.some.inj isRead)
            · rw [if_pos secondIsSlash] at isRead
              cases isRead
        · rw [if_neg firstIsSlash] at isRead
          exact isPath_readAuthority behindText (Option.some.inj isRead)

/-- The parts that a text can be cut into. -/
def SourcePieces.IsCut : SourcePieces → Prop
  | .schemeOnly scheme | .emptyAuthority scheme => ∀ unit ∈ scheme, isNotColonOrSlash unit = true
  | .hostSource scheme host port path =>
    (∀ text ∈ scheme, ∀ unit ∈ text, isNotColonOrSlash unit = true) ∧
      host ≠ [] ∧ (∀ unit ∈ host, isNotColonOrSlash unit = true) ∧
        (∀ text ∈ port, text ≠ [] ∧ ∀ unit ∈ text, unit ≠ WString.slash) ∧ IsPath path

theorem takeWhile_before {test : UChar → Bool} {before behind : WString}
    (holds : ∀ unit ∈ before, test unit = true) (stops : ∀ unit ∈ behind.head?, test unit = false) :
    (before ++ behind).takeWhile test = before ∧ (before ++ behind).dropWhile test = behind := by
  rw [takeWhile_append_of_pos holds, dropWhile_append_of_pos holds]
  cases behind with
  | nil => simp
  | cons unit behind =>
    have stopsHere := stops unit rfl
    simp [stopsHere]

theorem readAuthority_text {port : Option WString} {path : WString} (host : WString)
    (isPort : ∀ text ∈ port, text ≠ [] ∧ ∀ unit ∈ text, unit ≠ WString.slash)
    (isPath : IsPath path) : readAuthority scheme host (SourcePieces.portText port ++ path) =
      .hostSource scheme host port path := by
  have pathStops : ∀ unit ∈ path.head?, (decide (unit ≠ WString.slash)) = false := by
    rcases isPath with rfl | startsWithSlash
    · simp
    · rw [startsWithSlash]
      simp
  unfold readAuthority
  cases port with
  | none =>
    have noPort : path.head? ≠ some colon := by
      rcases isPath with rfl | startsWithSlash
      · simp
      · rw [startsWithSlash]
        decide
    rw [SourcePieces.portText, nil_append, if_neg noPort]
  | some text =>
    obtain ⟨before, behind⟩ := takeWhile_before
      (fun unit member => decide_eq_true ((isPort text rfl).2 unit member)) pathStops
    rw [SourcePieces.portText, cons_append, head?_cons, if_pos rfl, tail_cons,
      before, dropWhile_cons_of_pos (by decide), behind]

/-- Parts that a text can be cut into are cut from the text they spell. -/
theorem readPieces_text {pieces : SourcePieces} (isCut : pieces.IsCut) :
    readPieces pieces.text = some pieces := by
  have stopsAtColon : ∀ behind : WString, ∀ unit ∈ (colon :: behind).head?,
      isNotColonOrSlash unit = false := by
    intro behind unit isHead
    cases isHead
    decide
  cases pieces with
  | schemeOnly scheme =>
    obtain ⟨before, behind⟩ := takeWhile_before isCut (stopsAtColon [])
    rw [SourcePieces.text, readPieces, before, behind]
    rfl
  | emptyAuthority scheme =>
    obtain ⟨before, behind⟩ := takeWhile_before isCut (stopsAtColon [WString.slash, WString.slash])
    rw [SourcePieces.text, SourcePieces.schemeText, readPieces, before, behind]
    rfl
  | hostSource scheme host port path =>
    obtain ⟨isScheme, nonempty, isHost, isPort, isPath⟩ := isCut
    have afterHost : ∀ unit ∈ (SourcePieces.portText port ++ path).head?,
        isNotColonOrSlash unit = false := by
      cases port with
      | some text => exact stopsAtColon _
      | none =>
        rw [SourcePieces.portText, nil_append]
        rcases isPath with rfl | startsWithSlash
        · simp
        · rw [startsWithSlash]
          intro unit isHead
          cases isHead
          decide
    obtain ⟨beforeHost, behindHost⟩ := takeWhile_before isHost afterHost
    cases scheme with
    | some scheme =>
      obtain ⟨before, behind⟩ := takeWhile_before (isScheme scheme rfl)
        (stopsAtColon (WString.slash :: WString.slash ::
          (host ++ (SourcePieces.portText port ++ path))))
      have authorityNonempty : host ++ (SourcePieces.portText port ++ path) ≠ [] := by
        simp [nonempty]
      rw [SourcePieces.text, SourcePieces.schemeText, append_assoc]
      simp only [cons_append, nil_append]
      rw [readPieces, before, behind]
      dsimp only
      rw [if_neg (by decide), if_pos rfl, if_neg (by decide), if_neg authorityNonempty,
        beforeHost, behindHost, readAuthority_text _ _ isPort isPath]
    | none =>
      rw [SourcePieces.text, SourcePieces.schemeText, nil_append, readPieces,
        beforeHost, behindHost]
      cases port with
      | none =>
        rw [SourcePieces.portText, nil_append]
        cases path with
        | nil => rfl
        | cons unit path =>
          have startsWithSlash : unit = WString.slash := by simpa [IsPath] using isPath
          dsimp only
          rw [if_pos startsWithSlash]
      | some text =>
        have isAuthority := readAuthority_text none host isPort isPath
        obtain ⟨textNonempty, noSlash⟩ := isPort text rfl
        cases text with
        | nil => exact absurd rfl textNonempty
        | cons first text =>
          have notSlash := noSlash first (.head _)
          rw [SourcePieces.portText] at isAuthority ⊢
          simp only [cons_append] at isAuthority ⊢
          rw [if_neg (by decide), if_neg notSlash, isAuthority]

theorem isNotColonOrSlash_of_isHostCharacter {unit : UChar}
    (isHost : isHostCharacter unit = true ∨ unit = WString.dot) :
    isNotColonOrSlash unit = true := by
  unfold isNotColonOrSlash
  by_contra isEither
  have equal : unit = colon ∨ unit = WString.slash := by
    by_contra neither
    exact isEither (by simp_all)
  rcases equal with rfl | rfl <;> revert isHost <;> decide

end Splitting

end Csp
end PalmWebKit
