import PalmWebKit.JavaScript.JsonGrammar

/-!
# Strings as they are lexed

The loop of `lexString` collects a string run by run, and keeps the source in
the place of the builder while no escape was met.  It reads exactly the bodies
of the grammar.
-/

namespace PalmWebKit
namespace JavaScript

open List WString Json

/-! ## Escapes -/

variable
  {unit : UChar}
  {value : Nat}

/-- Hexadecimal digits are ASCII, so a fact about them is checked digit by digit. -/
theorem lt_of_hexValue (isValue : hexValue unit = some value) : unit.toNat < 128 := by
  unfold hexValue at isValue
  simp only [UInt16.le_iff_toNat_le, UInt16.reduceToNat] at isValue
  split_ifs at isValue <;> omega

theorem hexDigit_table : ∀ unit : Fin 128,
    isASCIIHexDigit (UInt16.ofNat unit) = (hexValue (UInt16.ofNat unit)).isSome ∧
      ∀ value : Fin 16, hexValue (UInt16.ofNat unit) = some value.val →
        toASCIIHexValue (UInt16.ofNat unit) = UInt16.ofNat value := by
  decide +kernel

theorem hexValue_lt (isValue : hexValue unit = some value) : value < 16 := by
  unfold hexValue at isValue
  simp only [UInt16.le_iff_toNat_le, UInt16.reduceToNat] at isValue
  split_ifs at isValue <;> cases isValue <;> omega

theorem isASCIIHexDigit_of_hexValue (isValue : hexValue unit = some value) :
    isASCIIHexDigit unit = true ∧ toASCIIHexValue unit = UInt16.ofNat value := by
  have table := hexDigit_table ⟨unit.toNat, lt_of_hexValue isValue⟩
  simp only [UInt16.ofNat_toNat] at table
  refine ⟨by rw [table.1, isValue]; rfl, ?_⟩
  exact table.2 ⟨value, hexValue_lt isValue⟩ isValue

/-- The bit that tells the cases of a letter apart is set. -/
theorem hexValue_of_isASCIIHexDigit (isDigit : isASCIIHexDigit unit = true) :
    ∃ value, hexValue unit = some value := by
  have small : unit.toNat < 128 := by
    have upper : unit ≤ unit ||| 32 := by exact Nat.left_le_or
    simp only [isASCIIHexDigit, isASCIIDigit, Bool.or_eq_true, Bool.and_eq_true,
      decide_eq_true_eq] at isDigit
    rcases isDigit with ⟨-, digit⟩ | ⟨-, letter⟩
    · exact Nat.lt_of_le_of_lt digit (by decide)
    · have bound := UInt16.le_trans upper letter
      exact Nat.lt_of_le_of_lt bound (by decide)
  have table := (hexDigit_table ⟨unit.toNat, small⟩).1
  simp only [UInt16.ofNat_toNat] at table
  exact Option.isSome_iff_exists.1 (table.symm.trans isDigit)

theorem convertHex_table : ∀ high low : Fin 16,
    (UInt16.ofNat high <<< 4 ||| UInt16.ofNat low) = UInt16.ofNat (high * 16 + low) := by
  decide +kernel

theorem convertUnicode_eq {c1 c2 c3 c4 : UChar} {h1 h2 h3 h4 : Nat} (digit1 : hexValue c1 = some h1)
    (digit2 : hexValue c2 = some h2) (digit3 : hexValue c3 = some h3)
    (digit4 : hexValue c4 = some h4) :
    convertUnicode c1 c2 c3 c4 = UInt16.ofNat (((h1 * 16 + h2) * 16 + h3) * 16 + h4) := by
  have bound1 := hexValue_lt digit1
  have bound2 := hexValue_lt digit2
  have bound3 := hexValue_lt digit3
  have bound4 := hexValue_lt digit4
  have high : convertHex c1 c2 = UInt16.ofNat (h1 * 16 + h2) := by
    rw [convertHex, (isASCIIHexDigit_of_hexValue digit1).2, (isASCIIHexDigit_of_hexValue digit2).2]
    exact convertHex_table ⟨h1, bound1⟩ ⟨h2, bound2⟩
  have low : convertHex c3 c4 = UInt16.ofNat (h3 * 16 + h4) := by
    rw [convertHex, (isASCIIHexDigit_of_hexValue digit3).2, (isASCIIHexDigit_of_hexValue digit4).2]
    exact convertHex_table ⟨h3, bound3⟩ ⟨h4, bound4⟩
  have shifted : ∀ first second : Nat, first < 256 → second < 256 →
      (UInt16.ofNat first <<< 8 ||| UInt16.ofNat second) = UInt16.ofNat (first * 256 + second) := by
    intro first second isFirst isSecond
    have shift : first <<< 8 % 2 ^ 16 = first <<< 8 := by omega
    have isFirst' : first % 2 ^ 16 = first := Nat.mod_eq_of_lt (by omega)
    have isSecond' : second % 2 ^ 16 = second := Nat.mod_eq_of_lt (by omega)
    have isSum : (first * 256 + second) % 2 ^ 16 = first * 256 + second :=
      Nat.mod_eq_of_lt (by omega)
    apply UInt16.toNat_inj.1
    rw [UInt16.toNat_or, UInt16.toNat_shiftLeft, UInt16.toNat_ofNat', UInt16.toNat_ofNat',
      UInt16.toNat_ofNat', isFirst', isSecond', isSum]
    change first <<< 8 % 2 ^ 16 ||| second = first * 256 + second
    rw [shift, ← Nat.shiftLeft_add_eq_or_of_lt isSecond, Nat.shiftLeft_eq]
  rw [convertUnicode, high, low, shifted _ _ (by omega) (by omega)]
  congr 1
  omega

/-- `lexString` accepts the escapes of the grammar. -/
theorem lexEscape_of_escape {escape : WString} (isEscape : Escape escape unit) (rest : WString) :
    lexEscape (escape ++ rest) = .ok (unit, rest) := by
  cases isEscape with
  | unicode digit1 digit2 digit3 digit4 =>
    have valid := convertUnicode_eq digit1 digit2 digit3 digit4
    rw [← valid]
    simp only [cons_append, nil_append, lexEscape,
      (isASCIIHexDigit_of_hexValue digit1).1, (isASCIIHexDigit_of_hexValue digit2).1,
      (isASCIIHexDigit_of_hexValue digit3).1, (isASCIIHexDigit_of_hexValue digit4).1]
    rfl
  | _ => rfl

theorem escape_of_lexEscape {text rest : WString} (lexed : lexEscape text = .ok (unit, rest)) :
    ∃ escape, text = escape ++ rest ∧ Escape escape unit := by
  unfold lexEscape at lexed
  split at lexed
  · cases lexed
  next first rest =>
    split_ifs at lexed with quote backslash slash backspace formFeed lineFeed carriageReturn tab
      unicode
    · cases lexed
      exact ⟨[34], by rw [quote]; rfl, Escape.quote⟩
    · cases lexed
      exact ⟨[92], by rw [backslash]; rfl, Escape.backslash⟩
    · cases lexed
      exact ⟨[47], by rw [slash]; rfl, Escape.slash⟩
    · cases lexed
      exact ⟨[98], by rw [backspace]; rfl, Escape.backspace⟩
    · cases lexed
      exact ⟨[102], by rw [formFeed]; rfl, Escape.formFeed⟩
    · cases lexed
      exact ⟨[110], by rw [lineFeed]; rfl, Escape.lineFeed⟩
    · cases lexed
      exact ⟨[114], by rw [carriageReturn]; rfl, Escape.carriageReturn⟩
    · cases lexed
      exact ⟨[116], by rw [tab]; rfl, Escape.tab⟩
    · split at lexed
      · next c1 c2 c3 c4 behind =>
        split_ifs at lexed with valid
        simp only [Bool.and_eq_true] at valid
        obtain ⟨⟨⟨valid1, valid2⟩, valid3⟩, valid4⟩ := valid
        obtain ⟨h1, digit1⟩ := hexValue_of_isASCIIHexDigit valid1
        obtain ⟨h2, digit2⟩ := hexValue_of_isASCIIHexDigit valid2
        obtain ⟨h3, digit3⟩ := hexValue_of_isASCIIHexDigit valid3
        obtain ⟨h4, digit4⟩ := hexValue_of_isASCIIHexDigit valid4
        cases lexed
        rw [convertUnicode_eq digit1 digit2 digit3 digit4, unicode]
        exact ⟨_, rfl, Escape.unicode digit1 digit2 digit3 digit4⟩
      · cases lexed

/-! ## Runs -/

theorem isSafeStringCharacter_iff : isSafeStringCharacter unit = true ↔ IsPlain unit := by
  simp only [isSafeStringCharacter, IsPlain, Bool.and_eq_true, decide_eq_true_eq, bne_iff_ne, ne_eq]
  tauto

/-- A run of characters that stand for themselves. -/
theorem stringBody_append {run text content : WString} (isPlain : ∀ unit ∈ run, IsPlain unit)
    (isBody : StringBody text content) : StringBody (run ++ text) (run ++ content) := by
  induction run with
  | nil => exact isBody
  | cons unit run ih =>
    refine StringBody.plain (isPlain unit (by simp)) (ih ?_)
    intro other isIn
    exact isPlain other (.tail _ isIn)

section Run

variable (builder : WString) {run ptr runStart : WString}

/-- In front of another character than a backslash the builder stays empty. -/
theorem lexStringRun_of_ne (isRun : runStart.takeWhile isSafeStringCharacter = run)
    (isPtr : runStart.dropWhile isSafeStringCharacter = ptr)
    (noEscape : ptr.head? ≠ some backslash) : lexStringRun builder runStart =
      .ok (if builder.length ≠ 0 then builder ++ run else builder, ptr) := by
  simp only [lexStringRun, isRun, isPtr]
  cases ptr with
  | nil => rfl
  | cons unit rest =>
    have other : unit ≠ backslash := fun same => noEscape (by rw [same]; rfl)
    simp only [if_neg other]

theorem lexStringRun_of_backslash {rest : WString}
    (isRun : runStart.takeWhile isSafeStringCharacter = run)
    (isPtr : runStart.dropWhile isSafeStringCharacter = backslash :: rest) :
    lexStringRun builder runStart =
      match lexEscape rest with
      | .error message => .error message
      | .ok (escaped, later) => .ok (builder ++ run ++ [escaped], later) := by
  simp only [lexStringRun, isRun, isPtr, if_true]
  cases lexEscape rest with
  | error message => rfl
  | ok result =>
    cases builder with
    | nil => cases run <;> rfl
    | cons unit builder => rfl

end Run

theorem head?_doubleQuote {rest : WString} : (doubleQuote :: rest).head? ≠ some backslash := by
  simp [doubleQuote, backslash]

/-- Nothing is read where no run begins. -/
theorem lexStringFrom_of_noRun (builder : WString) {ptr : WString}
    (isPtr : ptr.dropWhile isSafeStringCharacter = ptr) (noEscape : ptr.head? ≠ some backslash) :
    lexStringFrom builder ptr =
      match ptr with
      | [] => .error .unterminatedString
      | unit :: rest =>
        if unit = doubleQuote then .ok (builder, rest) else .error .unterminatedString := by
  have isRun : ptr.takeWhile isSafeStringCharacter = [] := by
    have whole := takeWhile_append_dropWhile (p := isSafeStringCharacter) (l := ptr)
    rw [isPtr] at whole
    exact append_left_eq_self.1 whole
  have isBuilder : (if builder.length ≠ 0 then builder ++ [] else builder) = builder := by
    simp only [append_nil, ite_self]
  rw [lexStringFrom, lexStringRun_of_ne builder isRun isPtr noEscape, isBuilder]
  simp only [Nat.lt_irrefl, false_and, if_false, Nat.sub_self, take_zero]
  cases ptr with
  | nil => rfl
  | cons unit rest =>
    cases builder with
    | nil | cons unit builder => rfl

/-- The builder is empty only in front of the first escape, and then the run in
the source is all there is. -/
theorem lexStringFrom_eq (builder runStart : WString) : lexStringFrom builder runStart =
      match runStart.dropWhile isSafeStringCharacter with
      | [] => .error .unterminatedString
      | unit :: rest =>
        if unit = backslash then
          match lexEscape rest with
          | .error message => .error message
          | .ok (escaped, later) =>
            lexStringFrom
              (builder ++ runStart.takeWhile isSafeStringCharacter ++ [escaped]) later
        else if unit = doubleQuote then
          .ok (builder ++ runStart.takeWhile isSafeStringCharacter, rest)
        else .error .unterminatedString := by
  have whole := takeWhile_append_dropWhile (p := isSafeStringCharacter) (l := runStart)
  generalize isRun : runStart.takeWhile isSafeStringCharacter = run at whole ⊢
  generalize isPtr : runStart.dropWhile isSafeStringCharacter = ptr at whole ⊢
  have again : ptr.dropWhile isSafeStringCharacter = ptr := by
    rw [← isPtr, dropWhile_idempotent]
  cases ptr with
  | nil =>
    rw [lexStringFrom, lexStringRun_of_ne builder isRun isPtr (by simp)]
    simp only [ne_eq, not_true_eq_false, false_and, and_false, if_false]
  | cons unit rest =>
    have length : runStart.length = run.length + rest.length + 1 := by
      rw [← whole, length_append, length_cons]
      omega
    by_cases isBackslash : unit = backslash
    · subst isBackslash
      rw [lexStringFrom, lexStringRun_of_backslash builder isRun isPtr]
      simp only [if_true]
      cases lexed : lexEscape rest with
      | error message => rfl
      | ok result =>
        obtain ⟨escaped, later⟩ := result
        obtain ⟨escape, isRest, -⟩ := escape_of_lexEscape lexed
        have shorter : later.length < runStart.length := by
          rw [length, isRest, length_append]
          omega
        simp only []
        by_cases goesOn : later.length < runStart.length ∧ later ≠ [] ∧
            later.head? ≠ some doubleQuote
        · rw [if_pos goesOn]
        -- The string ends right behind the escape.
        · rw [if_neg goesOn]
          have atEnd : later = [] ∨ later.head? = some doubleQuote := by
            by_contra neither
            exact goesOn ⟨shorter, fun isNil => neither (.inl isNil),
              fun isQuote => neither (.inr isQuote)⟩
          cases later with
          | nil => rw [lexStringFrom_of_noRun _ rfl (by simp)]
          | cons unit later =>
            have isQuote : unit = doubleQuote := by simpa using atEnd
            subst isQuote
            rw [lexStringFrom_of_noRun _ rfl head?_doubleQuote]
            simp
    · have noEscape : (unit :: rest).head? ≠ some backslash := by simpa using isBackslash
      rw [lexStringFrom, lexStringRun_of_ne builder isRun isPtr noEscape]
      simp only [if_neg isBackslash]
      by_cases isQuote : unit = doubleQuote
      · subst isQuote
        have isContent : runStart.take (runStart.length - (rest.length + 1)) = run := by
          rw [length, Nat.add_assoc, Nat.add_sub_cancel, ← whole, take_left]
        simp only [head?_cons, ne_eq, not_true_eq_false, and_false, if_false, if_true,
          length_cons, isContent]
        cases builder <;> rfl
      · rw [lexStringFrom_of_noRun _ again noEscape]
        simp only [if_neg isQuote, ite_self]

/-- What is read is the body of a string and the closing quote. -/
theorem stringBody_of_lexStringFrom {builder runStart content rest : WString}
    (lexed : lexStringFrom builder runStart = .ok (content, rest)) :
    ∃ body read, runStart = body ++ 34 :: rest ∧ content = builder ++ read ∧
      StringBody body read := by
  have whole := takeWhile_append_dropWhile (p := isSafeStringCharacter) (l := runStart)
  have isPlain : ∀ unit ∈ runStart.takeWhile isSafeStringCharacter, IsPlain unit :=
    fun unit isIn => isSafeStringCharacter_iff.1 (mem_takeWhile_imp isIn)
  rw [lexStringFrom_eq] at lexed
  split at lexed
  · cases lexed
  next unit behind isPtr =>
    rw [isPtr] at whole
    split_ifs at lexed with isBackslash isQuote
    · split at lexed
      · cases lexed
      next escaped later isEscape =>
        obtain ⟨escape, isBehind, valid⟩ := escape_of_lexEscape isEscape
        have shorter : later.length < runStart.length := by
          rw [← whole, isBehind]
          simp only [length_append, length_cons]
          omega
        obtain ⟨body, read, isLater, isContent, isBody⟩ := stringBody_of_lexStringFrom lexed
        refine ⟨runStart.takeWhile isSafeStringCharacter ++ 92 :: (escape ++ body),
          runStart.takeWhile isSafeStringCharacter ++ escaped :: read, ?_, ?_,
          stringBody_append isPlain (StringBody.escaped valid isBody)⟩
        · calc runStart
              = runStart.takeWhile isSafeStringCharacter ++
                  92 :: (escape ++ (body ++ 34 :: rest)) := by
                rw [← isLater, ← isBehind, ← backslash, ← isBackslash, whole]
            _ = _ := by simp
        · simpa using isContent
    · cases lexed
      refine ⟨runStart.takeWhile isSafeStringCharacter,
        runStart.takeWhile isSafeStringCharacter, ?_, rfl, ?_⟩
      · rw [isQuote] at whole
        exact whole.symm
      · simpa using stringBody_append isPlain StringBody.nil
termination_by runStart.length

/-- The body of a string and the closing quote are read. -/
theorem lexStringFrom_of_stringBody {body content : WString} (isBody : StringBody body content)
    (builder rest : WString) :
    lexStringFrom builder (body ++ 34 :: rest) = .ok (builder ++ content, rest) := by
  induction isBody generalizing builder with
  | nil =>
    rw [nil_append, ← doubleQuote, lexStringFrom_of_noRun _ rfl head?_doubleQuote]
    simp
  | @plain unit text content isPlain body ih =>
    have safe := isSafeStringCharacter_iff.2 isPlain
    have moved : lexStringFrom builder (unit :: (text ++ 34 :: rest)) =
        lexStringFrom (builder ++ [unit]) (text ++ 34 :: rest) := by
      rw [lexStringFrom_eq builder, lexStringFrom_eq (builder ++ [unit])]
      simp only [dropWhile_cons, takeWhile_cons, safe, if_true, append_assoc,
        singleton_append]
    rw [cons_append, moved, ih]
    simp
  | @escaped escape unit text content isEscape body ih =>
    have lexed := lexEscape_of_escape isEscape (text ++ 34 :: rest)
    have isText : 92 :: (escape ++ text) ++ 34 :: rest =
        backslash :: (escape ++ (text ++ 34 :: rest)) := by
      simp [backslash]
    rw [isText, lexStringFrom_eq]
    have isUnsafe : isSafeStringCharacter backslash = false := by decide
    simp only [dropWhile_cons, takeWhile_cons, isUnsafe, if_true, lexed,
      Bool.false_eq_true, if_false, ih]
    simp

/-- `lexString` cuts the content of a string, and nothing else. -/
theorem lexString_eq_iff {Number : Type} (text rest : WString) (token : WString) :
    @lexString Number text = (.string token, rest) ↔
      ∃ body content, text = body ++ 34 :: rest ∧ StringBody body content ∧
        token = cutString content := by
  constructor
  · intro lexed
    unfold lexString at lexed
    split at lexed
    · simp at lexed
    next content behind isContent =>
      obtain ⟨rfl, rfl⟩ := lexed
      obtain ⟨body, read, isText, isRead, isBody⟩ := stringBody_of_lexStringFrom isContent
      rw [nil_append] at isRead
      exact ⟨body, read, isText, isBody, by rw [isRead]⟩
  · rintro ⟨body, content, rfl, isBody, rfl⟩
    rw [lexString, lexStringFrom_of_stringBody isBody]
    rfl

end JavaScript
end PalmWebKit
