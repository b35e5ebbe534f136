import PalmWebKit.Dates.Carries

/-!
# Date-time strings with an offset

What `parseDateTime` makes of a local date and time and the time zone behind
it.
-/

namespace PalmWebKit
namespace Dates

open WString

/-- Two decimal digits. -/
def twoDigitText (value : Nat) : WString :=
  [UInt16.ofNat (48 + value / 10), UInt16.ofNat (48 + value % 10)]

/-- The time zone of a date-time string. -/
inductive Zone where
  | utc
  | offset (minus : Bool) (hour : Fin 24) (minute : Fin 60)

/-- `Z`, `+hh:mm` or `-hh:mm`. -/
def Zone.text : Zone → WString
  | utc => [90]
  | offset minus hour minute =>
    (if minus then dash else 43) :: (twoDigitText hour ++ colon :: twoDigitText minute)

/-- The minutes by which the zone is ahead of UTC. -/
def Zone.minutes : Zone → Int
  | utc => 0
  | offset minus hour minute =>
    if minus then -(hour.val * 60 + minute.val : Int) else hour.val * 60 + minute.val

variable {text rest : WString}

theorem skip_iff {expected : UChar} : skip expected text = some rest ↔ text = expected :: rest := by
  cases text <;> simp [skip]

theorem twoDigits_range {least most value : Int}
    (read : twoDigits text least most = some (value, rest)) : least ≤ value ∧ value ≤ most := by
  simp only [twoDigits, Option.bind_eq_some_iff] at read
  obtain ⟨number, -, read⟩ := read
  split at read
  · cases read
  · cases read
    omega

theorem twoDigits_text {value : Nat} (small : value < 60) (rest : WString) {most : Int}
    (within : value ≤ most) :
    twoDigits (twoDigitText value ++ rest) 0 most = some ((value : Int), rest) := by
  have values : ∀ value : Fin 60, digitsValue 0 (twoDigitText value) = some (value : Int) := by
    decide
  have number : toInt (twoDigitText value ++ rest) 2 = some (value : Int) := by
    rw [← values ⟨value, small⟩]
    simp [toInt, twoDigitText]
  rw [twoDigits, number, Option.bind_some, if_neg (by omega)]
  rfl

theorem eq_twoDigitText {least most value : Int}
    (read : twoDigits text least most = some (value, rest)) :
    text = twoDigitText value.toNat ++ rest := by
  match text with
  | [] => cases read
  | [_] => cases read
  | high :: low :: others =>
    simp only [twoDigits, Option.bind_eq_some_iff, List.drop_succ_cons, List.drop_zero] at read
    obtain ⟨number, isNumber, read⟩ := read
    rw [toInt, if_neg (by simp)] at isNumber
    simp only [List.take_succ_cons, List.take_zero, digitsValue, isASCIIDigit, Bool.and_eq_true,
      decide_eq_true_eq, UInt16.le_iff_toNat_le] at isNumber
    split_ifs at isNumber read
    simp only [Option.some.injEq, Prod.mk.injEq] at isNumber read
    obtain ⟨rfl, rfl⟩ := read
    have fortyEight : UInt16.toNat 48 = 48 := rfl
    have fiftySeven : UInt16.toNat 57 = 57 := rfl
    simp only [twoDigitText, List.cons_append, List.nil_append, List.cons.injEq, and_true,
      ← UInt16.toNat_inj, UInt16.toNat_ofNat']
    omega

variable {date read : DateComponents}

theorem parseMonth_month
    (isRead : parseMonth date text = some (read, rest)) : 0 ≤ read.month ∧ read.month < 12 := by
  simp only [parseMonth, bind, Option.bind_eq_some_iff, Prod.exists] at isRead
  obtain ⟨_, _, -, _, -, month, _, isMonth, isRead⟩ := isRead
  have range := twoDigits_range isMonth
  split at isRead
  · cases isRead
    simp only
    omega
  · cases isRead

theorem parseDate_isDate
    (isRead : parseDate date text = some (read, rest)) : IsDate read.toCalendarDate := by
  simp only [parseDate, bind, Option.bind_eq_some_iff, Prod.exists] at isRead
  obtain ⟨month, _, isMonth, isRead⟩ := isRead
  split at isRead
  · cases isRead
  · simp only [Option.bind_eq_some_iff, Prod.exists] at isRead
    obtain ⟨_, -, day, _, isDay, isRead⟩ := isRead
    have range := twoDigits_range isDay
    split at isRead
    · cases isRead
      exact ⟨(parseMonth_month isMonth).1, (parseMonth_month isMonth).2, range.1, range.2⟩
    · cases isRead

theorem parseTime_range
    (isRead : parseTime date text = some (read, rest)) : read.toCalendarDate = date.toCalendarDate ∧
      0 ≤ read.hour ∧ read.hour < 24 ∧ 0 ≤ read.minute ∧ read.minute < 60 := by
  simp only [parseTime, bind, Option.bind_eq_some_iff, Prod.exists] at isRead
  obtain ⟨hour, _, isHour, _, -, minute, _, isMinute, isRead⟩ := isRead
  have hourRange := twoDigits_range isHour
  have minuteRange := twoDigits_range isMinute
  cases isRead
  exact ⟨rfl, by simp only; omega, by simp only; omega, by simp only; omega, by simp only; omega⟩

theorem parseTimeZone_offset (date : DateComponents) (minus : Bool) (hour : Fin 24)
    (minute : Fin 60) (rest : WString) :
    parseTimeZone date ((Zone.offset minus hour minute).text ++ rest) =
      (addMinute date (-(Zone.offset minus hour minute).minutes)).bind fun (ok, moved) =>
        if ok then some (moved, rest) else none := by
  have sign : ∀ minus : Bool, (if minus then dash else 43 : UChar) ≠ 90 ∧
      ¬ ((if minus then dash else 43 : UChar) ≠ 43 ∧ (if minus then dash else 43) ≠ dash) := by
    decide
  have isMinus : ((if minus then dash else 43) = dash) ↔ minus = true := by decide +revert
  simp only [Zone.text, List.cons_append, List.append_assoc, parseTimeZone, if_neg (sign minus).1,
    if_neg (sign minus).2, bind]
  rw [twoDigits_text (by omega) _ (by omega)]
  simp only [Option.bind_some, skip, if_true]
  rw [twoDigits_text (by omega) _ (by omega)]
  cases minus
  · simp [Zone.minutes, dash]
  · simp only [Option.bind_some, isMinus, if_true, Zone.minutes]
    rw [show -(hour.val : Int) * 60 + -(minute.val : Int) = -(hour.val * 60 + minute.val) by ring]

theorem exists_zone
    (isRead : parseTimeZone date text = some (read, rest)) :
    ∃ zone, text = Zone.text zone ++ rest := by
  match text with
  | [] => cases isRead
  | unit :: others =>
    rw [parseTimeZone] at isRead
    by_cases isUtc : unit = 90
    · rw [if_pos isUtc] at isRead
      cases isRead
      exact ⟨.utc, by rw [isUtc]; rfl⟩
    rw [if_neg isUtc] at isRead
    by_cases isSign : unit ≠ 43 ∧ unit ≠ dash
    · rw [if_pos isSign] at isRead
      cases isRead
    simp only [if_neg isSign, bind, Option.bind_eq_some_iff, Prod.exists] at isRead
    obtain ⟨hour, _, isHour, _, isColon, minute, _, isMinute, ok, moved, -, isRead⟩ := isRead
    have hourRange := twoDigits_range isHour
    have minuteRange := twoDigits_range isMinute
    split at isRead <;> cases isRead
    refine ⟨.offset (unit = dash) ⟨hour.toNat, by omega⟩ ⟨minute.toNat, by omega⟩, ?_⟩
    rw [eq_twoDigitText isHour, skip_iff.1 isColon, eq_twoDigitText isMinute]
    by_cases minus : unit = dash
    · simp [Zone.text, minus]
    · simp [Zone.text, minus, not_not.1 fun plus => isSign ⟨plus, minus⟩]

/-- What the local date and time and the zone behind it make of a string. -/
theorem parseDateTime_eq {date day time : DateComponents} {text afterDay rest : WString}
    {zone : Zone} (isDay : parseDate date text = some (day, timeLetter :: afterDay))
    (isTime : parseTime day afterDay = some (time, zone.text ++ rest)) :
    ∃ moved, IsCarried time (-zone.minutes) moved ∧ parseDateTime date text =
        if timeWithinLimits moved then some ({ moved with type := .dateTime }, rest) else none := by
  obtain ⟨same, range⟩ := parseTime_range isTime
  have isDateTime : IsDateTime time := ⟨same ▸ parseDate_isDate isDay, range⟩
  simp only [parseDateTime, bind, isDay, Option.bind_some, skip, if_true, isTime]
  cases zone with
  | utc => exact ⟨time, ⟨isDateTime, by simp [Zone.minutes], rfl⟩, rfl⟩
  | offset minus hour minute =>
    obtain ⟨moved, carried, reports⟩ := addMinute_spec isDateTime
      (-(Zone.offset minus hour minute).minutes) (by
        simp only [FitsMinute, Zone.minutes, intMax]
        split_ifs <;> omega)
    refine ⟨moved, carried, ?_⟩
    rw [parseTimeZone_offset]
    unfold Reports at reports
    split_ifs at reports with within
    · simp [reports, within]
    · obtain ⟨left, failed⟩ := reports
      simp [failed, within]

theorem parseDateTime_read (isRead : parseDateTime date text = some (read, rest)) :
    ∃ day afterDay time zone, parseDate date text = some (day, timeLetter :: afterDay) ∧
      parseTime day afterDay = some (time, Zone.text zone ++ rest) := by
  simp only [parseDateTime, bind, Option.bind_eq_some_iff, Prod.exists] at isRead
  obtain ⟨day, _, isDay, afterDay, isLetter, time, _, isTime, moved, _, isZone, isRead⟩ := isRead
  split at isRead
  · cases isRead
    obtain ⟨zone, rfl⟩ := exists_zone isZone
    exact ⟨day, afterDay, time, zone, by rw [isDay, skip_iff.1 isLetter], isTime⟩
  · cases isRead

/-- The components of a date-time string are the local ones minus the offset.
The carries are exact for every amount whose sums are `int`s, and a result
outside of the limits is reported as a failure. -/
theorem carries_spec : (∀ date text read rest, parseDateTime date text = some (read, rest) →
      ∃ day afterDay time zone moved, parseDate date text = some (day, timeLetter :: afterDay) ∧
        parseTime day afterDay = some (time, Zone.text zone ++ rest) ∧
        IsCarried time (-zone.minutes) moved ∧ read = { moved with type := .dateTime }) ∧
    (∀ date text day afterDay time zone rest,
      parseDate date text = some (day, timeLetter :: afterDay) →
      parseTime day afterDay = some (time, Zone.text zone ++ rest) →
      ∃ moved, IsCarried time (-zone.minutes) moved ∧ parseDateTime date text =
        if timeWithinLimits moved then some ({ moved with type := .dateTime }, rest) else none) ∧
    (∀ date minutes, IsDateTime date → FitsMinute date minutes →
      ∃ moved, IsCarried date minutes moved ∧ Reports (addMinute date minutes) moved) ∧
    ∀ date dayDiff, IsDate date.toCalendarDate →
      int (date.monthDay + dayDiff) = some (date.monthDay + dayDiff) →
      ∃ moved, IsDate moved ∧ dayNumber moved = dayNumber date.toCalendarDate + dayDiff ∧
        addDay date dayDiff = some (if dayWithinLimits moved then
          (true, { date with toCalendarDate := moved }) else (false, date)) := by
  refine ⟨fun date text read rest isRead => ?_, fun _ _ _ _ _ _ _ => parseDateTime_eq,
    fun _ minutes isDateTime => addMinute_spec isDateTime minutes,
    fun _ dayDiff isDate => addDay_spec isDate dayDiff⟩
  obtain ⟨day, afterDay, time, zone, isDay, isTime⟩ := parseDateTime_read isRead
  obtain ⟨moved, carried, eq⟩ := parseDateTime_eq isDay isTime
  refine ⟨day, afterDay, time, zone, moved, isDay, isTime, carried, ?_⟩
  rw [eq] at isRead
  split at isRead <;> cases isRead
  rfl

/-- The largest amount has no defined sum with a minute. -/
theorem not_every_amount :
    ¬ ∀ date minutes, IsDateTime date → -intMax - 1 ≤ minutes → minutes ≤ intMax →
      ∃ moved, IsCarried date minutes moved ∧ Reports (addMinute date minutes) moved := by
  intro every
  obtain ⟨moved, -, reports⟩ := every ⟨⟨2000, 0, 1⟩, 0, 1, 0, 0, 0, .dateTime⟩ intMax
    ⟨⟨by decide, by decide, by decide, by decide⟩, by decide, by decide, by decide, by decide⟩
    (by decide) le_rfl
  have undefined : addMinute ⟨⟨2000, 0, 1⟩, 0, 1, 0, 0, 0, .dateTime⟩ intMax = none := by decide
  simp [undefined, Reports] at reports

end Dates
end PalmWebKit
