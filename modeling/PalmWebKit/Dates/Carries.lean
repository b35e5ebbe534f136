import PalmWebKit.Dates.DateComponents

/-!
# Carries of a time zone's offset

Days are counted along the Gregorian calendar.  A round of either loop of
`addDay` moves this count by one, and the carries of `addMinute` keep the
number of minutes.
-/

namespace PalmWebKit
namespace Dates

/-- The days of the years before a year, from the year one on. -/
def daysBeforeYear (year : Int) : Int :=
  365 * (year - 1) + (year - 1) / 4 - (year - 1) / 100 + (year - 1) / 400

/-- The days of the months before a month in a year. -/
def daysBeforeMonth (year : Int) : Nat → Int
  | 0 => 0
  | month + 1 => daysBeforeMonth year month + maxDayOfMonth year month

/-- The position of a day in the calendar, where 0001-01-01 is one. -/
def dayNumber (date : CalendarDate) : Int :=
  daysBeforeYear date.year + daysBeforeMonth date.year date.month.toNat + date.monthDay

/-- The date is one of the calendar. -/
def IsDate (date : CalendarDate) : Prop :=
  0 ≤ date.month ∧ date.month < 12 ∧
    1 ≤ date.monthDay ∧ date.monthDay ≤ maxDayOfMonth date.year date.month

def IsDateTime (date : DateComponents) : Prop :=
  IsDate date.toCalendarDate ∧ 0 ≤ date.hour ∧ date.hour < 24 ∧ 0 ≤ date.minute ∧ date.minute < 60

/-- The minutes from the start of the calendar. -/
def minuteNumber (date : DateComponents) : Int :=
  (dayNumber date.toCalendarDate * 24 + date.hour) * 60 + date.minute

variable (year : Int)

theorem isLeapYear_iff :
    isLeapYear year = true ↔ year % 4 = 0 ∧ (year % 100 ≠ 0 ∨ year % 400 = 0) := by
  unfold isLeapYear
  split_ifs <;> simp <;> omega

theorem daysBeforeYear_succ : daysBeforeYear (year + 1) =
      daysBeforeYear year + if isLeapYear year then 366 else 365 := by
  have four : year / 4 = (year - 1) / 4 + if year % 4 = 0 then 1 else 0 := by split_ifs <;> omega
  have century : year / 100 = (year - 1) / 100 + if year % 100 = 0 then 1 else 0 := by
    split_ifs <;> omega
  have rest : year / 400 = (year - 1) / 400 + if year % 400 = 0 then 1 else 0 := by
    split_ifs <;> omega
  unfold daysBeforeYear
  simp only [add_sub_cancel_right, four, century, rest, isLeapYear_iff]
  split_ifs <;> omega

theorem daysBeforeMonth_eleven :
    daysBeforeMonth year 11 = if isLeapYear year then 335 else 334 := by
  simp only [daysBeforeMonth, maxDayOfMonth, daysInMonth]
  cases isLeapYear year <;> rfl

theorem maxDayOfMonth_pos {month : Int} (least : 0 ≤ month) (most : month < 12) :
    1 ≤ maxDayOfMonth year month := by
  interval_cases month <;> cases leap : isLeapYear year <;> simp [maxDayOfMonth, daysInMonth, leap]

theorem maxDayOfMonth_december : maxDayOfMonth year 11 = 31 := rfl

/-- A round of the upward loop goes to the next day of the calendar. -/
theorem nextDay_spec {date : CalendarDate} (isDate : IsDate date) :
    IsDate (nextDay date) ∧ dayNumber (nextDay date) = dayNumber date + 1 := by
  obtain ⟨least, most, first, last⟩ := isDate
  unfold nextDay
  split_ifs with beyond december
  · have monthEq : date.month = 11 := by omega
    refine ⟨⟨le_rfl, by simp, le_rfl, maxDayOfMonth_pos _ le_rfl (by simp)⟩, ?_⟩
    rw [monthEq, maxDayOfMonth_december] at beyond last
    have before := daysBeforeMonth_eleven date.year
    have year := daysBeforeYear_succ date.year
    simp only [dayNumber, monthEq, Int.toNat_zero, daysBeforeMonth]
    rw [show Int.toNat 11 = 11 from rfl, before, year]
    split_ifs <;> omega
  · refine ⟨⟨Int.add_nonneg least Int.one_nonneg, not_le.1 december, le_rfl,
      maxDayOfMonth_pos _ (Int.add_nonneg least Int.one_nonneg) (not_le.1 december)⟩, ?_⟩
    have next : (date.month + 1).toNat = date.month.toNat + 1 := by omega
    have same : ((date.month.toNat : Nat) : Int) = date.month := by omega
    simp only [dayNumber, next, daysBeforeMonth, same]
    omega
  · exact ⟨⟨least, most, by simp only; omega, by simp only; omega⟩, by
      simp only [dayNumber]; omega⟩

/-- A round of the downward loop goes to the day before. -/
theorem previousDay_spec {date : CalendarDate} (isDate : IsDate date) :
    IsDate (previousDay date) ∧ dayNumber (previousDay date) = dayNumber date - 1 := by
  obtain ⟨least, most, first, last⟩ := isDate
  unfold previousDay
  split_ifs with below january
  · have monthEq : date.month = 0 := by omega
    refine ⟨⟨by simp, by simp, by simp [maxDayOfMonth_december], le_rfl⟩, ?_⟩
    have before := daysBeforeMonth_eleven (date.year - 1)
    have year := daysBeforeYear_succ (date.year - 1)
    rw [sub_add_cancel] at year
    simp only [dayNumber, monthEq, Int.toNat_zero, daysBeforeMonth, maxDayOfMonth_december]
    rw [show Int.toNat 11 = 11 from rfl, before, year]
    split_ifs <;> omega
  · refine ⟨⟨by simp only; omega, by simp only; omega,
      maxDayOfMonth_pos _ (by omega) (by omega), le_rfl⟩, ?_⟩
    have previous : date.month.toNat = (date.month - 1).toNat + 1 := by omega
    have same : (((date.month - 1).toNat : Nat) : Int) = date.month - 1 := by omega
    simp only [dayNumber, previous, daysBeforeMonth, same]
    omega
  · exact ⟨⟨least, most, by simp only; omega, by simp only; omega⟩, by
      simp only [dayNumber]; omega⟩

/-- Rounds that each move the day by the same difference. -/
theorem iterate_spec {step : CalendarDate → CalendarDate} {difference : Int}
    (moves : ∀ {date}, IsDate date →
      IsDate (step date) ∧ dayNumber (step date) = dayNumber date + difference)
    {date : CalendarDate} (isDate : IsDate date) (rounds : Nat) : IsDate (step^[rounds] date) ∧
      dayNumber (step^[rounds] date) = dayNumber date + rounds * difference := by
  induction rounds with
  | zero => exact ⟨isDate, by simp⟩
  | succ rounds ih =>
    rw [Function.iterate_succ_apply']
    obtain ⟨isNext, eq⟩ := moves ih.1
    refine ⟨isNext, ?_⟩
    rw [eq, ih.2]
    push_cast
    ring

variable {date : DateComponents}

/-- The day `addDay` tests against the limits is exactly that many days away. -/
theorem addDay_spec (isDate : IsDate date.toCalendarDate) (dayDiff : Int)
    (fits : int (date.monthDay + dayDiff) = some (date.monthDay + dayDiff)) :
    ∃ moved, IsDate moved ∧ dayNumber moved = dayNumber date.toCalendarDate + dayDiff ∧
      addDay date dayDiff = some (if dayWithinLimits moved then
        (true, { date with toCalendarDate := moved }) else (false, date)) := by
  unfold addDay
  rw [fits]
  refine ⟨_, ?_, ?_, rfl⟩
  all_goals
    obtain ⟨least, most, first, last⟩ := id isDate
    split_ifs with beyond below
  · exact (iterate_spec nextDay_spec isDate _).1
  · exact (iterate_spec previousDay_spec isDate _).1
  · exact ⟨least, most, by simp only; omega, by simp only; omega⟩
  · rw [(iterate_spec nextDay_spec isDate _).2]
    omega
  · rw [(@iterate_spec previousDay (-1) previousDay_spec _ isDate _).2]
    omega
  · simp only [dayNumber]
    omega

/-- The components some minutes away, the second and the millisecond as they were. -/
def IsCarried (date : DateComponents) (minutes : Int) (moved : DateComponents) : Prop :=
  IsDateTime moved ∧ minuteNumber moved = minuteNumber date + minutes ∧ moved = { date with
      toCalendarDate := moved.toCalendarDate, hour := moved.hour, minute := moved.minute }

/-- The result is these components where they are within the limits, and a
failure where they are not. -/
def Reports (result : Option (Bool × DateComponents)) (moved : DateComponents) : Prop :=
  if timeWithinLimits moved then result = some (true, moved)
  else ∃ left, result = some (false, left)

theorem int_eq {sum : Int} (least : -intMax - 1 ≤ sum) (most : sum ≤ intMax) : int sum = some sum :=
  if_pos ⟨least, most⟩

theorem maxDayOfMonth_le {month : Int} (least : 0 ≤ month) (most : month < 12) :
    maxDayOfMonth year month ≤ 31 := by
  interval_cases month <;> cases leap : isLeapYear year <;> simp [maxDayOfMonth, daysInMonth, leap]

theorem dayWithinLimits_of_time (within : timeWithinLimits date = true) :
    dayWithinLimits date.toCalendarDate = true := by
  unfold timeWithinLimits at within
  unfold dayWithinLimits
  split_ifs at * with first year month day last <;> try rfl
  all_goals simp only [decide_eq_true_eq]
  all_goals omega

theorem storeTime_reports (date : DateComponents) (hour minute : Int) :
    Reports (some (storeTime date hour minute)) { date with hour, minute } := by
  unfold Reports storeTime
  split
  · rfl
  · exact ⟨date, rfl⟩

/-- The carry into the days with the assignments behind it. -/
theorem carryDay_reports (isDate : IsDate date.toCalendarDate) (hour minute days : Int)
    (least : -100000000 ≤ days) (most : days ≤ 100000000) :
    ∃ moved, IsDate moved ∧ dayNumber moved = dayNumber date.toCalendarDate + days ∧
      Reports ((addDay date days).map fun (ok, moved) =>
          if ok then storeTime moved hour minute else (false, moved))
        { date with toCalendarDate := moved, hour, minute } := by
  have bound := maxDayOfMonth_le date.year isDate.1 isDate.2.1
  obtain ⟨-, -, first, last⟩ := id isDate
  obtain ⟨moved, isMoved, number, eq⟩ := addDay_spec isDate days
    (int_eq (by unfold intMax; omega) (by unfold intMax; omega))
  refine ⟨moved, isMoved, number, ?_⟩
  rw [eq]
  by_cases within : dayWithinLimits moved = true
  · simpa [within] using storeTime_reports { date with toCalendarDate := moved } hour minute
  · have outside : timeWithinLimits { date with toCalendarDate := moved, hour, minute } ≠ true :=
      fun isWithin => within (dayWithinLimits_of_time isWithin)
    simp [Reports, within, outside]

/-- The carry into the hours keeps the number of minutes. -/
theorem addHour_spec (isDate : IsDate date.toCalendarDate) (hourLeast : 0 ≤ date.hour)
    (hourMost : date.hour < 24) (minute carry : Int) (minuteLeast : 0 ≤ minute)
    (minuteMost : minute < 60) (least : -100000000 ≤ carry)
    (most : carry ≤ 100000000) : ∃ moved, IsDateTime moved ∧
      minuteNumber moved = minuteNumber date - date.minute + carry * 60 + minute ∧
      moved = { date with
        toCalendarDate := moved.toCalendarDate, hour := moved.hour, minute := moved.minute } ∧
      Reports (addHour date minute carry) moved := by
  unfold addHour
  rw [int_eq (by unfold intMax; omega) (by unfold intMax; omega), Option.bind_some]
  split_ifs with beyond below
  · obtain ⟨moved, isMoved, number, reports⟩ := carryDay_reports isDate
      ((date.hour + carry) % 24) minute ((date.hour + carry) / 24) (by omega) (by omega)
    refine ⟨_, ⟨isMoved, by simp only; omega, by simp only; omega, minuteLeast, minuteMost⟩, ?_,
      rfl, reports⟩
    simp only [minuteNumber, number]
    omega
  · obtain ⟨moved, isMoved, number, reports⟩ := carryDay_reports isDate
      (date.hour + carry + (23 - (date.hour + carry)) / 24 * 24) minute
      (-((23 - (date.hour + carry)) / 24)) (by omega) (by omega)
    refine ⟨_, ⟨isMoved, by simp only; omega, by simp only; omega, minuteLeast, minuteMost⟩, ?_,
      rfl, reports⟩
    simp only [minuteNumber, number]
    omega
  · refine ⟨{ date with hour := date.hour + carry, minute },
      ⟨isDate, not_lt.1 below, by simp only; omega, minuteLeast, minuteMost⟩, ?_,
      rfl, storeTime_reports date (date.hour + carry) minute⟩
    simp only [minuteNumber]
    omega

/-- Amounts for which the sums of `addMinute` stay inside of the type `int`. -/
def FitsMinute (date : DateComponents) (minutes : Int) : Prop :=
  59 - intMax ≤ minutes + date.minute ∧ minutes + date.minute ≤ intMax

theorem addMinute_spec (isDateTime : IsDateTime date) (minutes : Int)
    (fits : FitsMinute date minutes) :
    ∃ moved, IsCarried date minutes moved ∧ Reports (addMinute date minutes) moved := by
  obtain ⟨isDate, hourLeast, hourMost, minuteLeast, minuteMost⟩ := id isDateTime
  obtain ⟨least, most⟩ := fits
  unfold intMax at least most
  unfold addMinute
  rw [int_eq (by unfold intMax; omega) (by unfold intMax; omega), Option.bind_some]
  split_ifs with beyond below
  · obtain ⟨moved, isMoved, number, same, reports⟩ := addHour_spec isDate hourLeast hourMost
      ((minutes + date.minute) % 60) ((minutes + date.minute) / 60)
      (by omega) (by omega) (by omega) (by omega)
    exact ⟨moved, ⟨isMoved, by omega, same⟩, reports⟩
  · rw [int_eq (by unfold intMax; omega) (by unfold intMax; omega), Option.bind_some]
    obtain ⟨moved, isMoved, number, same, reports⟩ := addHour_spec isDate hourLeast hourMost
      (minutes + date.minute + (59 - (minutes + date.minute)) / 60 * 60)
      (-((59 - (minutes + date.minute)) / 60))
      (by omega) (by omega) (by omega) (by omega)
    exact ⟨moved, ⟨isMoved, by omega, same⟩, reports⟩
  · refine ⟨{ date with minute := minutes + date.minute },
      ⟨⟨isDate, hourLeast, hourMost, not_lt.1 below, by simp only; omega⟩, ?_, rfl⟩,
      storeTime_reports date date.hour _⟩
    simp only [minuteNumber]
    omega

end Dates
end PalmWebKit
