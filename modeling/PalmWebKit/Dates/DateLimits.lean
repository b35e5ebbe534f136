import PalmWebKit.Dates.TimeZone

/-!
# The limits of form dates

Which dates the parsers and the functions that take milliseconds let through.
The calendar functions of `wtf/DateMath.cpp` that compute with doubles are a
parameter.
-/

namespace PalmWebKit
namespace Dates

/-- `msToYear` and `dayInYear` of an integral number of milliseconds. -/
structure DateMath where
  msToYear : Int → Int
  dayInYear : Int → Int → Int

def msPerDay : Int := 86400000

/-- The days of the months, February with the leap year's day. -/
def monthLengths (leapYear : Bool) : List Int :=
  [31, if leapYear then 29 else 28, 31, 30, 31, 30, 31, 31, 30, 31, 30]

/-- The month and the day in it, by taking the months off one after another:
`monthFromDayInYear` and `dayInMonthFromDayInYear`. -/
def splitDayInYear : List Int → Int → Int → Int × Int
  | [], month, day => (month, day + 1)
  | length :: others, month, day =>
    if day < length then (month, day + 1) else splitDayInYear others (month + 1) (day - length)

def monthFromDayInYear (dayInYear : Int) (leapYear : Bool) : Int :=
  (splitDayInYear (monthLengths leapYear) 0 dayInYear).1

def dayInMonthFromDayInYear (dayInYear : Int) (leapYear : Bool) : Int :=
  (splitDayInYear (monthLengths leapYear) 0 dayInYear).2

/-- `round`, which takes a half away from zero. -/
def round (value : ℚ) : Int := if 0 ≤ value then ⌊value + 1 / 2⌋ else -⌊1 / 2 - value⌋

/-- The calendar date of `setMillisecondsSinceEpochForDateInternal`. -/
def dateOf (math : DateMath) (ms : Int) : CalendarDate :=
  let year := math.msToYear ms
  let yearDay := math.dayInYear ms year
  ⟨year, monthFromDayInYear yearDay (isLeapYear year),
    dayInMonthFromDayInYear yearDay (isLeapYear year)⟩

/-- `setMillisecondsSinceMidnightInternal` -/
def withMillisecondsSinceMidnight (date : DateComponents) (msInDay : Int) : DateComponents :=
  { date with
    millisecond := msInDay % 1000
    second := msInDay / 1000 % 60
    minute := msInDay / 1000 / 60 % 60
    hour := msInDay / 1000 / 60 / 60 }

section

variable (math : DateMath) (date : DateComponents)

/-- The argument is `none` where the number is not finite. -/
def setMillisecondsSinceEpochForDate (ms : Option ℚ) : Option DateComponents :=
  ms.bind fun ms =>
    if dayWithinLimits (dateOf math (round ms)) then
      some { date with toCalendarDate := dateOf math (round ms), type := .date }
    else none

def setMillisecondsSinceEpochForDateTime (ms : Option ℚ) : Option DateComponents :=
  ms.bind fun ms =>
    let moved := { withMillisecondsSinceMidnight date (round ms % msPerDay) with
      toCalendarDate := dateOf math (round ms) }
    if timeWithinLimits moved then some { moved with type := .dateTime } else none

def setMillisecondsSinceEpochForDateTimeLocal (ms : Option ℚ) : Option DateComponents :=
  (setMillisecondsSinceEpochForDateTime math date ms).map fun moved =>
    { moved with type := .dateTimeLocal }

def setMillisecondsSinceEpochForMonth (ms : Option ℚ) : Option DateComponents :=
  ms.bind fun ms =>
    let moved := dateOf math (round ms)
    if monthWithinLimits moved.year moved.month then
      some { date with toCalendarDate := moved, type := .month }
    else none

def offsetTo1stWeekStart (year : Int) : Int :=
  let offset := 1 - dayOfWeek year 0 1
  if offset ≤ -4 then offset + 7 else offset

def setMillisecondsSinceEpochForWeek (ms : Option ℚ) : Option DateComponents :=
  ms.bind fun ms =>
    let year := math.msToYear (round ms)
    if year < minimumYear ∨ year > maximumYear then none
    else
      let yearDay := math.dayInYear (round ms) year
      let offset := offsetTo1stWeekStart year
      if yearDay < offset then
        if year - 1 ≤ minimumYear then none
        else some { date with
          year := year - 1, week := maxWeekNumberInYear (year - 1), type := .week }
      else
        let week := (yearDay - offset) / 7 + 1
        let (year, week) := if week > maxWeekNumberInYear year then (year + 1, 1) else (year, week)
        if year > maximumYear ∨ year = maximumYear ∧ week > maximumWeekInMaximumYear then none
        else some { date with year, week, type := .week }

end

/-- Fields are at most others, compared from the first one on. -/
def AtMost : List Int → List Int → Prop
  | field :: rest, bound :: bounds => field < bound ∨ field = bound ∧ AtMost rest bounds
  | _, _ => True

@[simp] theorem atMost_nil : AtMost [] [] := trivial

@[simp] theorem atMost_cons (field bound : Int) (rest bounds : List Int) :
    AtMost (field :: rest) (bound :: bounds) ↔
      field < bound ∨ field = bound ∧ AtMost rest bounds := Iff.rfl

/-- The fields of a component type, the largest first. -/
def fields (date : DateComponents) : List Int :=
  match date.type with
  | .date => [date.year, date.month, date.monthDay]
  | .dateTime | .dateTimeLocal =>
    [date.year, date.month, date.monthDay, date.hour, date.minute, date.second, date.millisecond]
  | .month => [date.year, date.month]
  | .week => [date.year, date.week]
  | .time | .invalid => []

/-- The fields of 275760-09-13 at midnight and of its week. -/
def maximumFields : ComponentType → List Int
  | .date => [275760, 8, 13]
  | .dateTime | .dateTimeLocal => [275760, 8, 13, 0, 0, 0, 0]
  | .month => [275760, 8]
  | .week => [275760, 37]
  | .time | .invalid => []

/-- The date lies between 0001-01-01 and 275760-09-13, in the order of the
calendar. -/
def IsWithinLimits (date : DateComponents) : Prop :=
  (date.type ≠ .time → 1 ≤ date.year) ∧ AtMost (fields date) (maximumFields date.type)

/-- The month lies behind September 275760. -/
def IsPastSeptember (date : CalendarDate) : Prop :=
  ¬ AtMost [date.year, date.month] [275760, 8]

theorem monthWithinLimits_iff (year month : Int) :
    monthWithinLimits year month = true ↔ 1 ≤ year ∧ (year < 275760 ∨ month ≤ 8) := by
  unfold monthWithinLimits minimumYear maximumYear maximumMonthInMaximumYear
  split_ifs <;> simp <;> omega

theorem dayWithinLimits_iff (date : CalendarDate) : dayWithinLimits date = true ↔
      1 ≤ date.year ∧ (date.year < 275760 ∨ date.month < 8 ∨ date.monthDay ≤ 13) := by
  unfold dayWithinLimits minimumYear maximumYear maximumMonthInMaximumYear maximumDayInMaximumMonth
  split_ifs <;> simp <;> omega

theorem timeWithinLimits_iff (date : DateComponents) : timeWithinLimits date = true ↔
      1 ≤ date.year ∧ (date.year < 275760 ∨ date.month < 8 ∨ date.monthDay < 13 ∨
        date.monthDay = 13 ∧
          date.hour = 0 ∧ date.minute = 0 ∧ date.second = 0 ∧ date.millisecond = 0) := by
  unfold timeWithinLimits minimumYear maximumYear maximumMonthInMaximumYear maximumDayInMaximumMonth
  split_ifs <;> simp <;> omega

/-- A test in front of a result lets only results within the limits through
where no other passes it. -/
theorem only_within_iff {passes : Prop} [Decidable passes] {result : DateComponents} :
    (∀ other, (if passes then some result else none) = some other → IsWithinLimits other) ↔
      ¬ (passes ∧ ¬ IsWithinLimits result) := by
  by_cases passed : passes <;> simp [passed]

variable (math : DateMath)

variable (date : DateComponents)
include date

theorem date_within_iff (ms : Option ℚ) :
    (∀ result, setMillisecondsSinceEpochForDate math date ms = some result →
        IsWithinLimits result) ↔
      ∀ value ∈ ms, let day := dateOf math (round value)
        ¬ (IsPastSeptember day ∧ (day.month < 8 ∨ day.monthDay ≤ 13)) := by
  cases ms with
  | none => simp [setMillisecondsSinceEpochForDate]
  | some value =>
    simp only [setMillisecondsSinceEpochForDate, Option.bind_some, Option.mem_some_iff, forall_eq']
    rw [only_within_iff]
    simp [dayWithinLimits_iff, IsWithinLimits, fields, maximumFields, IsPastSeptember]
    omega

theorem dateTime_within_iff (ms : Option ℚ) :
    (∀ result, setMillisecondsSinceEpochForDateTime math date ms = some result →
        IsWithinLimits result) ↔
      ∀ value ∈ ms, let day := dateOf math (round value)
        ¬ (IsPastSeptember day ∧ (day.month < 8 ∨ day.monthDay < 13 ∨
          day.monthDay = 13 ∧ round value % msPerDay = 0)) := by
  cases ms with
  | none => simp [setMillisecondsSinceEpochForDateTime]
  | some value =>
    have least : 0 ≤ round value % msPerDay := Int.emod_nonneg _ (by decide)
    simp only [setMillisecondsSinceEpochForDateTime, Option.bind_some, Option.mem_some_iff,
      forall_eq']
    rw [only_within_iff]
    simp only [timeWithinLimits_iff, IsWithinLimits, fields, maximumFields, IsPastSeptember,
      withMillisecondsSinceMidnight, atMost_cons, atMost_nil, and_true, ne_eq, reduceCtorEq,
      not_false_eq_true, forall_const]
    omega

theorem dateTimeLocal_iff (ms : Option ℚ) :
    (∀ result, setMillisecondsSinceEpochForDateTimeLocal math date ms = some result →
        IsWithinLimits result) ↔
      ∀ result, setMillisecondsSinceEpochForDateTime math date ms = some result →
        IsWithinLimits result := by
  cases ms with
  | none => simp [setMillisecondsSinceEpochForDateTimeLocal, setMillisecondsSinceEpochForDateTime]
  | some value =>
    simp only [setMillisecondsSinceEpochForDateTimeLocal, setMillisecondsSinceEpochForDateTime,
      Option.bind_some]
    split_ifs
    · simp [IsWithinLimits, fields, maximumFields]
    · simp

theorem month_within_iff (ms : Option ℚ) :
    (∀ result, setMillisecondsSinceEpochForMonth math date ms = some result →
        IsWithinLimits result) ↔
      ∀ value ∈ ms, let day := dateOf math (round value)
        ¬ (275760 < day.year ∧ day.month ≤ 8) := by
  cases ms with
  | none => simp [setMillisecondsSinceEpochForMonth]
  | some value =>
    simp only [setMillisecondsSinceEpochForMonth, Option.bind_some, Option.mem_some_iff, forall_eq']
    rw [only_within_iff]
    simp [monthWithinLimits_iff, IsWithinLimits, fields, maximumFields]
    omega

omit date

theorem week_within {math : DateMath} {date result : DateComponents} {ms : Option ℚ}
    (isSet : setMillisecondsSinceEpochForWeek math date ms = some result) :
    IsWithinLimits result := by
  simp only [setMillisecondsSinceEpochForWeek, Option.bind_eq_some_iff] at isSet
  obtain ⟨value, -, isSet⟩ := isSet
  generalize math.msToYear (round value) = year at isSet
  generalize math.dayInYear (round value) year = yearDay at isSet
  by_cases beyond : (yearDay - offsetTo1stWeekStart year) / 7 + 1 > maxWeekNumberInYear year
  all_goals
    simp only [beyond, if_true, if_false] at isSet
    split_ifs at isSet <;> cases isSet
  all_goals
    simp only [minimumYear, maximumYear, maximumWeekInMaximumYear] at *
    simp [IsWithinLimits, fields, maximumFields]
    omega

variable {text rest : WString} {date read : DateComponents}

theorem parseYear_range
    (isRead : parseYear date text = some (read, rest)) : 1 ≤ read.year ∧ read.year ≤ 275760 := by
  rw [parseYear] at isRead
  split at isRead
  · cases isRead
  · obtain ⟨year, -, isRead⟩ := Option.bind_eq_some_iff.1 isRead
    split at isRead <;> cases isRead
    simp only [minimumYear, maximumYear] at *
    omega

theorem daysBeforeYear_mono : Monotone daysBeforeYear :=
  monotone_int_of_le_succ fun year => by
    rw [daysBeforeYear_succ]
    split_ifs <;> omega

theorem daysBeforeMonth_mono (year : Int) : Monotone (daysBeforeMonth year) :=
  monotone_nat_of_le_succ fun month => by
    have least : 0 ≤ maxDayOfMonth year month := by
      by_cases small : month < 12
      · exact (maxDayOfMonth_pos year (by omega) (by omega)).trans' zero_le_one
      · have absent : daysInMonth.getD month 0 = 0 := by
          simp only [daysInMonth, List.getD_eq_getElem?_getD]
          rw [List.getElem?_eq_none (by simp; omega), Option.getD_none]
        rw [maxDayOfMonth, if_pos (by omega), Int.toNat_natCast, absent]
    rw [daysBeforeMonth]
    omega

/-- The days of a year end before the next one starts. -/
theorem dayNumber_le_year {date : CalendarDate} (isDate : IsDate date) :
    dayNumber date ≤ daysBeforeYear (date.year + 1) := by
  obtain ⟨least, most, -, last⟩ := isDate
  have year := daysBeforeYear_succ date.year
  have before := daysBeforeMonth_eleven date.year
  have months := daysBeforeMonth_mono date.year (show date.month.toNat + 1 ≤ 12 by omega)
  have same : ((date.month.toNat : Nat) : Int) = date.month := by omega
  rw [daysBeforeMonth, daysBeforeMonth, before, same] at months
  have december : maxDayOfMonth date.year (11 : Nat) = 31 := rfl
  unfold dayNumber
  split_ifs at * <;> omega

/-- The count follows the order of the calendar. -/
theorem dayNumber_mono {first second : CalendarDate} (isFirst : IsDate first)
    (isSecond : IsDate second) (atMost : AtMost [first.year, first.month, first.monthDay]
      [second.year, second.month, second.monthDay]) : dayNumber first ≤ dayNumber second := by
  have within := dayNumber_le_year isFirst
  obtain ⟨least, -, -, last⟩ := isFirst
  obtain ⟨secondLeast, -, secondFirst, -⟩ := isSecond
  have same : ((first.month.toNat : Nat) : Int) = first.month := by omega
  simp only [atMost_cons, atMost_nil, and_true] at atMost
  obtain year | ⟨year, month | ⟨month, day⟩⟩ := atMost
  · have years := daysBeforeYear_mono (show first.year + 1 ≤ second.year by omega)
    have months := daysBeforeMonth_mono second.year (Nat.zero_le second.month.toNat)
    rw [daysBeforeMonth] at months
    unfold dayNumber at *
    omega
  · have months := daysBeforeMonth_mono first.year
      (show first.month.toNat + 1 ≤ second.month.toNat by omega)
    rw [daysBeforeMonth, same] at months
    simp only [dayNumber, ← year]
    omega
  · simp only [dayNumber, year, month]
    omega

/-- The date lies in a month up to September 275760. -/
def IsEarly (date : CalendarDate) : Prop := 1 ≤ date.year ∧ ¬ IsPastSeptember date

theorem parseMonth_early (isRead : parseMonth date text = some (read, rest)) :
    IsEarly read.toCalendarDate ∧ read.type = .month := by
  simp only [parseMonth, bind, Option.bind_eq_some_iff, Prod.exists] at isRead
  obtain ⟨day, _, isYear, _, -, month, _, isMonth, isRead⟩ := isRead
  have range := parseYear_range isYear
  split at isRead
  next within =>
    rw [monthWithinLimits_iff] at within
    cases isRead
    simp [IsEarly, IsPastSeptember]
    omega
  next => cases isRead

theorem parseDate_early (isRead : parseDate date text = some (read, rest)) :
    IsEarly read.toCalendarDate ∧ dayWithinLimits read.toCalendarDate = true ∧
      read.type = .date := by
  simp only [parseDate, bind, Option.bind_eq_some_iff, Prod.exists] at isRead
  obtain ⟨month, _, isMonth, isRead⟩ := isRead
  split at isRead
  · cases isRead
  · simp only [Option.bind_eq_some_iff, Prod.exists] at isRead
    obtain ⟨_, -, day, _, -, isRead⟩ := isRead
    split at isRead
    next within =>
      cases isRead
      exact ⟨(parseMonth_early isMonth).1, within, rfl⟩
    next => cases isRead

theorem isWithinLimits_of_early {date : DateComponents} (early : IsEarly date.toCalendarDate)
    (within : timeWithinLimits date = true) : IsWithinLimits { date with type := .dateTime } ∧
      IsWithinLimits { date with type := .dateTimeLocal } := by
  rw [timeWithinLimits_iff] at within
  simp [IsEarly, IsPastSeptember] at early
  simp [IsWithinLimits, fields, maximumFields]
  omega

/-- The offset cannot take a local date within the limits into a later month. -/
theorem early_of_carried {day moved : DateComponents} {minutes : Int}
    (early : IsEarly day.toCalendarDate) (within : dayWithinLimits day.toCalendarDate = true)
    (isDateTime : IsDateTime day) (small : minutes < 1440) (carried : IsCarried day minutes moved)
    (isWithin : timeWithinLimits moved = true) : IsEarly moved.toCalendarDate := by
  refine ⟨((timeWithinLimits_iff _).1 isWithin).1, fun past => ?_⟩
  obtain ⟨isMoved, number, -⟩ := carried
  have limit : dayNumber ⟨275760, 9, 1⟩ = dayNumber ⟨275760, 8, 13⟩ + 18 := by decide
  have least : dayNumber ⟨275760, 9, 1⟩ ≤ dayNumber moved.toCalendarDate := by
    refine dayNumber_mono ⟨by decide, by decide, by decide, by decide⟩ isMoved.1 ?_
    simp only [IsPastSeptember, atMost_cons, atMost_nil, and_true] at past ⊢
    have := isMoved.1.2.2.1
    omega
  have most : dayNumber day.toCalendarDate ≤ dayNumber ⟨275760, 8, 13⟩ := by
    refine dayNumber_mono isDateTime.1 ⟨by decide, by decide, by decide, by decide⟩ ?_
    rw [dayWithinLimits_iff] at within
    simp [IsEarly, IsPastSeptember] at early
    simp only [atMost_cons, atMost_nil, and_true]
    omega
  obtain ⟨-, hour, -, minute, -⟩ := isMoved
  obtain ⟨-, -, dayHour, -, dayMinute⟩ := isDateTime
  unfold minuteNumber at number
  omega

theorem parse_within {date result : DateComponents}
    {parse : DateComponents → WString → Option (DateComponents × WString)} (isParser : parse ∈
      [parseMonth, parseDate, parseWeek, parseTime, parseDateTimeLocal, parseDateTime])
    (isRead : parse date text = some (result, rest)) : IsWithinLimits result := by
  simp only [List.mem_cons, List.not_mem_nil, or_false] at isParser
  rcases isParser with rfl | rfl | rfl | rfl | rfl | rfl
  · obtain ⟨early, type⟩ := parseMonth_early isRead
    simp [IsEarly, IsPastSeptember] at early
    simp [IsWithinLimits, fields, maximumFields, type]
    omega
  · obtain ⟨early, within, type⟩ := parseDate_early isRead
    rw [dayWithinLimits_iff] at within
    simp [IsEarly, IsPastSeptember] at early
    simp [IsWithinLimits, fields, maximumFields, type]
    omega
  · simp only [parseWeek, bind, Option.bind_eq_some_iff, Prod.exists] at isRead
    obtain ⟨day, _, isYear, isRead⟩ := isRead
    have range := parseYear_range isYear
    split at isRead
    · cases isRead
    · simp only [Option.bind_eq_some_iff, Prod.exists] at isRead
      obtain ⟨_, -, _, -, week, _, -, isRead⟩ := isRead
      split at isRead <;> cases isRead
      simp only [maximumYear, maximumWeekInMaximumYear] at *
      simp [IsWithinLimits, fields, maximumFields]
      omega
  · simp only [parseTime, bind, Option.bind_eq_some_iff, Prod.exists] at isRead
    obtain ⟨hour, _, -, _, -, minute, _, -, isRead⟩ := isRead
    cases isRead
    simp [IsWithinLimits, fields, maximumFields]
  · simp only [parseDateTimeLocal, bind, Option.bind_eq_some_iff, Prod.exists] at isRead
    obtain ⟨day, _, isDay, _, -, time, _, isTime, isRead⟩ := isRead
    split at isRead <;> cases isRead
    have early := (parseTime_range isTime).1 ▸ (parseDate_early isDay).1
    exact (isWithinLimits_of_early early ‹_›).2
  · obtain ⟨day, afterDay, time, zone, isDay, isTime⟩ := parseDateTime_read isRead
    obtain ⟨moved, carried, eq⟩ := parseDateTime_eq isDay isTime
    obtain ⟨same, range⟩ := parseTime_range isTime
    obtain ⟨early, within, -⟩ := parseDate_early isDay
    have isDate := parseDate_isDate isDay
    rw [← same] at early within isDate
    rw [eq] at isRead
    split at isRead <;> cases isRead
    refine (isWithinLimits_of_early (early_of_carried early within ⟨isDate, range⟩ ?_ carried ‹_›)
      ‹_›).1
    cases zone
    · decide
    · simp only [Zone.minutes]
      split_ifs <;> omega

/-- Every parser and the function for weeks keep to the limits.  The others
that take milliseconds do exactly where no month behind the last one, and no
day of it, is small enough on its own. -/
theorem dateLimits_iff (date : DateComponents) (text : WString) (ms : Option ℚ) :
    (∀ parse ∈ [parseMonth, parseDate, parseWeek, parseTime, parseDateTimeLocal, parseDateTime],
      ∀ result rest, parse date text = some (result, rest) → IsWithinLimits result) ∧
      ((∀ result, setMillisecondsSinceEpochForDate math date ms = some result →
          IsWithinLimits result) ↔
        ∀ value ∈ ms, let day := dateOf math (round value)
          ¬ (IsPastSeptember day ∧ (day.month < 8 ∨ day.monthDay ≤ 13))) ∧
      (∀ set ∈ [setMillisecondsSinceEpochForDateTime, setMillisecondsSinceEpochForDateTimeLocal],
        (∀ result, set math date ms = some result → IsWithinLimits result) ↔
        ∀ value ∈ ms, let day := dateOf math (round value)
          ¬ (IsPastSeptember day ∧ (day.month < 8 ∨ day.monthDay < 13 ∨
            day.monthDay = 13 ∧ round value % msPerDay = 0))) ∧
      ((∀ result, setMillisecondsSinceEpochForMonth math date ms = some result →
          IsWithinLimits result) ↔
        ∀ value ∈ ms, let day := dateOf math (round value)
          ¬ (275760 < day.year ∧ day.month ≤ 8)) ∧
      ∀ result, setMillisecondsSinceEpochForWeek math date ms = some result →
        IsWithinLimits result := by
  refine ⟨fun parse isParser _ _ => parse_within isParser, date_within_iff math date ms,
    fun set isSet => ?_, month_within_iff math date ms, fun _ => week_within⟩
  simp only [List.mem_cons, List.not_mem_nil, or_false] at isSet
  rcases isSet with rfl | rfl
  · exact dateTime_within_iff math date ms
  · exact (dateTimeLocal_iff math date ms).trans (dateTime_within_iff math date ms)

/-- `msToYear` and `dayInYear` in exact arithmetic. -/
def exactDateMath : DateMath where
  msToYear ms :=
    let approxYear := ms / 31556952000 + 1970
    let start := msPerDay * (daysBeforeYear approxYear - daysBeforeYear 1970)
    if start > ms then approxYear - 1
    else if start + msPerDay * (if isLeapYear approxYear then 366 else 365) ≤ ms then approxYear + 1
    else approxYear
  dayInYear ms year := ms / msPerDay - (daysBeforeYear year - daysBeforeYear 1970)

/-- 275760-10-05 is let through. -/
theorem not_dateLimits :
    ¬ ∀ ms result, setMillisecondsSinceEpochForDate exactDateMath .empty ms = some result →
      IsWithinLimits result := by
  intro every
  have rounded : round 8640001900800000 = 8640001900800000 := by
    rw [round, if_pos (by norm_num), Int.floor_eq_iff]
    norm_num
  have day : dateOf exactDateMath 8640001900800000 = ⟨275760, 9, 5⟩ := by decide
  have within := (every (some 8640001900800000) ⟨⟨275760, 9, 5⟩, 0, 0, 0, 0, 0, .date⟩ (by
    simp only [setMillisecondsSinceEpochForDate, Option.bind_some, rounded, day]
    rfl)).2
  simp [fields, maximumFields] at within

end Dates
end PalmWebKit
