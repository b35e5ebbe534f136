import PalmWebKit.Text.CodeUnits

/-!
# Date and time components of form controls

`WebCore::DateComponents`: the parsers of its string forms and the carries of
a time zone's offset.  A parser takes the text from its start position on and
returns what is behind the last character it consumed.
-/

namespace PalmWebKit
namespace Dates

open WString

def minimumYear : Int := 1

def maximumYear : Int := 275760

/-- September, since months are 0 based. -/
def maximumMonthInMaximumYear : Int := 8

def maximumDayInMaximumMonth : Int := 13

/-- The week of 275760-09-13. -/
def maximumWeekInMaximumYear : Int := 37

def minimumWeekNumber : Int := 1

def maximumWeekNumber : Int := 53

def intMax : Int := 2147483647

/-- The value of a sum of `int`s, which has one only inside of the type. -/
def int (sum : Int) : Option Int :=
  if -intMax - 1 ≤ sum ∧ sum ≤ intMax then some sum else none

inductive ComponentType where
  | invalid
  | date
  | dateTime
  | dateTimeLocal
  | month
  | time
  | week
  deriving DecidableEq, Repr

/-- A day of the calendar, with the month counted from zero. -/
structure CalendarDate where
  year : Int
  month : Int
  monthDay : Int
  deriving DecidableEq, Repr

structure DateComponents extends CalendarDate where
  hour : Int
  minute : Int
  second : Int
  millisecond : Int
  week : Int
  type : ComponentType
  deriving DecidableEq, Repr

/-- The constructor's values. -/
def DateComponents.empty : DateComponents := ⟨⟨0, 0, 0⟩, 0, 0, 0, 0, 0, .invalid⟩

def isLeapYear (year : Int) : Bool :=
  if year % 4 ≠ 0 then false
  else if year % 400 = 0 then true
  else if year % 100 = 0 then false
  else true

def daysInMonth : List Int := [31, 28, 31, 30, 31, 30, 31, 31, 30, 31, 30, 31]

def maxDayOfMonth (year month : Int) : Int :=
  if month ≠ 1 then daysInMonth.getD month.toNat 0 else if isLeapYear year then 29 else 28

/-- Zeller's congruence, with Sunday as zero. -/
def dayOfWeek (year month day : Int) : Int :=
  let (year, shiftedMonth) :=
    if month + 2 ≤ 3 then (year - 1, month + 14) else (year, month + 2)
  (day + 13 * shiftedMonth / 5 + year % 100 + year % 100 / 4 + year / 100 / 4 +
    5 * (year / 100) + 6) % 7

def maxWeekNumberInYear (year : Int) : Int :=
  let day := dayOfWeek year 0 1
  if day = 4 ∨ day = 3 ∧ isLeapYear year then maximumWeekNumber else maximumWeekNumber - 1

/-- `withinHTMLDateLimits` of a year and a month. -/
def monthWithinLimits (year month : Int) : Bool :=
  if year < minimumYear then false
  else if year < maximumYear then true
  else month ≤ maximumMonthInMaximumYear

/-- `withinHTMLDateLimits` of a year, a month and a day. -/
def dayWithinLimits (date : CalendarDate) : Bool :=
  if date.year < minimumYear then false
  else if date.year < maximumYear then true
  else if date.month < maximumMonthInMaximumYear then true
  else date.monthDay ≤ maximumDayInMaximumMonth

/-- `withinHTMLDateLimits` of all seven fields. -/
def timeWithinLimits (date : DateComponents) : Bool :=
  if date.year < minimumYear then false
  else if date.year < maximumYear then true
  else if date.month < maximumMonthInMaximumYear then true
  else if date.monthDay < maximumDayInMaximumMonth then true
  else if date.monthDay > maximumDayInMaximumMonth then false
  else date.hour = 0 ∧ date.minute = 0 ∧ date.second = 0 ∧ date.millisecond = 0

/-- A round of the loop of `addDay` for a positive difference. -/
def nextDay (date : CalendarDate) : CalendarDate :=
  if date.monthDay + 1 > maxDayOfMonth date.year date.month then
    if date.month + 1 ≥ 12 then ⟨date.year + 1, 0, 1⟩ else ⟨date.year, date.month + 1, 1⟩
  else { date with monthDay := date.monthDay + 1 }

/-- A round of the loop of `addDay` for a negative difference. -/
def previousDay (date : CalendarDate) : CalendarDate :=
  if date.monthDay - 1 < 1 then
    if date.month - 1 < 0 then ⟨date.year - 1, 11, maxDayOfMonth (date.year - 1) 11⟩
    else ⟨date.year, date.month - 1, maxDayOfMonth date.year (date.month - 1)⟩
  else { date with monthDay := date.monthDay - 1 }

/-- `addDay`: its result and the components it leaves, where no sum of it
leaves the type `int`. -/
def addDay (date : DateComponents) (dayDiff : Int) : Option (Bool × DateComponents) :=
  (int (date.monthDay + dayDiff)).map fun day =>
    let moved :=
      if day > maxDayOfMonth date.year date.month then
        nextDay^[dayDiff.toNat] date.toCalendarDate
      else if day < 1 then previousDay^[(-dayDiff).toNat] date.toCalendarDate
      else { date.toCalendarDate with monthDay := day }
    if dayWithinLimits moved then (true, { date with toCalendarDate := moved })
    else (false, date)

/-- The last test of each branch of `addMinute` and its assignments. -/
def storeTime (date : DateComponents) (hour minute : Int) : Bool × DateComponents :=
  if timeWithinLimits { date with hour, minute } then (true, { date with hour, minute })
  else (false, date)

/-- The part of `addMinute` behind the carry into the hours. -/
def addHour (date : DateComponents) (minute carry : Int) : Option (Bool × DateComponents) :=
  (int (date.hour + carry)).bind fun hour =>
    if hour > 23 then
      (addDay date (hour / 24)).map fun (ok, moved) =>
        if ok then storeTime moved (hour % 24) minute else (false, moved)
    else if hour < 0 then
      let carry := (23 - hour) / 24
      (addDay date (-carry)).map fun (ok, moved) =>
        if ok then storeTime moved (hour + carry * 24) minute else (false, moved)
    else some (storeTime date hour minute)

def addMinute (date : DateComponents) (minute : Int) : Option (Bool × DateComponents) :=
  (int (minute + date.minute)).bind fun minute =>
    if minute > 59 then addHour date (minute % 60) (minute / 60)
    else if minute < 0 then
      (int (59 - minute)).bind fun sum =>
        addHour date (minute + sum / 60 * 60) (-(sum / 60))
    else some (storeTime date date.hour minute)

def countDigits (text : WString) : Nat := (text.takeWhile isASCIIDigit).length

/-- The loop of `toInt`. -/
def digitsValue : Int → WString → Option Int
  | value, [] => some value
  | value, unit :: rest =>
    if ¬ isASCIIDigit unit then none
    else if value > (intMax - (unit.toNat - 48 : Int)) / 10 then none
    else digitsValue (value * 10 + (unit.toNat - 48 : Int)) rest

def toInt (text : WString) (parseLength : Nat) : Option Int :=
  if parseLength > text.length ∨ parseLength = 0 then none
  else digitsValue 0 (text.take parseLength)

/-- The test for an expected character and the step over it. -/
def skip (expected : UChar) : WString → Option WString
  | [] => none
  | unit :: rest => if unit = expected then some rest else none

/-- `toInt` of two digits with its range, and the step over them. -/
def twoDigits (text : WString) (least most : Int) : Option (Int × WString) :=
  (toInt text 2).bind fun value =>
    if value < least ∨ value > most then none else some (value, text.drop 2)

def colon : UChar := 58

def parseYear (date : DateComponents) (text : WString) : Option (DateComponents × WString) :=
  if countDigits text < 4 then none
  else
    (toInt text (countDigits text)).bind fun year =>
      if year < minimumYear ∨ year > maximumYear then none
      else some ({ date with year }, text.drop (countDigits text))

def parseMonth (date : DateComponents) (text : WString) : Option (DateComponents × WString) := do
  let (date, text) ← parseYear date text
  let (month, text) ← twoDigits (← skip dash text) 1 12
  if monthWithinLimits date.year (month - 1) then
    some ({ date with month := month - 1, type := .month }, text)
  else none

def parseDate (date : DateComponents) (text : WString) : Option (DateComponents × WString) := do
  let (date, text) ← parseMonth date text
  if text.length ≤ 2 then none
  else
    let (day, text) ← twoDigits (← skip dash text) 1 (maxDayOfMonth date.year date.month)
    if dayWithinLimits { date.toCalendarDate with monthDay := day } then
      some ({ date with monthDay := day, type := .date }, text)
    else none

def parseWeek (date : DateComponents) (text : WString) : Option (DateComponents × WString) := do
  let (date, text) ← parseYear date text
  if text.length ≤ 3 then none
  else
    let (week, text) ← twoDigits (← skip 87 (← skip dash text)) minimumWeekNumber
      (maxWeekNumberInYear date.year)
    if date.year = maximumYear ∧ week > maximumWeekInMaximumYear then none
    else some ({ date with week, type := .week }, text)

/-- The optional fraction of a second, in milliseconds. -/
def parseFraction : WString → Int × WString
  | [] => (0, [])
  | unit :: rest =>
    if unit = dot ∧ countDigits rest > 0 then
      (if countDigits rest = 1 then (toInt rest 1).getD 0 * 100
        else if countDigits rest = 2 then (toInt rest 2).getD 0 * 10
        else (toInt rest 3).getD 0, rest.drop (countDigits rest))
    else (0, unit :: rest)

/-- The optional seconds: the second, the millisecond and the rest.  A value
above 59 is stored without being consumed. -/
def parseSeconds : WString → Int × Int × WString
  | [] => (0, 0, [])
  | unit :: rest =>
    if 2 ≤ rest.length ∧ unit = colon then
      match toInt rest 2 with
      | none => (0, 0, unit :: rest)
      | some second =>
        if 0 ≤ second ∧ second ≤ 59 then (second, parseFraction (rest.drop 2))
        else (second, 0, unit :: rest)
    else (0, 0, unit :: rest)

def parseTime (date : DateComponents) (text : WString) : Option (DateComponents × WString) := do
  let (hour, text) ← twoDigits text 0 23
  let (minute, text) ← twoDigits (← skip colon text) 0 59
  let (second, millisecond, text) := parseSeconds text
  some ({ date with hour, minute, second, millisecond, type := .time }, text)

def parseTimeZone (date : DateComponents) : WString → Option (DateComponents × WString)
  | [] => none
  | unit :: rest => do
    if unit = 90 then some (date, rest)
    else if unit ≠ 43 ∧ unit ≠ dash then none
    else
      let (hour, text) ← twoDigits rest 0 23
      let (minute, text) ← twoDigits (← skip colon text) 0 59
      let (hour, minute) := if unit = dash then (-hour, -minute) else (hour, minute)
      let (ok, moved) ← addMinute date (-(hour * 60 + minute))
      if ok then some (moved, text) else none

/-- `'T'` -/
def timeLetter : UChar := 84

def parseDateTimeLocal (date : DateComponents) (text : WString) :
    Option (DateComponents × WString) := do
  let (date, text) ← parseDate date text
  let (date, text) ← parseTime date (← skip timeLetter text)
  if timeWithinLimits date then some ({ date with type := .dateTimeLocal }, text) else none

def parseDateTime (date : DateComponents) (text : WString) : Option (DateComponents × WString) := do
  let (date, text) ← parseDate date text
  let (date, text) ← parseTime date (← skip timeLetter text)
  let (date, text) ← parseTimeZone date text
  if timeWithinLimits date then some ({ date with type := .dateTime }, text) else none

end Dates
end PalmWebKit
