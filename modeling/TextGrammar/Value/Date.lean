import TextGrammar.Text.Basic
import TextGrammar.Text.Digit

/-!
# Days and times of day

A day of the calendar may come with a time of day, and that with how far its clock is ahead of
universal time. Two times with clocks of that kind are equal when they are one instant; all others
are equal when they are written alike.

## Main definitions

* `Day`, `Clock`, `Date` — days that exist, times of day, and a day with or without one.
* `Date.same` — equality.
* `Date.shown`, `Date.plain` — how a date is shown among other values, and by itself.
-/

namespace TextGrammar

/-! ## Days -/

/-- Whether a year has a 29th of February. -/
def isLeapYear (year : Nat) : Bool :=
  year % 4 = 0 && (year % 100 ≠ 0 || year % 400 = 0)

def daysOfMonth (year month : Nat) : Nat :=
  if month = 2 then if isLeapYear year then 29 else 28
  else if month ∈ [4, 6, 9, 11] then 30
  else 31

/-- Whether the calendar has a day. -/
def hasDay (year month day : Nat) : Bool :=
  1 ≤ year && year ≤ 9999 && 1 ≤ month && month ≤ 12 && 1 ≤ day && day ≤ daysOfMonth year month

structure Day where
  year : Nat
  month : Nat
  day : Nat
  exists_day : hasDay year month day
deriving DecidableEq

namespace Day

def of? (year month day : Nat) : Option Day :=
  if h : hasDay year month day then some ⟨year, month, day, h⟩ else none

/-- How many days there are before a day, from the first year on. -/
def before (d : Day) : Nat :=
  let years := d.year - 1
  let months := ((List.range d.month).drop 1).map (daysOfMonth d.year)
  years * 365 + years / 4 - years / 100 + years / 400 + months.foldl (· + ·) 0 + (d.day - 1)

end Day

/-! ## Times of day -/

/-- Whether a day has a time: hour, minute, second and millionths of a second. The clock may be less
than a day ahead of universal time, or behind it. -/
def hasClock (hour minute second micro : Nat) (ahead : Option Int) : Bool :=
  hour < 24 && minute < 60 && second < 60 && micro < 1000000 &&
    ahead.all fun minutes => minutes.natAbs < 24 * 60

/-- A time of day. `ahead` is how many minutes its clock is ahead of universal time, if that is
told. -/
structure Clock where
  hour : Nat
  minute : Nat
  second : Nat
  micro : Nat
  ahead : Option Int
  exists_clock : hasClock hour minute second micro ahead
deriving DecidableEq

namespace Clock

def of? (hour minute second micro : Nat) (ahead : Option Int) : Option Clock :=
  if h : hasClock hour minute second micro ahead then
    some ⟨hour, minute, second, micro, ahead, h⟩
  else none

/-- How many millionths of a second of the day are over. -/
def passed (c : Clock) : Nat :=
  ((c.hour * 60 + c.minute) * 60 + c.second) * 1000000 + c.micro

end Clock

/-! ## Dates -/

/-- A day, or a time of day on it. -/
structure Date where
  day : Day
  clock : Option Clock
deriving DecidableEq

namespace Date

/-- The instant of a date, in millionths of a second of universal time, if it tells one. -/
def instant? (d : Date) : Option Int := do
  let clock ← d.clock
  let minutes ← clock.ahead
  pure (((d.day.before * 24 * 60 - minutes) * 60) * 1000000 + clock.passed)

/-- Whether two dates are equal. -/
def same (d e : Date) : Bool :=
  match d.instant?, e.instant? with
  | some i, some j => i = j
  | _, _ => d = e

/-! ### Dates as text -/

def padded (width n : Nat) : Text :=
  let digits := decimalText n
  List.replicate (width - digits.length) '0' ++ digits

/-- How far a clock is ahead of universal time, as it is shown. -/
def aheadShown (minutes : Int) : Text :=
  if minutes = 0 then "datetime.timezone.utc".toList
  else
    let days := if minutes < 0 then "days=-1, ".toList else []
    let seconds := "seconds=".toList ++ integerText (minutes * 60 % (24 * 60 * 60))
    "datetime.timezone(datetime.timedelta(".toList ++ days ++ seconds ++ "))".toList

/-- A date as it is shown among other values. Seconds that are zero are left out at the end. -/
def shown (d : Date) : Text :=
  let call (kind : Text) (numbers : List Nat) (more : Text) : Text :=
    "datetime.".toList ++ kind ++ '(' :: Text.joined ", ".toList (numbers.map decimalText) ++ more
      ++ [')']
  let day := [d.day.year, d.day.month, d.day.day]
  match d.clock with
  | none => call "date".toList day []
  | some c =>
    let seconds :=
      if c.micro ≠ 0 then [c.second, c.micro] else if c.second ≠ 0 then [c.second] else []
    let ahead := c.ahead.elim [] fun minutes => ", tzinfo=".toList ++ aheadShown minutes
    call "datetime".toList (day ++ [c.hour, c.minute] ++ seconds) ahead

/-- How far a clock is ahead of universal time, by itself. -/
def aheadPlain (minutes : Int) : Text :=
  (if minutes < 0 then '-' else '+') :: padded 2 (minutes.natAbs / 60) ++
    ':' :: padded 2 (minutes.natAbs % 60)

/-- A date by itself. -/
def plain (d : Date) : Text :=
  let day := padded 4 d.day.year ++ '-' :: padded 2 d.day.month ++ '-' :: padded 2 d.day.day
  match d.clock with
  | none => day
  | some c =>
    day ++ ' ' :: padded 2 c.hour ++ ':' :: padded 2 c.minute ++ ':' :: padded 2 c.second
      ++ (if c.micro = 0 then [] else '.' :: padded 6 c.micro)
      ++ c.ahead.elim [] aheadPlain

end Date

end TextGrammar
