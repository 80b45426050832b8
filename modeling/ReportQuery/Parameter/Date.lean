import ReportQuery.Text.Digits

set_option autoImplicit false
set_option relaxedAutoImplicit false

/-!
Days of the Gregorian calendar in the years 1 to 9999, also by week and weekday.
-/

namespace ReportQuery.Parameter

open Text (padded)

/-- Whether a year has a 29th of February. -/
def isLeapYear (year : Nat) : Bool :=
  year % 4 == 0 && (year % 100 != 0 || year % 400 == 0)

/-- The lengths of the months of a year. -/
def monthLengths (year : Nat) : List Nat :=
  [31, if isLeapYear year then 29 else 28, 31, 30, 31, 30, 31, 31, 30, 31, 30, 31]

/-- Whether the numbers name a day. -/
def isDay (year month day : Nat) : Bool :=
  1 ≤ year && year ≤ 9999 && 1 ≤ month && 1 ≤ day &&
    match (monthLengths year)[month - 1]? with
    | some length => day ≤ length
    | none => false

/-- A day. -/
structure Date where
  year : Nat
  month : Nat
  day : Nat
  isDay : isDay year month day = true
deriving Repr, DecidableEq

namespace Date

/-- The day of the given numbers, if there is one. -/
def ofNumbers? (year month day : Nat) : Option Date :=
  if h : Parameter.isDay year month day = true then some ⟨year, month, day, h⟩ else none

/-- The number of days in a year. -/
def yearLength (year : Nat) : Nat :=
  if isLeapYear year then 366 else 365

/-- The number of days before a year, counted from the first day of the year 1. -/
def daysBeforeYear (year : Nat) : Nat :=
  let past := year - 1
  365 * past + past / 4 - past / 100 + past / 400

/-- The weekday of the first of January, counted from Monday as zero. -/
def firstWeekday (year : Nat) : Nat :=
  daysBeforeYear year % 7

/-- The month and day of a day of the year, counted from zero, given the lengths of the months from
the given one on. -/
def monthAndDay (month : Nat) : List Nat → Nat → Option (Nat × Nat)
  | [], _ => none
  | length :: lengths, day =>
    if day < length then some (month, day + 1) else monthAndDay (month + 1) lengths (day - length)

/-- The day that is the given number of days after the first of January, also in the year before or
after. -/
def ofYearDay? (year : Nat) (offset : Int) : Option Date :=
  let (year, day) :=
    if offset < 0 then (year - 1, (offset + yearLength (year - 1)).toNat)
    else if yearLength year ≤ offset then (year + 1, (offset - yearLength year).toNat)
    else (year, offset.toNat)
  (monthAndDay 1 (monthLengths year) day).bind fun (month, day) => ofNumbers? year month day

/-- How many weeks a year has: 53 if it begins on a Thursday, or on a Wednesday in a leap year. -/
def weeksIn (year : Nat) : Nat :=
  if firstWeekday year == 3 || (firstWeekday year == 2 && isLeapYear year) then 53 else 52

/-- The day of a week and a weekday, both counted from one. The first week of a year is the one that
holds its first Thursday. -/
def ofWeek? (year week weekday : Nat) : Option Date :=
  if 1 ≤ year && 1 ≤ week && week ≤ weeksIn year && 1 ≤ weekday && weekday ≤ 7 then
    let first := firstWeekday year
    let firstMonday : Int := if first ≤ 3 then -first else 7 - first
    ofYearDay? year (firstMonday + 7 * ((week : Int) - 1) + (weekday - 1))
  else none

/-- The text of a day: year, month and day, joined by hyphens. -/
def text (date : Date) : List Char :=
  padded 4 date.year ++ '-' :: padded 2 date.month ++ '-' :: padded 2 date.day

end Date

end ReportQuery.Parameter
