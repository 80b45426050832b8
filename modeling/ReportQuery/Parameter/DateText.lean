import ReportQuery.Parameter.Date

set_option autoImplicit false
set_option relaxedAutoImplicit false

/-!
Reading a day from a text: in one of the international forms, with a time of day after it or not,
or with the day first, as typed into forms.

The international forms are year, month and day, or year, week and weekday, both with hyphens or
without. Any character may stand between the day and the time. The time is checked but not kept.
-/

namespace ReportQuery.Parameter

open Text (isAsciiDigit digitsValue digitValue? asciiDigitValue)

/-- Reads exactly `count` ASCII digits: their value and the text after them. -/
def readDigits? (count : Nat) (cs : List Char) : Option (Nat × List Char) :=
  let digits := cs.take count
  if digits.length = count ∧ digits.all isAsciiDigit then some (digitsValue digits, cs.drop count)
  else none

/-- The end mark, which also stands for the end of a text. -/
def endMark : Char := '\x00'

/-- The next character, or the end mark. -/
def next (cs : List Char) : Char :=
  cs.headD endMark

namespace DateText

/-- Where a week date without hyphens ends: the run of digits from the eighth character on tells
the weekday from a digit that separates the time. -/
def weekEnd (cs : List Char) : Nat :=
  let place := 7 + ((cs.drop 7).takeWhile isAsciiDigit).length
  if place < 9 then place else if place % 2 = 0 then 7 else 8

/-- How many characters belong to the day. -/
def dayLength (cs : List Char) : Nat :=
  if cs.length = 7 then 7
  else if cs[4]? = some '-' then
    if cs[5]? = some 'W' then
      if cs[8]? = some '-' then
        if cs.length = 9 then 9
        else if (cs[10]?.map isAsciiDigit).getD false then 8
        else 10
      else 8
    else 10
  else if cs[4]? = some 'W' then weekEnd cs
  else 8

/-- Reads a hyphen where hyphens are used. -/
def readHyphen? (hyphens : Bool) (cs : List Char) : Option (List Char) :=
  if hyphens then
    match cs with
    | '-' :: rest => some rest
    | _ => none
  else some cs

/-- Reads week and weekday; `length` is how many characters they have. Without a weekday it is
Monday. -/
def readWeek? (year : Nat) (hyphens : Bool) (length : Nat) (cs : List Char) : Option Date := do
  let (week, rest) ← readDigits? 2 cs
  if length ≤ 2 then Date.ofWeek? year week 1
  else
    let (weekday, _) ← readDigits? 1 (← readHyphen? hyphens rest)
    Date.ofWeek? year week weekday

/-- Reads month and day. -/
def readMonth? (year : Nat) (hyphens : Bool) (cs : List Char) : Option Date := do
  let (month, rest) ← readDigits? 2 cs
  let (day, _) ← readDigits? 2 (← readHyphen? hyphens rest)
  Date.ofNumbers? year month day

/-- Reads the day at the front of a text, which has the given number of characters. -/
def readDay? (length : Nat) (cs : List Char) : Option Date := do
  let (year, rest) ← readDigits? 4 cs
  let (hyphens, rest, taken) :=
    match rest with
    | '-' :: more => (true, more, 5)
    | _ => (false, rest, 4)
  match rest with
  | 'W' :: more => readWeek? year hyphens (length - (taken + 1)) more
  | _ => readMonth? year hyphens rest

end DateText

/-- A time of day, or the distance of a zone. -/
structure ClockTime where
  hour : Nat := 0
  minute : Nat := 0
  second : Nat := 0
  microsecond : Nat := 0
  /-- Whether text is left before the end mark. -/
  hasRest : Bool := false
deriving Repr, DecidableEq

namespace ClockTime

/-- Sets one of hours, minutes and seconds, counted from zero. -/
def setPart (time : ClockTime) (part value : Nat) : ClockTime :=
  match part with
  | 0 => { time with hour := value }
  | 1 => { time with minute := value }
  | _ => { time with second := value }

/-- Reads the fraction of a second: up to six digits count, further ones are passed over. `left` is
how many bytes are left before the time ends. -/
def readFraction? (time : ClockTime) (left : Nat) (cs : List Char) : Option ClockTime :=
  let count := min left 6
  (readDigits? count cs).map fun (value, rest) =>
    { time with
      microsecond := value * Nat.pow 10 (6 - count)
      hasRest := next (rest.dropWhile isAsciiDigit) != endMark }

/-- Reads hours, then minutes, then seconds, with colons between them or without. `left` is how
many characters are left before the time ends; the text may go on after that. -/
def readParts? (time : ClockTime) (colons : Bool) (left : Nat) (cs : List Char) :
    List Nat → Option ClockTime
  | [] => readFraction? time left cs
  | part :: parts =>
    match readDigits? 2 cs with
    | none => none
    | some (value, rest) =>
      let time := time.setPart part value
      let c := next rest
      let colons := if part = 0 then c == ':' else colons
      if left ≤ 3 then some { time with hasRest := c != endMark }
      else if colons && c == ':' then readParts? time colons (left - 3) (rest.drop 1) parts
      else if c == '.' || c == ',' then readFraction? time (left - 3) (rest.drop 1)
      else if colons then none
      else readParts? time colons (left - 2) rest parts

/-- Reads a time that stands at the front of a text and should end with the given characters, whose
bytes are counted. -/
def read? (extent cs : List Char) : Option ClockTime :=
  readParts? {} true (String.ofList extent).utf8ByteSize cs [0, 1, 2]

/-- Whether this is a time of day. -/
def isTimeOfDay (time : ClockTime) : Bool :=
  time.hour < 24 && time.minute < 60 && time.second < 60

/-- Whether a zone lies less than a day away. -/
def isZone (time : ClockTime) : Bool :=
  (3600 * time.hour + 60 * time.minute + time.second) * 1000000 + time.microsecond < 86400000000

end ClockTime

namespace DateText

/-- The characters that introduce a zone. -/
def startsZone (c : Char) : Bool :=
  c == '+' || c == '-' || c == 'Z'

/-- Whether a zone can be read; nothing may follow it. -/
def isZoneText : List Char → Bool
  | [] => false
  | 'Z' :: rest => next rest == endMark
  | _ :: rest =>
    match ClockTime.read? rest rest with
    | some distance => !distance.hasRest && distance.isZone
    | none => false

/-- Whether a time of day, with or without a zone, can be read. -/
def isTimeText (cs : List Char) : Bool :=
  let extent := cs.takeWhile fun c => !startsZone c
  let zone := cs.dropWhile fun c => !startsZone c
  match ClockTime.read? extent cs with
  | none => false
  | some time => time.isTimeOfDay && if zone.isEmpty then !time.hasRest else isZoneText zone

/-- Reads a day in one of the international forms. -/
def readInternational? (cs : List Char) : Option Date :=
  let length := dayLength cs
  match readDay? length cs with
  | none => none
  | some date =>
    if cs.length ≤ length || isTimeText (cs.drop (length + 1)) then some date else none

/-- The number of a day: the first digit is an ASCII digit, the second one may be of any script
after a one or a two. -/
def readDayNumber? : List Char → Option Nat
  | [c] => if isAsciiDigit c && c != '0' then some (asciiDigitValue c) else none
  | [c, d] =>
    if c = '0' then if isAsciiDigit d && d != '0' then some (asciiDigitValue d) else none
    else if c = '1' ∨ c = '2' then (digitValue? d).map fun n => 10 * asciiDigitValue c + n
    else if c = '3' then if d = '0' ∨ d = '1' then some (30 + asciiDigitValue d) else none
    else none
  | _ => none

/-- The number of a month, in ASCII digits. -/
def readMonthNumber? (cs : List Char) : Option Nat :=
  if cs.all isAsciiDigit && (cs.length == 1 || cs.length == 2) && 1 ≤ digitsValue cs &&
      digitsValue cs ≤ 12 then
    some (digitsValue cs)
  else none

/-- The number of a year: four digits of any script. -/
def readYearNumber? (cs : List Char) : Option Nat :=
  if cs.length = 4 then
    (cs.mapM digitValue?).map fun digits => digits.foldl (fun value n => 10 * value + n) 0
  else none

/-- Reads a day written with the day first, its numbers joined by the given mark. -/
def readDayFirst? (mark : Char) (cs : List Char) : Option Date :=
  let day := cs.takeWhile (· != mark)
  let rest := (cs.drop day.length).drop 1
  let month := rest.takeWhile (· != mark)
  let year := (rest.drop month.length).drop 1
  do
    let dayNumber ← readDayNumber? day
    let monthNumber ← readMonthNumber? month
    let yearNumber ← readYearNumber? year
    Date.ofNumbers? yearNumber monthNumber dayNumber

/-- Reads a day: in an international form first, then with points, then with slashes. -/
def read? (cs : List Char) : Option Date :=
  ((readInternational? cs).orElse fun _ => readDayFirst? '.' cs).orElse fun _ =>
    readDayFirst? '/' cs

end DateText

end ReportQuery.Parameter
