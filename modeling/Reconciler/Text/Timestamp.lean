/-!
# Timestamps

A timestamp is a date, a separator, a time of day and an offset from universal time, as in
`2024-02-29T23:59:60.5+01:00`. The rule is a generous one. Blanks may stand between the parts, a
part may have fewer digits than it has room for, the separator is a `T` of either case or a space,
and the offset is a `Z` of either case, the letters `UTC`, or hours and minutes. What is written has
to exist: the day has to be one of the month, the second 60 stands for a leap second, and the offset
is less than a day. The moment has to exist in universal time as well, which it may fail to do on
the first and on the last day of the calendar (`Date.hasMoment`).

Each part is read by a function that yields its value and the rest of the text.
-/

namespace Reconciler.Text.Timestamp

/-- A character that may stand between two parts: those with the property White_Space. -/
def isBlank (c : Char) : Bool :=
  let n := c.toNat
  (9 ≤ n && n ≤ 13) || n == 0x20 || n == 0x85 || n == 0xA0 || n == 0x1680 ||
    (0x2000 ≤ n && n ≤ 0x200A) || n == 0x2028 || n == 0x2029 || n == 0x202F || n == 0x205F ||
    n == 0x3000

/-- Pass over blanks. -/
def skipBlanks (cs : List Char) : List Char := cs.dropWhile isBlank

/-- The value of digits. -/
def value (digits : List Char) : Nat :=
  digits.foldl (fun n c => 10 * n + (c.toNat - '0'.toNat)) 0

/-- At least one digit. -/
def digits? (cs : List Char) : Option (Nat × List Char) :=
  match cs.takeWhile Char.isDigit with
  | [] => none
  | ds => some (value ds, cs.drop ds.length)

/-- Blanks, then at least one and at most `width` digits. -/
def number? (width : Nat) (cs : List Char) : Option (Nat × List Char) :=
  let cs := skipBlanks cs
  (digits? (cs.take width)).map fun r => (r.1, r.2 ++ cs.drop width)

/-- Exactly two digits. -/
def pair? : List Char → Option (Nat × List Char)
  | a :: b :: rest => if a.isDigit && b.isDigit then some (value [a, b], rest) else none
  | _ => none

/-- Blanks, then a character. -/
def mark? (c : Char) (cs : List Char) : Option (List Char) :=
  match skipBlanks cs with
  | d :: rest => if c = d then some rest else none
  | [] => none

/-- Blanks, then a year. With a sign it may have any number of digits, otherwise it has at most
four. -/
def year? (cs : List Char) : Option (Int × List Char) :=
  match skipBlanks cs with
  | '-' :: rest => (digits? rest).map fun r => (-(r.1 : Int), r.2)
  | '+' :: rest => (digits? rest).map fun r => ((r.1 : Int), r.2)
  | cs => (number? 4 cs).map fun r => ((r.1 : Int), r.2)

/-- The year has a 29th of February. -/
def isLeapYear (year : Int) : Bool :=
  year % 4 == 0 && (year % 100 != 0 || year % 400 == 0)

/-- Days of a month. -/
def daysIn (year : Int) (month : Nat) : Nat :=
  if month = 2 then if isLeapYear year then 29 else 28
  else if month = 4 ∨ month = 6 ∨ month = 9 ∨ month = 11 then 30
  else 31

/-- A date. -/
structure Date where
  /-- The year, which may be before the common era. -/
  year : Int
  /-- The month, from 1. -/
  month : Nat
  /-- The day of the month, from 1. -/
  day : Nat
deriving DecidableEq, Repr

namespace Date

/-- The first day of the calendar. -/
def first : Date := ⟨-262143, 1, 1⟩

/-- The last day of the calendar. -/
def last : Date := ⟨262142, 12, 31⟩

/-- The calendar has the day. -/
def isDay (d : Date) : Bool :=
  decide (first.year ≤ d.year ∧ d.year ≤ last.year) &&
    decide (1 ≤ d.month ∧ d.month ≤ 12) &&
    decide (1 ≤ d.day ∧ d.day ≤ daysIn d.year d.month)

/-- Seconds of a day. -/
def secondsPerDay : Nat := 86400

/-- So many seconds after the start of the day, or before it, there is a moment of the calendar;
they are less than a day before it and less than two days after it. -/
def hasMoment (d : Date) (seconds : Int) : Bool :=
  if seconds < 0 then d != first
  else if secondsPerDay ≤ seconds then d != last
  else true

end Date

/-- A date that exists. -/
def date? (cs : List Char) : Option (Date × List Char) := do
  let (year, cs) ← year? cs
  let (month, cs) ← number? 2 (← mark? '-' cs)
  let (day, cs) ← number? 2 (← mark? '-' cs)
  let date : Date := ⟨year, month, day⟩
  guard date.isDay
  some (date, cs)

/-- What stands between the date and the time of day. -/
def separator? : List Char → Option (List Char)
  | c :: rest => if c = 'T' ∨ c = 't' ∨ c = ' ' then some rest else none
  | [] => none

/-- A fraction of a second, if there is one. -/
def fraction? : List Char → Option (List Char)
  | '.' :: rest => (digits? rest).map (·.2)
  | cs => some cs

/-- Seconds in hours, minutes and seconds. -/
def secondsIn (hours minutes seconds : Nat) : Nat := (hours * 60 + minutes) * 60 + seconds

/-- A time of day that exists, in whole seconds. A leap second goes on for longer than the second
before it, and it is counted with that one. -/
def time? (cs : List Char) : Option (Nat × List Char) := do
  let (hour, cs) ← number? 2 cs
  let (minute, cs) ← number? 2 (← mark? ':' cs)
  let (second, cs) ← number? 2 (← mark? ':' cs)
  guard (hour < 24 ∧ minute < 60 ∧ second ≤ 60)
  some (secondsIn hour minute (min second 59), ← fraction? cs)

/-- Hours and minutes without a sign, which colons or blanks may part, in seconds. -/
def clock? (cs : List Char) : Option (Nat × List Char) := do
  let (hours, cs) ← pair? cs
  let (minutes, cs) ← pair? (cs.dropWhile fun c => c == ':' || isBlank c)
  guard (hours < 24 ∧ minutes < 60)
  some (secondsIn hours minutes 0, cs)

/-- How many seconds local time is ahead of universal time. -/
def offset? (cs : List Char) : Option (Int × List Char) :=
  if (cs.take 3).map Char.toUpper = ['U', 'T', 'C'] then some (0, cs.drop 3)
  else
    match cs with
    | 'Z' :: rest | 'z' :: rest => some (0, rest)
    | '+' :: rest => (clock? rest).map fun r => ((r.1 : Int), r.2)
    | '-' :: rest | '−' :: rest => (clock? rest).map fun r => (-(r.1 : Int), r.2)
    | _ => none

/-- The text is a timestamp. -/
def isValid (s : String) : Bool :=
  let rest := do
    let (date, cs) ← date? s.toList
    let (seconds, cs) ← time? (← separator? cs)
    let (ahead, cs) ← offset? (skipBlanks cs)
    guard (date.hasMoment (seconds - ahead))
    some cs
  rest.any fun cs => cs.all isBlank

end Reconciler.Text.Timestamp
