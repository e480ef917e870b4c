import DiagramService.Text.Decimal

/-!
# Dates in header fields

A date names a second of universal time in one of three forms: `Thu, 01 Jan 1970 00:00:00 GMT`,
`Thursday, 01-Jan-70 00:00:00 GMT` or `Thu Jan  1 00:00:00 1970`. It is read as the number of
seconds since the start of 1970.
-/

namespace DiagramService.Http.Date

/-- The months by their short names. -/
def months : List String :=
  ["Jan", "Feb", "Mar", "Apr", "May", "Jun", "Jul", "Aug", "Sep", "Oct", "Nov", "Dec"]

/-- The days of the week. -/
def weekdays : List String :=
  ["Monday", "Tuesday", "Wednesday", "Thursday", "Friday", "Saturday", "Sunday"]

/-- The number of the month with a short name, from one on. -/
def month? (cs : List Char) : Option Nat :=
  (months.findIdx? fun name => name.toList == cs).map (· + 1)

/-- Whether a text is the short name of a day. -/
def isShortDay (cs : List Char) : Bool :=
  weekdays.any fun name => name.toList.take 3 == cs

/-- Whether a text is the name of a day. -/
def isLongDay (cs : List Char) : Bool :=
  weekdays.any fun name => name.toList == cs

/-- Whether a year has a day more. -/
def isLeap (year : Nat) : Bool :=
  year % 4 = 0 && (year % 100 != 0 || year % 400 = 0)

/-- The number of days in a month. -/
def daysIn (year month : Nat) : Nat :=
  if month = 2 then if isLeap year then 29 else 28
  else if month = 4 || month = 6 || month = 9 || month = 11 then 30
  else 31

/-- The number of days before a year, counted from the year zero. -/
def daysBeforeYear (year : Nat) : Nat :=
  365 * year + (year + 3) / 4 - (year + 99) / 100 + (year + 399) / 400

/-- The number of days before a month of a year. -/
def daysBeforeMonth (year month : Nat) : Nat :=
  (List.range (month - 1)).foldl (fun days m => days + daysIn year (m + 1)) 0

/-- The number of seconds at a date, if there is such a date from 1970 on. -/
def seconds? (year month day hour minute second : Nat) : Option Nat :=
  if 1970 ≤ year && year ≤ 9999 && 1 ≤ day && day ≤ daysIn year month && hour < 24 && minute < 60 &&
      second < 60 then
    let days := daysBeforeYear year + daysBeforeMonth year month + (day - 1) - daysBeforeYear 1970
    some (((days * 24 + hour) * 60 + minute) * 60 + second)
  else none

/-- The two digits of a number, of which the first may be a blank. -/
def day? (cs : List Char) : Option Nat :=
  match cs with
  | [' ', c] => Text.digits? [c]
  | [_, _] => Text.digits? cs
  | _ => none

/-- The hour, minute and second. -/
def clock? (cs : List Char) : Option (Nat × Nat × Nat) :=
  match cs with
  | [a, b, ':', c, d, ':', e, f] => do
    return (← Text.digits? [a, b], ← Text.digits? [c, d], ← Text.digits? [e, f])
  | _ => none

/-- The seconds of a date whose parts are texts. -/
def ofParts? (year month day clock : List Char) : Option Nat := do
  let (hour, minute, second) ← clock? clock
  seconds? (← Text.digits? year) (← month? month) (← day? day) hour minute second

/-- A year of two digits with its century. -/
def fullYear? (cs : List Char) : Option (List Char) :=
  (Text.digits? cs).map fun n => Text.ofNat (if n < 70 then 2000 + n else 1900 + n)

/-- The number of seconds at the date that a text names. -/
def ofText? (cs : List Char) : Option Nat :=
  match cs.splitOn ' ' with
  | [day, date, month, year, clock, ['G', 'M', 'T']] =>
    if day.getLast? == some ',' && isShortDay day.dropLast &&
        date.length = 2 && year.length = 4 then
      ofParts? year month date clock
    else none
  | [day, date, clock, ['G', 'M', 'T']] =>
    match date.splitOn '-' with
    | [date, month, year] =>
      if day.getLast? == some ',' && isLongDay day.dropLast &&
          date.length = 2 && year.length = 2 then
        (fullYear? year).bind fun year => ofParts? year month date clock
      else none
    | _ => none
  | [day, month, date, clock, year] =>
    if isShortDay day && date.length = 2 && year.length = 4 then ofParts? year month date clock
    else none
  | [day, month, [], date, clock, year] =>
    if isShortDay day && date.length = 1 && year.length = 4 then
      ofParts? year month (' ' :: date) clock
    else none
  | _ => none

end DiagramService.Http.Date
