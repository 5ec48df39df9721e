/-!
Timestamps as RFC 3339 writes them: a date, any one ASCII character, a time of day with an
optional fraction, and an offset from UTC. A timestamp is read as an instant, so two spellings
of one instant compare as equal.
-/

namespace EntityGraph

/-! ### The calendar -/

namespace Calendar

/-- Leap years of the Gregorian calendar. -/
def isLeap (year : Nat) : Bool := year % 4 = 0 && (year % 100 ≠ 0 || year % 400 = 0)

/-- The number of days of a month. -/
def daysInMonth (year month : Nat) : Nat :=
  if month = 2 then if isLeap year then 29 else 28
  else if month = 4 ∨ month = 6 ∨ month = 9 ∨ month = 11 then 30
  else 31

/-- The days from the first day of year zero to the first day of a year. -/
def daysBeforeYear (year : Nat) : Nat :=
  year * 365 + (year + 3) / 4 - (year + 99) / 100 + (year + 399) / 400

/-- The days from the first day of a year to the first day of a month. -/
def daysBeforeMonth (year month : Nat) : Nat :=
  ((List.range (month - 1)).map fun m => daysInMonth year (m + 1)).foldr (· + ·) 0

/-- The first day of 1970, counted from the first day of year zero. -/
def epochDay : Nat := 719528

/-- A day counted from the first day of 1970. -/
def dayNumber (year month day : Nat) : Int :=
  ((daysBeforeYear year + daysBeforeMonth year month + (day - 1) : Nat) : Int) - epochDay

example : dayNumber 1970 1 1 = 0 := by decide
example : dayNumber 2000 3 1 = 11017 := by decide

end Calendar

open Calendar

/-- An instant in nanoseconds since the first second of 1970 in UTC, and the offset it was
written with, in seconds east of UTC. -/
structure Timestamp where
  nanos : Int
  offset : Int
deriving DecidableEq, Repr

namespace Timestamp

/-! ### Reading -/

/-- The value of a decimal digit. -/
def digit? (c : Char) : Option Nat := if c.isDigit then some (c.toNat - '0'.toNat) else none

/-- Two decimal digits. -/
def pair? : List Char → Option (Nat × List Char)
  | a :: b :: rest => do
    let a ← digit? a
    let b ← digit? b
    some (10 * a + b, rest)
  | _ => none

/-- A fixed character. -/
def mark? (m : Char) : List Char → Option (List Char)
  | c :: rest => if c = m then some rest else none
  | [] => none

/-- Any one ASCII character. -/
def separator? : List Char → Option (List Char)
  | c :: rest => if c.toNat < 128 then some rest else none
  | [] => none

/-- Nanoseconds of the digits of a fraction. Digits after the ninth are dropped. -/
def fractionNanos (ds : List Char) : Nat :=
  let nine := (ds ++ List.replicate 9 '0').take 9
  nine.foldl (fun n c => 10 * n + (c.toNat - '0'.toNat)) 0

/-- An optional fraction of a second: a point and at least one digit. -/
def fraction? : List Char → Option (Nat × List Char)
  | '.' :: rest =>
    match rest.span Char.isDigit with
    | ([], _) => none
    | (ds, rest) => some (fractionNanos ds, rest)
  | cs => some (0, cs)

/-- The offset from UTC in seconds, up to the end of the text. -/
def offset? : List Char → Option Int
  | ['Z'] => some 0
  | ['z'] => some 0
  | s :: rest => do
    let sign : Int ← if s = '+' then some 1 else if s = '-' then some (-1) else none
    let (h, rest) ← pair? rest
    let rest ← mark? ':' rest
    let (m, rest) ← pair? rest
    if h ≤ 23 ∧ m ≤ 59 ∧ rest = [] then some (sign * (3600 * h + 60 * m)) else none
  | [] => none

/-- Seconds of one day. -/
def daySeconds : Int := 86400

/-- Nanoseconds of one second. -/
def secondNanos : Int := 1000000000

/-- A leap second may stand only at the end of the last day of a month in UTC. -/
def leapSecondAllowed (year month day : Nat) (timeOfDay offset : Int) : Bool :=
  let utc := timeOfDay - offset
  let shift := utc / daySeconds
  utc % daySeconds = daySeconds - 1 &&
    ((day : Int) + shift = daysInMonth year month || (day : Int) + shift = 0)

/-- The timestamp of a date, a time of day and an offset. The second `60` stands for the last
nanosecond of the second before it. -/
def ofParts? (year month day hour minute second nanos : Nat) (offset : Int) : Option Timestamp :=
  if 1 ≤ month ∧ month ≤ 12 ∧ 1 ≤ day ∧ day ≤ daysInMonth year month ∧ hour ≤ 23 ∧
      minute ≤ 59 ∧ second ≤ 60 then
    let leap := second = 60
    let timeOfDay : Int := 3600 * hour + 60 * minute + (if leap then 59 else second)
    if leap ∧ ¬ leapSecondAllowed year month day timeOfDay offset then none
    else
      let seconds := dayNumber year month day * daySeconds + timeOfDay - offset
      some ⟨seconds * secondNanos + (if leap then 999999999 else nanos), offset⟩
  else none

/-- Reads a timestamp. -/
def parse? (text : String) : Option Timestamp := do
  let (century, cs) ← pair? text.toList
  let (years, cs) ← pair? cs
  let cs ← mark? '-' cs
  let (month, cs) ← pair? cs
  let cs ← mark? '-' cs
  let (day, cs) ← pair? cs
  let cs ← separator? cs
  let (hour, cs) ← pair? cs
  let cs ← mark? ':' cs
  let (minute, cs) ← pair? cs
  let cs ← mark? ':' cs
  let (second, cs) ← pair? cs
  let (nanos, cs) ← fraction? cs
  let offset ← offset? cs
  ofParts? (100 * century + years) month day hour minute second nanos offset

/-- A text that is a timestamp. -/
def isValid (text : String) : Bool := (parse? text).isSome

/-- The order of the instants of two texts, when both are timestamps. -/
def compareTexts? (a b : String) : Option Ordering := do
  let s ← parse? a
  let t ← parse? b
  some (compare s.nanos t.nanos)

/-- The start of the message about a text that is not a timestamp. -/
def refusal (text : String) : String :=
  "Failed to parse DateTime '" ++ text ++ "': not an RFC 3339 date-time"

end Timestamp

end EntityGraph
