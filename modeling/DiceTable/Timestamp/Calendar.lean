/-!
# The proleptic Gregorian calendar

Days are counted by year, month and day of the month, with a year zero before year one.  The
calendar is bounded: `firstYear` and `lastYear` are the first and the last year with days.
-/

namespace DiceTable

/-- A day of the calendar. -/
structure Day where
  year : Int
  month : Nat
  day : Nat
  deriving DecidableEq, Repr

namespace Day

/-- The first year of the calendar. -/
def firstYear : Int := -262143

/-- The last year of the calendar. -/
def lastYear : Int := 262142

/-- Whether the year has a twenty-ninth of February. -/
def isLeapYear (y : Int) : Bool := y % 4 == 0 && (y % 100 != 0 || y % 400 == 0)

/-- The number of days in a month; nothing is a day of any other month. -/
def daysInMonth (y : Int) (m : Nat) : Nat :=
  match m with
  | 1 | 3 | 5 | 7 | 8 | 10 | 12 => 31
  | 4 | 6 | 9 | 11 => 30
  | 2 => if isLeapYear y then 29 else 28
  | _ => 0

/-- Whether the calendar has this day. -/
def isValid (d : Day) : Bool :=
  firstYear ≤ d.year && d.year ≤ lastYear && 1 ≤ d.day && d.day ≤ daysInMonth d.year d.month

/-- The day after, unless the calendar ends. -/
def next? (d : Day) : Option Day :=
  let e : Day :=
    if d.day < daysInMonth d.year d.month then { d with day := d.day + 1 }
    else if d.month < 12 then ⟨d.year, d.month + 1, 1⟩
    else ⟨d.year + 1, 1, 1⟩
  if e.isValid then some e else none

/-- The day before, unless the calendar begins. -/
def previous? (d : Day) : Option Day :=
  let e : Day :=
    if 1 < d.day then { d with day := d.day - 1 }
    else if 1 < d.month then ⟨d.year, d.month - 1, daysInMonth d.year (d.month - 1)⟩
    else ⟨d.year - 1, 12, 31⟩
  if e.isValid then some e else none

/-- The day a number of days away, which is one day at most. -/
def shift? (d : Day) (days : Int) : Option Day :=
  if days = 0 then some d else if 0 < days then d.next? else d.previous?

/-- The number of days since the first of January 1970.  Years are counted from March, so that the
leap day ends them, and in eras of 400 years. -/
def sinceEpoch (d : Day) : Int :=
  let y := if d.month ≤ 2 then d.year - 1 else d.year
  let era := y / 400
  let yearOfEra := y % 400
  let monthFromMarch : Int := (d.month + 9) % 12
  let dayOfYear := (153 * monthFromMarch + 2) / 5 + d.day - 1
  let dayOfEra := yearOfEra * 365 + yearOfEra / 4 - yearOfEra / 100 + dayOfYear
  era * 146097 + dayOfEra - 719468

end Day

end DiceTable
