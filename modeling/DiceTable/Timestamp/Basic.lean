import DiceTable.Timestamp.Calendar

/-!
# Timestamps

An instant of Coordinated Universal Time, to the nanosecond, in the fields of the calendar and the
clock.  The second may be 60: a leap second keeps its number.

A timestamp is written with the fewest of 0, 3, 6 or 9 digits of fraction that are exact, and with
a sign before a year of more than four digits or below zero.
-/

namespace DiceTable

/-- An instant of Coordinated Universal Time. -/
structure Timestamp where
  date : Day
  hour : Nat
  minute : Nat
  second : Nat
  nanosecond : Nat
  deriving DecidableEq, Repr

namespace Timestamp

/-- The digits of `n`, with zeros in front up to the width. -/
def padded (width n : Nat) : List Char :=
  let digits := Nat.toDigits 10 n
  List.replicate (width - digits.length) '0' ++ digits

/-- The year: four digits, or a sign and at least four. -/
def yearText (y : Int) : List Char :=
  if 0 ≤ y ∧ y ≤ 9999 then padded 4 y.toNat
  else (if y < 0 then '-' else '+') :: padded 4 y.natAbs

/-- The fraction of the second. -/
def fractionText (nano : Nat) : List Char :=
  if nano = 0 then []
  else if nano % 1000000 = 0 then '.' :: padded 3 (nano / 1000000)
  else if nano % 1000 = 0 then '.' :: padded 6 (nano / 1000)
  else '.' :: padded 9 nano

/-- The time of day to the second. -/
def clockChars (t : Timestamp) : List Char :=
  padded 2 t.hour ++ ':' :: padded 2 t.minute ++ ':' :: padded 2 t.second

/-- The characters of a timestamp. -/
def chars (t : Timestamp) : List Char :=
  yearText t.date.year ++ '-' :: padded 2 t.date.month ++ '-' :: padded 2 t.date.day ++
    'T' :: t.clockChars ++ fractionText t.nanosecond ++ ['Z']

/-- The text of a timestamp. -/
def text (t : Timestamp) : String := String.ofList t.chars

/-- The time of day to the second, as text. -/
def clockText (t : Timestamp) : String := String.ofList t.clockChars

/-- Whole milliseconds since the beginning of 1970. -/
def millis (t : Timestamp) : Int :=
  ((t.date.sinceEpoch * 24 + t.hour) * 60 + t.minute) * 60000 + t.second * 1000 +
    t.nanosecond / 1000000

/-- The beginning of 1970. -/
def epoch : Timestamp := ⟨⟨1970, 1, 1⟩, 0, 0, 0, 0⟩

end Timestamp

end DiceTable
