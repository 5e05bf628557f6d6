/-!
# Durations

A length of time in whole nanoseconds.  It is shown in the largest unit of which there is at least
one, with as many decimals as are needed to be exact: `10s`, `1.5ms`, `0ns`.
-/

namespace DiceTable

/-- A length of time. -/
structure Duration where
  nanoseconds : Nat
  deriving DecidableEq, Repr

namespace Duration

/-- A number of milliseconds. -/
def ofMillis (ms : Nat) : Duration := ⟨ms * 1000000⟩

/-- A number of seconds. -/
def ofSeconds (s : Nat) : Duration := ⟨s * 1000000000⟩

/-- The whole milliseconds. -/
def millis (d : Duration) : Nat := d.nanoseconds / 1000000

/-- A decimal with so many places, without the zeros at its end. -/
def decimals (places n : Nat) : List Char :=
  let digits := Nat.toDigits 10 n
  let padded := List.replicate (places - digits.length) '0' ++ digits
  match (padded.reverse.dropWhile (· == '0')).reverse with
  | [] => []
  | fraction => '.' :: fraction

/-- The text of `n` units of `10 ^ places` nanoseconds each. -/
def inUnit (places n : Nat) (unit : String) : String :=
  let size := Nat.pow 10 places
  toString (n / size) ++ String.ofList (decimals places (n % size)) ++ unit

/-- The text of a duration. -/
def text (d : Duration) : String :=
  if 1000000000 ≤ d.nanoseconds then inUnit 9 d.nanoseconds "s"
  else if 1000000 ≤ d.nanoseconds then inUnit 6 d.nanoseconds "ms"
  else if 1000 ≤ d.nanoseconds then inUnit 3 d.nanoseconds "µs"
  else inUnit 0 d.nanoseconds "ns"

end Duration

end DiceTable
