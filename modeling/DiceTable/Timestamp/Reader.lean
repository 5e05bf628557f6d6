import DiceTable.Timestamp.Basic
import DiceTable.Text.Blank

/-!
# Reading timestamps

The format is that of Internet timestamps, read leniently: fields need not be padded, blanks may
stand before a number, before a `-` or `:` between two fields and before the offset, the date ends
at `T`, `t` or a space, and digits of fraction beyond the ninth are dropped.  A year of more than
four digits needs a sign.  The offset is `Z` or `UTC`, or a sign with two digits of hours and two
of minutes and any colons or blanks between; the instant is the local time less the offset.
-/

namespace DiceTable.Timestamp

open DiceTable.Text (isBlank)

/-- What is left after the blanks at the front. -/
def skipBlanks (cs : List Char) : List Char := cs.dropWhile isBlank

/-- Reads one digit or more, but not more than `width`. -/
def number? (width : Nat) (cs : List Char) : Option (Nat × List Char) :=
  let digits := (cs.take width).takeWhile Char.isDigit
  if digits.isEmpty then none else some (Nat.ofDigitChars 10 digits 0, cs.drop digits.length)

/-- Reads a number of one or two digits in the range given, after blanks. -/
def field? (low high : Nat) (cs : List Char) : Option (Nat × List Char) := do
  let (n, rest) ← number? 2 (skipBlanks cs)
  if low ≤ n ∧ n ≤ high then return (n, rest) else none

/-- Reads a separator, after blanks. -/
def separator? (c : Char) (cs : List Char) : Option (List Char) :=
  match skipBlanks cs with
  | d :: rest => if d = c then some rest else none
  | [] => none

/-- Reads a year, after blanks. -/
def year? (cs : List Char) : Option (Int × List Char) :=
  match skipBlanks cs with
  | '-' :: rest => (number? rest.length rest).map fun (n, rest) => (-(n : Int), rest)
  | '+' :: rest => (number? rest.length rest).map fun (n, rest) => ((n : Int), rest)
  | rest => (number? 4 rest).map fun (n, rest) => ((n : Int), rest)

/-- Reads the fraction of a second, in nanoseconds. -/
def fraction? : List Char → Option (Nat × List Char)
  | '.' :: rest =>
    let digits := rest.takeWhile Char.isDigit
    if digits.isEmpty then none
    else
      let nine := (digits ++ List.replicate 9 '0').take 9
      some (Nat.ofDigitChars 10 nine 0, rest.drop digits.length)
  | rest => some (0, rest)

/-- Reads a number of exactly two digits. -/
def pair? : List Char → Option (Nat × List Char)
  | a :: b :: rest =>
    if a.isDigit ∧ b.isDigit then some (Nat.ofDigitChars 10 [a, b] 0, rest) else none
  | _ => none

/-- Reads the digits of an offset, in minutes. -/
def offsetDigits? (cs : List Char) : Option (Int × List Char) := do
  let (hours, rest) ← pair? cs
  let (minutes, rest) ← pair? (rest.dropWhile fun c => c == ':' || isBlank c)
  if hours ≤ 23 ∧ minutes ≤ 59 then return ((hours * 60 + minutes : Nat), rest) else none

/-- Reads an offset from universal time, in minutes. -/
def offset? (cs : List Char) : Option (Int × List Char) :=
  match cs with
  | u :: t :: c :: rest =>
    if (u = 'U' ∨ u = 'u') ∧ (t = 'T' ∨ t = 't') ∧ (c = 'C' ∨ c = 'c') then some (0, rest)
    else signed? cs
  | _ => signed? cs
where
  /-- Reads `Z`, or a sign and digits. -/
  signed? : List Char → Option (Int × List Char)
    | 'Z' :: rest => some (0, rest)
    | 'z' :: rest => some (0, rest)
    | '+' :: rest => offsetDigits? rest
    | '-' :: rest => (offsetDigits? rest).map fun (n, rest) => (-n, rest)
    | '−' :: rest => (offsetDigits? rest).map fun (n, rest) => (-n, rest)
    | _ => none

/-- Reads what parts the date from the time of day. -/
def dateEnd? : List Char → Option (List Char)
  | 'T' :: rest => some rest
  | 't' :: rest => some rest
  | ' ' :: rest => some rest
  | _ => none

/-- The instant at which clocks `offset` minutes ahead of universal time show the time given. -/
def ofLocal? (t : Timestamp) (offset : Int) : Option Timestamp := do
  let minutes : Int := (t.hour * 60 + t.minute : Nat) - offset
  let date ← t.date.shift? (minutes / 1440)
  let ofDay := (minutes % 1440).toNat
  return { t with date := date, hour := ofDay / 60, minute := ofDay % 60 }

/-- Reads a whole timestamp. -/
def ofChars? (cs : List Char) : Option Timestamp := do
  let (year, cs) ← year? cs
  let cs ← separator? '-' cs
  let (month, cs) ← field? 1 12 cs
  let cs ← separator? '-' cs
  let (day, cs) ← field? 1 31 cs
  let date : Day := ⟨year, month, day⟩
  let cs ← dateEnd? cs
  let (hour, cs) ← field? 0 23 cs
  let cs ← separator? ':' cs
  let (minute, cs) ← field? 0 59 cs
  let cs ← separator? ':' cs
  let (second, cs) ← field? 0 60 cs
  let (nano, cs) ← fraction? cs
  let (offset, cs) ← offset? (skipBlanks cs)
  if date.isValid && (skipBlanks cs).isEmpty then ofLocal? ⟨date, hour, minute, second, nano⟩ offset
  else none

/-- Reads the text of a timestamp. -/
def ofText? (s : String) : Option Timestamp := ofChars? s.toList

end DiceTable.Timestamp
