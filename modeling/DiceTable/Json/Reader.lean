import DiceTable.Json.Tree
import DiceTable.Text.Utf8

/-!
# Reading JSON

The reader consumes the symbols of a text from the front and returns what is left of it.  It is
strict: blanks between tokens are space, tab, line feed and carriage return, control characters do
not stand in strings, and nothing follows the value.

Arrays and objects more than 127 deep are not built.  From there on only their grammar is checked,
with a stack of the open brackets in place of recursion, and they come out unreadable.
-/

namespace DiceTable.Json

open DiceTable.Text.Utf8 (Symbol)

/-- Whether the symbol may stand between tokens. -/
def isLayout (x : Symbol) : Bool :=
  x == some ' ' || x == some '\t' || x == some '\n' || x == some '\r'

/-- What is left after the layout at the front. -/
def skipLayout (text : List Symbol) : List Symbol := text.dropWhile isLayout

/-! ## Strings -/

/-- The value of a hexadecimal digit of either case. -/
def hexValue? (x : Symbol) : Option Nat :=
  match x with
  | none => none
  | some c =>
    if '0' ≤ c ∧ c ≤ '9' then some (c.toNat - '0'.toNat)
    else if 'a' ≤ c ∧ c ≤ 'f' then some (c.toNat - 'a'.toNat + 10)
    else if 'A' ≤ c ∧ c ≤ 'F' then some (c.toNat - 'A'.toNat + 10)
    else none

/-- The unit that four hexadecimal digits at the front denote. -/
def readUnit? : List Symbol → Option Nat
  | a :: b :: c :: d :: _ => do
    let a ← hexValue? a
    let b ← hexValue? b
    let c ← hexValue? c
    let d ← hexValue? d
    return ((a * 16 + b) * 16 + c) * 16 + d
  | _ => none

/-- The character of an escape of one letter. -/
def shortEscape? (c : Char) : Option Char :=
  match c with
  | '"' => some '"'
  | '\\' => some '\\'
  | '/' => some '/'
  | 'b' => some '\x08'
  | 'f' => some '\x0c'
  | 'n' => some '\n'
  | 'r' => some '\r'
  | 't' => some '\t'
  | _ => none

/-- Whether the unit is the first half of a surrogate pair. -/
def isLeading (n : Nat) : Bool := 0xD800 ≤ n && n ≤ 0xDBFF

/-- Whether the unit is the second half of a surrogate pair. -/
def isTrailing (n : Nat) : Bool := 0xDC00 ≤ n && n ≤ 0xDFFF

/-- The escaped unit at the front, backslash included, if it is a second half. -/
def readTrailing? : List Symbol → Option Nat
  | some '\\' :: some 'u' :: rest => (readUnit? rest).filter isTrailing
  | _ => none

/-- What an escape denotes, given what follows its backslash, and the number of symbols that it
takes after the backslash.  Half a surrogate pair denotes nothing. -/
def readEscape : List Symbol → Option (Option Char × Nat)
  | some 'u' :: rest => do
    let n ← readUnit? rest
    if isLeading n then
      match readTrailing? (rest.drop 4) with
      | some m => return (some (Char.ofNat (0x10000 + (n - 0xD800) * 0x400 + (m - 0xDC00))), 11)
      | none => return (none, 5)
    else if isTrailing n then return (none, 5)
    else return (some (Char.ofNat n), 5)
  | some c :: _ => do
    let c ← shortEscape? c
    return (some c, 1)
  | _ => none

/-- Reads a string from behind its opening quote.  `skip` symbols at the front belong to an escape
already read, `read` are the characters so far, last first, and `sound` says whether all denote
something. -/
def readString (skip : Nat) (sound : Bool) (read : List Char) :
    List Symbol → Option (Option String × List Symbol)
  | [] => none
  | x :: rest =>
    match skip with
    | skip + 1 => readString skip sound read rest
    | 0 =>
      match x with
      | none => readString 0 false read rest
      | some c =>
        if c = '"' then some (if sound then some (String.ofList read.reverse) else none, rest)
        else if c = '\\' then
          match readEscape rest with
          | none => none
          | some (some d, taken) => readString taken sound (d :: read) rest
          | some (none, taken) => readString taken false read rest
        else if c.toNat < 0x20 then none
        else readString 0 sound (c :: read) rest

/-! ## Numerals -/

/-- Whether the symbol is a decimal digit. -/
def isDigit : Symbol → Bool
  | some c => c.isDigit
  | none => false

/-- The digits at the front, and what follows them. -/
def readDigits (text : List Symbol) : List Char × List Symbol :=
  ((text.takeWhile isDigit).reduceOption, text.dropWhile isDigit)

/-- The digits before the point: one zero, or digits that do not begin with one. -/
def readIntegral? (text : List Symbol) : Option (List Char × List Symbol) :=
  match readDigits text with
  | ([], _) => none
  | (['0'], rest) => some (['0'], rest)
  | ('0' :: _, _) => none
  | (digits, rest) => some (digits, rest)

/-- The digits after the point, if there is one. -/
def readFraction? : List Symbol → Option (List Char × List Symbol)
  | some '.' :: rest =>
    match readDigits rest with
    | ([], _) => none
    | digits => some digits
  | rest => some ([], rest)

/-- The sign of an exponent: `true` for minus. -/
def readSign : List Symbol → Bool × List Symbol
  | some '-' :: rest => (true, rest)
  | some '+' :: rest => (false, rest)
  | rest => (false, rest)

/-- The exponent behind its mark. -/
def readPower? (text : List Symbol) : Option (Option (Bool × List Char) × List Symbol) :=
  let (minus, rest) := readSign text
  match readDigits rest with
  | ([], _) => none
  | (digits, rest) => some (some (minus, digits), rest)

/-- The exponent, if there is one. -/
def readExponent? : List Symbol → Option (Option (Bool × List Char) × List Symbol)
  | some 'e' :: rest => readPower? rest
  | some 'E' :: rest => readPower? rest
  | rest => some (none, rest)

/-- The numeral at the front. -/
def readNumeral? (text : List Symbol) : Option (Numeral × List Symbol) := do
  let (negative, rest) := match text with
    | some '-' :: rest => (true, rest)
    | rest => (false, rest)
  let (integral, rest) ← readIntegral? rest
  let (fraction, rest) ← readFraction? rest
  let (exponent, rest) ← readExponent? rest
  return (⟨negative, integral, fraction, exponent⟩, rest)

/-! ## Leaves -/

/-- What is left after the letters given. -/
def readLetters? : List Char → List Symbol → Option (List Symbol)
  | [], rest => some rest
  | c :: cs, some d :: rest => if c = d then readLetters? cs rest else none
  | _ :: _, _ => none

/-- The literal, string or numeral at the front. -/
def readLeaf? (text : List Symbol) : Option (Tree × List Symbol) :=
  match text with
  | some 'n' :: rest => (readLetters? ['u', 'l', 'l'] rest).map (Tree.null, ·)
  | some 't' :: rest => (readLetters? ['r', 'u', 'e'] rest).map (Tree.bool true, ·)
  | some 'f' :: rest => (readLetters? ['a', 'l', 's', 'e'] rest).map (Tree.bool false, ·)
  | some '"' :: rest => do
    let (s, rest) ← readString 0 true [] rest
    return (match s with | some s => .string s | none => .unreadable, rest)
  | _ => do
    let (numeral, rest) ← readNumeral? text
    return (match numeral.number? with | some n => .number n | none => .unreadable, rest)

/-! ## Skipping -/

/-- What may come next while nested brackets are skipped: a value, with the closing bracket in its
place if `first` is set; a key, likewise; or what follows a value. -/
inductive Expecting where
  | value (first : Bool)
  | key (first : Bool)
  | afterValue
  deriving DecidableEq, Repr

/-- Checks the grammar up to the end of the outermost open bracket.  `stack` lists the open
brackets, innermost first, `true` for an object. -/
def skipNested : Nat → List Bool → Expecting → List Symbol → Option (List Symbol)
  | 0, _, _, _ => none
  | fuel + 1, stack, expecting, text =>
    match stack with
    | [] => some text
    | inObject :: outer =>
      match expecting, skipLayout text with
      | .value true, some ']' :: rest => skipNested fuel outer .afterValue rest
      | .value _, some '[' :: rest => skipNested fuel (false :: stack) (.value true) rest
      | .value _, some '\x7b' :: rest => skipNested fuel (true :: stack) (.key true) rest
      | .value _, rest =>
        match readLeaf? rest with
        | some (_, rest) => skipNested fuel stack .afterValue rest
        | none => none
      | .key true, some '\x7d' :: rest => skipNested fuel outer .afterValue rest
      | .key _, some '"' :: rest =>
        match readString 0 true [] rest with
        | some (_, rest) =>
          match skipLayout rest with
          | some ':' :: rest => skipNested fuel stack (.value false) rest
          | _ => none
        | none => none
      | .key _, _ => none
      | .afterValue, some ',' :: rest =>
        skipNested fuel stack (if inObject then .key false else .value false) rest
      | .afterValue, some ']' :: rest =>
        if inObject then none else skipNested fuel outer .afterValue rest
      | .afterValue, some '\x7d' :: rest =>
        if inObject then skipNested fuel outer .afterValue rest else none
      | .afterValue, _ => none

/-! ## Values -/

/-- The deepest nesting that is built. -/
def greatestDepth : Nat := 127

mutual

/-- Reads a value, `depth` brackets deep. -/
def readValue : Nat → Nat → List Symbol → Option (Tree × List Symbol)
  | 0, _, _ => none
  | fuel + 1, depth, text =>
    match skipLayout text with
    | some '[' :: rest =>
      if depth < greatestDepth then readItems fuel (depth + 1) true [] rest
      else (skipNested (2 * rest.length + 2) [false] (.value true) rest).map (Tree.unreadable, ·)
    | some '\x7b' :: rest =>
      if depth < greatestDepth then readMembers fuel (depth + 1) true [] rest
      else (skipNested (2 * rest.length + 2) [true] (.key true) rest).map (Tree.unreadable, ·)
    | rest => readLeaf? rest

/-- Reads the items of an array up to its bracket.  `first` says that none was read yet, and `read`
are those read so far, last first. -/
def readItems : Nat → Nat → Bool → List Tree → List Symbol → Option (Tree × List Symbol)
  | 0, _, _, _, _ => none
  | fuel + 1, depth, first, read, text =>
    match first, skipLayout text with
    | true, some ']' :: rest => some (.array [], rest)
    | _, start => do
      let (item, rest) ← readValue fuel depth start
      match skipLayout rest with
      | some ',' :: rest => readItems fuel depth false (item :: read) rest
      | some ']' :: rest => return (.array (item :: read).reverse, rest)
      | _ => none

/-- Reads the members of an object up to its brace, likewise. -/
def readMembers : Nat → Nat → Bool → List (Option String × Tree) → List Symbol →
    Option (Tree × List Symbol)
  | 0, _, _, _, _ => none
  | fuel + 1, depth, first, read, text =>
    match first, skipLayout text with
    | true, some '\x7d' :: rest => some (.object [], rest)
    | _, some '"' :: rest => do
      let (key, rest) ← readString 0 true [] rest
      match skipLayout rest with
      | some ':' :: rest =>
        let (value, rest) ← readValue fuel depth rest
        match skipLayout rest with
        | some ',' :: rest => readMembers fuel depth false ((key, value) :: read) rest
        | some '\x7d' :: rest => return (.object ((key, value) :: read).reverse, rest)
        | _ => none
      | _ => none
    | _, _ => none

end

/-- The tree of a whole text: one value with layout around it. -/
def Tree.ofSymbols? (text : List Symbol) : Option Tree := do
  let (tree, rest) ← readValue (2 * text.length + 2) 0 text
  if (skipLayout rest).isEmpty then return tree else none

/-- The tree of a run of octets. -/
def Tree.ofOctets? (octets : List UInt8) : Option Tree :=
  Tree.ofSymbols? (Text.Utf8.symbols octets)

/-- The tree of a text. -/
def Tree.ofText? (s : String) : Option Tree := Tree.ofSymbols? (s.toList.map some)

end DiceTable.Json
