import DiceTable.Json.Value

/-!
# Writing JSON

Two layouts: the compact one without any blank, and the indented one with two spaces a level, one
item or member a line, and `": "` behind a key.  In both, a string escapes the quote, the backslash
and the control characters below `U+0020`, five of them with a letter and the others as
`\u00xx`; every other character stands for itself.
-/

namespace DiceTable.Json

/-- How one character stands in a string. -/
def escapeChar (c : Char) : List Char :=
  if c = '"' then ['\\', '"']
  else if c = '\\' then ['\\', '\\']
  else if c = '\x08' then ['\\', 'b']
  else if c = '\x0c' then ['\\', 'f']
  else if c = '\n' then ['\\', 'n']
  else if c = '\r' then ['\\', 'r']
  else if c = '\t' then ['\\', 't']
  else if c.toNat < 0x20 then
    ['\\', 'u', '0', '0', Nat.digitChar (c.toNat / 16), Nat.digitChar (c.toNat % 16)]
  else [c]

/-- A string with its quotes. -/
def stringText (s : String) : List Char := '"' :: (s.toList.flatMap escapeChar ++ ['"'])

namespace Value

/-! ## The compact layout -/

mutual

/-- The compact text of a value. -/
def compactChars : Value → List Char
  | .null => ['n', 'u', 'l', 'l']
  | .bool true => ['t', 'r', 'u', 'e']
  | .bool false => ['f', 'a', 'l', 's', 'e']
  | .number n => n.text
  | .string s => stringText s
  | .array items => '[' :: compactItems items
  | .object members => '\x7b' :: compactMembers members

/-- The items that begin an array, up to its bracket. -/
def compactItems : List Value → List Char
  | [] => [']']
  | v :: vs => compactChars v ++ compactMoreItems vs

/-- The items that go on with an array. -/
def compactMoreItems : List Value → List Char
  | [] => [']']
  | v :: vs => ',' :: (compactChars v ++ compactMoreItems vs)

/-- The members that begin an object, up to its brace. -/
def compactMembers : List (String × Value) → List Char
  | [] => ['\x7d']
  | (k, v) :: ms => stringText k ++ ':' :: (compactChars v ++ compactMoreMembers ms)

/-- The members that go on with an object. -/
def compactMoreMembers : List (String × Value) → List Char
  | [] => ['\x7d']
  | (k, v) :: ms => ',' :: (stringText k ++ ':' :: (compactChars v ++ compactMoreMembers ms))

end

/-- The compact text of a value. -/
def compact (v : Value) : String := String.ofList v.compactChars

/-! ## The indented layout -/

/-- A new line, `level` levels deep. -/
def newLine (level : Nat) : List Char := '\n' :: List.replicate (2 * level) ' '

mutual

/-- The indented text of a value that stands `level` levels deep. -/
def indentedChars (level : Nat) : Value → List Char
  | .array [] => ['[', ']']
  | .array (v :: vs) =>
    '[' :: (newLine (level + 1) ++ indentedChars (level + 1) v ++ indentedItems (level + 1) vs ++
      newLine level ++ [']'])
  | .object [] => ['\x7b', '\x7d']
  | .object ((k, v) :: ms) =>
    '\x7b' :: (newLine (level + 1) ++ stringText k ++ [':', ' '] ++ indentedChars (level + 1) v ++
      indentedMembers (level + 1) ms ++ newLine level ++ ['\x7d'])
  | .null => ['n', 'u', 'l', 'l']
  | .bool true => ['t', 'r', 'u', 'e']
  | .bool false => ['f', 'a', 'l', 's', 'e']
  | .number n => n.text
  | .string s => stringText s

/-- The items after the first, each on a line of its own. -/
def indentedItems (level : Nat) : List Value → List Char
  | [] => []
  | v :: vs => ',' :: (newLine level ++ indentedChars level v ++ indentedItems level vs)

/-- The members after the first, each on a line of its own. -/
def indentedMembers (level : Nat) : List (String × Value) → List Char
  | [] => []
  | (k, v) :: ms =>
    ',' :: (newLine level ++ stringText k ++ [':', ' '] ++ indentedChars level v ++
      indentedMembers level ms)

end

/-- The indented text of a value. -/
def indented (v : Value) : String := String.ofList (v.indentedChars 0)

end Value

end DiceTable.Json
