import DiceTable.Json.Number

/-!
# JSON as written

A `Tree` is a JSON text with its layout removed and nothing else: members stand in the order in
which they were written, repeated keys included.  A part that follows the grammar but denotes
nothing is kept as `unreadable`: a numeral that is too large, a string with half a surrogate pair
or a stray octet, or an array or object nested too deep.  A reader that ignores such a part never
notices.
-/

namespace DiceTable.Json

/-- A JSON text without its layout.  A key that denotes nothing is `none`. -/
inductive Tree where
  | null
  | bool (b : Bool)
  | number (n : Number)
  | string (s : String)
  | array (items : List Tree)
  | object (members : List (Option String × Tree))
  | unreadable
  deriving Repr

namespace Tree

mutual

/-- Whether every part of the tree denotes something. -/
def isReadable : Tree → Bool
  | .array items => areReadable items
  | .object members => membersReadable members
  | .unreadable => false
  | _ => true

def areReadable : List Tree → Bool
  | [] => true
  | t :: ts => isReadable t && areReadable ts

def membersReadable : List (Option String × Tree) → Bool
  | [] => true
  | (key, t) :: ms => key.isSome && isReadable t && membersReadable ms

end

end Tree

end DiceTable.Json
