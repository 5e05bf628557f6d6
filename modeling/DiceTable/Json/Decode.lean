import DiceTable.Json.Value

/-!
# Decoding JSON into records

A record is read from an object, or from an array of its fields in order.  In an object, unknown
members are ignored, a known one must not be repeated, and every key must be readable.  In an
array, fields may be missing at the end, and there is nothing after the last one.  Each field is
then decoded on its own, with a default where the record has one.
-/

namespace DiceTable.Json

/-- A way to read a type from a tree; `none` when the tree has the wrong shape. -/
abbrev Decoder (α : Type) := Tree → Option α

namespace Tree

/-- The member with this key, if there is exactly one; the outer `none` stands for a repetition. -/
def single? (key : String) (members : List (Option String × Tree)) : Option (Option Tree) :=
  match members.filter (·.1 == some key) with
  | [] => some none
  | [m] => some (some m.2)
  | _ => none

/-- The fields of a record with these keys, in order, each present or missing. -/
def fields? (keys : List String) : Decoder (List (Option Tree))
  | .object members =>
    if members.all (·.1.isSome) then keys.mapM (single? · members) else none
  | .array items =>
    if items.length ≤ keys.length then
      some (items.map some ++ List.replicate (keys.length - items.length) none)
    else none
  | _ => none

end Tree

namespace Decode

/-- A string. -/
def string : Decoder String
  | .string s => some s
  | _ => none

/-- A whole number in the range given. -/
def int (low high : Int) : Decoder Int
  | .number (.whole n) => if low ≤ n ∧ n ≤ high then some n else none
  | _ => none

/-- A signed 64-bit number. -/
def signed64 : Decoder Int := int Word.minSigned64 Word.maxSigned64

/-- An unsigned 64-bit number. -/
def unsigned64 (t : Tree) : Option Nat := (int 0 Word.maxUnsigned64 t).map Int.toNat

/-- An unsigned 32-bit number. -/
def unsigned32 (t : Tree) : Option Nat := (int 0 Word.maxUnsigned32 t).map Int.toNat

/-- Null for nothing, or a value. -/
def nullable {α : Type} (decode : Decoder α) : Decoder (Option α)
  | .null => some none
  | t => (decode t).map some

/-- An array of values. -/
def list {α : Type} (decode : Decoder α) : Decoder (List α)
  | .array items => items.mapM decode
  | _ => none

/-- Any value. -/
def value : Decoder Value := Value.ofTree?

/-- What may stand as the content of a name without content, when the name is written as the key of
an object with one member. -/
inductive Hollow where
  /-- Only null. -/
  | null
  /-- Null or an empty object. -/
  | nullOrEmpty
  deriving DecidableEq, Repr

/-- Whether the tree is such a content. -/
def Hollow.admits : Hollow → Tree → Bool
  | _, .null => true
  | .nullOrEmpty, .object [] => true
  | _, _ => false

/-- One of a fixed set of names: a string, or an object with that one key and no content. -/
def name {α : Type} (hollow : Hollow) (read : String → Option α) : Decoder α
  | .string s => read s
  | .object [(some key, content)] => if hollow.admits content then read key else none
  | _ => none

/-- A field that must be there. -/
def required {α : Type} (decode : Decoder α) (field : Option Tree) : Option α := field.bind decode

/-- A field with a default. -/
def withDefault {α : Type} (default : α) (decode : Decoder α) : Option Tree → Option α
  | none => some default
  | some t => decode t

/-- A field that may be missing or null. -/
def optional {α : Type} (decode : Decoder α) : Option Tree → Option (Option α) :=
  withDefault none (nullable decode)

end Decode

end DiceTable.Json
