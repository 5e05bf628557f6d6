import DiceTable.Json.Tree

/-!
# JSON as meant

A `Value` is what a JSON text denotes.  The members of an object read from a text are sorted by key
in order of code points, and of a repeated key the last member counts; an object that the program
writes lists its members in the order of the record that it stands for.
-/

namespace DiceTable.Json

/-- What a JSON text denotes. -/
inductive Value where
  | null
  | bool (b : Bool)
  | number (n : Number)
  | string (s : String)
  | array (items : List Value)
  | object (members : List (String × Value))
  deriving Repr, Inhabited

namespace Value

/-! ## Equality -/

mutual

/-- Whether two values are the same. -/
def same : Value → Value → Bool
  | .null, .null => true
  | .bool a, .bool b => a == b
  | .number a, .number b => a == b
  | .string a, .string b => a == b
  | .array as, .array bs => sameItems as bs
  | .object as, .object bs => sameMembers as bs
  | _, _ => false

def sameItems : List Value → List Value → Bool
  | [], [] => true
  | a :: as, b :: bs => same a b && sameItems as bs
  | _, _ => false

def sameMembers : List (String × Value) → List (String × Value) → Bool
  | [], [] => true
  | (k, a) :: as, (l, b) :: bs => k == l && same a b && sameMembers as bs
  | _, _ => false

end

mutual

theorem same_iff : ∀ a b : Value, same a b = true ↔ a = b
  | .null, b => by cases b <;> simp [same]
  | .bool _, b => by cases b <;> simp [same]
  | .number _, b => by cases b <;> simp [same]
  | .string _, b => by cases b <;> simp [same]
  | .array as, b => by
    cases b with
    | array bs => simp [same, sameItems_iff as bs]
    | _ => simp [same]
  | .object as, b => by
    cases b with
    | object bs => simp [same, sameMembers_iff as bs]
    | _ => simp [same]

theorem sameItems_iff : ∀ as bs : List Value, sameItems as bs = true ↔ as = bs
  | [], bs => by cases bs <;> simp [sameItems]
  | a :: as, bs => by
    cases bs with
    | nil => simp [sameItems]
    | cons b bs => simp [sameItems, same_iff a b, sameItems_iff as bs]

theorem sameMembers_iff : ∀ as bs : List (String × Value), sameMembers as bs = true ↔ as = bs
  | [], bs => by cases bs <;> simp [sameMembers]
  | (k, a) :: as, bs => by
    cases bs with
    | nil => simp [sameMembers]
    | cons m bs =>
      obtain ⟨l, b⟩ := m
      simp [sameMembers, same_iff a b, sameMembers_iff as bs, and_assoc]

end

instance : DecidableEq Value := fun a b => decidable_of_iff _ (same_iff a b)

/-! ## Members -/

/-- Puts a member into a sorted object, in place of one with the same key. -/
def putMember (key : String) (value : Value) : List (String × Value) → List (String × Value)
  | [] => [(key, value)]
  | (k, v) :: ms =>
    if key = k then (key, value) :: ms
    else if key < k then (key, value) :: (k, v) :: ms
    else (k, v) :: putMember key value ms

/-- The members sorted by key, the last of a repeated key counting. -/
def sortMembers (members : List (String × Value)) : List (String × Value) :=
  members.foldl (fun sorted m => putMember m.1 m.2 sorted) []

/-- The member of an object with this key; nothing for other values. -/
def get? (key : String) : Value → Option Value
  | .object members => members.lookup key
  | _ => none

/-- The text of a string value. -/
def asString? : Value → Option String
  | .string s => some s
  | _ => none

/-- The truth value of a Boolean value. -/
def asBool? : Value → Option Bool
  | .bool b => some b
  | _ => none

mutual

/-- The same value with the members of every object sorted by key. -/
def sorted : Value → Value
  | .array items => .array (sortedItems items)
  | .object members => .object (sortMembers (sortedValues members))
  | v => v

def sortedItems : List Value → List Value
  | [] => []
  | v :: vs => sorted v :: sortedItems vs

def sortedValues : List (String × Value) → List (String × Value)
  | [] => []
  | (k, v) :: ms => (k, sorted v) :: sortedValues ms

end

/-! ## Values and trees -/

mutual

/-- What a tree denotes, if all of it denotes something. -/
def ofTree? : Tree → Option Value
  | .null => some .null
  | .bool b => some (.bool b)
  | .number n => some (.number n)
  | .string s => some (.string s)
  | .array items => (ofTrees? items).map .array
  | .object members => (ofMembers? members).map fun ms => .object (sortMembers ms)
  | .unreadable => none

def ofTrees? : List Tree → Option (List Value)
  | [] => some []
  | t :: ts => do
    let v ← ofTree? t
    let vs ← ofTrees? ts
    return v :: vs

def ofMembers? : List (Option String × Tree) → Option (List (String × Value))
  | [] => some []
  | (key, t) :: ms => do
    let key ← key
    let v ← ofTree? t
    let vs ← ofMembers? ms
    return (key, v) :: vs

end

mutual

/-- The tree of a value. -/
def toTree : Value → Tree
  | .null => .null
  | .bool b => .bool b
  | .number n => .number n
  | .string s => .string s
  | .array items => .array (toTrees items)
  | .object members => .object (toMembers members)

def toTrees : List Value → List Tree
  | [] => []
  | v :: vs => toTree v :: toTrees vs

def toMembers : List (String × Value) → List (Option String × Tree)
  | [] => []
  | (k, v) :: ms => (some k, toTree v) :: toMembers ms

end

/-- A whole number. -/
def ofInt (n : Int) : Value := .number (.whole n)

/-- A count or another whole number that is not negative. -/
def ofNat (n : Nat) : Value := .number (.whole n)

/-- The members that are there. -/
def ofFields (fields : List (Option (String × Value))) : Value := .object fields.reduceOption

end Value

end DiceTable.Json
