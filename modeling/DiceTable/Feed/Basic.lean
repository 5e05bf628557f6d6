import DiceTable.Roll.Record

/-!
# The feed

The feed shows the latest rolls, newest first, up to its capacity.  Rolls are put in at the front;
when there are too many, the oldest are dropped.  The feed itself takes any roll, known or not.
-/

namespace DiceTable

/-- The order in which a batch of rolls is given. -/
inductive BatchOrder where
  /-- As they happened. -/
  | oldestFirst
  /-- As they are shown. -/
  | newestFirst
  deriving DecidableEq, Repr

/-- The records of a batch in the order in which they are put in. -/
def BatchOrder.arrange (order : BatchOrder) (records : List RollRecord) : List RollRecord :=
  match order with
  | .oldestFirst => records
  | .newestFirst => records.reverse

/-- The latest rolls, newest first. -/
structure Feed where
  records : List RollRecord
  capacity : Nat
  deriving DecidableEq, Repr

namespace Feed

/-- The capacity of a feed unless something else is asked for. -/
def defaultCapacity : Nat := 50

/-- An empty feed. A feed holds one roll at least. -/
def new (capacity : Nat) : Feed := ⟨[], max capacity 1⟩

/-- Drops the oldest rolls beyond the capacity. -/
def evict (f : Feed) : Feed := { f with records := f.records.take f.capacity }

/-- Puts one roll in. -/
def prepend (f : Feed) (record : RollRecord) : Feed :=
  evict { f with records := record :: f.records }

/-- Puts a batch of rolls in, one after the other, and answers how many there were. -/
def prependBatch (f : Feed) (records : List RollRecord) (order : BatchOrder) : Feed × Nat :=
  let arranged := order.arrange records
  (evict { f with records := arranged.foldl (fun shown record => record :: shown) f.records },
    arranged.length)

/-- A roll goes to the front, and what is beyond the capacity is gone. -/
theorem records_prepend (f : Feed) (record : RollRecord) :
    (f.prepend record).records = (record :: f.records).take f.capacity := rfl

/-- Of a batch, the roll put in last stands first. -/
theorem records_prependBatch (f : Feed) (records : List RollRecord) (order : BatchOrder) :
    (f.prependBatch records order).1.records =
      ((order.arrange records).reverse ++ f.records).take f.capacity := by
  have hpush (shown : List RollRecord) (given : List RollRecord) :
      given.foldl (fun shown record => record :: shown) shown = given.reverse ++ shown := by
    induction given generalizing shown with
    | nil => rfl
    | cons record given ih => simp [ih]
  simp [prependBatch, evict, hpush]

/-- Every roll of a batch counts as put in. -/
theorem inserted_prependBatch (f : Feed) (records : List RollRecord) (order : BatchOrder) :
    (f.prependBatch records order).2 = records.length := by
  cases order <;> simp [prependBatch, BatchOrder.arrange]

/-- Removes every roll. -/
def clear (f : Feed) : Feed := { f with records := [] }

/-- Whether a roll with this identifier is shown. -/
def contains (f : Feed) (id : RollId) : Bool := f.records.any (·.id == id)

/-- A roll is shown exactly when its identifier is. -/
theorem contains_iff {f : Feed} {id : RollId} :
    f.contains id = true ↔ id ∈ f.records.map (·.id) := by
  simp [contains]

/-- The number of rolls. -/
def length (f : Feed) : Nat := f.records.length

/-- The identifiers, newest first. -/
def ids (f : Feed) : List RollId := f.records.map (·.id)

end Feed

end DiceTable
