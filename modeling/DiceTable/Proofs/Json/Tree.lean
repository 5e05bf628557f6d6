import DiceTable.Json.Decode

/-!
# Decoding a value that was read before

The payload of a frame is read as a value first, and is decoded by way of its tree afterwards.  In
the tree of a value every key and every part is readable, so that a decoder can only fail over the
shape of the value, which `Value.fields?` looks at directly.
-/

namespace DiceTable.Json.Value

/-! ## Lists of parts -/

theorem toTrees_eq_map (vs : List Value) : toTrees vs = vs.map toTree := by
  induction vs with
  | nil => rfl
  | cons v vs ih => simp [toTrees, ih]

theorem toMembers_eq_map (ms : List (String × Value)) :
    toMembers ms = ms.map fun m => (some m.1, m.2.toTree) := by
  induction ms with
  | nil => rfl
  | cons m ms ih => simp [toMembers, ih]

/-! ## Readable parts -/

mutual

/-- A value denotes something in every part. -/
theorem isReadable_toTree : ∀ v : Value, v.toTree.isReadable = true
  | .null => rfl
  | .bool _ => rfl
  | .number _ => rfl
  | .string _ => rfl
  | .array items => areReadable_toTrees items
  | .object members => membersReadable_toMembers members

theorem areReadable_toTrees : ∀ vs : List Value, Tree.areReadable (toTrees vs) = true
  | [] => rfl
  | v :: vs => by
    rw [toTrees, Tree.areReadable, isReadable_toTree v, areReadable_toTrees vs, Bool.and_self]

theorem membersReadable_toMembers :
    ∀ ms : List (String × Value), Tree.membersReadable (toMembers ms) = true
  | [] => rfl
  | (k, v) :: ms => by
    simp [toMembers, Tree.membersReadable, isReadable_toTree v, membersReadable_toMembers ms]

end

mutual

/-- The tree of a value denotes that value, up to the order of members. -/
theorem ofTree?_toTree : ∀ v : Value, ofTree? v.toTree = some v.sorted
  | .null => rfl
  | .bool _ => rfl
  | .number _ => rfl
  | .string _ => rfl
  | .array items => by simp [toTree, ofTree?, sorted, ofTrees?_toTrees items]
  | .object members => by simp [toTree, ofTree?, sorted, ofMembers?_toMembers members]

theorem ofTrees?_toTrees : ∀ vs : List Value, ofTrees? (toTrees vs) = some (sortedItems vs)
  | [] => rfl
  | v :: vs => by simp [toTrees, ofTrees?, sortedItems, ofTree?_toTree v, ofTrees?_toTrees vs]

theorem ofMembers?_toMembers :
    ∀ ms : List (String × Value), ofMembers? (toMembers ms) = some (sortedValues ms)
  | [] => rfl
  | (k, v) :: ms => by
    simp [toMembers, ofMembers?, sortedValues, ofTree?_toTree v, ofMembers?_toMembers ms]

end

theorem mapM_value_toTrees (vs : List Value) :
    (toTrees vs).mapM Decode.value = some (vs.map sorted) := by
  induction vs with
  | nil => rfl
  | cons v vs ih => simp [toTrees, Decode.value, ofTree?_toTree] at ih ⊢; simp [ih]

/-! ## Fields -/

/-- The member with this key, if there is at most one; the outer `none` stands for a repetition. -/
def single? (key : String) (members : List (String × Value)) : Option (Option Value) :=
  match members.filter (·.1 == key) with
  | [] => some none
  | [m] => some (some m.2)
  | _ => none

/-- The fields of a record with these keys, in order, each present or missing: from an object that
repeats none of them, or from an array that lists them and may end early. -/
def fields? (keys : List String) : Value → Option (List (Option Value))
  | .object members => keys.mapM (single? · members)
  | .array items =>
    if items.length ≤ keys.length then
      some (items.map some ++ List.replicate (keys.length - items.length) none)
    else none
  | _ => none

theorem single?_toMembers (key : String) (members : List (String × Value)) :
    Tree.single? key (toMembers members) = (single? key members).map (Option.map toTree) := by
  have hfilter : (toMembers members).filter (·.1 == some key) =
      toMembers (members.filter (·.1 == key)) := by
    simp only [toMembers_eq_map, List.filter_map]
    rfl
  rw [Tree.single?, single?, hfilter]
  generalize members.filter (·.1 == key) = found
  match found with
  | [] => rfl
  | [_] => rfl
  | _ :: _ :: _ => rfl

theorem mapM_eq_map {α β γ : Type} {f : β → γ} {g : α → Option β} {h : α → Option γ}
    (heq : ∀ x, h x = (g x).map f) (xs : List α) : xs.mapM h = (xs.mapM g).map (List.map f) := by
  induction xs with
  | nil => rfl
  | cons x xs ih =>
      rw [List.mapM_cons, List.mapM_cons, ih, heq]
      cases g x with
      | none => rfl
      | some y => cases xs.mapM g <;> rfl

/-- A record is decoded from a value field by field. -/
theorem fields?_toTree (keys : List String) (v : Value) :
    v.toTree.fields? keys = (v.fields? keys).map (List.map (Option.map toTree)) := by
  cases v with
  | array items =>
      simp only [toTree, Tree.fields?, fields?, toTrees_eq_map, List.length_map]
      split <;> simp
  | object members =>
      have hkeys : (toMembers members).all (·.1.isSome) = true := by
        simp [toMembers_eq_map]
      rw [toTree, Tree.fields?, fields?, if_pos hkeys]
      exact mapM_eq_map (single?_toMembers · members) keys
  | _ => rfl

end DiceTable.Json.Value
