import DiceTable.Json.Decode
import DiceTable.Proofs.Json.Reading

/-!
# Which texts denote a value

The grammar of JSON has more texts than there are values.  A text denotes no value for one of these
reasons:

```text
a numeral   its number is too large                     `leafText_unreadable_iff`
a string    it has half a surrogate pair                `leafText_unreadable_iff`
a key       likewise, and then the key is `none`        `Spells.member`
nesting     more arrays and objects than are built      `isSome_ofTree?_cut_iff`
```

The first three are found where they are written, and are left in the tree (`Tree.isReadable`).  The
last one is found while reading (`Tree.cut`), and is a matter of `Tree.depth` alone.
-/

namespace DiceTable.Json

/-- A leaf denotes nothing if it is a numeral whose number is too large, or a string with half a
surrogate pair. -/
theorem leafText_unreadable_iff {text : List Char} :
    LeafText .unreadable text ↔
      (∃ n, NumeralText n text ∧ n.number? = none) ∨
        ∃ body, BodyText none body ∧ text = '"' :: (body ++ ['"']) := by
  constructor
  · intro h
    generalize htree : Tree.unreadable = tree at h
    cases h with
    | @string s body h =>
        cases s with
        | none => exact .inr ⟨body, h, rfl⟩
        | some cs => cases htree
    | @numeral n _ h =>
        cases hnumber : n.number? with
        | none => exact .inl ⟨n, h, hnumber⟩
        | some number =>
            rw [hnumber] at htree
            cases htree
    | _ => cases htree
  · rintro (⟨n, h, hnone⟩ | ⟨body, h, rfl⟩)
    · simpa [hnone] using LeafText.numeral h
    · exact .string h

namespace Tree

/-! ## Depth -/

mutual

/-- How deep arrays and objects are nested in a tree. -/
def depth : Tree → Nat
  | .array items => greatestItem items + 1
  | .object members => greatestMember members + 1
  | _ => 0

/-- The depth of the deepest of some trees. -/
def greatestItem : List Tree → Nat
  | [] => 0
  | t :: ts => max (depth t) (greatestItem ts)

/-- The depth of the deepest of some members. -/
def greatestMember : List (Option String × Tree) → Nat
  | [] => 0
  | (_, t) :: ms => max (depth t) (greatestMember ms)

end

/-! ## Trees that denote a value -/

theorem isSome_ofTrees?_cons (t : Tree) (ts : List Tree) :
    (Value.ofTrees? (t :: ts)).isSome = true ↔
      (Value.ofTree? t).isSome = true ∧ (Value.ofTrees? ts).isSome = true := by
  rw [Value.ofTrees?]
  cases Value.ofTree? t <;> cases Value.ofTrees? ts <;> simp

theorem isSome_ofMembers?_cons (key : Option String) (t : Tree) (ms : List (Option String × Tree)) :
    (Value.ofMembers? ((key, t) :: ms)).isSome = true ↔
      key.isSome = true ∧ (Value.ofTree? t).isSome = true ∧
        (Value.ofMembers? ms).isSome = true := by
  rw [Value.ofMembers?]
  cases key <;> cases Value.ofTree? t <;> cases Value.ofMembers? ms <;> simp

mutual

/-- **What is built denotes a value** if every part of it does, and if it is nested no deeper than
what is built. -/
theorem isSome_ofTree?_cut_iff : ∀ (t : Tree) (limit : Nat),
    (Value.ofTree? (t.cut limit)).isSome = true ↔ t.isReadable = true ∧ t.depth ≤ limit
  | .null, limit => by cases limit <;> simp [cut, Value.ofTree?, isReadable, depth]
  | .bool _, limit => by cases limit <;> simp [cut, Value.ofTree?, isReadable, depth]
  | .number _, limit => by cases limit <;> simp [cut, Value.ofTree?, isReadable, depth]
  | .string _, limit => by cases limit <;> simp [cut, Value.ofTree?, isReadable, depth]
  | .unreadable, limit => by cases limit <;> simp [cut, Value.ofTree?, isReadable]
  | .array items, 0 => by simp [cut, Value.ofTree?, depth]
  | .object members, 0 => by simp [cut, Value.ofTree?, depth]
  | .array items, limit + 1 => by
    rw [cut, Value.ofTree?, Option.isSome_map, isSome_ofTrees?_cut_iff items limit, isReadable,
      depth, Nat.add_le_add_iff_right]
  | .object members, limit + 1 => by
    rw [cut, Value.ofTree?, Option.isSome_map, isSome_ofMembers?_cut_iff members limit, isReadable,
      depth, Nat.add_le_add_iff_right]

theorem isSome_ofTrees?_cut_iff : ∀ (ts : List Tree) (limit : Nat),
    (Value.ofTrees? (ts.map (cut limit))).isSome = true ↔
      areReadable ts = true ∧ greatestItem ts ≤ limit
  | [], _ => by simp [Value.ofTrees?, areReadable, greatestItem]
  | t :: ts, limit => by
    rw [List.map_cons, isSome_ofTrees?_cons, isSome_ofTree?_cut_iff t limit,
      isSome_ofTrees?_cut_iff ts limit, areReadable, greatestItem, Bool.and_eq_true, Nat.max_le,
      and_and_and_comm]

theorem isSome_ofMembers?_cut_iff : ∀ (ms : List (Option String × Tree)) (limit : Nat),
    (Value.ofMembers? (ms.map fun m => (m.1, m.2.cut limit))).isSome = true ↔
      membersReadable ms = true ∧ greatestMember ms ≤ limit
  | [], _ => by simp [Value.ofMembers?, membersReadable, greatestMember]
  | (key, t) :: ms, limit => by
    rw [List.map_cons, isSome_ofMembers?_cons, isSome_ofTree?_cut_iff t limit,
      isSome_ofMembers?_cut_iff ms limit, membersReadable, greatestMember, Bool.and_eq_true,
      Bool.and_eq_true, Nat.max_le]
    simp only [and_assoc, and_left_comm]

end

end Tree

end DiceTable.Json
