import DiceTable.Json.Printer
import DiceTable.Proofs.Json.Reading
import DiceTable.Proofs.Json.Tree
import DiceTable.Proofs.Text.Utf8

/-!
# Reading the compact layout

The compact layout follows the grammar (`spells_compactChars`), and so what is written in it is read
back as the tree of the value.  This needs the value to be *plain*: its numbers are whole and in
range, and it is nested no deeper than what is built (`Tree.ofOctets?_compact`).
-/

namespace DiceTable.Json

/-! ## Strings -/

theorem hexValue?_digitChar : ∀ n < 16, hexValue? (some (Nat.digitChar n)) = some n := by decide

/-- An escaped control character is read as the character. -/
theorem readUnit?_control {c : Char} (h : c.toNat < 0x20) :
    readUnit? [some '0', some '0', some (Nat.digitChar (c.toNat / 16)),
      some (Nat.digitChar (c.toNat % 16))] = some c.toNat := by
  have hunit : ((0 * 16 + 0) * 16 + c.toNat / 16) * 16 + c.toNat % 16 = c.toNat := by omega
  have hzero : hexValue? (some '0') = some 0 := rfl
  simp only [readUnit?, hzero, hexValue?_digitChar _ (show c.toNat / 16 < 16 by omega),
    hexValue?_digitChar _ (show c.toNat % 16 < 16 by omega), Option.bind_eq_bind,
    Option.bind_some, hunit]
  rfl

/-- A character denotes itself in the way in which it stands in a string. -/
theorem bodyText_escapeChar (c : Char) {s text : List Char} (h : BodyText (some s) text) :
    BodyText (some (c :: s)) (escapeChar c ++ text) := by
  unfold escapeChar
  -- One case for each character with a short escape, in the order in which they are tried.
  split_ifs with hquote hbackslash hbackspace hfeed hline hreturn htab hcontrol
  · subst hquote; exact .short rfl h
  · subst hbackslash; exact .short rfl h
  · subst hbackspace; exact .short rfl h
  · subst hfeed; exact .short rfl h
  · subst hline; exact .short rfl h
  · subst hreturn; exact .short rfl h
  · subst htab; exact .short rfl h
  · have hleading : isLeading c.toNat = false := by
      rw [isLeading, Bool.and_eq_false_iff, decide_eq_false_iff_not]
      exact .inl (by omega)
    have htrailing : isTrailing c.toNat = false := by
      rw [isTrailing, Bool.and_eq_false_iff, decide_eq_false_iff_not]
      exact .inl (by omega)
    have hescape := BodyText.unit (readUnit?_control hcontrol) hleading htrailing h
    rw [Char.ofNat_toNat] at hescape
    exact hescape
  · exact .plain hquote hbackslash (Nat.not_lt.mp hcontrol) h

theorem bodyText_flatMap_escapeChar (cs : List Char) :
    BodyText (some cs) (cs.flatMap escapeChar) := by
  induction cs with
  | nil => exact .nil
  | cons c cs ih => exact bodyText_escapeChar c ih

theorem leafText_stringText (s : String) : LeafText (.string s) (stringText s) := by
  have h := LeafText.string (bodyText_flatMap_escapeChar s.toList)
  rw [Option.map_some, Option.getD_some, String.ofList_toList] at h
  exact h

/-! ## Whole numbers -/

/-- The digits of a number other than zero do not begin with a zero. -/
theorem head?_toDigits_ne_zero {n : Nat} (h : 0 < n) : (Nat.toDigits 10 n).head? ≠ some '0' := by
  induction n using Nat.strongRecOn with
  | ind n ih =>
      rw [Nat.toDigits_eq_if (by decide)]
      split
      next => simpa [Nat.digitChar_eq_zero] using Nat.ne_of_gt h
      next hlarge =>
        have hpos : 0 < n / 10 := by omega
        rw [List.head?_append_of_ne_nil _ Nat.toDigits_ne_nil]
        exact ih (n / 10) (by omega) hpos

theorem isDigits_toDigits (n : Nat) : IsDigits (Nat.toDigits 10 n) :=
  ⟨Nat.toDigits_ne_nil, fun _ => Nat.isDigit_of_mem_toDigits (by decide) (by decide)⟩

/-- The numeral of a whole number. -/
def wholeNumeral (n : Int) : Numeral := ⟨decide (n < 0), Nat.toDigits 10 n.natAbs, [], none⟩

theorem numeralText_wholeText (n : Int) : NumeralText (wholeNumeral n) (wholeText n) := by
  have hzero : (Nat.toDigits 10 n.natAbs).head? = some '0' → Nat.toDigits 10 n.natAbs = ['0'] := by
    intro hhead
    rcases Nat.eq_zero_or_pos n.natAbs with heq | hpos
    · rw [heq]
      rfl
    · exact absurd hhead (head?_toDigits_ne_zero hpos)
  have h : NumeralText (wholeNumeral n) _ :=
    .intro (isDigits_toDigits n.natAbs) hzero .absent .absent
  rw [List.append_nil, List.append_nil] at h
  unfold wholeText
  by_cases hneg : n < 0
  · rw [if_pos (decide_eq_true hneg)] at h
    rw [if_pos hneg]
    exact h
  · rw [if_neg (by simp [hneg]), List.nil_append] at h
    rw [if_neg hneg]
    exact h

/-- A whole number in range is what its numeral denotes. -/
theorem number?_wholeNumeral {n : Int} (hlow : Word.minSigned64 ≤ n)
    (hhigh : n ≤ Word.maxUnsigned64) : (wholeNumeral n).number? = some (.whole n) := by
  have hvalue : digitsValue (Nat.toDigits 10 n.natAbs) = n.natAbs :=
    Nat.ofDigitChars_toDigits (by decide) (by decide)
  unfold Numeral.number?
  rw [if_pos (show ((wholeNumeral n).fraction.isEmpty && (wholeNumeral n).exponent.isNone) = true
    from rfl)]
  simp only [wholeNumeral, hvalue, decide_eq_true_eq]
  by_cases hneg : n < 0
  · have habs : -(n.natAbs : Int) = n := by omega
    rw [if_pos hneg, habs, if_pos ⟨by omega, hlow⟩]
  · have habs : (n.natAbs : Int) = n := by omega
    rw [if_neg hneg, if_pos (by omega), habs]

theorem leafText_wholeText {n : Int} (hlow : Word.minSigned64 ≤ n)
    (hhigh : n ≤ Word.maxUnsigned64) : LeafText (.number (.whole n)) (wholeText n) := by
  have h := LeafText.numeral (numeralText_wholeText n)
  rw [number?_wholeNumeral hlow hhigh] at h
  exact h

/-! ## Values -/

/-- The value is written with whole numbers in range only, and nested at most `depth` deep. -/
inductive Value.Plain : (depth : Nat) → Value → Prop where
  | null {depth : Nat} : Plain depth .null
  | bool {depth : Nat} (b : Bool) : Plain depth (.bool b)
  | string {depth : Nat} (s : String) : Plain depth (.string s)
  | whole {depth : Nat} {n : Int} (hlow : Word.minSigned64 ≤ n) (hhigh : n ≤ Word.maxUnsigned64) :
      Plain depth (.number (.whole n))
  | array {depth : Nat} {items : List Value} (hitems : ∀ v ∈ items, Plain depth v) :
      Plain (depth + 1) (.array items)
  | object {depth : Nat} {members : List (String × Value)}
      (hmembers : ∀ m ∈ members, Plain depth m.2) : Plain (depth + 1) (.object members)

/-- Nothing of a plain value is too deep. -/
theorem Value.Plain.cut_toTree {depth limit : Nat} {v : Value} (h : v.Plain depth)
    (hlimit : depth ≤ limit) : v.toTree.cut limit = v.toTree := by
  induction h generalizing limit with
  | array hitems ih =>
      obtain ⟨less, rfl⟩ : ∃ less, limit = less + 1 := ⟨limit - 1, by omega⟩
      rw [Value.toTree, Tree.cut, Value.toTrees_eq_map, List.map_map]
      congr 1
      exact List.map_congr_left fun v hv => ih v hv (by omega)
  | object hmembers ih =>
      obtain ⟨less, rfl⟩ : ∃ less, limit = less + 1 := ⟨limit - 1, by omega⟩
      rw [Value.toTree, Tree.cut, Value.toMembers_eq_map, List.map_map]
      congr 1
      exact List.map_congr_left fun m hm => Prod.ext rfl (ih m hm (by omega))
  | _ => cases limit <;> rfl

theorem spells_compactItems {v : Value} {vs : List Value}
    (h : ∀ w ∈ v :: vs, Spells (.value w.toTree) w.compactChars) :
    ∃ text, Value.compactItems (v :: vs) = text ++ [']'] ∧
      Spells (.items (Value.toTrees (v :: vs))) text := by
  induction vs generalizing v with
  | nil => exact ⟨v.compactChars, rfl, .lastItem (h v List.mem_cons_self).bare⟩
  | cons w ws ih =>
      obtain ⟨text, htext, hmore⟩ := ih fun u hu => h u (List.mem_cons_of_mem v hu)
      refine ⟨v.compactChars ++ ',' :: text, ?_, .nextItem (h v List.mem_cons_self).bare hmore⟩
      rw [List.append_assoc, List.cons_append, ← htext]
      rfl

/-- A member whose key is written as the program writes it. -/
theorem spells_member (key : String) {tree : Tree} {text : List Char}
    (h : Spells (.element tree) text) :
    Spells (.member (some key) tree) (stringText key ++ ':' :: text) := by
  have hmember := Spells.member isLayout_nil (bodyText_flatMap_escapeChar key.toList) isLayout_nil h
  rw [Option.map_some, String.ofList_toList] at hmember
  simpa [stringText] using hmember

theorem spells_compactMembers {m : String × Value} {ms : List (String × Value)}
    (h : ∀ n ∈ m :: ms, Spells (.value n.2.toTree) n.2.compactChars) :
    ∃ text, Value.compactMembers (m :: ms) = text ++ ['\x7d'] ∧
      Spells (.members (Value.toMembers (m :: ms))) text := by
  obtain ⟨key, v⟩ := m
  have hfirst : Spells (.member (some key) v.toTree) (stringText key ++ ':' :: v.compactChars) :=
    spells_member key (h (key, v) List.mem_cons_self).bare
  induction ms generalizing key v with
  | nil =>
      refine ⟨stringText key ++ ':' :: v.compactChars, ?_, .lastMember hfirst⟩
      rw [List.append_assoc]
      rfl
  | cons n ns ih =>
      obtain ⟨nextKey, w⟩ := n
      have hothers := fun u hu => h u (List.mem_cons_of_mem (key, v) hu)
      obtain ⟨text, htext, hmore⟩ := ih nextKey w hothers
        (spells_member nextKey (hothers (nextKey, w) List.mem_cons_self).bare)
      refine ⟨(stringText key ++ ':' :: v.compactChars) ++ ',' :: text, ?_,
        .nextMember hfirst hmore⟩
      rw [List.append_assoc, List.cons_append, ← htext, List.append_assoc]
      rfl

/-- The compact layout follows the grammar. -/
theorem spells_compactChars {depth : Nat} {v : Value} (h : v.Plain depth) :
    Spells (.value v.toTree) v.compactChars := by
  induction h with
  | null => exact .leaf .null
  | bool b =>
      cases b with
      | false => exact .leaf .no
      | true => exact .leaf .yes
  | string s => exact .leaf (leafText_stringText s)
  | whole hlow hhigh => exact .leaf (leafText_wholeText hlow hhigh)
  | @array depth items hitems ih =>
      cases items with
      | nil => exact .emptyArray isLayout_nil
      | cons v vs =>
          obtain ⟨text, htext, hspells⟩ := spells_compactItems ih
          rw [Value.compactChars, htext]
          exact .array hspells
  | @object depth members hmembers ih =>
      cases members with
      | nil => exact .emptyObject isLayout_nil
      | cons m ms =>
          obtain ⟨text, htext, hspells⟩ := spells_compactMembers ih
          rw [Value.compactChars, htext]
          exact .object hspells

/-- The compact text of a plain value is read back as its tree. -/
theorem Tree.ofText?_compact {v : Value} (h : v.Plain greatestDepth) :
    Tree.ofText? v.compact = some v.toTree := by
  rw [Tree.ofText?, Value.compact, String.toList_ofList,
    Tree.ofSymbols?_of_spells (spells_compactChars h).bare, h.cut_toTree (Nat.le_refl _)]

theorem Tree.ofOctets?_compact {v : Value} (h : v.Plain greatestDepth) :
    Tree.ofOctets? (Text.Utf8.encode v.compact.toList) = some v.toTree := by
  rw [Tree.ofOctets?, Text.Utf8.symbols_encode]
  exact Tree.ofText?_compact h

/-- The compact text of a plain value denotes the value, with its members in order. -/
theorem Value.ofText?_compact {v : Value} (h : v.Plain greatestDepth) :
    (Tree.ofText? v.compact).bind ofTree? = some v.sorted := by
  rw [Tree.ofText?_compact h, Option.bind_some, ofTree?_toTree]

end DiceTable.Json
