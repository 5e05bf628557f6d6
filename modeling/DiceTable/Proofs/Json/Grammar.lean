import DiceTable.Json.Reader
import Mathlib.Data.List.DropRight
import Mathlib.Data.List.ReduceOption
import Mathlib.Data.List.TakeWhile

/-!
# The grammar of JSON

`Spells` says how JSON is written: which texts there are, and which tree each of them is written
for.  Blanks may stand on both sides of a value and of a key; a string may escape any character; a
numeral may have a fraction and an exponent.  Nothing is said about depth.

What follows are the *leaves*: strings, numerals and the three literals are read as the tree that
they are written for (`readLeaf?_of_leafText`), whatever more text stands behind them.  A numeral
goes on as long as digits follow, so that what follows must close the value: it is empty, or begins
with a blank, a comma or a closing bracket (`Closes`).
-/

namespace DiceTable.Json

open DiceTable.Text.Utf8 (Symbol)

/-! ## Texts -/

/-- Blanks between tokens. -/
def IsLayout (text : List Char) : Prop := ∀ c ∈ text, isLayout (some c) = true

/-- What stands between the quotes of a string, and the characters that it denotes.  The halves of
a surrogate pair denote one character together, and nothing on their own. -/
inductive BodyText : Option (List Char) → List Char → Prop where
  | nil : BodyText (some []) []
  | plain {c : Char} {s : Option (List Char)} {text : List Char} (hquote : c ≠ '"')
      (hbackslash : c ≠ '\\') (hcontrol : 0x20 ≤ c.toNat) (h : BodyText s text) :
      BodyText (s.map (c :: ·)) (c :: text)
  | short {letter c : Char} {s : Option (List Char)} {text : List Char}
      (hletter : shortEscape? letter = some c) (h : BodyText s text) :
      BodyText (s.map (c :: ·)) ('\\' :: letter :: text)
  | unit {a b c d : Char} {n : Nat} {s : Option (List Char)} {text : List Char}
      (hunit : readUnit? [some a, some b, some c, some d] = some n) (hleading : isLeading n = false)
      (htrailing : isTrailing n = false) (h : BodyText s text) :
      BodyText (s.map (Char.ofNat n :: ·)) ('\\' :: 'u' :: a :: b :: c :: d :: text)
  | pair {a b c d a' b' c' d' : Char} {n m : Nat} {s : Option (List Char)} {text : List Char}
      (hunit : readUnit? [some a, some b, some c, some d] = some n) (hleading : isLeading n = true)
      (hunit' : readUnit? [some a', some b', some c', some d'] = some m)
      (htrailing : isTrailing m = true) (h : BodyText s text) :
      BodyText (s.map (Char.ofNat (0x10000 + (n - 0xD800) * 0x400 + (m - 0xDC00)) :: ·))
        ('\\' :: 'u' :: a :: b :: c :: d :: '\\' :: 'u' :: a' :: b' :: c' :: d' :: text)
  | half {a b c d : Char} {n : Nat} {s : Option (List Char)} {text : List Char}
      (hunit : readUnit? [some a, some b, some c, some d] = some n)
      (halone : isLeading n = true ∧ readTrailing? (text.map some) = none ∨ isTrailing n = true)
      (h : BodyText s text) : BodyText none ('\\' :: 'u' :: a :: b :: c :: d :: text)

/-- One or more digits. -/
def IsDigits (cs : List Char) : Prop := cs ≠ [] ∧ ∀ c ∈ cs, c.isDigit = true

/-- The digits of a fraction, behind their point. -/
inductive FractionText : List Char → List Char → Prop where
  | absent : FractionText [] []
  | present {digits : List Char} (h : IsDigits digits) : FractionText digits ('.' :: digits)

/-- The sign of an exponent. -/
inductive SignText : Bool → List Char → Prop where
  | absent : SignText false []
  | plus : SignText false ['+']
  | minus : SignText true ['-']

/-- The sign and the digits of an exponent, behind their mark. -/
inductive ExponentText : Option (Bool × List Char) → List Char → Prop where
  | absent : ExponentText none []
  | present {mark : Char} {minus : Bool} {sign digits : List Char} (hmark : mark = 'e' ∨ mark = 'E')
      (hsign : SignText minus sign) (hdigits : IsDigits digits) :
      ExponentText (some (minus, digits)) (mark :: (sign ++ digits))

/-- A numeral.  Its digits do not begin with a zero, unless that is all. -/
inductive NumeralText : Numeral → List Char → Prop where
  | intro {negative : Bool} {integral fraction fractionText exponentText : List Char}
      {exponent : Option (Bool × List Char)} (hintegral : IsDigits integral)
      (hzero : integral.head? = some '0' → integral = ['0'])
      (hfraction : FractionText fraction fractionText)
      (hexponent : ExponentText exponent exponentText) :
      NumeralText ⟨negative, integral, fraction, exponent⟩
        ((if negative then ['-'] else []) ++ (integral ++ (fractionText ++ exponentText)))

/-- A literal, a string or a numeral. -/
inductive LeafText : Tree → List Char → Prop where
  | null : LeafText .null ['n', 'u', 'l', 'l']
  | yes : LeafText (.bool true) ['t', 'r', 'u', 'e']
  | no : LeafText (.bool false) ['f', 'a', 'l', 's', 'e']
  | string {s : Option (List Char)} {body : List Char} (h : BodyText s body) :
      LeafText ((s.map fun cs => Tree.string (String.ofList cs)).getD .unreadable)
        ('"' :: (body ++ ['"']))
  | numeral {n : Numeral} {text : List Char} (h : NumeralText n text) :
      LeafText ((n.number?.map Tree.number).getD .unreadable) text

/-- What a text may be written for. -/
inductive Part where
  | value (tree : Tree)
  /-- A value with layout around it. -/
  | element (tree : Tree)
  | items (trees : List Tree)
  | member (key : Option String) (tree : Tree)
  | members (members : List (Option String × Tree))

/-- The texts of each part. -/
inductive Spells : Part → List Char → Prop where
  | leaf {tree : Tree} {text : List Char} (h : LeafText tree text) : Spells (.value tree) text
  | emptyArray {inside : List Char} (h : IsLayout inside) :
      Spells (.value (.array [])) ('[' :: (inside ++ [']']))
  | array {trees : List Tree} {text : List Char} (h : Spells (.items trees) text) :
      Spells (.value (.array trees)) ('[' :: (text ++ [']']))
  | emptyObject {inside : List Char} (h : IsLayout inside) :
      Spells (.value (.object [])) ('\x7b' :: (inside ++ ['\x7d']))
  | object {members : List (Option String × Tree)} {text : List Char}
      (h : Spells (.members members) text) :
      Spells (.value (.object members)) ('\x7b' :: (text ++ ['\x7d']))
  | element {tree : Tree} {before text behind : List Char} (hbefore : IsLayout before)
      (h : Spells (.value tree) text) (hbehind : IsLayout behind) :
      Spells (.element tree) (before ++ (text ++ behind))
  | lastItem {tree : Tree} {text : List Char} (h : Spells (.element tree) text) :
      Spells (.items [tree]) text
  | nextItem {tree : Tree} {trees : List Tree} {text more : List Char}
      (h : Spells (.element tree) text) (hmore : Spells (.items trees) more) :
      Spells (.items (tree :: trees)) (text ++ ',' :: more)
  | member {key : Option (List Char)} {tree : Tree} {before body behind text : List Char}
      (hbefore : IsLayout before) (hkey : BodyText key body) (hbehind : IsLayout behind)
      (h : Spells (.element tree) text) :
      Spells (.member (key.map String.ofList) tree)
        (before ++ '"' :: (body ++ '"' :: (behind ++ ':' :: text)))
  | lastMember {key : Option String} {tree : Tree} {text : List Char}
      (h : Spells (.member key tree) text) : Spells (.members [(key, tree)]) text
  | nextMember {key : Option String} {tree : Tree} {members : List (Option String × Tree)}
      {text more : List Char} (h : Spells (.member key tree) text)
      (hmore : Spells (.members members) more) :
      Spells (.members ((key, tree) :: members)) (text ++ ',' :: more)

/-! ## Layout -/

theorem isLayout_nil : IsLayout [] := fun _ h => nomatch h

/-- A value may stand without layout around it. -/
theorem Spells.bare {tree : Tree} {text : List Char} (h : Spells (.value tree) text) :
    Spells (.element tree) text := by
  have helement := Spells.element isLayout_nil h isLayout_nil
  rwa [List.nil_append, List.append_nil] at helement

theorem skipLayout_cons {x : Symbol} {rest : List Symbol} (h : isLayout x = false) :
    skipLayout (x :: rest) = x :: rest := by
  rw [skipLayout, List.dropWhile_cons_of_neg (by simp [h])]

theorem skipLayout_append {text : List Char} (h : IsLayout text) (rest : List Symbol) :
    skipLayout (text.map some ++ rest) = skipLayout rest := by
  apply List.dropWhile_append_of_pos
  intro x hx
  obtain ⟨c, hc, rfl⟩ := List.mem_map.mp hx
  exact h c hc

@[simp] theorem skipLayout_skipLayout (text : List Symbol) :
    skipLayout (skipLayout text) = skipLayout text :=
  List.dropWhile_idempotent _ text

/-- The text ends a value that stands before it. -/
def Closes (rest : List Symbol) : Prop :=
  ∀ x ∈ rest.head?, isLayout x = true ∨ x = some ',' ∨ x = some ']' ∨ x = some '\x7d'

theorem closes_nil : Closes [] := by
  intro x hx
  cases hx

theorem closes_cons {x : Symbol} {rest : List Symbol}
    (h : x = some ',' ∨ x = some ']' ∨ x = some '\x7d') : Closes (x :: rest) := by
  intro y hy
  cases hy
  exact .inr h

theorem Closes.append_layout {rest : List Symbol} (hrest : Closes rest) {text : List Char}
    (htext : IsLayout text) : Closes (text.map some ++ rest) := by
  cases text with
  | nil => exact hrest
  | cons c text =>
      intro x hx
      cases hx
      exact .inl (htext c List.mem_cons_self)

/-! ## Strings -/

section Escapes

variable {a b c d : Char} {n : Nat} (rest : List Symbol)

theorem readEscape_short {letter : Char} (hletter : shortEscape? letter = some c) :
    readEscape (some letter :: rest) = some (some c, 1) := by
  have hother : letter ≠ 'u' := by
    rintro rfl
    have hnone : shortEscape? 'u' = none := rfl
    simp [hnone] at hletter
  unfold readEscape
  split
  next heq => exact absurd (Option.some.inj (List.cons.inj heq).1) hother
  next heq =>
    obtain rfl := Option.some.inj (List.cons.inj heq).1
    rw [hletter]
    rfl
  next hnone => exact absurd rfl (hnone letter rest)

theorem readEscape_unit (hunit : readUnit? [some a, some b, some c, some d] = some n)
    (hleading : isLeading n = false) (htrailing : isTrailing n = false) :
    readEscape (some 'u' :: some a :: some b :: some c :: some d :: rest) =
      some (some (Char.ofNat n), 5) := by
  have hread : readUnit? (some a :: some b :: some c :: some d :: rest) = some n := hunit
  simp only [readEscape, hread, Option.bind_eq_bind, Option.bind_some, hleading, htrailing,
    Bool.false_eq_true, if_false]
  rfl

theorem readEscape_pair {a' b' c' d' : Char} {m : Nat}
    (hunit : readUnit? [some a, some b, some c, some d] = some n) (hleading : isLeading n = true)
    (hunit' : readUnit? [some a', some b', some c', some d'] = some m)
    (htrailing : isTrailing m = true) :
    readEscape (some 'u' :: some a :: some b :: some c :: some d :: some '\\' :: some 'u' ::
        some a' :: some b' :: some c' :: some d' :: rest) =
      some (some (Char.ofNat (0x10000 + (n - 0xD800) * 0x400 + (m - 0xDC00))), 11) := by
  have hread : readUnit? (some a :: some b :: some c :: some d :: some '\\' :: some 'u' ::
      some a' :: some b' :: some c' :: some d' :: rest) = some n := hunit
  have hread' : readUnit? (some a' :: some b' :: some c' :: some d' :: rest) = some m := hunit'
  simp only [readEscape, hread, Option.bind_eq_bind, Option.bind_some, hleading, if_true,
    List.drop_succ_cons, List.drop_zero, readTrailing?, hread', Option.filter, htrailing]
  rfl

/-- The quote that ends a string is no part of an escape. -/
theorem readUnit?_quote (text : List Char) :
    readUnit? (text.map some ++ some '"' :: rest) = readUnit? (text.map some) := by
  have hquote : hexValue? (some '"') = none := rfl
  match text, rest with
  | [], [] => rfl
  | [], [_] => rfl
  | [], [_, _] => rfl
  | [], _ :: _ :: _ :: _ => rfl
  | [_], [] => rfl
  | [_], [_] => rfl
  | [_], _ :: _ :: _ => simp [readUnit?, hquote]
  | [_, _], [] => rfl
  | [_, _], _ :: _ => simp [readUnit?, hquote]
  | [_, _, _], _ => simp [readUnit?, hquote]
  | _ :: _ :: _ :: _ :: _, _ => rfl

theorem readTrailing?_quote (text : List Char) :
    readTrailing? (text.map some ++ some '"' :: rest) = readTrailing? (text.map some) := by
  match text with
  | [] => rfl
  | [x] => simp [readTrailing?]
  | x :: y :: text =>
      by_cases hescape : x = '\\' ∧ y = 'u'
      · obtain ⟨rfl, rfl⟩ := hescape
        exact congrArg (Option.filter isTrailing) (readUnit?_quote rest text)
      · have hnone (more : List Symbol) : readTrailing? (some x :: some y :: more) = none := by
          unfold readTrailing?
          split
          next heq =>
            rw [List.cons.injEq, List.cons.injEq, Option.some.injEq, Option.some.injEq] at heq
            exact absurd ⟨heq.1, heq.2.1⟩ hescape
          next => rfl
        exact (hnone _).trans (hnone _).symm

theorem readEscape_half {text : List Char}
    (hunit : readUnit? [some a, some b, some c, some d] = some n)
    (halone : isLeading n = true ∧ readTrailing? (text.map some) = none ∨ isTrailing n = true) :
    readEscape (some 'u' :: some a :: some b :: some c :: some d ::
      (text.map some ++ some '"' :: rest)) = some (none, 5) := by
  have hread : readUnit? (some a :: some b :: some c :: some d ::
      (text.map some ++ some '"' :: rest)) = some n := hunit
  simp only [readEscape, hread, Option.bind_eq_bind, Option.bind_some, List.drop_succ_cons,
    List.drop_zero, readTrailing?_quote]
  rcases halone with ⟨hleading, hnone⟩ | htrailing
  · rw [if_pos hleading, hnone]
    rfl
  · have hleading : isLeading n = false := by
      simp only [isLeading, isTrailing, Bool.and_eq_true, decide_eq_true_eq,
        Bool.and_eq_false_iff, decide_eq_false_iff_not] at htrailing ⊢
      omega
    rw [hleading, if_neg Bool.false_ne_true, if_pos htrailing]
    rfl

end Escapes

theorem map_reverse_cons (c : Char) (read : List Char) (s : Option (List Char)) :
    (s.map fun cs => String.ofList ((c :: read).reverse ++ cs)) =
      (s.map (c :: ·)).map fun cs => String.ofList (read.reverse ++ cs) := by
  cases s <;> simp

/-- A string is read from behind its opening quote. -/
theorem readString_of_bodyText {s : Option (List Char)} {body : List Char} (h : BodyText s body)
    (sound : Bool) (read : List Char) (rest : List Symbol) :
    readString 0 sound read (body.map some ++ some '"' :: rest) =
      some ((if sound then s else none).map fun cs => String.ofList (read.reverse ++ cs),
        rest) := by
  induction h generalizing sound read with
  | nil => cases sound <;> simp [readString]
  | plain hquote hbackslash hcontrol h ih =>
      rw [List.map_cons, List.cons_append, readString, if_neg hquote, if_neg hbackslash,
        if_neg (Nat.not_lt.mpr hcontrol), ih, map_reverse_cons]
      cases sound <;> rfl
  | @short letter c s text hletter h ih =>
      rw [List.map_cons, List.cons_append, List.map_cons, List.cons_append, readString,
        if_neg (by decide), if_pos rfl, readEscape_short _ hletter]
      show readString 0 sound (c :: read) _ = _
      rw [ih, map_reverse_cons]
      cases sound <;> rfl
  | @unit a b c d n s text hunit hleading htrailing h ih =>
      simp only [List.map_cons, List.cons_append]
      rw [readString, if_neg (by decide), if_pos rfl, readEscape_unit _ hunit hleading htrailing]
      show readString 0 sound (Char.ofNat n :: read) _ = _
      rw [ih, map_reverse_cons]
      cases sound <;> rfl
  | @pair a b c d a' b' c' d' n m s text hunit hleading hunit' htrailing h ih =>
      simp only [List.map_cons, List.cons_append]
      rw [readString, if_neg (by decide), if_pos rfl,
        readEscape_pair _ hunit hleading hunit' htrailing]
      show readString 0 sound (Char.ofNat _ :: read) _ = _
      rw [ih, map_reverse_cons]
      cases sound <;> rfl
  | half hunit halone h ih =>
      simp only [List.map_cons, List.cons_append]
      rw [readString, if_neg (by decide), if_pos rfl, readEscape_half _ hunit halone]
      show readString 0 false read _ = _
      rw [ih]
      cases sound <;> rfl

/-! ## Numerals -/

/-- A run of digits is read up to where it ends. -/
theorem readDigits_append {digits : List Char} {rest : List Symbol}
    (hdigits : ∀ c ∈ digits, c.isDigit = true) (hrest : ∀ x ∈ rest.head?, isDigit x = false) :
    readDigits (digits.map some ++ rest) = (digits, rest) := by
  have hall : ∀ x ∈ digits.map some, isDigit x = true := by
    intro x hx
    obtain ⟨c, hc, rfl⟩ := List.mem_map.mp hx
    exact hdigits c hc
  have hstop : rest.takeWhile isDigit = [] ∧ rest.dropWhile isDigit = rest := by
    cases rest with
    | nil => exact ⟨rfl, rfl⟩
    | cons x rest =>
        have hx : ¬isDigit x = true := by simp [hrest x rfl]
        exact ⟨List.takeWhile_cons_of_neg hx, List.dropWhile_cons_of_neg hx⟩
  rw [readDigits, List.takeWhile_append_of_pos hall, hstop.1, List.append_nil,
    List.dropWhile_append_of_pos hall, hstop.2, List.reduceOption, List.filterMap_map]
  exact congrArg (·, rest) List.filterMap_some

theorem readIntegral?_append {digits : List Char} {rest : List Symbol} (hdigits : IsDigits digits)
    (hzero : digits.head? = some '0' → digits = ['0'])
    (hrest : ∀ x ∈ rest.head?, isDigit x = false) :
    readIntegral? (digits.map some ++ rest) = some (digits, rest) := by
  rw [readIntegral?, readDigits_append hdigits.2 hrest]
  split
  next heq => exact absurd (Prod.mk.inj heq).1 hdigits.1
  next heq =>
    obtain ⟨rfl, rfl⟩ := Prod.mk.inj heq
    rfl
  next hlone heq =>
    obtain ⟨rfl, rfl⟩ := Prod.mk.inj heq
    exact absurd (List.cons.inj (hzero rfl)).2 hlone
  next heq => rw [(Prod.mk.inj heq).1, (Prod.mk.inj heq).2]

theorem exists_digits_cons {digits : List Char} (h : IsDigits digits) :
    ∃ c cs, digits = c :: cs ∧ c.isDigit = true := by
  obtain ⟨c, cs, rfl⟩ := List.exists_cons_of_ne_nil h.1
  exact ⟨c, cs, rfl, h.2 c List.mem_cons_self⟩

theorem readSign_of_signText {minus : Bool} {sign digits : List Char} (hsign : SignText minus sign)
    (hdigits : IsDigits digits) (rest : List Symbol) :
    readSign (sign.map some ++ (digits.map some ++ rest)) = (minus, digits.map some ++ rest) := by
  cases hsign with
  | plus => rfl
  | minus => rfl
  | absent =>
      obtain ⟨c, cs, rfl, hdigit⟩ := exists_digits_cons hdigits
      rw [List.map_nil, List.nil_append, List.map_cons, List.cons_append]
      unfold readSign
      split
      next heq =>
        obtain rfl := Option.some.inj (List.cons.inj heq).1
        exact absurd hdigit (by decide)
      next heq =>
        obtain rfl := Option.some.inj (List.cons.inj heq).1
        exact absurd hdigit (by decide)
      next => rfl

section Numerals

variable {rest : List Symbol} (hrest : Closes rest)
include hrest

/-- What closes a value does not go on with a numeral. -/
theorem Closes.ends_numeral : ∀ x ∈ rest.head?,
    isDigit x = false ∧ x ≠ some '.' ∧ x ≠ some 'e' ∧ x ≠ some 'E' := by
  intro x hx
  rcases hrest x hx with hlayout | rfl | rfl | rfl
  · simp only [isLayout, Bool.or_eq_true, beq_iff_eq] at hlayout
    rcases hlayout with ((rfl | rfl) | rfl) | rfl <;> decide
  all_goals decide

theorem readExponent?_of_exponentText {exponent : Option (Bool × List Char)} {text : List Char}
    (h : ExponentText exponent text) :
    readExponent? (text.map some ++ rest) = some (exponent, rest) := by
  cases h with
  | absent =>
      have hends := hrest.ends_numeral
      cases rest with
      | nil => rfl
      | cons x rest =>
          obtain ⟨_, _, hsmall, hlarge⟩ := hends x rfl
          show readExponent? (x :: rest) = _
          unfold readExponent?
          split
          next heq => exact absurd (List.cons.inj heq).1 hsmall
          next heq => exact absurd (List.cons.inj heq).1 hlarge
          next => rfl
  | @present mark minus sign digits hmark hsign hdigits =>
      have hread : readDigits (digits.map some ++ rest) = (digits, rest) :=
        readDigits_append hdigits.2 fun x hx => (hrest.ends_numeral x hx).1
      have hpower : readPower? ((sign ++ digits).map some ++ rest) =
          some (some (minus, digits), rest) := by
        rw [List.map_append, List.append_assoc, readPower?, readSign_of_signText hsign hdigits]
        simp only [hread]
        obtain ⟨c, cs, rfl, _⟩ := exists_digits_cons hdigits
        rfl
      rcases hmark with rfl | rfl
      · exact hpower
      · exact hpower

/-- An exponent does not go on with the digits before it. -/
theorem ends_fraction {exponent : Option (Bool × List Char)} {text : List Char}
    (h : ExponentText exponent text) :
    ∀ x ∈ (text.map some ++ rest).head?, isDigit x = false ∧ x ≠ some '.' := by
  cases h with
  | absent =>
      intro x hx
      exact ⟨(hrest.ends_numeral x hx).1, (hrest.ends_numeral x hx).2.1⟩
  | present hmark =>
      intro x hx
      cases hx
      rcases hmark with rfl | rfl <;> decide

end Numerals

theorem readFraction?_of_fractionText {fraction text : List Char} {rest : List Symbol}
    (h : FractionText fraction text)
    (hrest : ∀ x ∈ rest.head?, isDigit x = false ∧ x ≠ some '.') :
    readFraction? (text.map some ++ rest) = some (fraction, rest) := by
  cases h with
  | absent =>
      cases rest with
      | nil => rfl
      | cons x rest =>
          show readFraction? (x :: rest) = _
          unfold readFraction?
          split
          next heq => exact absurd (List.cons.inj heq).1 (hrest x rfl).2
          next => rfl
  | present hdigits =>
      rw [List.map_cons, List.cons_append, readFraction?,
        readDigits_append hdigits.2 fun x hx => (hrest x hx).1]
      obtain ⟨c, cs, rfl, _⟩ := exists_digits_cons hdigits
      rfl

/-- A fraction does not go on with the digits before it. -/
theorem ends_integral {fraction text : List Char} {rest : List Symbol}
    (h : FractionText fraction text)
    (hrest : ∀ x ∈ rest.head?, isDigit x = false ∧ x ≠ some '.') :
    ∀ x ∈ (text.map some ++ rest).head?, isDigit x = false := by
  cases h with
  | absent => exact fun x hx => (hrest x hx).1
  | present =>
      intro x hx
      cases hx
      rfl

/-- A numeral is read up to where it ends. -/
theorem readNumeral?_of_numeralText {n : Numeral} {text : List Char} (h : NumeralText n text)
    {rest : List Symbol} (hrest : Closes rest) :
    readNumeral? (text.map some ++ rest) = some (n, rest) := by
  obtain @⟨negative, integral, fraction, fractionText, exponentText, exponent, hintegral, hzero,
    hfraction, hexponent⟩ := h
  have hend := ends_fraction hrest hexponent
  have hread := readIntegral?_append hintegral hzero (ends_integral hfraction hend)
  have hread' := readFraction?_of_fractionText hfraction hend
  have hread'' := readExponent?_of_exponentText hrest hexponent
  simp only [List.map_append, List.append_assoc]
  unfold readNumeral?
  cases negative with
  | true =>
      simp only [if_true, List.map_cons, List.map_nil, List.singleton_append, hread, hread',
        hread'', Option.bind_eq_bind, Option.bind_some]
      rfl
  | false =>
      -- The first digit is no minus sign.
      obtain ⟨c, cs, rfl, hdigit⟩ := exists_digits_cons hintegral
      have hminus : c ≠ '-' := by
        rintro rfl
        exact absurd hdigit (by decide)
      rw [if_neg Bool.false_ne_true, List.map_nil, List.nil_append]
      split
      next heq =>
        split at heq
        next hhead =>
          rw [List.map_cons, List.cons_append, List.cons.injEq, Option.some.injEq] at hhead
          exact absurd hhead.1 hminus
        next =>
          obtain ⟨rfl, rfl⟩ := Prod.mk.inj heq
          simp only [hread, hread', hread'', Option.bind_eq_bind, Option.bind_some]
          rfl

/-- A numeral begins with a minus sign or a digit. -/
theorem exists_numeralText_cons {n : Numeral} {text : List Char} (h : NumeralText n text) :
    ∃ c cs, text = c :: cs ∧ (c = '-' ∨ c.isDigit = true) := by
  obtain @⟨negative, _, _, _, _, _, hintegral, _, _, _⟩ := h
  cases negative with
  | true => exact ⟨_, _, rfl, .inl rfl⟩
  | false =>
      obtain ⟨c, cs, rfl, hdigit⟩ := exists_digits_cons hintegral
      exact ⟨c, _, rfl, .inr hdigit⟩

/-! ## Leaves -/

/-- A leaf is read as the tree that it is written for. -/
theorem readLeaf?_of_leafText {tree : Tree} {text : List Char} (h : LeafText tree text)
    {rest : List Symbol} (hrest : Closes rest) :
    readLeaf? (text.map some ++ rest) = some (tree, rest) := by
  cases h with
  | null => rfl
  | yes => rfl
  | no => rfl
  | @string s body h =>
      rw [List.map_cons, List.map_append, List.cons_append, List.append_assoc]
      show (readString 0 true [] (body.map some ++ some '"' :: rest) >>= _) = _
      rw [readString_of_bodyText h]
      cases s <;> rfl
  | @numeral n text h =>
      have hread := readNumeral?_of_numeralText h hrest
      obtain ⟨c, cs, rfl, hfirst⟩ := exists_numeralText_cons h
      have hother : c ≠ 'n' ∧ c ≠ 't' ∧ c ≠ 'f' ∧ c ≠ '"' := by
        refine ⟨?_, ?_, ?_, ?_⟩ <;> rintro rfl <;> revert hfirst <;> decide
      rw [List.map_cons, List.cons_append] at hread ⊢
      unfold readLeaf?
      split
      next heq => exact absurd (Option.some.inj (List.cons.inj heq).1) hother.1
      next heq => exact absurd (Option.some.inj (List.cons.inj heq).1) hother.2.1
      next heq => exact absurd (Option.some.inj (List.cons.inj heq).1) hother.2.2.1
      next heq => exact absurd (Option.some.inj (List.cons.inj heq).1) hother.2.2.2
      next =>
        simp only [hread, Option.bind_eq_bind, Option.bind_some]
        cases n.number? <;> rfl

/-- A leaf begins with neither layout nor a bracket. -/
theorem exists_leafText_cons {tree : Tree} {text : List Char} (h : LeafText tree text) :
    ∃ c cs, text = c :: cs ∧ isLayout (some c) = false ∧ c ≠ '[' ∧ c ≠ ']' ∧ c ≠ '\x7b' := by
  cases h with
  | null => exact ⟨_, _, rfl, by decide⟩
  | yes => exact ⟨_, _, rfl, by decide⟩
  | no => exact ⟨_, _, rfl, by decide⟩
  | string => exact ⟨_, _, rfl, by decide⟩
  | numeral h =>
      obtain ⟨c, cs, rfl, hfirst⟩ := exists_numeralText_cons h
      refine ⟨c, cs, rfl, ?_, ?_, ?_, ?_⟩
      · rw [isLayout, ← Bool.not_eq_true]
        simp only [Bool.or_eq_true, beq_iff_eq, Option.some.injEq]
        rintro (((rfl | rfl) | rfl) | rfl) <;> revert hfirst <;> decide
      all_goals
        rintro rfl
        revert hfirst
        decide

end DiceTable.Json
