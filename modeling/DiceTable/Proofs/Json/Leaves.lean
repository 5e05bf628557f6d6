import DiceTable.Proofs.Json.Grammar

/-!
# What the readers of leaves take

What a reader takes from the front of a text is one of the texts of the part that it reads, and what
it leaves is the rest of the same text.  This holds of layout, of strings with their escapes, of
numerals with their parts, and so of leaves (`exists_of_readLeaf?`): the other direction of
`readLeaf?_of_leafText`.
-/

namespace DiceTable.Json

open DiceTable.Text.Utf8 (Symbol)

/-! ## Layout -/

/-- A text that begins with a given character. -/
theorem exists_of_map_eq_cons {cs : List Char} {c : Char} {rest : List Symbol}
    (h : cs.map some = some c :: rest) : ∃ after, cs = c :: after ∧ rest = after.map some := by
  obtain ⟨d, after, rfl, hd, rfl⟩ := List.map_eq_cons_iff.mp h
  exact ⟨after, by rw [Option.some.inj hd], rfl⟩

/-- Layout is a prefix of the text. -/
theorem exists_skipLayout (cs : List Char) :
    ∃ before after, cs = before ++ after ∧ IsLayout before ∧
      skipLayout (cs.map some) = after.map some := by
  induction cs with
  | nil => exact ⟨[], [], rfl, isLayout_nil, rfl⟩
  | cons c cs ih =>
      by_cases hc : isLayout (some c) = true
      · obtain ⟨before, after, rfl, hbefore, hskip⟩ := ih
        refine ⟨c :: before, after, rfl, List.forall_mem_cons.mpr ⟨hc, hbefore⟩, ?_⟩
        rw [List.map_cons, skipLayout, List.dropWhile_cons_of_pos hc]
        exact hskip
      · exact ⟨[], c :: cs, rfl, isLayout_nil, skipLayout_cons (by simpa using hc)⟩

/-- The character behind the layout. -/
theorem exists_of_skipLayout_eq_cons {cs : List Char} {c : Char} {rest : List Symbol}
    (h : skipLayout (cs.map some) = some c :: rest) :
    ∃ before after, cs = before ++ c :: after ∧ IsLayout before ∧ rest = after.map some := by
  obtain ⟨before, after, rfl, hbefore, hskip⟩ := exists_skipLayout cs
  rw [hskip] at h
  obtain ⟨after, rfl, hrest⟩ := exists_of_map_eq_cons h
  exact ⟨before, after, rfl, hbefore, hrest⟩

/-! ## Strings -/

/-- The four digits of a unit. -/
theorem exists_of_readUnit? {cs : List Char} {n : Nat} (h : readUnit? (cs.map some) = some n) :
    ∃ a b c d after, cs = a :: b :: c :: d :: after ∧
      readUnit? [some a, some b, some c, some d] = some n := by
  match cs with
  | [] => cases h
  | [_] => cases h
  | [_, _] => cases h
  | [_, _, _] => cases h
  | a :: b :: c :: d :: after => exact ⟨a, b, c, d, after, rfl, h⟩

theorem exists_of_readTrailing? {cs : List Char} {m : Nat}
    (h : readTrailing? (cs.map some) = some m) :
    ∃ a b c d after, cs = '\\' :: 'u' :: a :: b :: c :: d :: after ∧
      readUnit? [some a, some b, some c, some d] = some m ∧ isTrailing m = true := by
  unfold readTrailing? at h
  split at h
  next rest heq =>
    match cs with
    | [] => cases heq
    | [_] => cases heq
    | x :: y :: cs =>
        rw [List.map_cons, List.map_cons, List.cons.injEq, List.cons.injEq, Option.some.injEq,
          Option.some.injEq] at heq
        obtain ⟨rfl, rfl, rfl⟩ := heq
        obtain ⟨hunit, htrailing⟩ := Option.filter_eq_some_iff.mp h
        obtain ⟨a, b, c, d, after, rfl, hunit⟩ := exists_of_readUnit? hunit
        exact ⟨a, b, c, d, after, rfl, hunit, htrailing⟩
  next => cases h

/-- What an escape takes, and what it adds to the string. -/
theorem exists_of_readEscape {cs : List Char} {denoted : Option Char} {taken : Nat}
    (h : readEscape (cs.map some) = some (denoted, taken)) :
    ∃ escape after, cs = escape ++ after ∧ taken = escape.length ∧
      ∀ {s : Option (List Char)} {text more : List Char}, after = text ++ '"' :: more →
        BodyText s text →
        BodyText (denoted.bind fun c => s.map (c :: ·)) ('\\' :: (escape ++ text)) := by
  cases cs with
  | nil => cases h
  | cons letter cs =>
      by_cases hletter : letter = 'u'
      · subst hletter
        obtain ⟨n, hunit, hdenoted⟩ := Option.bind_eq_some_iff.mp h
        obtain ⟨a, b, c, d, after, rfl, hunit⟩ := exists_of_readUnit? hunit
        by_cases hleading : isLeading n = true
        · rw [if_pos hleading] at hdenoted
          cases hfollowing : readTrailing? (after.map some) with
          | some m =>
              have hdrop : ((a :: b :: c :: d :: after).map some).drop 4 = after.map some := rfl
              rw [hdrop, hfollowing] at hdenoted
              obtain ⟨rfl, rfl⟩ := Prod.mk.inj (Option.some.inj hdenoted)
              obtain ⟨a', b', c', d', after, rfl, hunit', htrailing⟩ :=
                exists_of_readTrailing? hfollowing
              refine ⟨['u', a, b, c, d, '\\', 'u', a', b', c', d'], after, rfl, rfl, ?_⟩
              intro s text more _ htext
              exact .pair hunit hleading hunit' htrailing htext
          | none =>
              have hdrop : ((a :: b :: c :: d :: after).map some).drop 4 = after.map some := rfl
              rw [hdrop, hfollowing] at hdenoted
              obtain ⟨rfl, rfl⟩ := Prod.mk.inj (Option.some.inj hdenoted)
              refine ⟨['u', a, b, c, d], after, rfl, rfl, ?_⟩
              rintro s text more rfl htext
              rw [List.map_append, List.map_cons, readTrailing?_quote] at hfollowing
              exact .half hunit (.inl ⟨hleading, hfollowing⟩) htext
        · rw [if_neg hleading] at hdenoted
          refine ⟨['u', a, b, c, d], after, rfl, ?_⟩
          by_cases htrailing : isTrailing n = true
          · rw [if_pos htrailing] at hdenoted
            obtain ⟨rfl, rfl⟩ := Prod.mk.inj (Option.some.inj hdenoted)
            exact ⟨rfl, fun _ htext => .half hunit (.inr htrailing) htext⟩
          · rw [if_neg htrailing] at hdenoted
            obtain ⟨rfl, rfl⟩ := Prod.mk.inj (Option.some.inj hdenoted)
            exact ⟨rfl, fun _ htext => .unit hunit (by simpa using hleading)
              (by simpa using htrailing) htext⟩
      · have hshort : readEscape ((letter :: cs).map some) =
            (shortEscape? letter).bind fun c => some (some c, 1) := by
          rw [List.map_cons]
          unfold readEscape
          split
          next heq => exact absurd (Option.some.inj (List.cons.inj heq).1) hletter
          next heq =>
            obtain rfl := Option.some.inj (List.cons.inj heq).1
            rfl
          next hother => exact absurd rfl (hother letter _)
        rw [hshort] at h
        obtain ⟨c, hc, hdenoted⟩ := Option.bind_eq_some_iff.mp h
        obtain ⟨rfl, rfl⟩ := Prod.mk.inj (Option.some.inj hdenoted)
        exact ⟨[letter], cs, rfl, rfl, fun _ htext => .short hc htext⟩

/-- To skip symbols is to drop them. -/
theorem readString_skip (skip : Nat) (sound : Bool) (read : List Char) (text : List Symbol)
    (h : skip ≤ text.length) :
    readString skip sound read text = readString 0 sound read (text.drop skip) := by
  induction skip generalizing text with
  | zero => rfl
  | succ skip ih =>
      cases text with
      | nil => simp at h
      | cons x text => exact ih text (Nat.le_of_succ_le_succ h)

/-- A string is read up to its closing quote. -/
theorem exists_of_readString {cs : List Char} {sound : Bool} {read : List Char}
    {denoted : Option String} {rest : List Symbol}
    (h : readString 0 sound read (cs.map some) = some (denoted, rest)) :
    ∃ (s : Option (List Char)) (body after : List Char), cs = body ++ '"' :: after ∧
      BodyText s body ∧ rest = after.map some ∧
        denoted = (if sound then s else none).map fun cs => String.ofList (read.reverse ++ cs) := by
  induction hlength : cs.length using Nat.strongRecOn generalizing cs sound read with
  | ind length ih =>
      subst hlength
      cases cs with
      | nil => cases h
      | cons c cs =>
          rw [List.map_cons, readString] at h
          by_cases hquote : c = '"'
          · rw [if_pos hquote] at h
            obtain ⟨rfl, rfl⟩ := Prod.mk.inj (Option.some.inj h)
            refine ⟨some [], [], cs, by rw [hquote]; rfl, .nil, rfl, ?_⟩
            cases sound <;> simp
          rw [if_neg hquote] at h
          by_cases hbackslash : c = '\\'
          · rw [if_pos hbackslash] at h
            subst hbackslash
            cases hescape : readEscape (cs.map some) with
            | none =>
                rw [hescape] at h
                cases h
            | some result =>
                obtain ⟨unit, taken⟩ := result
                obtain ⟨escape, after, rfl, rfl, htexts⟩ := exists_of_readEscape hescape
                have hdrop : ((escape ++ after).map some).drop escape.length = after.map some := by
                  simp
                have hlong : escape.length ≤ ((escape ++ after).map some).length := by simp
                have hless : after.length < ('\\' :: (escape ++ after)).length := by
                  rw [List.length_cons, List.length_append]
                  omega
                rw [hescape] at h
                cases unit with
                | some d =>
                    simp only [readString_skip _ _ _ _ hlong, hdrop] at h
                    obtain ⟨s, body, after, rfl, hbody, hrest, hdenoted⟩ := ih _ hless h rfl
                    refine ⟨s.map (d :: ·), '\\' :: (escape ++ body), after, by simp,
                      htexts rfl hbody, hrest, ?_⟩
                    rw [hdenoted]
                    cases sound
                    · rfl
                    · exact map_reverse_cons d read s
                | none =>
                    simp only [readString_skip _ _ _ _ hlong, hdrop] at h
                    obtain ⟨s, body, after, rfl, hbody, hrest, hdenoted⟩ := ih _ hless h rfl
                    refine ⟨none, '\\' :: (escape ++ body), after, by simp, htexts rfl hbody,
                      hrest, ?_⟩
                    rw [hdenoted]
                    cases sound <;> rfl
          rw [if_neg hbackslash] at h
          by_cases hcontrol : c.toNat < 0x20
          · rw [if_pos hcontrol] at h
            cases h
          · rw [if_neg hcontrol] at h
            obtain ⟨s, body, after, rfl, hbody, hrest, hdenoted⟩ := ih _ (Nat.lt_succ_self _) h rfl
            refine ⟨s.map (c :: ·), c :: body, after, rfl,
              .plain hquote hbackslash (Nat.not_lt.mp hcontrol) hbody, hrest, ?_⟩
            rw [hdenoted]
            cases sound
            · rfl
            · exact map_reverse_cons c read s

/-! ## Numerals -/

theorem exists_of_readDigits {cs digits : List Char} {rest : List Symbol}
    (h : readDigits (cs.map some) = (digits, rest)) :
    ∃ after, cs = digits ++ after ∧ (∀ c ∈ digits, c.isDigit = true) ∧ rest = after.map some := by
  induction cs generalizing digits with
  | nil =>
      obtain ⟨rfl, rfl⟩ := Prod.mk.inj h
      exact ⟨[], rfl, by simp, rfl⟩
  | cons c cs ih =>
      by_cases hc : c.isDigit = true
      · have hdigit : isDigit (some c) = true := hc
        rw [List.map_cons, readDigits, List.takeWhile_cons_of_pos hdigit,
          List.dropWhile_cons_of_pos hdigit, List.reduceOption_cons_of_some] at h
        obtain ⟨rfl, rfl⟩ := Prod.mk.inj h
        obtain ⟨after, hcs, hdigits, hrest⟩ := ih rfl
        refine ⟨after, ?_, List.forall_mem_cons.mpr ⟨hc, hdigits⟩, hrest⟩
        rw [List.cons_append, ← hcs]
      · have hdigit : ¬isDigit (some c) = true := hc
        rw [List.map_cons, readDigits, List.takeWhile_cons_of_neg hdigit,
          List.dropWhile_cons_of_neg hdigit] at h
        obtain ⟨rfl, rfl⟩ := Prod.mk.inj h
        exact ⟨c :: cs, rfl, by simp [List.reduceOption], rfl⟩

theorem exists_of_readIntegral? {cs digits : List Char} {rest : List Symbol}
    (h : readIntegral? (cs.map some) = some (digits, rest)) :
    ∃ after, cs = digits ++ after ∧ IsDigits digits ∧
      (digits.head? = some '0' → digits = ['0']) ∧ rest = after.map some := by
  unfold readIntegral? at h
  split at h
  next => cases h
  next heq =>
    obtain ⟨rfl, rfl⟩ := Prod.mk.inj (Option.some.inj h)
    obtain ⟨after, hcs, hdigits, hrest⟩ := exists_of_readDigits heq
    exact ⟨after, hcs, ⟨by simp, hdigits⟩, fun _ => rfl, hrest⟩
  next => cases h
  next hnone _ hzero heq =>
    obtain ⟨rfl, rfl⟩ := Prod.mk.inj (Option.some.inj h)
    obtain ⟨after, hcs, hdigits, hrest⟩ := exists_of_readDigits heq
    refine ⟨after, hcs, ⟨hnone, hdigits⟩, fun hhead => ?_, hrest⟩
    obtain ⟨tail, htail⟩ := List.head?_eq_some_iff.mp hhead
    exact absurd htail (hzero tail)

/-- One digit or more, and what the reader left of them. -/
theorem exists_of_readDigits_ne_nil {cs digits : List Char} {rest : List Symbol}
    (h : readDigits (cs.map some) = (digits, rest)) (hne : digits ≠ []) :
    ∃ after, cs = digits ++ after ∧ IsDigits digits ∧ rest = after.map some := by
  obtain ⟨after, hcs, hdigits, hrest⟩ := exists_of_readDigits h
  exact ⟨after, hcs, ⟨hne, hdigits⟩, hrest⟩

theorem exists_of_readFraction? {cs fraction : List Char} {rest : List Symbol}
    (h : readFraction? (cs.map some) = some (fraction, rest)) :
    ∃ text after, cs = text ++ after ∧ FractionText fraction text ∧ rest = after.map some := by
  unfold readFraction? at h
  split at h
  next more heq =>
    obtain ⟨cs, rfl, rfl⟩ := exists_of_map_eq_cons heq
    cases hread : readDigits (cs.map some) with
    | mk digits left =>
        rw [hread] at h
        cases digits with
        | nil => cases h
        | cons d digits =>
            obtain ⟨rfl, rfl⟩ := Prod.mk.inj (Option.some.inj h)
            obtain ⟨after, rfl, hdigits, hrest⟩ := exists_of_readDigits_ne_nil hread (by simp)
            exact ⟨'.' :: d :: digits, after, rfl, .present hdigits, hrest⟩
  next =>
    obtain ⟨rfl, rfl⟩ := Prod.mk.inj (Option.some.inj h)
    exact ⟨[], cs, rfl, .absent, rfl⟩

theorem exists_readSign (cs : List Char) :
    ∃ minus sign after, cs = sign ++ after ∧ SignText minus sign ∧
      readSign (cs.map some) = (minus, after.map some) := by
  cases hread : readSign (cs.map some) with
  | mk minus rest =>
      unfold readSign at hread
      split at hread
      next heq =>
        obtain ⟨after, rfl, rfl⟩ := exists_of_map_eq_cons heq
        obtain ⟨rfl, rfl⟩ := Prod.mk.inj hread
        exact ⟨true, ['-'], after, rfl, .minus, rfl⟩
      next heq =>
        obtain ⟨after, rfl, rfl⟩ := exists_of_map_eq_cons heq
        obtain ⟨rfl, rfl⟩ := Prod.mk.inj hread
        exact ⟨false, ['+'], after, rfl, .plus, rfl⟩
      next =>
        obtain ⟨rfl, rfl⟩ := Prod.mk.inj hread
        exact ⟨false, [], cs, rfl, .absent, rfl⟩

theorem exists_of_readPower? {cs : List Char} {exponent : Option (Bool × List Char)}
    {rest : List Symbol} (h : readPower? (cs.map some) = some (exponent, rest)) {mark : Char}
    (hmark : mark = 'e' ∨ mark = 'E') :
    ∃ text after, mark :: cs = text ++ after ∧ ExponentText exponent text ∧
      rest = after.map some := by
  obtain ⟨minus, sign, after, rfl, hsign, hread⟩ := exists_readSign cs
  simp only [readPower?, hread] at h
  cases hdigits : readDigits (after.map some) with
  | mk digits left =>
      rw [hdigits] at h
      cases digits with
      | nil => cases h
      | cons d digits =>
          obtain ⟨rfl, rfl⟩ := Prod.mk.inj (Option.some.inj h)
          obtain ⟨after, rfl, hdigits, hrest⟩ := exists_of_readDigits_ne_nil hdigits (by simp)
          exact ⟨mark :: (sign ++ d :: digits), after, by simp, .present hmark hsign hdigits, hrest⟩

theorem exists_of_readExponent? {cs : List Char} {exponent : Option (Bool × List Char)}
    {rest : List Symbol} (h : readExponent? (cs.map some) = some (exponent, rest)) :
    ∃ text after, cs = text ++ after ∧ ExponentText exponent text ∧ rest = after.map some := by
  unfold readExponent? at h
  split at h
  next heq =>
    obtain ⟨cs, rfl, rfl⟩ := exists_of_map_eq_cons heq
    exact exists_of_readPower? h (.inl rfl)
  next heq =>
    obtain ⟨cs, rfl, rfl⟩ := exists_of_map_eq_cons heq
    exact exists_of_readPower? h (.inr rfl)
  next =>
    obtain ⟨rfl, rfl⟩ := Prod.mk.inj (Option.some.inj h)
    exact ⟨[], cs, rfl, .absent, rfl⟩

/-- The sign of a numeral, and its other parts one after the other. -/
theorem exists_of_readNumeral? {cs : List Char} {n : Numeral} {rest : List Symbol}
    (h : readNumeral? (cs.map some) = some (n, rest)) :
    ∃ text after, cs = text ++ after ∧ NumeralText n text ∧ rest = after.map some := by
  unfold readNumeral? at h
  split at h
  next negative start heq =>
    have hsign : ∃ unsigned, cs = (if negative then ['-'] else []) ++ unsigned ∧
        start = unsigned.map some := by
      split at heq
      next heq' =>
        obtain ⟨unsigned, rfl, rfl⟩ := exists_of_map_eq_cons heq'
        obtain ⟨rfl, rfl⟩ := Prod.mk.inj heq
        exact ⟨unsigned, rfl, rfl⟩
      next =>
        obtain ⟨rfl, rfl⟩ := Prod.mk.inj heq
        exact ⟨cs, rfl, rfl⟩
    obtain ⟨unsigned, rfl, rfl⟩ := hsign
    obtain ⟨⟨integral, behindIntegral⟩, hread, h⟩ := Option.bind_eq_some_iff.mp h
    obtain ⟨more, rfl, hintegral, hzero, rfl⟩ := exists_of_readIntegral? hread
    obtain ⟨⟨fraction, behindFraction⟩, hread, h⟩ := Option.bind_eq_some_iff.mp h
    obtain ⟨fractionText, more, rfl, hfraction, rfl⟩ := exists_of_readFraction? hread
    obtain ⟨⟨exponent, behindExponent⟩, hread, h⟩ := Option.bind_eq_some_iff.mp h
    obtain ⟨exponentText, more, rfl, hexponent, rfl⟩ := exists_of_readExponent? hread
    obtain ⟨rfl, rfl⟩ := Prod.mk.inj (Option.some.inj h)
    exact ⟨_, more, by simp, .intro hintegral hzero hfraction hexponent, rfl⟩

/-! ## Leaves -/

theorem exists_of_readLetters? {letters cs : List Char} {rest : List Symbol}
    (h : readLetters? letters (cs.map some) = some rest) :
    ∃ after, cs = letters ++ after ∧ rest = after.map some := by
  induction letters generalizing cs with
  | nil => exact ⟨cs, rfl, (Option.some.inj h).symm⟩
  | cons c letters ih =>
      cases cs with
      | nil => cases h
      | cons d cs =>
          rw [List.map_cons, readLetters?] at h
          by_cases hc : c = d
          · rw [if_pos hc] at h
            obtain ⟨after, rfl, hrest⟩ := ih h
            exact ⟨after, by rw [hc]; rfl, hrest⟩
          · rw [if_neg hc] at h
            cases h

/-- A leaf is read from one of its texts. -/
theorem exists_of_readLeaf? {cs : List Char} {tree : Tree} {rest : List Symbol}
    (h : readLeaf? (cs.map some) = some (tree, rest)) :
    ∃ text after, cs = text ++ after ∧ LeafText tree text ∧ rest = after.map some := by
  have hliteral {literal : Tree} {c : Char} {letters cs : List Char}
      (hread : (readLetters? letters (cs.map some)).map (literal, ·) = some (tree, rest))
      (htext : LeafText literal (c :: letters)) :
      ∃ text after, c :: cs = text ++ after ∧ LeafText tree text ∧ rest = after.map some := by
    obtain ⟨left, hleft, heq⟩ := Option.map_eq_some_iff.mp hread
    obtain ⟨rfl, rfl⟩ := Prod.mk.inj heq
    obtain ⟨after, rfl, hrest⟩ := exists_of_readLetters? hleft
    exact ⟨c :: letters, after, rfl, htext, hrest⟩
  unfold readLeaf? at h
  split at h
  next heq =>
    obtain ⟨cs, rfl, rfl⟩ := exists_of_map_eq_cons heq
    exact hliteral h .null
  next heq =>
    obtain ⟨cs, rfl, rfl⟩ := exists_of_map_eq_cons heq
    exact hliteral h .yes
  next heq =>
    obtain ⟨cs, rfl, rfl⟩ := exists_of_map_eq_cons heq
    exact hliteral h .no
  next heq =>
    obtain ⟨cs, rfl, rfl⟩ := exists_of_map_eq_cons heq
    obtain ⟨⟨denoted, left⟩, hread, h⟩ := Option.bind_eq_some_iff.mp h
    obtain ⟨s, body, after, rfl, hbody, rfl, rfl⟩ := exists_of_readString hread
    obtain ⟨rfl, rfl⟩ := Prod.mk.inj (Option.some.inj h)
    refine ⟨'"' :: (body ++ ['"']), after, by simp, ?_, rfl⟩
    have htext := LeafText.string hbody
    cases s <;> exact htext
  next =>
    obtain ⟨⟨n, left⟩, hread, h⟩ := Option.bind_eq_some_iff.mp h
    obtain ⟨text, after, rfl, htext, rfl⟩ := exists_of_readNumeral? hread
    obtain ⟨rfl, rfl⟩ := Prod.mk.inj (Option.some.inj h)
    refine ⟨text, after, rfl, ?_, rfl⟩
    have hleaf := LeafText.numeral htext
    cases hnumber : n.number? with
    | none =>
        rw [hnumber] at hleaf
        exact hleaf
    | some number =>
        rw [hnumber] at hleaf
        exact hleaf

end DiceTable.Json
