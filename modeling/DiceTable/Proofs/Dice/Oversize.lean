import DiceTable.Proofs.Dice.Grammar

/-!
# Pieces that ask for too much

A piece may be written in digits throughout: as an amount, or as a group of dice with its sides
and, if it likes, with a count.  Such a piece asks for too much if it wants more dice than a group
may have, or if one of its numbers is larger than any amount (`Figures.AsksTooMuch`).

A formula fails for a term that is too large exactly if one of its pieces asks for too much and is
no group with more sides than a die can have (`fails_iff_asksTooMuch`).  These groups are skipped
whatever they ask for, and the rest of the formula is rolled without them
(`skipped_for_its_sides`).
-/

namespace DiceTable.Formula

variable {piece : List Char} {fault : DiceFault}

/-- The numbers of a piece that is written in digits. -/
inductive Figures where
  | group (count? : Option Nat) (sides : Nat)
  | amount (value : Nat)

/-- The piece is written in digits, with these numbers. -/
inductive Spells (piece : List Char) : Figures → Prop
  | uncounted {negative : Bool} {behind : List Char} {sides : Nat}
      (hsign : IsSigned piece negative ('d' :: behind)) (hsides : IsNumeral behind sides) :
      Spells piece (.group none sides)
  | counted {negative : Bool} {before behind : List Char} {count sides : Nat}
      (hsign : IsSigned piece negative (before ++ 'd' :: behind)) (hcount : IsNumeral before count)
      (hsides : IsNumeral behind sides) : Spells piece (.group (some count) sides)
  | amount {negative : Bool} {body : List Char} {value : Nat} (hsign : IsSigned piece negative body)
      (hvalue : IsNumeral body value) : Spells piece (.amount value)

namespace Figures

/-- Whether there are too many dice, or a number beyond all amounts.  A group without sides asks for
nothing. -/
def AsksTooMuch : Figures → Prop
  | .group count? sides =>
    sides ≠ 0 ∧
      ((∃ count ∈ count?, Term.maxCount < count ∨ Word.maxSigned64 < count) ∨
        Word.maxSigned64 < sides)
  | .amount value => Word.maxSigned64 < value

/-- Whether a die can have the sides of the group, if it is one. -/
def HasSidesOfDie : Figures → Prop
  | .group _ sides => sides ≤ Word.maxUnsigned32
  | .amount _ => True

end Figures

theorem exceeds_of_spells {figures : Figures} (h : Spells piece figures)
    (hlarge : figures.AsksTooMuch) (hsides : figures.HasSidesOfDie) :
    ∃ fault, Exceeds piece fault := by
  cases h with
  | amount hsign hvalue => exact ⟨_, .flat hsign hvalue hlarge⟩
  | uncounted hsign hnumeral =>
      -- Sides that a die can have are no number beyond all amounts.
      obtain ⟨-, ⟨_, ⟨⟩, -⟩ | hbeyond⟩ := hlarge
      have hfits : (_ : Nat) ≤ Word.maxUnsigned32 := hsides
      simp only [Word.maxSigned64, Word.maxUnsigned32] at hbeyond hfits
      omega
  | counted hsign hcount hnumeral =>
      obtain ⟨hpos, hlarge⟩ := hlarge
      have hfits : (_ : Nat) ≤ Word.maxUnsigned32 := hsides
      have hgroup := IsGroup.intro _ (fun hmem => (hcount.ne_of_mem hmem).2 rfl) hnumeral
        ⟨Nat.one_le_iff_ne_zero.mpr hpos, hfits⟩
      refine ⟨_, .dice hsign hgroup hcount ?_⟩
      simp only [Option.mem_some_iff, exists_eq_left', Word.maxSigned64, Word.maxUnsigned32,
        Term.maxCount] at hlarge hfits ⊢
      omega

theorem exists_spells_of_exceeds (h : Exceeds piece fault) :
    ∃ figures, Spells piece figures ∧ figures.AsksTooMuch ∧ figures.HasSidesOfDie := by
  cases h with
  | flat hsign hvalue hlarge => exact ⟨_, .amount hsign hvalue, hlarge, trivial⟩
  | dice hsign hgroup hcount hmany =>
      obtain ⟨behind, hfirst, hnumeral, hpos, hsmall⟩ := hgroup
      refine ⟨_, .counted hsign hcount hnumeral, ⟨Nat.one_le_iff_ne_zero.mp hpos, .inl ?_⟩, hsmall⟩
      exact ⟨_, rfl, .inl hmany⟩

/-- **A formula fails for what it asks too much.**  Whatever its other pieces are, a formula is
refused for a term that is too large if one of its pieces, written in digits, asks for too much,
unless this is a group with more sides than a die can have; and it is refused so in no other
case. -/
theorem fails_iff_asksTooMuch (formula : String) :
    (∃ fault, parse formula = .error ⟨formula, fault⟩ ∧ fault.IsOversize) ↔
      ∃ piece ∈ pieces (normalize formula), ∃ figures, Spells piece figures ∧
        figures.AsksTooMuch ∧ figures.HasSidesOfDie := by
  have hfault : (∃ fault, parse formula = .error ⟨formula, fault⟩ ∧ fault.IsOversize) ↔
      ∃ piece ∈ pieces (normalize formula), ∃ fault, Exceeds piece fault := by
    rw [← exists_firstFault_iff]
    refine exists_congr fun fault => ?_
    rw [parse_eq_oversize_iff, gathered,
      gather_eq_error_iff (isCut_pieces (normalize formula)).isSign_tail]
  rw [hfault]
  refine exists_congr fun piece => and_congr_right fun _ => ?_
  constructor
  · rintro ⟨fault, h⟩
    exact exists_spells_of_exceeds h
  · rintro ⟨figures, hspells, hlarge, hsides⟩
    exact exceeds_of_spells hspells hlarge hsides

/-- Too many sides hide what a group asks for: neither a number beyond all amounts nor too many dice
make these formulas fail, and a single die is rolled for them. -/
theorem skipped_for_its_sides :
    ((∃ piece ∈ pieces (normalize "1d6+1d9223372036854775808"), ∃ figures,
        Spells piece figures ∧ figures.AsksTooMuch) ∧
      parse "1d6+1d9223372036854775808" = .ok [.dice 1 6 false]) ∧
    (∃ piece ∈ pieces (normalize "1d6+1001d4294967296"), ∃ figures,
        Spells piece figures ∧ figures.AsksTooMuch) ∧
      parse "1d6+1001d4294967296" = .ok [.dice 1 6 false] := by
  have hspells (before behind : List Char) (count sides : Nat)
      (hcount : digits? before = some count) (hsides : digits? behind = some sides) :
      Spells ('+' :: (before ++ 'd' :: behind)) (.group (some count) sides) :=
    .counted (.plus _) (digits?_eq_some_iff.mp hcount) (digits?_eq_some_iff.mp hsides)
  have hsides : Spells ('+' :: ("1".toList ++ 'd' :: "9223372036854775808".toList))
      (.group (some 1) 9223372036854775808) :=
    hspells _ _ _ _ (by decide +kernel) (by decide +kernel)
  have hcount : Spells ('+' :: ("1001".toList ++ 'd' :: "4294967296".toList))
      (.group (some 1001) 4294967296) :=
    hspells _ _ _ _ (by decide +kernel) (by decide +kernel)
  refine ⟨⟨⟨_, ?_, _, hsides, ?_⟩, by decide +kernel⟩, ⟨_, ?_, _, hcount, ?_⟩, by decide +kernel⟩
  · decide +kernel
  · exact ⟨by decide, .inr (by decide)⟩
  · decide +kernel
  · exact ⟨by decide, .inl ⟨_, rfl, .inl (by decide)⟩⟩

end DiceTable.Formula
