import DiceTable.Proofs.Dice.Grammar

/-!
# Formulas put together

A formula may be read in two parts if the second part begins with a sign: its terms are those of
both parts, a part without any term adds nothing, and if there is a term that is too large, the
leftmost one decides (`ReadsAsBoth`).  A part that does not begin with a sign is joined with a
plus sign (`reads_as_both`).

## Strategy

Normalizing goes character by character, cutting stops before a sign, and gathering goes from left
to right, so that each of them takes the two parts one after the other (`gathered_append`).  The
plus sign in front of the second part lengthens its first piece, but what this piece is read as
stays the same (`gather_plus_cons`).
-/

namespace DiceTable.Formula

variable {a b whole : String} {cs : List Char}

/-- The formula has no term, and none that is too large: it is empty, or nothing in it is usable. -/
def IsBarren (formula : String) : Prop :=
  parse formula = .error ⟨formula, .empty⟩ ∨ parse formula = .error ⟨formula, .unusable⟩

/-- Whether the formula, but for its blanks, begins with a sign. -/
def startsWithSign (formula : String) : Bool := (normalize formula).head?.any isSign

/-- The formula `whole` is read as `a` and `b` are, one after the other. -/
structure ReadsAsBoth (a b whole : String) : Prop where
  both : ∀ terms others, parse a = .ok terms → parse b = .ok others →
    parse whole = .ok (terms ++ others)
  left : ∀ terms, parse a = .ok terms → IsBarren b → parse whole = .ok terms
  right : ∀ terms, IsBarren a → parse b = .ok terms → parse whole = .ok terms
  neither : IsBarren a → IsBarren b → parse whole = .error ⟨whole, .unusable⟩
  leftFault : ∀ fault, fault.IsOversize → parse a = .error ⟨a, fault⟩ →
    parse whole = .error ⟨whole, fault⟩
  rightFault : ∀ fault, fault.IsOversize → parse b = .error ⟨b, fault⟩ →
    (∀ other, other.IsOversize → parse a ≠ .error ⟨a, other⟩) → parse whole = .error ⟨whole, fault⟩

theorem isBarren_iff {formula : String} : IsBarren formula ↔ gathered formula = .ok [] := by
  rw [IsBarren, parse_eq_empty_iff, parse_eq_unusable_iff]
  constructor
  · rintro (hnil | ⟨-, h⟩)
    · rw [gathered, hnil]
      rfl
    · exact h
  · exact fun h => (em _).imp_right fun hsome => ⟨hsome, h⟩

/-- Terms are gathered unless one is too large. -/
theorem gathered_cases (formula : String) :
    (∃ terms, gathered formula = .ok terms) ∨
      ∃ fault, fault.IsOversize ∧ parse formula = .error ⟨formula, fault⟩ := by
  cases h : gathered formula with
  | ok terms => exact .inl ⟨terms, rfl⟩
  | error fault =>
      obtain ⟨hparse, hoversize⟩ := parse_eq_oversize_iff.mpr h
      exact .inr ⟨fault, hoversize, hparse⟩

/-- It is enough that the terms of both parts are gathered one after the other. -/
theorem readsAsBoth_of_gathered (hsome : normalize whole ≠ [])
    (h : gathered whole = (do
      let terms ← gathered a
      let others ← gathered b
      return terms ++ others)) : ReadsAsBoth a b whole where
  both := by
    intro terms others ha hb
    obtain ⟨hne, ha⟩ := parse_eq_ok_iff.mp ha
    obtain ⟨-, hb⟩ := parse_eq_ok_iff.mp hb
    rw [ha, hb] at h
    exact parse_eq_ok_iff.mpr ⟨List.append_ne_nil_of_left_ne_nil hne _, h⟩
  left := by
    intro terms ha hb
    obtain ⟨hne, ha⟩ := parse_eq_ok_iff.mp ha
    rw [ha, isBarren_iff.mp hb] at h
    exact parse_eq_ok_iff.mpr ⟨hne, h.trans (congrArg Except.ok (List.append_nil terms))⟩
  right := by
    intro terms ha hb
    obtain ⟨hne, hb⟩ := parse_eq_ok_iff.mp hb
    rw [isBarren_iff.mp ha, hb] at h
    exact parse_eq_ok_iff.mpr ⟨hne, h⟩
  neither := by
    intro ha hb
    rw [isBarren_iff.mp ha, isBarren_iff.mp hb] at h
    exact parse_eq_unusable_iff.mpr ⟨hsome, h⟩
  leftFault := by
    intro fault hoversize ha
    rw [parse_eq_oversize_iff.mp ⟨ha, hoversize⟩] at h
    exact (parse_eq_oversize_iff.mpr h).1
  rightFault := by
    intro fault hoversize hb ha
    rcases gathered_cases a with ⟨terms, hterms⟩ | ⟨other, hother, hfault⟩
    · rw [hterms, parse_eq_oversize_iff.mp ⟨hb, hoversize⟩] at h
      exact (parse_eq_oversize_iff.mpr h).1
    · exact absurd hfault (ha other hother)

/-! ## Joining at a sign -/

theorem normalize_append (a b : String) : normalize (a ++ b) = normalize a ++ normalize b := by
  rw [normalize, String.toList_append, List.filter_append, List.flatMap_append]
  rfl

theorem startsWithSign_iff :
    startsWithSign b = true ↔ ∃ c, (normalize b).head? = some c ∧ isSign c = true := by
  rw [startsWithSign, Option.any_eq_true]

theorem endsBefore_of_startsWithSign (h : startsWithSign b = true) : EndsBefore (normalize b) := by
  obtain ⟨c, hc, hsign⟩ := startsWithSign_iff.mp h
  intro d hd
  obtain rfl : c = d := Option.some.inj (hc.symm.trans hd)
  exact hsign

theorem gathered_append (a : String) (h : EndsBefore (normalize b)) :
    gathered (a ++ b) = (do
      let terms ← gathered a
      let others ← gathered b
      return terms ++ others) := by
  rw [gathered, normalize_append, pieces_append _ h, gather_append]
  rfl

/-! ## Joining with a plus sign -/

/-- A plus sign in front of a text that has none does not change its terms. -/
theorem gather_plus_cons (hcs : cs ≠ []) (h : ∀ c ∈ cs.head?, isSign c = false) :
    gather (pieces ('+' :: cs)) = gather (pieces cs) := by
  have hcut := isCut_pieces cs
  obtain ⟨p, rest, hpieces⟩ := List.exists_cons_of_ne_nil (mt pieces_eq_nil_iff.mp hcs)
  rw [hpieces] at hcut
  obtain ⟨c, body, rfl⟩ := List.exists_cons_of_ne_nil (hcut.ne_nil p List.mem_cons_self)
  have hc : isSign c = false := h c (by rw [← hcut.flatten_eq]; rfl)
  have hread : readPiece ('+' :: c :: body) = readPiece (c :: body) := by
    rw [readPiece_of_isSigned (.plus _), readPiece_of_isSigned (.bare _ _)]
    rintro _ ⟨⟩
    exact hc
  show gather (consPiece '+' (pieces cs)) = gather (pieces cs)
  rw [hpieces, consPiece, if_neg (by simp [hc]), gather, hread, gather]

theorem gathered_plus_append (hsome : normalize b ≠ []) (h : startsWithSign b = false) :
    gathered ("+" ++ b) = gathered b := by
  rw [gathered, normalize_append]
  refine gather_plus_cons hsome fun c hc => ?_
  rw [← Bool.not_eq_true]
  exact fun hsign => Bool.eq_false_iff.mp h (startsWithSign_iff.mpr ⟨c, hc, hsign⟩)

theorem startsWithSign_plus_append (b : String) : startsWithSign ("+" ++ b) = true := by
  rw [startsWithSign, normalize_append]
  rfl

theorem normalize_append_ne_nil (a : String) (h : startsWithSign b = true) :
    normalize (a ++ b) ≠ [] := by
  obtain ⟨c, hc, -⟩ := startsWithSign_iff.mp h
  rw [normalize_append]
  refine List.append_ne_nil_of_right_ne_nil _ fun hnil => ?_
  rw [hnil] at hc
  cases hc

/-- **Formulas are read part by part.**  If `b` begins with a sign, the formula made of `a` and
`b` is read as both of them are; if `b` begins with anything else, this is so with a plus sign
between. -/
theorem reads_as_both (a b : String) :
    (startsWithSign b = true → ReadsAsBoth a b (a ++ b)) ∧
      (normalize b ≠ [] → startsWithSign b = false → ReadsAsBoth a b (a ++ "+" ++ b)) := by
  constructor
  · intro h
    exact readsAsBoth_of_gathered (normalize_append_ne_nil a h)
      (gathered_append a (endsBefore_of_startsWithSign h))
  · intro hsome h
    have hplus : startsWithSign ("+" ++ b) = true := startsWithSign_plus_append b
    rw [String.append_assoc]
    refine readsAsBoth_of_gathered (normalize_append_ne_nil a hplus) ?_
    rw [gathered_append a (endsBefore_of_startsWithSign hplus), gathered_plus_append hsome h]

/-- A part that is too large behind one that is read, and two parts of which the first is blank. -/
theorem reads_as_both_parts :
    (startsWithSign " -1001D4-1" = true ∧
        parse ("2d6+x" ++ " -1001D4-1") =
          .error ⟨"2d6+x" ++ " -1001D4-1", .tooManyDice "1001".toList 4⟩) ∧
      (normalize "1 d8" ≠ [] ∧ startsWithSign "1 d8" = false ∧
        parse (" " ++ "+" ++ "1 d8") = .ok [.dice 1 8 false]) := by
  have hsign : startsWithSign " -1001D4-1" = true := by decide +kernel
  have hfirst : parse "2d6+x" = .ok [.dice 2 6 false] := by decide +kernel
  have hlarge : parse " -1001D4-1" = .error ⟨" -1001D4-1", .tooManyDice "1001".toList 4⟩ := by
    decide +kernel
  have hsome : normalize "1 d8" ≠ [] := by decide +kernel
  have hbare : startsWithSign "1 d8" = false := by decide +kernel
  have hblank : IsBarren " " := .inl (by decide +kernel)
  have hdie : parse "1 d8" = .ok [.dice 1 8 false] := by decide +kernel
  refine ⟨⟨hsign, ?_⟩, hsome, hbare, ?_⟩
  · refine ((reads_as_both "2d6+x" " -1001D4-1").1 hsign).rightFault _ trivial hlarge ?_
    intro other _ herror
    rw [hfirst] at herror
    cases herror
  · exact ((reads_as_both " " "1 d8").2 hsome hbare).right _ hblank hdie

end DiceTable.Formula
