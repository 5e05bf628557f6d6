import DiceTable.Proofs.Dice.Pieces
import Mathlib.Data.Nat.Digits.Defs

/-!
# The grammar of formulas

What a piece stands for is said here without reading it.  Behind its sign a piece is a group of
dice, a number, or neither.  A group is cut at its first `d`; the digits behind it are the sides,
and what stands before it is the number of dice, or one if it is no number or zero.  A piece
within its limit is a term (`IsTerm`), a piece beyond it has a fault (`Exceeds`), and every other
piece is skipped.

Reading computes this grammar and nothing else (`parse_follows_grammar`).

## Strategy

A piece that is a term or has a fault is read as such, whatever its characters
(`readPiece_of_isTerm`, `readPiece_of_exceeds`).  In the other direction the cut is needed: the
sides are read by a reader that takes a plus sign before the digits, and only because a piece has
no sign behind its first character does it never find one (`readBody_of_not_isGroup`).
-/

namespace DiceTable

/-- Whether the fault is that a term is too large. -/
def DiceFault.IsOversize : DiceFault → Prop
  | .tooManyDice .. | .tooLarge _ => True
  | _ => False

namespace Formula

variable {cs piece body before : List Char} {ps : List (List Char)} {n count sides value : Nat}
  {negative : Bool} {t : Term} {terms : List Term} {fault : DiceFault}

/-! ## Numerals -/

/-- The characters are digits, at least one, and denote `n` in base ten, the last one being the
ones. -/
structure IsNumeral (cs : List Char) (n : Nat) : Prop where
  ne_nil : cs ≠ []
  isDigit : ∀ c ∈ cs, c.isDigit = true
  value_eq : Nat.ofDigits 10 (cs.reverse.map fun c => c.toNat - '0'.toNat) = n

theorem ofDigitChars_eq_ofDigits (cs : List Char) (init : Nat) :
    Nat.ofDigitChars 10 cs init =
      Nat.ofDigits 10 (cs.reverse.map fun c => c.toNat - '0'.toNat) + 10 ^ cs.length * init := by
  induction cs generalizing init with
  | nil => simp
  | cons c cs ih =>
      rw [Nat.ofDigitChars_cons, ih, List.reverse_cons, List.map_append, Nat.ofDigits_append,
        List.length_map, List.length_reverse, List.map_singleton, Nat.ofDigits_singleton,
        List.length_cons, Nat.pow_succ]
      ring

theorem digits?_eq_some_iff : digits? cs = some n ↔ IsNumeral cs n := by
  have hvalue : Nat.ofDigitChars 10 cs 0 =
      Nat.ofDigits 10 (cs.reverse.map fun c => c.toNat - '0'.toNat) := by
    rw [ofDigitChars_eq_ofDigits, Nat.mul_zero, Nat.add_zero]
  rw [digits?, hvalue]
  constructor
  · intro h
    split at h
    next hdigits =>
      simp only [Bool.and_eq_true, Bool.not_eq_true', List.isEmpty_eq_false_iff,
        List.all_eq_true] at hdigits
      exact ⟨hdigits.1, hdigits.2, Option.some.inj h⟩
    next => cases h
  · intro h
    rw [if_pos (by simpa [h.ne_nil] using h.isDigit), h.value_eq]

theorem digits?_eq_none_iff : digits? cs = none ↔ ∀ n, ¬ IsNumeral cs n := by
  simp only [Option.eq_none_iff_forall_ne_some, ne_eq, digits?_eq_some_iff]

/-- A numeral has neither a sign nor a `d`. -/
theorem IsNumeral.ne_of_mem (h : IsNumeral cs n) {c : Char} (hc : c ∈ cs) :
    isSign c = false ∧ c ≠ 'd' := by
  have hrange := Char.isDigit_iff_toNat.mp (h.isDigit c hc)
  simp only [isSign, Bool.or_eq_false_iff, beq_eq_false_iff_ne]
  refine ⟨⟨?_, ?_⟩, ?_⟩ <;> rintro rfl <;> revert hrange <;> decide

theorem IsNumeral.number?_eq (h : IsNumeral cs n) : number? cs = some n := by
  rw [number?_eq_digits? fun c hc => (h.ne_of_mem hc).1, digits?_eq_some_iff.mpr h]

/-! ## What a piece stands for -/

/-- Whether the piece is subtracted, and what it has behind its sign. -/
inductive IsSigned : List Char → Bool → List Char → Prop
  | plus (body : List Char) : IsSigned ('+' :: body) false body
  | minus (body : List Char) : IsSigned ('-' :: body) true body
  | bare (body : List Char) (h : ∀ c, body.head? = some c → isSign c = false) :
      IsSigned body false body

/-- A group of dice with so many sides: its first `d` stands behind `before` and in front of the
sides, which are a number that a die can have. -/
inductive IsGroup (sides : Nat) (before : List Char) : List Char → Prop
  | intro (behind : List Char) (hfirst : 'd' ∉ before) (hsides : IsNumeral behind sides)
      (hrange : 1 ≤ sides ∧ sides ≤ Word.maxUnsigned32) :
      IsGroup sides before (before ++ 'd' :: behind)

/-- The number of dice that is asked for by what stands before the `d`. -/
inductive Counts (before : List Char) : Nat → Prop
  | stated {count : Nat} (h : IsNumeral before count) (hpos : count ≠ 0) : Counts before count
  | zero (h : IsNumeral before 0) : Counts before 1
  | unstated (h : ∀ n, ¬ IsNumeral before n) : Counts before 1

/-- The piece is a term: a group that is not too large, or a number that is not. -/
inductive IsTerm (piece : List Char) : Term → Prop
  | dice {negative : Bool} {body before : List Char} {count sides : Nat}
      (hsign : IsSigned piece negative body) (hgroup : IsGroup sides before body)
      (hcount : Counts before count) (hfew : count ≤ Term.maxCount) :
      IsTerm piece (.dice count sides negative)
  | flat {negative : Bool} {body : List Char} {value : Nat} (hsign : IsSigned piece negative body)
      (hvalue : IsNumeral body value) (hsmall : (value : Int) ≤ Word.maxSigned64) :
      IsTerm piece (.flat value negative)

/-- The piece has a fault: it is a group of too many dice, or a number that is too large. -/
inductive Exceeds (piece : List Char) : DiceFault → Prop
  | dice {negative : Bool} {body before : List Char} {count sides : Nat}
      (hsign : IsSigned piece negative body) (hgroup : IsGroup sides before body)
      (hcount : IsNumeral before count) (hmany : Term.maxCount < count) :
      Exceeds piece (.tooManyDice before sides)
  | flat {negative : Bool} {body : List Char} {value : Nat} (hsign : IsSigned piece negative body)
      (hvalue : IsNumeral body value) (hlarge : Word.maxSigned64 < value) :
      Exceeds piece (.tooLarge body)

/-- The terms among the pieces, in order.  A piece that is no term is skipped. -/
inductive Lists : List (List Char) → List Term → Prop
  | nil : Lists [] []
  | term {p : List Char} {ps : List (List Char)} {t : Term} {terms : List Term} (hterm : IsTerm p t)
      (hrest : Lists ps terms) : Lists (p :: ps) (t :: terms)
  | skip {p : List Char} {ps : List (List Char)} {terms : List Term} (hnone : ∀ t, ¬ IsTerm p t)
      (hrest : Lists ps terms) : Lists (p :: ps) terms

/-- The fault of the first piece that has one. -/
def FirstFault (ps : List (List Char)) (fault : DiceFault) : Prop :=
  ∃ past piece rest, ps = past ++ piece :: rest ∧ (∀ p ∈ past, ∀ other, ¬ Exceeds p other) ∧
    Exceeds piece fault

theorem Exceeds.isOversize (h : Exceeds piece fault) : fault.IsOversize := by
  cases h <;> trivial

/-! ## Reading a piece -/

theorem isSigned_iff : IsSigned piece negative body ↔ unsign piece = (negative, body) := by
  constructor
  · rintro (_ | _ | ⟨_, hhead⟩)
    · rfl
    · rfl
    · unfold unsign
      split
      next => exact absurd (hhead '-' rfl) (by decide)
      next => exact absurd (hhead '+' rfl) (by decide)
      next => rfl
  · intro h
    unfold unsign at h
    split at h
    next => cases h; exact .minus _
    next => cases h; exact .plus _
    next hminus hplus =>
      cases h
      refine .bare _ fun c hc => ?_
      obtain ⟨rest, rfl⟩ := List.head?_eq_some_iff.mp hc
      simp only [isSign, Bool.or_eq_false_iff, beq_eq_false_iff_ne]
      exact ⟨fun heq => hplus rest (heq ▸ rfl), fun heq => hminus rest (heq ▸ rfl)⟩

/-- Behind the sign of a piece there is no other sign. -/
theorem IsSigned.isSign_eq_false (h : IsSigned piece negative body)
    (hfree : ∀ c ∈ piece.tail, isSign c = false) : ∀ c ∈ body, isSign c = false := by
  cases h with
  | plus => exact hfree
  | minus => exact hfree
  | bare _ hhead =>
      cases piece with
      | nil => simp
      | cons c rest => exact List.forall_mem_cons.mpr ⟨hhead c rfl, hfree⟩

theorem readPiece_of_isSigned (h : IsSigned piece negative body) :
    readPiece piece = readBody negative body := by
  rw [readPiece_eq, isSigned_iff.mp h]

theorem readBody_append {behind : List Char} (hfirst : 'd' ∉ before) :
    readBody negative (before ++ 'd' :: behind) = readDice negative before behind := by
  have hcut : ∀ c ∈ before, (c != 'd') = true := fun c hc => by
    rw [bne_iff_ne]
    exact fun heq => hfirst (heq ▸ hc)
  rw [readBody, List.dropWhile_append_of_pos hcut, List.takeWhile_append_of_pos hcut]
  show readDice negative (before ++ []) behind = _
  rw [List.append_nil]

theorem readBody_of_not_mem (h : 'd' ∉ body) : readBody negative body = readFlat negative body := by
  have hall : body.dropWhile (· != 'd') = [] := by
    rw [List.dropWhile_eq_nil_iff]
    intro c hc
    rw [bne_iff_ne]
    exact fun heq => h (heq ▸ hc)
  rw [readBody, hall]

/-- The number of dice decides how a group is read. -/
theorem readBody_of_isGroup (h : IsGroup sides before body) :
    readBody negative body =
      (digits? before).elim (.ok (some (.dice 1 sides negative))) fun count =>
        if count = 0 then .ok (some (.dice 1 sides negative))
        else if count ≤ Term.maxCount then .ok (some (.dice count sides negative))
        else .error (.tooManyDice before sides) := by
  obtain ⟨behind, hfirst, hsides, hrange⟩ := h
  have hkeep : (decide (0 < sides) && decide (sides ≤ Word.maxUnsigned32)) = true := by
    simpa [Nat.pos_iff_ne_zero, Nat.one_le_iff_ne_zero] using hrange
  rw [readBody_append hfirst, readDice, hsides.number?_eq, Option.filter_some, if_pos hkeep]
  cases digits? before <;> rfl

theorem readPiece_of_isTerm (h : IsTerm piece t) : readPiece piece = .ok (some t) := by
  cases h with
  | dice hsign hgroup hcount hfew =>
      rw [readPiece_of_isSigned hsign, readBody_of_isGroup hgroup]
      cases hcount with
      | stated hnumeral hpos =>
          rw [digits?_eq_some_iff.mpr hnumeral, Option.elim_some, if_neg hpos, if_pos hfew]
      | zero hnumeral => rw [digits?_eq_some_iff.mpr hnumeral, Option.elim_some, if_pos rfl]
      | unstated hnone => rw [digits?_eq_none_iff.mpr hnone, Option.elim_none]
  | flat hsign hvalue hsmall =>
      rw [readPiece_of_isSigned hsign,
        readBody_of_not_mem fun hmem => (hvalue.ne_of_mem hmem).2 rfl, readFlat,
        digits?_eq_some_iff.mpr hvalue]
      exact if_pos hsmall

theorem readPiece_of_exceeds (h : Exceeds piece fault) : readPiece piece = .error fault := by
  cases h with
  | dice hsign hgroup hcount hmany =>
      have hzero : _ ≠ 0 := Nat.ne_of_gt (Nat.zero_lt_of_lt hmany)
      rw [readPiece_of_isSigned hsign, readBody_of_isGroup hgroup, digits?_eq_some_iff.mpr hcount,
        Option.elim_some, if_neg hzero, if_neg (Nat.not_le.mpr hmany)]
  | flat hsign hvalue hlarge =>
      rw [readPiece_of_isSigned hsign,
        readBody_of_not_mem fun hmem => (hvalue.ne_of_mem hmem).2 rfl, readFlat,
        digits?_eq_some_iff.mpr hvalue]
      exact if_neg (Int.not_le.mpr hlarge)

/-- A group is a term or too large, by the number of its dice. -/
theorem isTerm_or_exceeds_of_isGroup (hsign : IsSigned piece negative body)
    (hgroup : IsGroup sides before body) :
    (∃ t, IsTerm piece t) ∨ ∃ fault, Exceeds piece fault := by
  cases hcount : digits? before with
  | none =>
      exact .inl ⟨_, .dice hsign hgroup (.unstated (digits?_eq_none_iff.mp hcount)) (by decide)⟩
  | some count =>
      have hnumeral : IsNumeral before count := digits?_eq_some_iff.mp hcount
      by_cases hzero : count = 0
      · subst hzero
        exact .inl ⟨_, .dice hsign hgroup (.zero hnumeral) (by decide)⟩
      · by_cases hfew : count ≤ Term.maxCount
        · exact .inl ⟨_, .dice hsign hgroup (.stated hnumeral hzero) hfew⟩
        · exact .inr ⟨_, .dice hsign hgroup hnumeral (Nat.not_le.mp hfew)⟩

/-- Without sides that a die can have, written in digits, there is no group. -/
theorem readBody_of_not_isGroup {behind : List Char} (hfirst : 'd' ∉ before)
    (hbehind : ∀ c ∈ behind, isSign c = false)
    (hnone : ∀ sides, ¬ IsGroup sides before (before ++ 'd' :: behind)) :
    readBody negative (before ++ 'd' :: behind) = .ok none := by
  have hsides : (number? behind).filter (fun n => 0 < n && n ≤ Word.maxUnsigned32) = none := by
    -- The sides are read as digits, for there is no plus sign before them.
    rw [number?_eq_digits? hbehind, Option.filter_eq_none_iff]
    intro sides hsides hrange
    simp only [Bool.and_eq_true, decide_eq_true_eq] at hrange
    exact hnone sides ⟨behind, hfirst, digits?_eq_some_iff.mp hsides, hrange⟩
  rw [readBody_append hfirst, readDice, hsides]

/-- A piece without a second sign is a term, has a fault, or is skipped. -/
theorem readPiece_cases (hfree : ∀ c ∈ piece.tail, isSign c = false) :
    (∃ t, IsTerm piece t) ∨ (∃ fault, Exceeds piece fault) ∨ readPiece piece = .ok none := by
  obtain ⟨negative, body, hsign⟩ : ∃ negative body, IsSigned piece negative body :=
    ⟨_, _, isSigned_iff.mpr rfl⟩
  rw [readPiece_of_isSigned hsign]
  by_cases hmem : 'd' ∈ body
  · obtain ⟨before, behind, rfl, hfirst⟩ := List.eq_append_cons_of_mem hmem
    by_cases hgroup : ∃ sides, IsGroup sides before (before ++ 'd' :: behind)
    · obtain ⟨sides, hgroup⟩ := hgroup
      exact (isTerm_or_exceeds_of_isGroup hsign hgroup).imp_right .inl
    · have hbehind : ∀ c ∈ behind, isSign c = false := fun c hc =>
        hsign.isSign_eq_false hfree c (List.mem_append_right _ (List.mem_cons_of_mem _ hc))
      exact .inr (.inr (readBody_of_not_isGroup hfirst hbehind (not_exists.mp hgroup)))
  · rw [readBody_of_not_mem hmem, readFlat]
    cases hvalue : digits? body with
    | none => exact .inr (.inr rfl)
    | some value =>
        have hnumeral : IsNumeral body value := digits?_eq_some_iff.mp hvalue
        by_cases hsmall : (value : Int) ≤ Word.maxSigned64
        · exact .inl ⟨_, .flat hsign hnumeral hsmall⟩
        · exact .inr (.inl ⟨_, .flat hsign hnumeral (Int.not_le.mp hsmall)⟩)

theorem readPiece_eq_some_iff (hfree : ∀ c ∈ piece.tail, isSign c = false) :
    readPiece piece = .ok (some t) ↔ IsTerm piece t := by
  refine ⟨fun h => ?_, readPiece_of_isTerm⟩
  rcases readPiece_cases hfree with ⟨other, hother⟩ | ⟨fault, hfault⟩ | hnone
  · rw [readPiece_of_isTerm hother] at h
    cases h
    exact hother
  · rw [readPiece_of_exceeds hfault] at h
    cases h
  · rw [hnone] at h
    cases h

theorem readPiece_eq_error_iff (hfree : ∀ c ∈ piece.tail, isSign c = false) :
    readPiece piece = .error fault ↔ Exceeds piece fault := by
  refine ⟨fun h => ?_, readPiece_of_exceeds⟩
  rcases readPiece_cases hfree with ⟨t, ht⟩ | ⟨other, hother⟩ | hnone
  · rw [readPiece_of_isTerm ht] at h
    cases h
  · rw [readPiece_of_exceeds hother] at h
    cases h
    exact hother
  · rw [hnone] at h
    cases h

/-! ## Gathering the terms -/

theorem firstFault_cons_iff {p : List Char} :
    FirstFault (p :: ps) fault ↔
      Exceeds p fault ∨ (∀ other, ¬ Exceeds p other) ∧ FirstFault ps fault := by
  constructor
  · rintro ⟨past, piece, rest, hsplit, hpast, hpiece⟩
    cases past with
    | nil =>
        cases hsplit
        exact .inl hpiece
    | cons first past =>
        cases hsplit
        obtain ⟨hfirst, hothers⟩ := List.forall_mem_cons.mp hpast
        exact .inr ⟨hfirst, past, piece, rest, rfl, hothers, hpiece⟩
  · rintro (hp | ⟨hp, past, piece, rest, rfl, hpast, hpiece⟩)
    · exact ⟨[], p, ps, rfl, by simp, hp⟩
    · exact ⟨p :: past, piece, rest, rfl, List.forall_mem_cons.mpr ⟨hp, hpast⟩, hpiece⟩

/-- If any piece has a fault, one is the first. -/
theorem exists_firstFault_iff :
    (∃ fault, FirstFault ps fault) ↔ ∃ p ∈ ps, ∃ fault, Exceeds p fault := by
  constructor
  · rintro ⟨fault, past, piece, rest, rfl, -, hpiece⟩
    exact ⟨piece, List.mem_append_right _ List.mem_cons_self, fault, hpiece⟩
  · rintro ⟨piece, hmem, hpiece⟩
    induction ps with
    | nil => cases hmem
    | cons p ps ih =>
        simp only [firstFault_cons_iff]
        by_cases hp : ∃ fault, Exceeds p fault
        · exact hp.imp fun fault => .inl
        · rcases List.mem_cons.mp hmem with rfl | hmem
          · exact absurd hpiece hp
          · exact (ih hmem).imp fun fault h => .inr ⟨not_exists.mp hp, h⟩

theorem lists_cons_iff {p : List Char} (hfree : ∀ c ∈ p.tail, isSign c = false) {read : Option Term}
    (hread : readPiece p = .ok read) :
    Lists (p :: ps) terms ↔ ∃ others, Lists ps others ∧ terms = read.toList ++ others := by
  constructor
  · intro h
    cases h with
    | term hterm hrest =>
        cases (readPiece_of_isTerm hterm).symm.trans hread
        exact ⟨_, hrest, rfl⟩
    | skip hnone hrest =>
        cases read with
        | none => exact ⟨_, hrest, rfl⟩
        | some t => exact absurd ((readPiece_eq_some_iff hfree).mp hread) (hnone t)
  · rintro ⟨others, hrest, rfl⟩
    cases read with
    | none =>
        refine .skip (fun t hterm => ?_) hrest
        cases (readPiece_of_isTerm hterm).symm.trans hread
    | some t => exact .term ((readPiece_eq_some_iff hfree).mp hread) hrest

theorem not_exceeds_of_readPiece {p : List Char} {read : Option Term}
    (hread : readPiece p = .ok read) (other : DiceFault) : ¬ Exceeds p other := by
  intro hother
  cases (readPiece_of_exceeds hother).symm.trans hread

theorem gather_eq_ok_iff (hfree : ∀ p ∈ ps, ∀ c ∈ p.tail, isSign c = false) :
    gather ps = .ok terms ↔ (∀ p ∈ ps, ∀ other, ¬ Exceeds p other) ∧ Lists ps terms := by
  induction ps generalizing terms with
  | nil =>
      constructor
      · rintro ⟨⟩
        exact ⟨by simp, .nil⟩
      · rintro ⟨-, ⟨⟩⟩
        rfl
  | cons p ps ih =>
      obtain ⟨hp, hps⟩ := List.forall_mem_cons.mp hfree
      cases hread : readPiece p with
      | error fault =>
          rw [gather_cons_error hread]
          refine ⟨nofun, fun h => ?_⟩
          have hfault : Exceeds p fault := (readPiece_eq_error_iff hp).mp hread
          exact absurd hfault (h.1 p List.mem_cons_self fault)
      | ok read =>
          have hsound : ∀ other, ¬ Exceeds p other := not_exceeds_of_readPiece hread
          rw [gather_cons_eq_ok_iff hread, lists_cons_iff hp hread, List.forall_mem_cons]
          constructor
          · rintro ⟨others, hothers, rfl⟩
            obtain ⟨hrest, hlists⟩ := (ih hps).mp hothers
            exact ⟨⟨hsound, hrest⟩, others, hlists, rfl⟩
          · rintro ⟨⟨-, hrest⟩, others, hlists, rfl⟩
            exact ⟨others, (ih hps).mpr ⟨hrest, hlists⟩, rfl⟩

theorem gather_eq_error_iff (hfree : ∀ p ∈ ps, ∀ c ∈ p.tail, isSign c = false) :
    gather ps = .error fault ↔ FirstFault ps fault := by
  induction ps with
  | nil =>
      refine ⟨nofun, ?_⟩
      rintro ⟨past, piece, rest, hsplit, -⟩
      simp at hsplit
  | cons p ps ih =>
      obtain ⟨hp, hps⟩ := List.forall_mem_cons.mp hfree
      rw [firstFault_cons_iff]
      cases hread : readPiece p with
      | error other =>
          have hother : Exceeds p other := (readPiece_eq_error_iff hp).mp hread
          rw [gather_cons_error hread]
          constructor
          · rintro ⟨⟩
            exact .inl hother
          · rintro (hfault | ⟨hsound, -⟩)
            · cases (readPiece_of_exceeds hfault).symm.trans hread
              rfl
            · exact absurd hother (hsound other)
      | ok read =>
          have hsound : ∀ other, ¬ Exceeds p other := not_exceeds_of_readPiece hread
          rw [gather_cons_eq_error_iff hread, ih hps]
          refine ⟨fun h => .inr ⟨hsound, h⟩, ?_⟩
          rintro (hfault | ⟨-, h⟩)
          · exact absurd hfault (hsound fault)
          · exact h

/-! ## Reading a formula -/

variable {formula : String}

theorem isOversize_of_gathered (h : gathered formula = .error fault) : fault.IsOversize := by
  obtain ⟨_, _, _, _, _, hpiece⟩ :=
    (gather_eq_error_iff (isCut_pieces (normalize formula)).isSign_tail).mp h
  exact hpiece.isOversize

/-- A formula fails for a term that is too large exactly if gathering its terms does. -/
theorem parse_eq_oversize_iff :
    parse formula = .error ⟨formula, fault⟩ ∧ fault.IsOversize ↔
      gathered formula = .error fault := by
  rw [parse_eq_error_iff]
  constructor
  · rintro ⟨h | ⟨-, rfl⟩, hoversize⟩
    · exact h
    · split at hoversize <;> exact hoversize.elim
  · exact fun h => ⟨.inl h, isOversize_of_gathered h⟩

theorem parse_eq_empty_iff : parse formula = .error ⟨formula, .empty⟩ ↔ normalize formula = [] := by
  rw [parse_eq_error_iff]
  constructor
  · rintro (h | ⟨-, h⟩)
    · exact (isOversize_of_gathered h).elim
    · by_contra hsome
      rw [if_neg hsome] at h
      cases h
  · intro h
    rw [gathered, h]
    exact .inr ⟨rfl, rfl⟩

theorem parse_eq_unusable_iff :
    parse formula = .error ⟨formula, .unusable⟩ ↔
      normalize formula ≠ [] ∧ gathered formula = .ok [] := by
  rw [parse_eq_error_iff]
  constructor
  · rintro (h | ⟨hnothing, h⟩)
    · exact (isOversize_of_gathered h).elim
    · refine ⟨fun hnil => ?_, hnothing⟩
      rw [if_pos hnil] at h
      cases h
  · rintro ⟨hsome, hnothing⟩
    exact .inr ⟨hnothing, (if_neg hsome).symm⟩

theorem lists_nil_iff : Lists ps [] ↔ ∀ p ∈ ps, ∀ t, ¬ IsTerm p t := by
  induction ps with
  | nil => simp [Lists.nil]
  | cons p ps ih =>
      rw [List.forall_mem_cons, ← ih]
      constructor
      · rintro ⟨⟩
        next hnone hrest => exact ⟨hnone, hrest⟩
      · exact fun h => .skip h.1 h.2

/-- **Reading computes the grammar.**  The normalized text has one cut into pieces and no other.
If it is empty, the formula is refused as empty.  Otherwise it is refused at the first piece that
is too large, with the fault of that piece.  Otherwise its terms are those of its pieces, in order
and without the pieces that are no terms, and it is refused as unusable if there is none.  No sign
stands inside a piece, so that no number is ever read with one. -/
theorem parse_follows_grammar (formula : String) :
    ∃ ps, (∀ qs, IsCut (normalize formula) qs ↔ qs = ps) ∧
      (parse formula = .error ⟨formula, .empty⟩ ↔ normalize formula = []) ∧
      (∀ fault, parse formula = .error ⟨formula, fault⟩ ∧ fault.IsOversize ↔ FirstFault ps fault) ∧
      (∀ terms, parse formula = .ok terms ↔
        terms ≠ [] ∧ (∀ p ∈ ps, ∀ fault, ¬ Exceeds p fault) ∧ Lists ps terms) ∧
      (parse formula = .error ⟨formula, .unusable⟩ ↔
        normalize formula ≠ [] ∧
          (∀ p ∈ ps, ∀ fault, ¬ Exceeds p fault) ∧ ∀ p ∈ ps, ∀ t, ¬ IsTerm p t) ∧
      (∀ p ∈ ps, ∀ negative body, IsSigned p negative body → ∀ c ∈ body, isSign c = false) ∧
      DiceFault.empty.message = "notation is empty" ∧
      DiceFault.unusable.message = "no recognizable dice or numbers" := by
  have hfree := (isCut_pieces (normalize formula)).isSign_tail
  refine ⟨pieces (normalize formula), fun qs => isCut_iff, parse_eq_empty_iff, fun fault => ?_,
    fun terms => ?_, ?_, fun p hp negative body h => h.isSign_eq_false (hfree p hp), rfl, rfl⟩
  · rw [parse_eq_oversize_iff, gathered, gather_eq_error_iff hfree]
  · rw [parse_eq_ok_iff, gathered, gather_eq_ok_iff hfree]
  · rw [parse_eq_unusable_iff, gathered, gather_eq_ok_iff hfree, lists_nil_iff]

end Formula

end DiceTable
