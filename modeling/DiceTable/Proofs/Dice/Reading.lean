import DiceTable.Dice.Formula
import Mathlib.Data.List.Basic
import Mathlib.Data.List.ReduceOption
import Mathlib.Data.List.TakeWhile

/-!
# Reading what was written

The text of a list of terms is one formula among many that are read as these terms: blanks may
stand anywhere, letters may be capital, and the first plus sign may be missing.  Whatever formula is
read, the terms that come out are within range, so that their own text is a formula for them as well
(`parse_undoes_writing`).

## Strategy

A sign stands only at the front of a term, so that cutting before every sign takes the text of the
terms apart again (`pieces_flatMap_chars`), and each piece is read back as its term
(`readPiece_chars`).  In the other direction, a term comes out of a single piece only, and there
every branch that yields a term has compared it with the range (`isRollable_of_readPiece`).
-/

namespace DiceTable

/-! ## The characters of a term -/

namespace Term

/-- What a term has behind its sign. -/
def body : Term → List Char
  | .dice count sides _ => Nat.toDigits 10 count ++ 'd' :: Nat.toDigits 10 sides
  | .flat value _ => Nat.toDigits 10 value

theorem chars_eq (t : Term) : t.chars = sign t.isNegative :: t.body := by
  cases t <;> rfl

theorem body_ne_nil (t : Term) : t.body ≠ [] := by
  cases t <;> simp [body]

theorem isDigit_or_eq_of_mem_body {t : Term} {c : Char} (h : c ∈ t.body) :
    c.isDigit = true ∨ c = 'd' := by
  have hdigit {n : Nat} (hc : c ∈ Nat.toDigits 10 n) : c.isDigit = true :=
    Nat.isDigit_of_mem_toDigits (by decide) (by decide) hc
  cases t with
  | flat value negative => exact .inl (hdigit h)
  | dice count sides negative =>
      rcases List.mem_append.mp h with hcount | hsides
      · exact .inl (hdigit hcount)
      · exact (List.mem_cons.mp hsides).symm.imp_left hdigit

theorem isRollable_dice_iff {count sides : Nat} {negative : Bool} :
    (dice count sides negative).isRollable = true ↔
      (0 < count ∧ count ≤ maxCount) ∧ 0 < sides ∧ sides ≤ Word.maxUnsigned32 := by
  simp only [isRollable, Bool.and_eq_true, decide_eq_true_eq, Nat.succ_le_iff, and_assoc]

theorem isRollable_flat_iff {value : Nat} {negative : Bool} :
    (flat value negative).isRollable = true ↔ (value : Int) ≤ Word.maxSigned64 := by
  rw [isRollable, decide_eq_true_eq]

end Term

namespace Formula

open Term

variable {t : Term} {terms : List Term} {c : Char}

theorem isSign_sign (negative : Bool) : isSign (sign negative) = true := by
  cases negative <;> decide

theorem isSign_eq_false_of_mem_body (h : c ∈ t.body) : isSign c = false := by
  rcases isDigit_or_eq_of_mem_body h with hdigit | rfl
  · have hrange := Char.isDigit_iff_toNat.mp hdigit
    simp only [isSign, Bool.or_eq_false_iff, beq_eq_false_iff_ne]
    constructor <;> rintro rfl <;> revert hrange <;> decide
  · decide

/-! ## Normalizing a text -/

/-- No character before the capital letters has another lower-case form. -/
theorem lowercase_eq_self (h : c.toNat < 'A'.toNat) : Text.lowercase c = [c] := by
  have hfirst : ∀ row ∈ Text.caseRows, 'A'.toNat ≤ row.first := by decide +kernel
  have hnone : Text.caseRows.find? (·.holds c.toNat) = none := by
    rw [List.find?_eq_none]
    intro row hrow hholds
    simp only [Text.CaseRow.holds, Bool.and_eq_true, decide_eq_true_eq] at hholds
    have := hfirst row hrow
    omega
  have hdotted : c.toNat ≠ 0x130 := fun heq => absurd (heq ▸ h) (by decide)
  rw [Text.lowercase, if_neg hdotted, hnone]

/-- The characters of a term are neither blank nor in upper case. -/
theorem normal_of_mem_chars (h : c ∈ t.chars) :
    Text.isBlank c = false ∧ Text.lowercase c = [c] := by
  have hfixed : (c.isDigit = true ∨ c = 'd') ∨ c = '+' ∨ c = '-' := by
    rw [chars_eq] at h
    rcases List.mem_cons.mp h with rfl | hbody
    · cases t.isNegative
      · exact .inr (.inl rfl)
      · exact .inr (.inr rfl)
    · exact .inl (isDigit_or_eq_of_mem_body hbody)
  rcases hfixed with (hdigit | rfl) | rfl | rfl
  · have hhigh : c.toNat ≤ '9'.toNat := (Char.isDigit_iff_toNat.mp hdigit).2
    have hlower : c.toNat < 'A'.toNat := Nat.lt_of_le_of_lt hhigh (by decide)
    exact ⟨Text.isBlank_of_isDigit hdigit, lowercase_eq_self hlower⟩
  · decide
  · decide
  · decide

theorem normalize_joined (terms : List Term) :
    normalize (joined terms) = terms.flatMap chars := by
  have hnormal : ∀ c ∈ terms.flatMap chars, Text.isBlank c = false ∧ Text.lowercase c = [c] := by
    intro c hc
    obtain ⟨t, -, hct⟩ := List.mem_flatMap.mp hc
    exact normal_of_mem_chars hct
  have hkeep : (terms.flatMap chars).filter (fun c => !Text.isBlank c) = terms.flatMap chars := by
    rw [List.filter_eq_self]
    intro c hc
    rw [(hnormal c hc).1, Bool.not_false]
  rw [normalize, joined, String.toList_ofList, hkeep,
    List.flatMap_congr fun c hc => (hnormal c hc).2, List.flatMap_singleton']

/-! ## Cutting -/

/-- Whether the characters end here or go on with a sign. -/
def EndsBefore (cs : List Char) : Prop := ∀ c, cs.head? = some c → isSign c = true

/-- A first character and others without a sign are one piece, if nothing or a sign follows. -/
theorem pieces_cons_append (c : Char) {body rest : List Char}
    (hbody : ∀ d ∈ body, isSign d = false) (hrest : EndsBefore rest) :
    pieces (c :: (body ++ rest)) = (c :: body) :: pieces rest := by
  induction body generalizing c with
  | nil =>
      cases rest with
      | nil => rfl
      | cons s rest =>
          -- The pieces of what follows begin with its first character.
          have hhead : ∃ piece more, pieces (s :: rest) = (s :: piece) :: more := by
            show ∃ piece more, consPiece s (pieces rest) = (s :: piece) :: more
            unfold consPiece
            split
            · split
              · exact ⟨_, _, rfl⟩
              · exact ⟨_, _, rfl⟩
            · exact ⟨_, _, rfl⟩
          obtain ⟨piece, more, hpieces⟩ := hhead
          show consPiece c (pieces (s :: rest)) = [c] :: pieces (s :: rest)
          rw [hpieces, consPiece, if_pos (hrest s rfl)]
  | cons d body ih =>
      have hd : ¬ isSign d = true := by simp [hbody d List.mem_cons_self]
      show consPiece c (pieces (d :: (body ++ rest))) = (c :: d :: body) :: pieces rest
      rw [ih d fun e he => hbody e (List.mem_cons_of_mem _ he), consPiece, if_neg hd]

theorem endsBefore_flatMap_chars (terms : List Term) : EndsBefore (terms.flatMap chars) := by
  intro c hc
  cases terms with
  | nil => cases hc
  | cons t terms =>
      rw [List.flatMap_cons, chars_eq] at hc
      cases hc
      exact isSign_sign _

theorem pieces_flatMap_chars (terms : List Term) :
    pieces (terms.flatMap chars) = terms.map chars := by
  induction terms with
  | nil => rfl
  | cons t terms ih =>
      rw [List.flatMap_cons, chars_eq, List.cons_append,
        pieces_cons_append _ (fun _ => isSign_eq_false_of_mem_body)
          (endsBefore_flatMap_chars terms), ih, List.map_cons, chars_eq]

/-- The text of the terms without its first character, the sign, falls into the same pieces. -/
theorem pieces_body_append (t : Term) (terms : List Term) :
    pieces (t.body ++ terms.flatMap chars) = t.body :: terms.map chars := by
  have hfree : ∀ c ∈ t.body, isSign c = false := fun _ => isSign_eq_false_of_mem_body
  cases hbody : t.body with
  | nil => exact absurd hbody t.body_ne_nil
  | cons c body =>
      rw [hbody] at hfree
      rw [List.cons_append, pieces_cons_append c
        (fun d hd => hfree d (List.mem_cons_of_mem _ hd)) (endsBefore_flatMap_chars terms),
        pieces_flatMap_chars]

/-! ## Reading a piece -/

theorem digits?_toDigits (n : Nat) : digits? (Nat.toDigits 10 n) = some n := by
  have hdigits : (Nat.toDigits 10 n).all Char.isDigit = true := by
    rw [List.all_eq_true]
    exact fun c => Nat.isDigit_of_mem_toDigits (by decide) (by decide)
  rw [digits?, if_pos (by simp [hdigits]), Nat.ofDigitChars_toDigits (by decide) (by decide)]

/-- Without a plus sign there is nothing but the digits. -/
theorem number?_eq_digits? {cs : List Char} (h : ∀ c ∈ cs, isSign c = false) :
    number? cs = digits? cs := by
  unfold number?
  split
  next => exact absurd (h '+' List.mem_cons_self) (by decide)
  next => rfl

theorem unsign_chars (t : Term) : unsign t.chars = (t.isNegative, t.body) := by
  rw [chars_eq]
  cases t.isNegative <;> rfl

theorem unsign_body (t : Term) : unsign t.body = (false, t.body) := by
  have hfree : ∀ c ∈ t.body, isSign c = false := fun _ => isSign_eq_false_of_mem_body
  unfold unsign
  split
  next heq => exact absurd (hfree '-' (heq ▸ List.mem_cons_self)) (by decide)
  next heq => exact absurd (hfree '+' (heq ▸ List.mem_cons_self)) (by decide)
  next => rfl

/-- What a piece without its sign is read as, if there was a minus sign or not. -/
def readBody (negative : Bool) (body : List Char) : Except DiceFault (Option Term) :=
  match body.dropWhile (· != 'd') with
  | _ :: behind => readDice negative (body.takeWhile (· != 'd')) behind
  | [] => readFlat negative body

theorem readPiece_eq (piece : List Char) :
    readPiece piece = readBody (unsign piece).1 (unsign piece).2 := rfl

theorem ne_d_of_mem_toDigits {n : Nat} (h : c ∈ Nat.toDigits 10 n) : (c != 'd') = true := by
  have hdigit := Nat.isDigit_of_mem_toDigits (by decide) (by decide) h
  rw [bne_iff_ne]
  rintro rfl
  exact absurd hdigit (by decide)

theorem readBody_body (h : t.isRollable = true) : readBody t.isNegative t.body = .ok (some t) := by
  cases t with
  | dice count sides negative =>
      obtain ⟨⟨hcount, hfew⟩, hsides⟩ := isRollable_dice_iff.mp h
      have hcut : ∀ c ∈ Nat.toDigits 10 count, (c != 'd') = true := fun _ => ne_d_of_mem_toDigits
      have hfree : ∀ c ∈ Nat.toDigits 10 sides, isSign c = false := fun c hc =>
        isSign_eq_false_of_mem_body (t := .dice count sides negative)
          (List.mem_append_right _ (List.mem_cons_of_mem _ hc))
      rw [readBody, body, List.dropWhile_append_of_pos hcut, List.takeWhile_append_of_pos hcut]
      show readDice negative (Nat.toDigits 10 count ++ []) (Nat.toDigits 10 sides) = _
      rw [List.append_nil, readDice, number?_eq_digits? hfree, digits?_toDigits, digits?_toDigits]
      simp only [Option.filter_some, Bool.and_eq_true, decide_eq_true_eq, hsides, and_self, if_true,
        hfew, Nat.ne_of_gt hcount, if_false]
  | flat value negative =>
      have hall : (Nat.toDigits 10 value).dropWhile (· != 'd') = [] := by
        rw [List.dropWhile_eq_nil_iff]
        exact fun _ => ne_d_of_mem_toDigits
      rw [readBody, body, hall]
      show readFlat negative (Nat.toDigits 10 value) = _
      rw [readFlat, digits?_toDigits]
      exact if_pos (isRollable_flat_iff.mp h)

theorem readPiece_chars (h : t.isRollable = true) : readPiece t.chars = .ok (some t) := by
  rw [readPiece_eq, unsign_chars]
  exact readBody_body h

/-- A term without a sign is added. -/
theorem readPiece_body (h : t.isRollable = true) (hsign : t.isNegative = false) :
    readPiece t.body = .ok (some t) := by
  have hread := readBody_body h
  rw [hsign] at hread
  rw [readPiece_eq, unsign_body]
  exact hread

/-- What is read is within range. -/
theorem isRollable_of_readPiece {piece : List Char} (h : readPiece piece = .ok (some t)) :
    t.isRollable = true := by
  rw [readPiece_eq, readBody] at h
  generalize (unsign piece).1 = negative, (unsign piece).2 = body at h
  split at h
  next behind _ =>
    unfold readDice at h
    split at h
    next => cases h
    next sides hsides =>
      have hrange : 0 < sides ∧ sides ≤ Word.maxUnsigned32 := by
        simpa using (Option.filter_eq_some_iff.mp hsides).2
      have hone : (dice 1 sides negative).isRollable = true :=
        isRollable_dice_iff.mpr ⟨by decide, hrange⟩
      -- A count that is missing or zero means one die.
      split at h
      next =>
        cases h
        exact hone
      next count _ =>
        split at h
        next =>
          cases h
          exact hone
        next hzero =>
          split at h
          next hfew =>
            cases h
            exact isRollable_dice_iff.mpr ⟨⟨Nat.pos_of_ne_zero hzero, hfew⟩, hrange⟩
          next => cases h
  next =>
    unfold readFlat at h
    split at h
    next => cases h
    next value _ =>
      split at h
      next hsmall =>
        cases h
        exact isRollable_flat_iff.mpr hsmall
      next => cases h

/-! ## Reading a formula -/

/-- The pieces of terms in range are read as these terms, also if the first plus sign is missing. -/
theorem readTerms_of_pieces {cs : List Char} (hne : terms ≠ []) (hcs : cs ≠ [])
    (hpieces : (pieces cs).mapM readPiece = .ok (terms.map some)) : readTerms cs = .ok terms := by
  have hterms : (terms.map some).reduceOption = terms := by
    rw [List.reduceOption, List.filterMap_map]
    exact List.filterMap_some
  rw [readTerms, if_neg (by simpa using hcs), hpieces]
  show (if (terms.map some).reduceOption.isEmpty then _ else _) = _
  rw [hterms, if_neg (by simpa using hne)]
  rfl

theorem mapM_readPiece_chars (h : ∀ t ∈ terms, t.isRollable = true) :
    (terms.map chars).mapM readPiece = .ok (terms.map some) := by
  induction terms with
  | nil => rfl
  | cons t terms ih =>
      rw [List.map_cons, List.mapM_cons, readPiece_chars (h t List.mem_cons_self),
        ih fun u hu => h u (List.mem_cons_of_mem _ hu)]
      rfl

/-- Whether a formula is, but for blanks and capital letters, the text of these terms, of which the
first plus sign may be missing. -/
def IsWritten (formula : String) (terms : List Term) : Prop :=
  normalize formula = terms.flatMap chars ∨ '+' :: normalize formula = terms.flatMap chars

theorem parse_of_isWritten {formula : String} (hne : terms ≠ [])
    (hrange : ∀ t ∈ terms, t.isRollable = true) (h : IsWritten formula terms) :
    parse formula = .ok terms := by
  suffices hread : readTerms (normalize formula) = .ok terms by
    rw [parse, hread]
    rfl
  cases terms with
  | nil => exact absurd rfl hne
  | cons t terms =>
      rcases h with h | h
      · refine readTerms_of_pieces hne ?_ ?_
        · rw [h, List.flatMap_cons, chars_eq]
          exact List.cons_ne_nil _ _
        · rw [h, pieces_flatMap_chars, mapM_readPiece_chars hrange]
      · -- The first term is not negative, and its text stands without the sign.
        rw [List.flatMap_cons, chars_eq, List.cons_append, List.cons.injEq] at h
        obtain ⟨hsign, h⟩ := h
        have hadded : t.isNegative = false := by
          cases hnegative : t.isNegative with
          | false => rfl
          | true => simp [hnegative, sign] at hsign
        refine readTerms_of_pieces hne ?_ ?_
        · rw [h]
          exact List.append_ne_nil_of_left_ne_nil t.body_ne_nil _
        · rw [h, pieces_body_append, List.mapM_cons,
            readPiece_body (hrange t List.mem_cons_self) hadded,
            mapM_readPiece_chars fun u hu => hrange u (List.mem_cons_of_mem _ hu)]
          rfl

/-- What comes out of a list of pieces comes out of one of them. -/
theorem exists_readPiece {ps : List (List Char)} {read : List (Option Term)}
    (h : ps.mapM readPiece = .ok read) (ht : some t ∈ read) :
    ∃ piece ∈ ps, readPiece piece = .ok (some t) := by
  induction ps generalizing read with
  | nil =>
      cases h
      cases ht
  | cons p ps ih =>
      rw [List.mapM_cons] at h
      cases hp : readPiece p with
      | error fault =>
          rw [hp] at h
          cases h
      | ok first =>
          cases hps : ps.mapM readPiece with
          | error fault =>
              rw [hp, hps] at h
              cases h
          | ok others =>
              rw [hp, hps] at h
              cases h
              rcases List.mem_cons.mp ht with rfl | hothers
              · exact ⟨p, List.mem_cons_self, hp⟩
              · obtain ⟨piece, hpiece, hread⟩ := ih hps hothers
                exact ⟨piece, List.mem_cons_of_mem _ hpiece, hread⟩

theorem readTerms_spec {cs : List Char} (h : readTerms cs = .ok terms) :
    terms ≠ [] ∧ ∀ t ∈ terms, t.isRollable = true := by
  unfold readTerms at h
  split at h
  next => cases h
  next =>
    cases hread : (pieces cs).mapM readPiece with
    | error fault =>
        rw [hread] at h
        cases h
    | ok read =>
        rw [hread] at h
        change (if read.reduceOption.isEmpty then _ else _) = _ at h
        split at h
        next => cases h
        next hsome =>
          cases h
          refine ⟨by simpa using hsome, fun t ht => ?_⟩
          obtain ⟨piece, -, hpiece⟩ := exists_readPiece hread (List.reduceOption_mem_iff.mp ht)
          exact isRollable_of_readPiece hpiece

theorem readTerms_of_parse {formula : String} (h : parse formula = .ok terms) :
    readTerms (normalize formula) = .ok terms := by
  unfold parse at h
  cases hread : readTerms (normalize formula) with
  | error fault =>
      rw [hread] at h
      cases h
  | ok read =>
      rw [hread] at h
      cases h
      rfl

/-- **Reading undoes writing.**  Every formula that is written for terms in range, with any blanks
and in letters of either case, is read as these terms.  Conversely, the terms that any formula is
read as are in range, and the text written for them is read as the same terms again. -/
theorem parse_undoes_writing :
    (∀ (formula : String) (terms : List Term), terms ≠ [] → (∀ t ∈ terms, t.isRollable = true) →
        IsWritten formula terms → parse formula = .ok terms) ∧
      ∀ (formula : String) (terms : List Term), parse formula = .ok terms →
        terms ≠ [] ∧ (∀ t ∈ terms, t.isRollable = true) ∧ parse (joined terms) = .ok terms := by
  refine ⟨fun formula terms => parse_of_isWritten, fun formula terms h => ?_⟩
  obtain ⟨hne, hrange⟩ := readTerms_spec (readTerms_of_parse h)
  exact ⟨hne, hrange, parse_of_isWritten hne hrange (.inl (normalize_joined terms))⟩

/-- A formula with blanks, a capital letter and no sign in front, and one that is read only in
part. -/
theorem parse_undoes_writing_spaced :
    let terms : List Term := [.dice 12 6 false, .flat 7 true]
    (IsWritten " 1 2D6\t- 7" terms ∧ parse " 1 2D6\t- 7" = .ok terms) ∧
      parse "0d4+x+1001" = .ok [.dice 1 4 false, .flat 1001 false] ∧
        parse "+1d4+1001" = .ok [.dice 1 4 false, .flat 1001 false] := by
  intro terms
  have hwritten : IsWritten " 1 2D6\t- 7" terms := .inr (by decide +kernel)
  have hlenient : parse "0d4+x+1001" = .ok [.dice 1 4 false, .flat 1001 false] := by
    decide +kernel
  refine ⟨⟨hwritten, ?_⟩, hlenient, ?_⟩
  · exact parse_undoes_writing.1 _ terms (by decide) (by decide) hwritten
  · exact (parse_undoes_writing.2 _ _ hlenient).2.2

end Formula

end DiceTable
