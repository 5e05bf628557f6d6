import DiceTable.Proofs.Dice.Reading
import DiceTable.Proofs.Dice.Rolling

/-!
# When a roll leaves the range of totals

No formula that can be read states an amount that is too large by itself.  So a roll of its terms
can only fail at a sum, and it fails exactly if the sum of some throws, taken from the front, is
no possible total (`fails_iff_running_sum`).  The sum of all throws is one of these, but a roll
may also fail on the way to a total that is possible, and then the order of the terms matters
(`refused_on_the_way`).

## Strategy

How the parts of a roll come out does not depend on the order of its amounts: the dice draw the
same words as long as they stay in order among themselves (`filterMap_die?`), so that a reordering
of the amounts permutes the values of the throws (`values_perm_of_isReordering`).  Their sum stays
the same, and so do their gains and their losses, between which all running sums lie
(`isSigned64_of_prefix`).
-/

namespace DiceTable.Dice

open Throw

variable {words : WordStream} {drawn : Nat} {parts : List Component} {throws : List Throw}
  {terms others : List Term}

/-! ## Terms in another order -/

/-- Whether the term is a group of dice. -/
def isGroup : Term → Bool
  | .dice .. => true
  | .flat .. => false

/-- The terms are the same, and the groups of dice are in the same order; the amounts may stand
anywhere. -/
structure IsReordering (terms others : List Term) : Prop where
  perm : others.Perm terms
  filter_eq : others.filter isGroup = terms.filter isGroup

/-- The dice that show, if `drawn` words were drawn before them. -/
def shownDice (words : WordStream) : Nat → List (Nat × Bool) → List Die
  | _, [] => []
  | drawn, (sides, negative) :: rest =>
    let (face, next) := drawFace words drawn sides
    Die.standard sides (withSign negative face) :: shownDice words next rest

/-- Amounts do not touch the dice. -/
theorem filterMap_die? (h : Thrown words drawn parts throws) :
    throws.filterMap die? = shownDice words drawn (parts.filterMap Component.asked?) := by
  induction h with
  | nil drawn => rfl
  | @die drawn sides face next negative rest throws hface hrest ih =>
      show Die.standard sides (withSign negative face) :: throws.filterMap die? =
        shownDice words drawn ((sides, negative) :: rest.filterMap Component.asked?)
      rw [ih, shownDice, shows_iff.mp hface]
  | amount hrest ih => exact ih

theorem values_perm (h : Thrown words drawn parts throws) :
    (throws.map (·.value)).Perm
      ((throws.filterMap die?).map (·.value) ++ parts.filterMap Component.amount?) := by
  induction h with
  | nil drawn => exact .nil
  | die hface hrest ih => exact ih.cons _
  | amount hrest ih => exact (ih.cons _).trans List.perm_middle.symm

theorem flatMap_asked_filter (terms : List Term) :
    (terms.filter isGroup).flatMap asked = terms.flatMap asked := by
  induction terms with
  | nil => rfl
  | cons t terms ih =>
      cases t with
      | dice count sides negative => exact congrArg (asked (.dice count sides negative) ++ ·) ih
      | flat value negative => exact ih

/-- The values of the throws are the same but for their order. -/
theorem values_perm_of_isReordering {otherThrows : List Throw} (h : IsReordering terms others)
    (hthrown : Thrown words 0 (terms.flatMap components) throws)
    (hother : Thrown words 0 (others.flatMap components) otherThrows) :
    (otherThrows.map (·.value)).Perm (throws.map (·.value)) := by
  have hdice : otherThrows.filterMap die? = throws.filterMap die? := by
    rw [filterMap_die? hother, filterMap_die? hthrown, filterMap_asked?, filterMap_asked?,
      ← flatMap_asked_filter others, h.filter_eq, flatMap_asked_filter]
  have hamounts : (others.filterMap amount?).Perm (terms.filterMap amount?) :=
    h.perm.filterMap amount?
  refine (values_perm hother).trans (.trans ?_ (values_perm hthrown).symm)
  rw [hdice, filterMap_amount?, filterMap_amount?]
  exact hamounts.append_left _

/-! ## Running sums -/

namespace Throw

/-- The sum of the values that are added. -/
def gains (throws : List Throw) : Int := ((throws.map (·.value)).map (max 0)).sum

/-- The sum of the values that are subtracted. -/
def losses (throws : List Throw) : Int := ((throws.map (·.value)).map (min 0)).sum

theorem gains_cons (throw : Throw) (throws : List Throw) :
    gains (throw :: throws) = max 0 throw.value + gains throws := by
  rw [gains, List.map_cons, List.map_cons, List.sum_cons, gains]

theorem losses_cons (throw : Throw) (throws : List Throw) :
    losses (throw :: throws) = min 0 throw.value + losses throws := by
  rw [losses, List.map_cons, List.map_cons, List.sum_cons, losses]

theorem losses_nonpos_gains_nonneg (throws : List Throw) :
    losses throws ≤ 0 ∧ 0 ≤ gains throws := by
  induction throws with
  | nil => exact ⟨Int.le_refl 0, Int.le_refl 0⟩
  | cons throw throws ih =>
      rw [losses_cons, gains_cons]
      omega

/-- A running sum loses no more than all losses and gains no more than all gains. -/
theorem sum_mem_losses_gains (front rest : List Throw) :
    losses (front ++ rest) ≤ sum front ∧ sum front ≤ gains (front ++ rest) := by
  induction front with
  | nil => exact losses_nonpos_gains_nonneg rest
  | cons throw front ih =>
      rw [List.cons_append, losses_cons, gains_cons, sum, List.map_cons, List.sum_cons, ← sum]
      omega

end Throw

/-- Every running sum lies between the losses and the gains. -/
theorem isSigned64_of_prefix {front : List Throw} (hlosses : Word.minSigned64 ≤ losses throws)
    (hgains : gains throws ≤ Word.maxSigned64) (hfront : front <+: throws) :
    Word.isSigned64 (sum front) = true := by
  obtain ⟨rest, rfl⟩ := hfront
  obtain ⟨hlow, hhigh⟩ := sum_mem_losses_gains front rest
  exact Word.isSigned64_iff.mpr ⟨Int.le_trans hlosses hlow, Int.le_trans hhigh hgains⟩

theorem component_mem (h : Thrown words drawn parts throws) {throw : Throw}
    (hmem : throw ∈ throws) : throw.component ∈ parts := by
  induction h with
  | nil drawn => cases hmem
  | die hface hrest ih =>
      rcases List.mem_cons.mp hmem with rfl | hmem
      · exact List.mem_cons_self
      · exact List.mem_cons_of_mem _ (ih hmem)
  | amount hrest ih =>
      rcases List.mem_cons.mp hmem with rfl | hmem
      · exact List.mem_cons_self
      · exact List.mem_cons_of_mem _ (ih hmem)

/-- Terms within range hold no amount that is too large by itself. -/
theorem isTooLarge_eq_false (hrange : ∀ t ∈ terms, t.isRollable = true)
    (h : Thrown words drawn (terms.flatMap components) throws) {throw : Throw}
    (hmem : throw ∈ throws) : throw.isTooLarge = false := by
  obtain ⟨t, ht, hpart⟩ := List.mem_flatMap.mp (component_mem h hmem)
  unfold isTooLarge
  cases t with
  | dice count sides negative =>
      rw [(List.mem_replicate.mp hpart).2]
  | flat value negative =>
      rw [List.mem_singleton.mp hpart]
      simpa using Term.isRollable_flat_iff.mp (hrange _ ht)

/-- A throw that is not too large by itself has a fault only if the sum with it is out of range. -/
theorem fault?_of_not_isTooLarge {throw : Throw} (h : throw.isTooLarge = false) (start : Int) :
    throw.fault? start =
      if Word.isSigned64 (start + throw.value) then none else some .totalOutOfRange := by
  rw [fault?, h]
  rfl

theorem sum_concat (past : List Throw) (throw : Throw) :
    sum (past ++ [throw]) = sum past + throw.value := by
  simp [sum]

/-- If no throw is too large by itself, all is sound as long as the sums are. -/
theorem sound_iff (h : ∀ throw ∈ throws, throw.isTooLarge = false) :
    Sound 0 throws ↔ ∀ front, front <+: throws → Word.isSigned64 (sum front) = true := by
  have hfault {past rest : List Throw} {throw : Throw} (hsplit : throws = past ++ throw :: rest) :
      throw.fault? (0 + sum past) = none ↔ Word.isSigned64 (sum (past ++ [throw])) = true := by
    have hmem : throw ∈ throws := hsplit ▸ List.mem_append_right _ List.mem_cons_self
    rw [fault?_of_not_isTooLarge (h throw hmem), sum_concat, Int.zero_add]
    split <;> simp_all
  constructor
  · rintro hsound front ⟨rest, hrest⟩
    rcases List.eq_nil_or_concat front with rfl | ⟨past, throw, rfl⟩
    · decide
    · have hsplit : throws = past ++ throw :: rest := by simpa using hrest.symm
      rw [List.concat_eq_append]
      exact (hfault hsplit).mp (hsound past throw rest hsplit)
  · intro hsums past throw rest hsplit
    refine (hfault hsplit).mpr (hsums _ ⟨rest, ?_⟩)
    simp [hsplit]

/-! ## When a roll fails -/

/-- If the terms are within range, their roll fails exactly if a running sum does, and in no other
way; otherwise its total is the sum of all throws. -/
theorem simulate_of_isRollable (hrange : ∀ t ∈ terms, t.isRollable = true)
    (h : Thrown words 0 (terms.flatMap components) throws) :
    (∃ outcome, (simulate words terms).1 = .ok outcome ∧ outcome.total = sum throws ∧
        ∀ front, front <+: throws → Word.isSigned64 (sum front) = true) ∨
      (simulate words terms).1 = .error ⟨Term.joined terms, .totalOutOfRange⟩ ∧
        ∃ front, front <+: throws ∧ Word.isSigned64 (sum front) = false := by
  have hsmall : ∀ throw ∈ throws, throw.isTooLarge = false := fun throw hmem =>
    isTooLarge_eq_false hrange h hmem
  rcases simulate_spec h with
    ⟨hsound, hresult⟩ | ⟨past, throw, rest, fault, rfl, -, hfault, hresult⟩
  · refine .inl ⟨_, by rw [hresult], rfl, (sound_iff hsmall).mp hsound⟩
  · have hmem : throw ∈ past ++ throw :: rest := List.mem_append_right _ List.mem_cons_self
    rw [fault?_of_not_isTooLarge (hsmall throw hmem)] at hfault
    split at hfault
    next => cases hfault
    next hsum =>
      cases hfault
      refine .inr ⟨by rw [hresult], past ++ [throw], ⟨rest, by simp⟩, ?_⟩
      rw [sum_concat, ← Bool.not_eq_true]
      exact hsum

/-- Amounts that change places do not change the total.  If the gains and the losses by themselves
are possible totals, no order fails. -/
theorem simulate_of_isReordering (hothers : IsReordering terms others)
    (hrange : ∀ t ∈ terms, t.isRollable = true)
    (h : Thrown words 0 (terms.flatMap components) throws) :
    (∀ outcome, (simulate words others).1 = .ok outcome → outcome.total = sum throws) ∧
      (Word.minSigned64 ≤ losses throws → gains throws ≤ Word.maxSigned64 →
        ∃ outcome, (simulate words others).1 = .ok outcome) := by
  obtain ⟨otherThrows, hother⟩ := exists_thrown words 0 (others.flatMap components)
  have hrange' : ∀ t ∈ others, t.isRollable = true := fun t ht =>
    hrange t (hothers.perm.mem_iff.mp ht)
  have hvalues := values_perm_of_isReordering hothers h hother
  have hsum : sum otherThrows = sum throws := hvalues.sum_eq
  have hgains : gains otherThrows = gains throws := (hvalues.map _).sum_eq
  have hlosses : losses otherThrows = losses throws := (hvalues.map _).sum_eq
  rcases simulate_of_isRollable hrange' hother with ⟨outcome, hok, htotal, -⟩ |
    ⟨herror, front, hprefix, hfalse⟩
  · refine ⟨fun result hresult => ?_, fun _ _ => ⟨outcome, hok⟩⟩
    cases hok.symm.trans hresult
    rw [htotal, hsum]
  · refine ⟨fun result hresult => ?_, fun hlow hhigh => ?_⟩
    · cases herror.symm.trans hresult
    · have hin : Word.isSigned64 (sum front) = true :=
        isSigned64_of_prefix (hlosses ▸ hlow) (hgains ▸ hhigh) hprefix
      cases hfalse.symm.trans hin

/-- **A roll fails at a running sum.**  The throws for the terms of any formula that is read come
out in one way.  The roll fails exactly if the sum of some of them, taken from the front, is no
possible total, and so in particular if the sum of all is none; it never fails for anything else.
Amounts may change places: a roll that does not fail always has the exact sum of all throws for
its total, and no order fails if the gains and the losses by themselves are possible totals. -/
theorem fails_iff_running_sum {formula : String} {terms : List Term}
    (h : Formula.parse formula = .ok terms) (words : WordStream) :
    ∃ throws, (∀ other, Thrown words 0 (terms.flatMap components) other ↔ other = throws) ∧
      ((∃ e, (simulate words terms).1 = .error e) ↔
        ∃ front, front <+: throws ∧ Word.isSigned64 (sum front) = false) ∧
      (∀ e, (simulate words terms).1 = .error e → e = ⟨Term.joined terms, .totalOutOfRange⟩) ∧
      ∀ others, IsReordering terms others →
        (∀ outcome, (simulate words others).1 = .ok outcome → outcome.total = sum throws) ∧
          (Word.minSigned64 ≤ losses throws → gains throws ≤ Word.maxSigned64 →
            ∃ outcome, (simulate words others).1 = .ok outcome) := by
  have hrange : ∀ t ∈ terms, t.isRollable = true :=
    (Formula.readTerms_spec (Formula.readTerms_of_parse h)).2
  obtain ⟨throws, hthrown⟩ := exists_thrown words 0 (terms.flatMap components)
  refine ⟨throws, fun other => ⟨fun hother => hother.unique hthrown, fun heq => heq ▸ hthrown⟩,
    ?_, ?_, fun others hothers => simulate_of_isReordering hothers hrange hthrown⟩
  · rcases simulate_of_isRollable hrange hthrown with ⟨outcome, hok, -, hsums⟩ | ⟨herror, hfront⟩
    · refine iff_of_false ?_ ?_
      · rintro ⟨e, he⟩
        cases hok.symm.trans he
      · rintro ⟨front, hprefix, hfalse⟩
        exact absurd (hsums front hprefix) (by simp [hfalse])
    · exact iff_of_true ⟨_, herror⟩ hfront
  · intro e he
    rcases simulate_of_isRollable hrange hthrown with ⟨outcome, hok, -⟩ | ⟨herror, -⟩
    · cases hok.symm.trans he
    · cases herror.symm.trans he
      rfl

/-- The largest amount and a die leave the range, also if the die is taken back at the end. -/
theorem fails_iff_running_sum_brink :
    let words : WordStream := fun _ => 0
    let terms : List Term := [.flat 9223372036854775807 false, .dice 1 1 false, .flat 1 true]
    Formula.parse "9223372036854775807 + d1 - 1" = .ok terms ∧
      (simulate words terms).1 =
        .error ⟨"+9223372036854775807+1d1-1", .totalOutOfRange⟩ ∧
      ∃ throws front, Thrown words 0 (terms.flatMap components) throws ∧ front <+: throws ∧
        Word.isSigned64 (sum front) = false := by
  intro words terms
  have hparse : Formula.parse "9223372036854775807 + d1 - 1" = .ok terms := by decide +kernel
  have hresult : (simulate words terms).1 =
      .error ⟨"+9223372036854775807+1d1-1", .totalOutOfRange⟩ := by decide +kernel
  obtain ⟨throws, hthrown, hfails, -⟩ := fails_iff_running_sum hparse words
  obtain ⟨front, hprefix, hfalse⟩ := hfails.mp ⟨_, hresult⟩
  exact ⟨hparse, hresult, throws, front, (hthrown throws).mpr rfl, hprefix, hfalse⟩

/-- A roll may fail although the sum of its throws is a possible total, and the same terms can be
rolled in another order. -/
theorem refused_on_the_way :
    let words : WordStream := fun _ => 0
    let terms : List Term :=
      [.flat 9223372036854775807 false, .flat 1 false, .flat 1 true]
    let others : List Term :=
      [.flat 9223372036854775807 false, .flat 1 true, .flat 1 false]
    Formula.parse "9223372036854775807+1-1" = .ok terms ∧
      (∃ throws, Thrown words 0 (terms.flatMap components) throws ∧
        Word.isSigned64 (sum throws) = true) ∧
      (∃ e, (simulate words terms).1 = .error e) ∧
      IsReordering terms others ∧
      ∃ outcome, (simulate words others).1 = .ok outcome ∧ outcome.total = Word.maxSigned64 := by
  intro words terms others
  have hfails : (simulate words terms).1 =
      .error ⟨"+9223372036854775807+1-1", .totalOutOfRange⟩ := by decide +kernel
  have hrolls : (simulate words others).1 =
      .ok ⟨[], [.ofSigned 9223372036854775807, .ofSigned (-1), .ofSigned 1],
        9223372036854775807⟩ := by
    decide +kernel
  refine ⟨by decide +kernel, ⟨_, .amount (.amount (.amount (.nil 0))), by decide⟩, ⟨_, hfails⟩, ?_,
    _, hrolls, rfl⟩
  exact ⟨(List.Perm.swap ..).cons _, rfl⟩

end DiceTable.Dice
