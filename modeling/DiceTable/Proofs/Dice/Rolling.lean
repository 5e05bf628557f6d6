import DiceTable.Dice.Draw
import Mathlib

/-!
# What a roll comes to

A roll is first described without its limits.  Each component comes out in turn: a die shows a face
that depends on one word or two (`Shows`), and an amount is what it is.  The list of these *throws*
(`Thrown`) says what would lie on the table if nothing could go wrong.

A roll goes through the throws in order and stops at the first one with a fault: an amount that is
too large by itself, or one that takes the running sum out of the range of totals (`Throw.fault?`).
If there is none, the dice and the modifiers on the table are those of all the throws, and the total
is their exact sum (`simulate_exact`).

## Strategy

Adding a component to the tray is taking its throw (`add_of_shows`, `add_amount`), so that a roll
ends as its throws do (`ended_foldlM`), by induction over them.  What a finished roll consists of is
read off the throws afterwards.  A face is never beyond the sides of its die: a die that would show
its last side has too small a lower half to draw a second word (`Shows.le_sides`).
-/

namespace DiceTable.Dice

/-! ## The face of a die -/

/-- The upper half of a word times the sides. -/
def upper (word : UInt32) (sides : Nat) : Nat := (word.toNat * sides) >>> 32

/-- The lower half of a word times the sides. -/
def lower (word : UInt32) (sides : Nat) : Nat := word.toNat * sides % 2 ^ 32

/-- A die shows `face` and leaves `next` words drawn, if `drawn` were drawn before it.  A second
word is drawn if the lower half is beyond `2 ^ 32 - sides`, and it counts if its own upper half
makes the lower half carry. -/
inductive Shows (words : WordStream) (drawn sides : Nat) : (face next : Nat) → Prop where
  | once (hlow : lower (words drawn) sides ≤ 2 ^ 32 - sides) :
      Shows words drawn sides (upper (words drawn) sides + 1) (drawn + 1)
  | twice (hlow : 2 ^ 32 - sides < lower (words drawn) sides) (carry : Nat)
      (hcarry : carry =
        if 2 ^ 32 ≤ lower (words drawn) sides + upper (words (drawn + 1)) sides then 1 else 0) :
      Shows words drawn sides (upper (words drawn) sides + carry + 1) (drawn + 2)

theorem shows_iff {words : WordStream} {drawn sides face next : Nat} :
    Shows words drawn sides face next ↔ drawFace words drawn sides = (face, next) := by
  have hdraw : drawFace words drawn sides =
      if 2 ^ 32 - sides < lower (words drawn) sides then
        (if 2 ^ 32 ≤ lower (words drawn) sides + upper (words (drawn + 1)) sides then
          upper (words drawn) sides + 1 + 1 else upper (words drawn) sides + 1, drawn + 2)
      else (upper (words drawn) sides + 1, drawn + 1) := by
    simp only [drawFace, wordCount, upper, lower, Nat.shiftRight_eq_div_pow]
    rfl
  rw [hdraw]
  constructor
  · rintro (hlow | ⟨hlow, carry, rfl⟩)
    · rw [if_neg (Nat.not_lt.mpr hlow)]
    · rw [if_pos hlow]
      split <;> rfl
  · intro h
    split at h
    next hlow =>
      obtain ⟨rfl, rfl⟩ := Prod.mk.inj h
      split
      next hcarry => exact .twice hlow 1 (if_pos hcarry).symm
      next hcarry => exact .twice hlow 0 (if_neg hcarry).symm
    next hlow =>
      obtain ⟨rfl, rfl⟩ := Prod.mk.inj h
      exact .once (Nat.not_lt.mp hlow)

/-- No die shows a face that it does not have. -/
theorem Shows.le_sides {words : WordStream} {drawn sides face next : Nat}
    (h : Shows words drawn sides face next) (hpos : 1 ≤ sides) (hsmall : sides ≤ 2 ^ 32) :
    face ≤ sides := by
  have hword : (words drawn).toNat * sides ≤ (2 ^ 32 - 1) * sides :=
    Nat.mul_le_mul_right _ (Nat.le_pred_of_lt (words drawn).toNat_lt)
  have hhalves : 2 ^ 32 * upper (words drawn) sides + lower (words drawn) sides =
      (words drawn).toNat * sides := by
    rw [upper, lower, Nat.shiftRight_eq_div_pow]
    exact Nat.div_add_mod _ _
  cases h with
  | once hlow => omega
  | twice hlow carry hcarry =>
      -- The last side leaves a lower half of at most `2 ^ 32 - sides`.
      have hcarry : carry ≤ 1 := by rw [hcarry]; split <;> omega
      omega

/-! ## Throws -/

/-- How a component came out: its signed value, and the number of words drawn by then. -/
structure Throw where
  component : Component
  value : Int
  drawn : Nat
  deriving DecidableEq, Repr

/-- The components come out like this, in order, if `drawn` words were drawn before. -/
inductive Thrown (words : WordStream) : (drawn : Nat) → List Component → List Throw → Prop where
  | nil (drawn : Nat) : Thrown words drawn [] []
  | die {drawn sides face next : Nat} {negative : Bool} {rest : List Component}
      {throws : List Throw} (hface : Shows words drawn sides face next)
      (hrest : Thrown words next rest throws) :
      Thrown words drawn (.die sides negative :: rest)
        (⟨.die sides negative, withSign negative face, next⟩ :: throws)
  | amount {drawn value : Nat} {negative : Bool} {rest : List Component} {throws : List Throw}
      (hrest : Thrown words drawn rest throws) :
      Thrown words drawn (.amount value negative :: rest)
        (⟨.amount value negative, withSign negative value, drawn⟩ :: throws)

theorem exists_thrown (words : WordStream) (drawn : Nat) (parts : List Component) :
    ∃ throws, Thrown words drawn parts throws := by
  induction parts generalizing drawn with
  | nil => exact ⟨[], .nil drawn⟩
  | cons part rest ih =>
      cases part with
      | die sides negative =>
          obtain ⟨throws, hthrows⟩ := ih (drawFace words drawn sides).2
          exact ⟨_, .die (shows_iff.mpr rfl) hthrows⟩
      | amount value negative =>
          obtain ⟨throws, hthrows⟩ := ih drawn
          exact ⟨_, .amount hthrows⟩

theorem Thrown.unique {words : WordStream} {drawn : Nat} {parts : List Component}
    {throws others : List Throw} (h : Thrown words drawn parts throws)
    (hother : Thrown words drawn parts others) : throws = others := by
  induction h generalizing others with
  | nil drawn =>
      cases hother
      rfl
  | die hface hrest ih =>
      cases hother with
      | die hface' hrest' =>
          obtain ⟨rfl, rfl⟩ := Prod.mk.inj ((shows_iff.mp hface).symm.trans (shows_iff.mp hface'))
          rw [ih hrest']
  | amount hrest ih =>
      cases hother with
      | amount hrest' => rw [ih hrest']

namespace Throw

/-- Whether this is an amount that is too large by itself. -/
def isTooLarge (throw : Throw) : Bool :=
  match throw.component with
  | .amount value _ => Word.maxSigned64 < value
  | .die .. => false

/-- What stops a roll at this throw, if its values add up to `sum` before. -/
def fault? (sum : Int) (throw : Throw) : Option DiceFault :=
  if throw.isTooLarge then some .amountTooLarge
  else if Word.isSigned64 (sum + throw.value) then none
  else some .totalOutOfRange

/-- The die that is put down for a throw. -/
def die? (throw : Throw) : Option Die :=
  match throw.component with
  | .die sides _ => some (Die.standard sides throw.value)
  | .amount .. => none

/-- The modifier that is put down for a throw. -/
def modifier? (throw : Throw) : Option Modifier :=
  match throw.component with
  | .die .. => none
  | .amount .. => some (Modifier.ofSigned throw.value)

/-- The exact sum of throws. -/
def sum (throws : List Throw) : Int := (throws.map (·.value)).sum

/-- The number of words drawn after these throws, if nothing was drawn before them. -/
def wordsDrawn (throws : List Throw) : Nat := (throws.getLast?.map (·.drawn)).getD 0

/-- No throw has a fault when it is its turn, if the values add up to `start` before them all. -/
def Sound (start : Int) (throws : List Throw) : Prop :=
  ∀ past throw rest, throws = past ++ throw :: rest → throw.fault? (start + sum past) = none

theorem sound_nil (start : Int) : Sound start [] := by
  intro past throw rest h
  simp at h

theorem sound_cons_iff {start : Int} {throw : Throw} {throws : List Throw} :
    Sound start (throw :: throws) ↔
      throw.fault? start = none ∧ Sound (start + throw.value) throws := by
  constructor
  · intro h
    refine ⟨by simpa [sum] using h [] throw throws rfl, fun past later rest hsplit => ?_⟩
    have hlater := h (throw :: past) later rest (by rw [hsplit, List.cons_append])
    rwa [sum, List.map_cons, List.sum_cons, ← Int.add_assoc] at hlater
  · rintro ⟨hthrow, hthrows⟩ past later rest hsplit
    cases past with
    | nil =>
        cases hsplit
        simpa [sum] using hthrow
    | cons first past =>
        cases hsplit
        rw [sum, List.map_cons, List.sum_cons, ← Int.add_assoc]
        exact hthrows past later rest rfl

end Throw

open Throw

/-! ## Going through the throws -/

/-- Puts down what was thrown. -/
def Tray.put (tray : Tray) (throw : Throw) : Tray where
  dice := throw.die?.toList ++ tray.dice
  modifiers := throw.modifier?.toList ++ tray.modifiers
  total := tray.total + throw.value
  drawn := throw.drawn

/-- Puts down what was thrown, unless it has a fault. -/
def Tray.take (tray : Tray) (throw : Throw) : Except Stop Tray :=
  match throw.fault? tray.total with
  | none => .ok (tray.put throw)
  | some fault => .error ⟨fault, throw.drawn⟩

theorem add_of_shows {words : WordStream} {tray : Tray} {sides face next : Nat} (negative : Bool)
    (h : Shows words tray.drawn sides face next) :
    tray.add words (.die sides negative) =
      tray.take ⟨.die sides negative, withSign negative face, next⟩ := by
  rw [Tray.add, shows_iff.mp h]
  simp only [Tray.take, fault?, isTooLarge, Word.addSigned64?]
  cases Word.isSigned64 (tray.total + withSign negative face) <;> rfl

theorem add_amount (words : WordStream) (tray : Tray) (value : Nat) (negative : Bool) :
    tray.add words (.amount value negative) =
      tray.take ⟨.amount value negative, withSign negative value, tray.drawn⟩ := by
  rw [Tray.add]
  simp only [Tray.take, fault?, isTooLarge, Word.addSigned64?, decide_eq_true_eq]
  by_cases hvalue : (value : Int) ≤ Word.maxSigned64
  · rw [if_pos hvalue, if_neg (Int.not_lt.mpr hvalue)]
    cases Word.isSigned64 (tray.total + withSign negative value) <;> rfl
  · rw [if_neg hvalue, if_pos (Int.not_le.mp hvalue)]

/-- The ways in which a roll can end: all throws are put down, or the first one with a fault ends
it. -/
inductive Ended (tray : Tray) (throws : List Throw) : Except Stop Tray → Prop where
  | complete (hsound : Sound tray.total throws) :
      Ended tray throws (.ok (throws.foldl Tray.put tray))
  | stopped (past : List Throw) (throw : Throw) (rest : List Throw) (fault : DiceFault)
      (hsplit : throws = past ++ throw :: rest) (hsound : Sound tray.total past)
      (hfault : throw.fault? (tray.total + sum past) = some fault) :
      Ended tray throws (.error ⟨fault, throw.drawn⟩)

/-- A throw with a fault ends the roll, and the others leave it to those after them. -/
theorem Ended.cons {tray : Tray} {throw : Throw} {throws : List Throw}
    {go : Tray → Except Stop Tray} (h : Ended (tray.put throw) throws (go (tray.put throw))) :
    Ended tray (throw :: throws) (tray.take throw >>= go) := by
  rw [Tray.take]
  cases hfault : throw.fault? tray.total with
  | some fault =>
      exact .stopped [] throw throws fault rfl (sound_nil _) (by simpa [sum] using hfault)
  | none =>
      show Ended tray (throw :: throws) (go (tray.put throw))
      generalize go (tray.put throw) = result at h
      cases h with
      | complete hsound => exact .complete (sound_cons_iff.mpr ⟨hfault, hsound⟩)
      | stopped past later rest fault hsplit hsound hlater =>
          refine .stopped (throw :: past) later rest fault (by rw [hsplit, List.cons_append])
            (sound_cons_iff.mpr ⟨hfault, hsound⟩) ?_
          rwa [sum, List.map_cons, List.sum_cons, ← Int.add_assoc]

/-- A roll ends as its throws do. -/
theorem ended_foldlM {words : WordStream} {drawn : Nat} {parts : List Component}
    {throws : List Throw} (h : Thrown words drawn parts throws) (tray : Tray)
    (htray : tray.drawn = drawn) :
    Ended tray throws (parts.foldlM (Tray.add words) tray) := by
  induction h generalizing tray with
  | nil drawn => exact .complete (sound_nil _)
  | die hface hrest ih =>
      subst htray
      rw [List.foldlM_cons, add_of_shows _ hface]
      exact .cons (ih _ rfl)
  | amount hrest ih =>
      subst htray
      rw [List.foldlM_cons, add_amount]
      exact .cons (ih _ rfl)

/-! ## What lies on the table -/

theorem dice_foldl_put (throws : List Throw) (tray : Tray) :
    (throws.foldl Tray.put tray).dice = (throws.filterMap die?).reverse ++ tray.dice := by
  induction throws generalizing tray with
  | nil => rfl
  | cons throw throws ih =>
      rw [List.foldl_cons, ih, Tray.put, List.filterMap_cons]
      cases throw.die? with
      | none => rfl
      | some die => simp

theorem modifiers_foldl_put (throws : List Throw) (tray : Tray) :
    (throws.foldl Tray.put tray).modifiers =
      (throws.filterMap modifier?).reverse ++ tray.modifiers := by
  induction throws generalizing tray with
  | nil => rfl
  | cons throw throws ih =>
      rw [List.foldl_cons, ih, Tray.put, List.filterMap_cons]
      cases throw.modifier? with
      | none => rfl
      | some modifier => simp

theorem total_foldl_put (throws : List Throw) (tray : Tray) :
    (throws.foldl Tray.put tray).total = tray.total + sum throws := by
  induction throws generalizing tray with
  | nil => simp [sum]
  | cons throw throws ih =>
      rw [List.foldl_cons, ih, Tray.put, sum, sum, List.map_cons, List.sum_cons, Int.add_assoc]

theorem drawn_foldl_put (throws : List Throw) :
    (throws.foldl Tray.put {}).drawn = wordsDrawn throws := by
  rcases List.eq_nil_or_concat throws with rfl | ⟨past, throw, rfl⟩
  · rfl
  · simp [wordsDrawn, Tray.put]

/-- A roll that went through all its throws shows their dice, their modifiers and their sum; one
that did not tells which throw was the first with a fault. -/
theorem simulate_spec {words : WordStream} {terms : List Term} {throws : List Throw}
    (h : Thrown words 0 (terms.flatMap components) throws) :
    (Sound 0 throws ∧ simulate words terms =
        (.ok ⟨throws.filterMap die?, throws.filterMap modifier?, sum throws⟩, wordsDrawn throws)) ∨
      ∃ past throw rest fault, throws = past ++ throw :: rest ∧ Sound 0 past ∧
        throw.fault? (sum past) = some fault ∧
        simulate words terms = (.error ⟨Term.joined terms, fault⟩, throw.drawn) := by
  have hended := ended_foldlM h {} rfl
  rw [simulate]
  generalize (terms.flatMap components).foldlM (Tray.add words) {} = result at hended
  cases hended with
  | complete hsound =>
      refine .inl ⟨hsound, ?_⟩
      simp [Tray.outcome, dice_foldl_put, modifiers_foldl_put, total_foldl_put, drawn_foldl_put]
  | stopped past throw rest fault hsplit hsound hfault =>
      exact .inr ⟨past, throw, rest, fault, hsplit, hsound, by simpa using hfault, rfl⟩

/-! ## Dice and modifiers of the terms -/

/-- The dice that a term asks for, each by its sides and its sign. -/
def asked : Term → List (Nat × Bool)
  | .dice count sides negative => List.replicate count (sides, negative)
  | .flat .. => []

/-- The amount that a term adds by itself. -/
def amount? : Term → Option Int
  | .flat value negative => some (withSign negative value)
  | .dice .. => none

namespace Component

def asked? : Component → Option (Nat × Bool)
  | .die sides negative => some (sides, negative)
  | .amount .. => none

def amount? : Component → Option Int
  | .amount value negative => some (withSign negative value)
  | .die .. => none

end Component

theorem filterMap_asked? (terms : List Term) :
    (terms.flatMap components).filterMap Component.asked? = terms.flatMap asked := by
  rw [List.filterMap_flatMap]
  congr 1
  funext t
  cases t with
  | dice count sides negative => exact List.filterMap_replicate_of_some rfl
  | flat value negative => rfl

theorem filterMap_amount? (terms : List Term) :
    (terms.flatMap components).filterMap Component.amount? = terms.filterMap amount? := by
  induction terms with
  | nil => rfl
  | cons t terms ih =>
      rw [List.flatMap_cons, List.filterMap_append, ih, List.filterMap_cons]
      cases t with
      | dice count sides negative => simp [components, Component.amount?, amount?]
      | flat value negative => rfl

/-- Whether this is a standard die with the sides asked for, which shows one of its faces with the
sign asked for. -/
def IsFaceOf (asked : Nat × Bool) (die : Die) : Prop :=
  ∃ face : Nat, 1 ≤ face ∧ face ≤ asked.1 ∧
    die = Die.standard asked.1 (withSign asked.2 face)

/-- One die after the other, every throw shows a face of the die that was asked for. -/
theorem forall₂_isFaceOf {words : WordStream} {drawn : Nat} {parts : List Component}
    {throws : List Throw} (h : Thrown words drawn parts throws)
    (hsides : ∀ sides negative, .die sides negative ∈ parts →
      1 ≤ sides ∧ sides ≤ Word.maxUnsigned32) :
    List.Forall₂ IsFaceOf (parts.filterMap Component.asked?) (throws.filterMap die?) := by
  induction h with
  | nil drawn => exact .nil
  | @die drawn sides face next negative rest throws hface hrest ih =>
      obtain ⟨hpos, hsmall⟩ := hsides _ _ List.mem_cons_self
      have hshown : 1 ≤ face := by cases hface <;> exact Nat.succ_pos _
      have hle : face ≤ sides := hface.le_sides hpos (Nat.le_trans hsmall (by decide))
      exact .cons ⟨face, hshown, hle, rfl⟩
        (ih fun sides negative hmem => hsides sides negative (List.mem_cons_of_mem _ hmem))
  | amount hrest ih =>
      exact ih fun sides negative hmem => hsides sides negative (List.mem_cons_of_mem _ hmem)

/-- A modifier contributes the amount that it was made of, if that is a possible total with either
sign. -/
theorem signed_ofSigned {amount : Int} (h : (amount.natAbs : Int) ≤ Word.maxSigned64) :
    (Modifier.ofSigned amount).signed = amount := by
  rw [Modifier.signed_ofSigned_eq_max]
  omega

/-- Modifiers contribute what was thrown, unless an amount was too large. -/
theorem map_signed_modifier? {words : WordStream} {start : Int} {drawn : Nat}
    {parts : List Component} {throws : List Throw} (h : Thrown words drawn parts throws)
    (hsound : Sound start throws) :
    (throws.filterMap modifier?).map Modifier.signed = parts.filterMap Component.amount? := by
  induction h generalizing start with
  | nil drawn => rfl
  | die hface hrest ih => exact ih (sound_cons_iff.mp hsound).2
  | @amount drawn value negative rest throws hrest ih =>
      obtain ⟨hthrow, hthrows⟩ := sound_cons_iff.mp hsound
      have hvalue : (value : Int) ≤ Word.maxSigned64 := by
        by_contra hlarge
        simp [fault?, isTooLarge, Int.not_le.mp hlarge] at hthrow
      have hsigned :
          (Modifier.ofSigned (withSign negative value)).signed = withSign negative value :=
        signed_ofSigned (by cases negative <;> simpa [withSign] using hvalue)
      show Modifier.signed _ :: _ = _ :: _
      rw [hsigned, ih hthrows]

/-- The exact sum is that of the dice and that of the amounts, in whatever order they came. -/
theorem sum_eq {words : WordStream} {drawn : Nat} {parts : List Component} {throws : List Throw}
    (h : Thrown words drawn parts throws) :
    sum throws = ((throws.filterMap die?).map (·.value)).sum +
      (parts.filterMap Component.amount?).sum := by
  induction h with
  | nil drawn => rfl
  | @die drawn sides face next negative rest throws hface hrest ih =>
      show withSign negative face + sum throws = _
      rw [ih, ← Int.add_assoc]
      rfl
  | @amount drawn value negative rest throws hrest ih =>
      show withSign negative value + sum throws = _ + (withSign negative value + _)
      rw [ih]
      exact Int.add_left_comm ..

/-- **A roll is exact.**  However many terms there are and whatever words are drawn, the components
come out in one way.  If the roll succeeds, no throw had a fault, and on the table lie the dice that
the terms ask for, in their order, each showing one of its faces with the sign of its term, and
beside them the amounts of the terms; the total is the sum of both.  If it fails, it stopped at the
first throw with a fault: an amount that is too large, or a running sum that is no possible total.
Words are drawn up to that throw and no further. -/
theorem simulate_exact (words : WordStream) (terms : List Term)
    (hsides : ∀ count sides negative, Term.dice count sides negative ∈ terms →
      1 ≤ sides ∧ sides ≤ Word.maxUnsigned32) :
    ∃ throws, (∀ other, Thrown words 0 (terms.flatMap components) other ↔ other = throws) ∧
      match simulate words terms with
      | (.ok outcome, drawn) =>
        Sound 0 throws ∧ drawn = wordsDrawn throws ∧ outcome.dice = throws.filterMap die? ∧
          List.Forall₂ IsFaceOf (terms.flatMap asked) outcome.dice ∧
          outcome.modifiers.map Modifier.signed = terms.filterMap amount? ∧
          outcome.total =
            (outcome.dice.map (·.value)).sum + (outcome.modifiers.map Modifier.signed).sum
      | (.error e, drawn) =>
        ∃ past throw rest, throws = past ++ throw :: rest ∧ Sound 0 past ∧
          throw.fault? (sum past) = some e.fault ∧ e.formula = Term.joined terms ∧
          drawn = throw.drawn := by
  obtain ⟨throws, hthrown⟩ := exists_thrown words 0 (terms.flatMap components)
  refine ⟨throws, fun other => ⟨fun hother => hother.unique hthrown, fun h => h ▸ hthrown⟩, ?_⟩
  rcases simulate_spec hthrown with ⟨hsound, hresult⟩ | ⟨past, throw, rest, fault, hsplit, hpast,
    hfault, hresult⟩
  · rw [hresult]
    have hmodifiers := map_signed_modifier? hthrown hsound
    refine ⟨hsound, rfl, rfl, ?_, ?_, ?_⟩
    · rw [← filterMap_asked?]
      refine forall₂_isFaceOf hthrown fun sides negative hmem => ?_
      obtain ⟨t, ht, hpart⟩ := List.mem_flatMap.mp hmem
      cases t with
      | flat value sign => simp [components] at hpart
      | dice count termSides sign =>
          cases (List.mem_replicate.mp hpart).2
          exact hsides count sides negative ht
    · rw [← filterMap_amount?]
      exact hmodifiers
    · rw [hmodifiers]
      exact sum_eq hthrown
  · rw [hresult]
    exact ⟨past, throw, rest, hsplit, hpast, hfault, rfl, rfl⟩

/-- A die with as many sides as a die can have, drawn with a second word that moves it from one to
two. -/
theorem simulate_exact_carried :
    let words : WordStream := fun i => if i = 0 then 1 else 2
    let terms : List Term := [.dice 1 4294967295 true, .flat 7 false]
    (∀ count sides negative, Term.dice count sides negative ∈ terms →
        1 ≤ sides ∧ sides ≤ Word.maxUnsigned32) ∧
      simulate words terms =
        (.ok ⟨[Die.standard 4294967295 (-2)], [Modifier.ofSigned 7], 5⟩, 2) ∧
      ∃ throws, Thrown words 0 (terms.flatMap components) throws ∧ Sound 0 throws ∧
        wordsDrawn throws = 2 := by
  intro words terms
  have hsides : ∀ count sides negative, Term.dice count sides negative ∈ terms →
      1 ≤ sides ∧ sides ≤ Word.maxUnsigned32 := by
    intro count sides negative hmem
    rcases List.mem_cons.mp hmem with hdice | hflat
    · cases hdice
      decide
    · simp at hflat
  have hresult : simulate words terms =
      (.ok ⟨[Die.standard 4294967295 (-2)], [Modifier.ofSigned 7], 5⟩, 2) := by
    decide +kernel
  have hexact := simulate_exact words terms hsides
  rw [hresult] at hexact
  obtain ⟨throws, hthrown, hsound, hdrawn, -⟩ := hexact
  exact ⟨hsides, hresult, throws, (hthrown throws).mpr rfl, hsound, hdrawn.symm⟩

end DiceTable.Dice
