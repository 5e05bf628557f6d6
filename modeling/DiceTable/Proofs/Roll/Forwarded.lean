import DiceTable.Feed.Route
import Mathlib.Algebra.Ring.Int.Defs

/-!
# The numbers of a forwarded roll

A proxy passes on bare values, and the client makes a record of them: one die for each value, and
one modifier for the flat amount.  The modifier keeps a direction and a magnitude, and a magnitude
counts for no more than the largest total (`Modifier.signed_ofSigned_eq_max`).  The range of
totals reaches one further down than up.  So every amount in range comes back as it was, except
the least: its magnitude is one more than the largest total, and it comes back one too high.
-/

namespace DiceTable

/-- What a modifier contributes beyond the amount that was put into it. -/
def Modifier.excess (amount : Int) : Int := if amount = Word.minSigned64 then 1 else 0

theorem Modifier.signed_ofSigned_eq_add {amount : Int} (h : Word.isSigned64 amount = true) :
    (ofSigned amount).signed = amount + excess amount := by
  by_cases hleast : amount = Word.minSigned64
  · rw [hleast]
    decide
  · rw [Word.isSigned64_iff] at h
    rw [signed_ofSigned_eq_max, excess, if_neg hleast]
    simp only [Word.minSigned64, Word.maxSigned64] at h hleast ⊢
    omega

namespace ForwardedRoll

/-- **The numbers of a forwarded roll are kept, up to the excess of its modifier.**  The record
has the total of the roll, a die of unknown size for each value, in order, and one modifier.  The
modifier contributes the amount of the roll, or one more if that is the least of all.  So if the
total of the roll is the sum of its values and its amount, the parts of the record add up to its
total, and to one more if the amount is the least. -/
theorem numbers_kept (f : ForwardedRoll) (occasion : Occasion)
    (hmodifier : Word.isSigned64 f.modifier = true) :
    let record := f.toRecord occasion
    record.total = f.total ∧
      record.dice.map (fun die => (die.sides, die.value)) =
        f.rolls.map (fun value => (none, value)) ∧
      (∃ m, record.modifiers = [m] ∧ m.signed = f.modifier + Modifier.excess f.modifier) ∧
      (f.total = f.rolls.sum + f.modifier →
        (record.dice.map (·.value)).sum + (record.modifiers.map (·.signed)).sum =
          record.total + Modifier.excess f.modifier) := by
  intro record
  have hdice : record.dice.map (·.value) = f.rolls := by
    show (f.rolls.map Die.unsized).map (·.value) = f.rolls
    rw [List.map_map]
    exact List.map_id f.rolls
  have hmodifiers : record.modifiers.map (·.signed) = [f.modifier + Modifier.excess f.modifier] :=
    congrArg (fun amount => [amount]) (Modifier.signed_ofSigned_eq_add hmodifier)
  refine ⟨rfl, List.map_map, ⟨_, rfl, Modifier.signed_ofSigned_eq_add hmodifier⟩, fun htotal => ?_⟩
  rw [hdice, hmodifiers, List.sum_singleton, ← Int.add_assoc, ← htotal]
  rfl

/-- A roll with the least modifier of all. -/
def lowest : ForwardedRoll where
  formula := "1d6-9223372036854775808"
  rolls := [4]
  modifier := Word.minSigned64
  total := Word.minSigned64 + 4
  player := none
  timestamp := none

/-- The parts of its record add up to one too much. -/
theorem numbers_kept_lowest :
    let record := lowest.toRecord ⟨.epoch, 0⟩
    Word.isSigned64 lowest.modifier = true ∧ lowest.total = lowest.rolls.sum + lowest.modifier ∧
      (record.dice.map (·.value)).sum + (record.modifiers.map (·.signed)).sum =
        record.total + 1 := by
  have hmodifier : Word.isSigned64 lowest.modifier = true := by decide
  have htotal : lowest.total = lowest.rolls.sum + lowest.modifier := by decide
  exact ⟨hmodifier, htotal, (numbers_kept lowest ⟨.epoch, 0⟩ hmodifier).2.2.2 htotal⟩

/-- The modifier of its record does not contribute the amount of the roll. -/
theorem least_modifier_is_not_kept :
    ∃ m, (lowest.toRecord ⟨.epoch, 0⟩).modifiers = [m] ∧ m.signed ≠ lowest.modifier :=
  ⟨Modifier.ofSigned lowest.modifier, rfl, by decide⟩

end ForwardedRoll

end DiceTable
