import DiceTable.Client.Request
import DiceTable.Proofs.Dice.Rolling

/-!
# The component sum of an authored roll

The total of an authored roll is the exact sum of its dice and its modifiers.  The component sum of
its record adds the same numbers, but all dice before all modifiers, and it is held at the ends of
the range on the way.  What is cut off at one step is missing from then on, so that the component
sum falls short of the total by all that was cut off (`componentSum_add_cutOff`).  The two are equal
if no running sum in that order leaves the range.  The formula itself promises no such thing: its
terms may stand in an order in which the sums stay in range (`componentSum_ne_total`).
-/

namespace DiceTable

namespace Word

/-- What the steps of a sum that is held at the ends of the range cut off, all together.  It is
negative where the sum was held at the lower end. -/
def cutOff (start : Int) : List Int → Int
  | [] => 0
  | n :: ns => start + n - addSaturating64 start n + cutOff (addSaturating64 start n) ns

theorem foldl_addSaturating64_add_cutOff (start : Int) (ns : List Int) :
    ns.foldl addSaturating64 start + cutOff start ns = start + ns.sum := by
  induction ns generalizing start with
  | nil => rw [List.foldl_nil, cutOff, List.sum_nil]
  | cons n ns ih =>
      have hrest := ih (addSaturating64 start n)
      rw [List.foldl_cons, cutOff, List.sum_cons]
      omega

/-- Nothing is cut off from sums in range. -/
theorem cutOff_eq_zero {start : Int} {ns : List Int}
    (h : ∀ front, front <+: ns → isSigned64 (start + front.sum) = true) : cutOff start ns = 0 := by
  induction ns generalizing start with
  | nil => rfl
  | cons n ns ih =>
      have hstep : addSaturating64 start n = start + n := by
        have hrange := h [n] (List.prefix_append [n] ns)
        rw [List.sum_singleton] at hrange
        exact clampSigned64_eq_self hrange
      rw [cutOff, hstep, ih fun front hfront => ?_, Int.sub_self, Int.add_zero]
      have hrange := h (n :: front) (List.prefix_cons_inj n |>.mpr hfront)
      rwa [List.sum_cons, ← Int.add_assoc] at hrange

end Word

namespace RollRecord

/-- The numbers that make up a roll, the dice before the modifiers. -/
def parts (r : RollRecord) : List Int := r.dice.map (·.value) ++ r.modifiers.map (·.signed)

theorem componentSum_eq (r : RollRecord) : r.componentSum = r.parts.foldl Word.addSaturating64 0 :=
  rfl

end RollRecord

/-- The total of a roll is the sum of what lies on the table. -/
theorem Dice.total_of_simulate {words : WordStream} {terms : List Term} {outcome : Outcome}
    (h : (simulate words terms).1 = .ok outcome) :
    outcome.total = (outcome.dice.map (·.value)).sum + (outcome.modifiers.map (·.signed)).sum := by
  obtain ⟨throws, hthrown⟩ := exists_thrown words 0 (terms.flatMap components)
  rcases simulate_spec hthrown with ⟨hsound, hresult⟩ | ⟨_, _, _, _, _, _, _, hresult⟩
  · rw [hresult] at h
    cases h
    rw [map_signed_modifier? hthrown hsound]
    exact sum_eq hthrown
  · rw [hresult] at h
    cases h

namespace RollRequest

variable {request : RollRequest} {table : TableId} {source : RollSource} {now : Timestamp}
  {words : Dice.WordStream} {roll : NewRoll}

/-- An authored roll has the dice, the modifiers and the total of a roll of its formula. -/
theorem roll_of_author (h : request.author table source now words = .ok roll) :
    Dice.roll words request.formula = .ok ⟨roll.dice, roll.modifiers, roll.total⟩ := by
  unfold author at h
  cases hroll : Dice.roll words request.formula with
  | error e =>
      rw [hroll] at h
      cases h
  | ok outcome =>
      rw [hroll] at h
      cases h
      rfl

/-- The total of an authored roll is the exact sum of the numbers that make it up. -/
theorem total_of_author (h : request.author table source now words = .ok roll) (id : RollId) :
    (roll.toRecord id).total = (roll.toRecord id).parts.sum := by
  have hroll := roll_of_author h
  unfold Dice.roll at hroll
  cases hparse : Formula.parse request.formula with
  | error e =>
      rw [hparse] at hroll
      cases hroll
  | ok terms =>
      rw [hparse] at hroll
      rw [RollRecord.parts, List.sum_append]
      exact Dice.total_of_simulate hroll

/-- **The component sum falls short by what was cut off.**  The total of an authored roll is the
exact sum of its dice and its modifiers.  The component sum of its record, together with all that
its steps cut off at the ends of the range, is that total; so it is the total if no sum of the
dice, or of the dice and some modifiers, leaves the range. -/
theorem componentSum_add_cutOff (h : request.author table source now words = .ok roll)
    (id : RollId) :
    let record := roll.toRecord id
    record.total = (record.dice.map (·.value)).sum + (record.modifiers.map (·.signed)).sum ∧
      record.componentSum + Word.cutOff 0 record.parts = record.total ∧
      ((∀ front, front <+: record.parts → Word.isSigned64 front.sum = true) →
        record.componentSum = record.total) := by
  intro record
  have htotal : record.total = record.parts.sum := total_of_author h id
  have hcut : record.componentSum + Word.cutOff 0 record.parts = record.total := by
    rw [htotal, RollRecord.componentSum_eq, Word.foldl_addSaturating64_add_cutOff, Int.zero_add]
  refine ⟨by rw [htotal, RollRecord.parts, List.sum_append], hcut, fun hrange => ?_⟩
  have hnothing : Word.cutOff 0 record.parts = 0 :=
    Word.cutOff_eq_zero fun front hfront => by
      rw [Int.zero_add]
      exact hrange front hfront
  rw [hnothing, Int.add_zero] at hcut
  exact hcut

/-- The largest amount, ten less and five dice more.  The sums stay in range in this order, but
not if the dice come first. -/
def brink : RollRequest := ⟨"9223372036854775807-10+5d1", "Vex", "attack", none⟩

/-- What the request on the brink of the range is authored as. -/
def brinkRoll : NewRoll where
  table := "table"
  formula := brink.formula
  dice := List.replicate 5 (Die.standard 1 1)
  modifiers := [Modifier.ofSigned 9223372036854775807, Modifier.ofSigned (-10)]
  total := 9223372036854775802
  context := { rollType := some "attack", character := some "Vex" }
  source := {}
  timestamp := .epoch

theorem author_brink : brink.author "table" {} .epoch (fun _ => 0) = .ok brinkRoll := by
  decide +kernel

/-- Five is cut off when the largest amount is added to the dice. -/
theorem componentSum_add_cutOff_brink :
    brink.author "table" {} .epoch (fun _ => 0) = .ok brinkRoll ∧
      (brinkRoll.toRecord "id").componentSum + 5 = (brinkRoll.toRecord "id").total := by
  have hcut : Word.cutOff 0 (brinkRoll.toRecord "id").parts = 5 := by decide
  refine ⟨author_brink, ?_⟩
  rw [← hcut]
  exact (componentSum_add_cutOff author_brink "id").2.1

/-- The component sum of an authored roll may differ from its total. -/
theorem componentSum_ne_total :
    ∃ roll, brink.author "table" {} .epoch (fun _ => 0) = .ok roll ∧
      (roll.toRecord "id").componentSum ≠ (roll.toRecord "id").total :=
  ⟨brinkRoll, author_brink, by decide⟩

end RollRequest

end DiceTable
