/-!
# The ranges of the whole numbers

Counts, faces, totals and attempt numbers are whole numbers of fixed width on the wire.  Here they
are plain `Nat` and `Int`; this module holds the ends of the ranges and the three operations that
look at them: the test, the checked sum and the saturating sum.
-/

namespace DiceTable.Word

/-- The largest count, face number or face count: `2 ^ 32 - 1`. -/
def maxUnsigned32 : Nat := 4294967295

/-- The largest magnitude: `2 ^ 64 - 1`. -/
def maxUnsigned64 : Nat := 18446744073709551615

/-- The smallest total: `-2 ^ 63`. -/
def minSigned64 : Int := -9223372036854775808

/-- The largest total: `2 ^ 63 - 1`. -/
def maxSigned64 : Int := 9223372036854775807

/-- Whether `n` is a possible total. -/
def isSigned64 (n : Int) : Bool := minSigned64 ≤ n && n ≤ maxSigned64

/-- The possible total closest to `n`. -/
def clampSigned64 (n : Int) : Int := max minSigned64 (min maxSigned64 n)

/-- The sum, if it is a possible total. -/
def addSigned64? (a b : Int) : Option Int := if isSigned64 (a + b) then some (a + b) else none

/-- The sum, held at the ends of the range. -/
def addSaturating64 (a b : Int) : Int := clampSigned64 (a + b)

theorem isSigned64_iff {n : Int} : isSigned64 n = true ↔ minSigned64 ≤ n ∧ n ≤ maxSigned64 := by
  simp [isSigned64]

/-- A clamped number is a possible total. -/
theorem isSigned64_clampSigned64 (n : Int) : isSigned64 (clampSigned64 n) = true := by
  rw [isSigned64_iff, clampSigned64]
  simp only [minSigned64, maxSigned64]
  omega

/-- Clamping leaves a possible total as it is. -/
theorem clampSigned64_eq_self {n : Int} (h : isSigned64 n = true) : clampSigned64 n = n := by
  rw [isSigned64_iff] at h
  simp only [minSigned64, maxSigned64] at h
  simp only [clampSigned64, minSigned64, maxSigned64]
  omega

theorem addSigned64?_eq_some_iff {a b c : Int} :
    addSigned64? a b = some c ↔ c = a + b ∧ isSigned64 c = true := by
  unfold addSigned64?
  split <;> constructor
  · rintro ⟨⟩
    exact ⟨rfl, by assumption⟩
  · rintro ⟨rfl, _⟩
    rfl
  · rintro ⟨⟩
  · rintro ⟨rfl, h⟩
    contradiction

end DiceTable.Word
