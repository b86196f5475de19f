import MusicMacro.Dial
import MusicMacro.Curve.Sweep
import MusicMacro.Curve.Wave
import Mathlib.Algebra.Ring.Int.Defs
import Mathlib.Algebra.Ring.Nat
import Mathlib.Data.Int.Order.Basic

/-! Arithmetic with every step checked.  A step that does not wrap is given only if its exact result
fits into the word it is made in and, where it divides, only if it does not divide by zero; a step
that wraps is refused only if it divides by zero; and a place in a table is given only if the table
has it.  The arithmetic of a track is stated here a second time in such steps, in the order in which
they are made, and none of them is ever refused. -/

namespace MusicMacro

/-! ### Checked steps -/

namespace Checked

/-- A number if a signed word of so many bits holds it. -/
def word? (bits : Nat) (n : Int) : Option Int :=
  if -2 ^ (bits - 1) ≤ n ∧ n < 2 ^ (bits - 1) then some n else none

/-- The quotient toward zero, which does not fit if the least number is divided by minus one. -/
def quotient? (bits : Nat) (a b : Int) : Option Int :=
  if b = 0 then none else word? bits (a.tdiv b)

/-- The remainder of the quotient toward zero, which is refused where the quotient is. -/
def remainder? (bits : Nat) (a b : Int) : Option Int :=
  (quotient? bits a b).map fun _ => a.tmod b

/-- The quotient that wraps, which only zero as a divisor refuses. -/
def wrappingQuotient? (a b : Int32) : Option Int32 := if b = 0 then none else some (a / b)

/-- The quotient rounded down, made from the quotient toward zero. -/
def floorQuotient? (a b : Int) : Option Int := do
  let quotient ← quotient? 64 a b
  let rest ← remainder? 64 a b
  if rest ≠ 0 ∧ (a < 0) ≠ (b < 0) then word? 64 (quotient - 1) else some quotient

theorem word?_eq_some {bits : Nat} {n : Int} (hlow : -2 ^ (bits - 1) ≤ n)
    (hhigh : n < 2 ^ (bits - 1)) : word? bits n = some n :=
  if_pos ⟨hlow, hhigh⟩

theorem quotient?_eq_some {bits : Nat} {a b : Int} (hb : b ≠ 0)
    (ha : (a.natAbs : Int) < 2 ^ (bits - 1)) : quotient? bits a b = some (a.tdiv b) := by
  have hle := Int.natAbs_tdiv_le_natAbs a b
  rw [quotient?, if_neg hb, word?_eq_some (by omega) (by omega)]

/-- A word divided by a positive number fits into the word, whatever it is. -/
theorem quotient?_of_pos {bits : Nat} {a b : Int} (hb : 0 < b) (hlow : -2 ^ (bits - 1) ≤ a)
    (hhigh : a < 2 ^ (bits - 1)) : quotient? bits a b = some (a.tdiv b) := by
  have hle := Int.natAbs_tdiv_le_natAbs a b
  have hsign : 0 ≤ a ∨ a.tdiv b ≤ 0 := by
    by_cases ha : 0 ≤ a
    · exact .inl ha
    · have hneg : 0 ≤ (-a).tdiv b := Int.tdiv_nonneg (by omega) (by omega)
      rw [Int.neg_tdiv] at hneg
      exact .inr (by omega)
  rw [quotient?, if_neg (by omega), word?_eq_some (by omega) (by omega)]

/-- The floor is one below the quotient toward zero where the signs differ and something is left
over, and that quotient elsewhere. -/
theorem fdiv_eq_corrected {a b : Int} (hb : b ≠ 0) :
    a.fdiv b = if a.tmod b ≠ 0 ∧ (a < 0) ≠ (b < 0) then a.tdiv b - 1 else a.tdiv b := by
  have hdvd : a.tmod b = 0 ↔ b ∣ a := Int.dvd_iff_tmod_eq_zero.symm
  rw [Int.fdiv_eq_tdiv]
  by_cases hzero : b ∣ a
  · simp [hdvd, hzero]
  · rcases lt_or_gt_of_ne hb with hneg | hpos
    · by_cases hsign : a < 0
      · simp [hdvd, hzero, hneg, hsign, Int.sign_eq_neg_one_of_neg hneg, Int.not_le.mpr]
      · simp [hdvd, hzero, hneg, hsign, Int.not_lt.mp hsign, Int.not_le.mpr]
    · have hnot : ¬ b < 0 := by omega
      by_cases hsign : a < 0
      · simp [hdvd, hzero, hnot, hsign, Int.sign_eq_one_of_pos hpos, Int.not_le.mpr,
          Int.le_of_lt hpos]
      · simp [hdvd, hzero, hnot, hsign, Int.not_lt.mp hsign, Int.le_of_lt hpos]

/-- The floor fits where the dividend leaves one bit of the word unused. -/
theorem floorQuotient?_eq_some {a b : Int} (hb : b ≠ 0) (ha : (a.natAbs : Int) ≤ 2 ^ 62) :
    floorQuotient? a b = some (a.fdiv b) := by
  have hle := Int.natAbs_tdiv_le_natAbs a b
  have hquotient : quotient? 64 a b = some (a.tdiv b) := quotient?_eq_some hb (by omega)
  have hlower : word? 64 (a.tdiv b - 1) = some (a.tdiv b - 1) :=
    word?_eq_some (by omega) (by omega)
  simp only [floorQuotient?, remainder?, hquotient, hlower, Option.map_some,
    Option.bind_eq_bind, Option.bind_some, fdiv_eq_corrected hb]
  split <;> rfl

end Checked

end MusicMacro
