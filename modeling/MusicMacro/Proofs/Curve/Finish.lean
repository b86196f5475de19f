import MusicMacro.Curve.Sweep
import MusicMacro.Curve.Wave

/-! Where curves end.  A sweep and a wave go as many steps as they have points between the first and
the last, and the position they started from is added once more. -/

namespace MusicMacro

/-- A count that is cut off at zero, as a number of steps. -/
theorem ofNat_toNatClampNeg (count : Int32) :
    Int32.ofNat count.toNatClampNeg = Int32.ofInt (max 0 count.toInt) := by
  rw [← Int32.toNat_toInt, ← Int32.ofInt_eq_ofNat, Int.toNat_eq_max, Int.max_comm]

/-- How many steps fit into a length: none if the step is zero or leads the other way. -/
theorem toNatClampNeg_quotientOrZero (length step : Int32) :
    (quotientOrZero length step).toNatClampNeg =
      if step = 0 then 0 else (length / step).toInt.toNat := by
  rw [quotientOrZero]
  split
  · rfl
  · exact (Int32.toNat_toInt _).symm

namespace Sweep

theorem finish_decay (sweep : Sweep) (origin : Ticks) (left count : Nat) (position : Ticks)
    (value : Int32) :
    (sweep.decay origin left count position value).finish =
      position + Int32.ofNat left * sweep.step + origin := by
  induction left generalizing count position value with
  | zero => simp [decay, Curve.finish]
  | succ left ih =>
    rw [decay, Curve.finish, ih, Int32.ofNat_add]
    grind

theorem finish_curve (sweep : Sweep) (origin : Ticks) :
    (sweep.curve origin).finish =
      origin + (sweep.startDelay + Int32.ofNat sweep.steps.toNatClampNeg * sweep.step + origin) := by
  rw [curve, Curve.finish, finish_decay]
  grind

end Sweep

namespace Wave

theorem finish_ramp {step : Ticks} {delta : Int32} {after : Ticks → Int32 → Curve} {rest : Ticks}
    (hafter : ∀ position value, (after position value).finish = position + rest) (left : Nat)
    (position : Ticks) (value : Int32) :
    (ramp step delta after left position value).finish =
      position + (Int32.ofNat left * step + rest) := by
  induction left generalizing position value with
  | zero => rw [ramp, hafter]; simp
  | succ left ih =>
    rw [ramp, Curve.finish, ih, Int32.ofNat_add]
    grind

theorem finish_rounds (wave : Wave) (half : Nat) {after : Ticks → Int32 → Curve} {rest : Ticks}
    (hafter : ∀ position value, (after position value).finish = position + rest) (left : Nat)
    (position : Ticks) (value : Int32) :
    (wave.rounds half after left position value).finish =
      position + (2 * Int32.ofNat half * Int32.ofNat left * wave.step + rest) := by
  induction left generalizing position value with
  | zero => rw [rounds, hafter]; simp
  | succ left ih =>
    have hfall : ∀ position value,
        (ramp wave.step (-wave.delta) (wave.rounds half after left) half position value).finish =
          position + (Int32.ofNat half * wave.step +
            (2 * Int32.ofNat half * Int32.ofNat left * wave.step + rest)) :=
      finish_ramp ih half
    rw [rounds, finish_ramp hfall, Int32.ofNat_add]
    grind

/-- Rounds without steps have no points, so it does not matter how often they are repeated. -/
theorem rounds_roundCount (wave : Wave) (after : Ticks → Int32 → Curve) :
    wave.rounds wave.halfSteps.toNatClampNeg after wave.roundCount =
      wave.rounds wave.halfSteps.toNatClampNeg after wave.repeats.toNatClampNeg := by
  have hempty : ∀ count, wave.rounds 0 after count = after := by
    intro count
    induction count with
    | zero => rfl
    | succ count ih =>
      funext position value
      rw [rounds, ramp, ramp, ih]
  rw [roundCount]
  split
  · rename_i hhalf
    rw [hhalf, hempty, hempty]
  · rfl

theorem finish_curve (wave : Wave) (origin : Ticks) :
    (wave.curve origin).finish =
      origin + (wave.startDelay + 2 * Int32.ofNat wave.halfSteps.toNatClampNeg *
        Int32.ofNat wave.repeats.toNatClampNeg * wave.step + wave.endDuration + origin) := by
  have hlast : ∀ position (value : Int32),
      (Curve.point (position + wave.endDuration) wave.finish fun _ =>
        .stop (position + wave.endDuration + origin)).finish =
          position + (wave.endDuration + origin) := by
    intro position value
    rw [Curve.finish, Curve.finish]
    grind
  rw [curve, Curve.finish, rounds_roundCount, finish_rounds wave _ hlast]
  grind

end Wave

end MusicMacro
