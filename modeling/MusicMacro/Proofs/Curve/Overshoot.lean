import Mathlib.Order.Monotone.Basic
import MusicMacro.Proofs.Curve.ClosedForm

/-! The shape of a sweep whose values nowhere wrap.  The first step covers the whole span, and the
parts that follow have the sign of the span, so the values that are stepped to run past the finish
and never turn back.  Parts beyond the size of the span are zero, where the values come to rest.
Only the last value, at the position of the last step, brings them back to the finish. -/

namespace MusicMacro

namespace Sweep

/-- How far the finish is from the start. -/
def span (sweep : Sweep) : Int := sweep.finish.toInt - sweep.start.toInt

/-- The value after `k` steps, if words had no bounds. -/
def exactLevel (sweep : Sweep) (k : Nat) : Int :=
  sweep.start.toInt + ∑ j ∈ Finset.Icc 1 k, sweep.span.tdiv j

/-- The span and the exact values of all steps are signed words of 32 bits. -/
structure Fits (sweep : Sweep) : Prop where
  width : -2 ^ 31 ≤ sweep.span ∧ sweep.span < 2 ^ 31
  path : ∀ k ≤ sweep.steps.toNatClampNeg,
    -2 ^ 31 ≤ sweep.exactLevel k ∧ sweep.exactLevel k < 2 ^ 31

variable {sweep : Sweep}

/-! ### Exact values -/

theorem exactLevel_succ (sweep : Sweep) (k : Nat) :
    sweep.exactLevel (k + 1) = sweep.exactLevel k + sweep.span.tdiv (k + 1 : Nat) := by
  rw [exactLevel, Finset.sum_Icc_succ_top (Nat.le_add_left 1 k), ← Int.add_assoc, exactLevel]

theorem exactLevel_zero (sweep : Sweep) : sweep.exactLevel 0 = sweep.start.toInt := by
  simp [exactLevel]

theorem exactLevel_one (sweep : Sweep) : sweep.exactLevel 1 = sweep.finish.toInt := by
  have hwhole : sweep.span.tdiv (0 + 1 : Nat) = sweep.span := Int.tdiv_one _
  rw [exactLevel_succ, exactLevel_zero, hwhole, span]
  omega

theorem exactLevel_le (h : 0 ≤ sweep.span) {i j : Nat} (hij : i ≤ j) :
    sweep.exactLevel i ≤ sweep.exactLevel j := by
  refine monotone_nat_of_le_succ (fun k => ?_) hij
  have hpart : 0 ≤ sweep.span.tdiv (k + 1 : Nat) := Int.tdiv_nonneg h (Int.natCast_nonneg _)
  rw [exactLevel_succ]
  omega

theorem exactLevel_ge (h : sweep.span ≤ 0) {i j : Nat} (hij : i ≤ j) :
    sweep.exactLevel j ≤ sweep.exactLevel i := by
  refine antitone_nat_of_succ_le (fun k => ?_) hij
  have hpart : 0 ≤ (-sweep.span).tdiv (k + 1 : Nat) :=
    Int.tdiv_nonneg (Int.neg_nonneg_of_nonpos h) (Int.natCast_nonneg _)
  rw [Int.neg_tdiv] at hpart
  rw [exactLevel_succ]
  omega

/-- From as many steps on as the span has units, the exact values rest. -/
theorem exactLevel_of_span_le (sweep : Sweep) {k : Nat} (h : sweep.span.natAbs ≤ k) :
    sweep.exactLevel k = sweep.exactLevel sweep.span.natAbs := by
  induction k, h using Nat.le_induction with
  | base => rfl
  | succ k hk ih =>
    have hpart : sweep.span.tdiv (k + 1 : Nat) = 0 := by
      rw [← Int.natAbs_eq_zero, Int.natAbs_tdiv]
      exact Nat.div_eq_of_lt (Nat.lt_succ_of_le hk)
    rw [exactLevel_succ, hpart, Int.add_zero, ih]

/-- What the steps after the first one add to the finish. -/
theorem exactLevel_eq_overshoot (sweep : Sweep) {n : Nat} (h : 1 ≤ n) :
    sweep.exactLevel n = sweep.finish.toInt + ∑ j ∈ Finset.Icc 2 n, sweep.span.tdiv j := by
  induction n, h using Nat.le_induction with
  | base => rw [exactLevel_one, Finset.Icc_eq_empty (by decide), Finset.sum_empty, Int.add_zero]
  | succ n hn ih =>
    rw [exactLevel_succ, ih, Finset.sum_Icc_succ_top (by omega), Int.add_assoc]

/-! ### Values in words -/

theorem Fits.toInt_span (hfits : sweep.Fits) :
    (sweep.finish - sweep.start).toInt = sweep.span := by
  have hexact : sweep.finish - sweep.start = Int32.ofInt sweep.span := by
    rw [span, Int32.ofInt_sub, Int32.ofInt_toInt, Int32.ofInt_toInt]
  rw [hexact, Int32.toInt_ofInt_of_le hfits.width.1 hfits.width.2]

theorem Fits.toInt_level (hfits : sweep.Fits) {k : Nat} (hk : k ≤ sweep.steps.toNatClampNeg) :
    (sweep.level k).toInt = sweep.exactLevel k := by
  rw [level, hfits.toInt_span, ← exactLevel]
  exact Int32.toInt_ofInt_of_le (hfits.path k hk).1 (hfits.path k hk).2

variable (hfits : sweep.Fits)
include hfits

theorem Fits.level_one (hsteps : 1 ≤ sweep.steps.toNatClampNeg) :
    sweep.level 1 = sweep.finish := by
  rw [← Int32.toInt_inj, hfits.toInt_level hsteps, exactLevel_one]

theorem Fits.level_le {i j : Nat} (hij : i ≤ j) (hj : j ≤ sweep.steps.toNatClampNeg)
    (hrising : sweep.start ≤ sweep.finish) : sweep.level i ≤ sweep.level j := by
  have hspan : 0 ≤ sweep.span := Int.sub_nonneg_of_le (Int32.le_iff_toInt_le.mp hrising)
  rw [Int32.le_iff_toInt_le, hfits.toInt_level (Nat.le_trans hij hj), hfits.toInt_level hj]
  exact exactLevel_le hspan hij

theorem Fits.level_ge {i j : Nat} (hij : i ≤ j) (hj : j ≤ sweep.steps.toNatClampNeg)
    (hfalling : sweep.finish ≤ sweep.start) : sweep.level j ≤ sweep.level i := by
  have hspan : sweep.span ≤ 0 := Int.sub_nonpos_of_le (Int32.le_iff_toInt_le.mp hfalling)
  rw [Int32.le_iff_toInt_le, hfits.toInt_level (Nat.le_trans hij hj), hfits.toInt_level hj]
  exact exactLevel_ge hspan hij

theorem Fits.level_of_span_le {k : Nat} (hspan : sweep.span.natAbs ≤ k)
    (hk : k ≤ sweep.steps.toNatClampNeg) : sweep.level k = sweep.level sweep.span.natAbs := by
  rw [← Int32.toInt_inj, hfits.toInt_level hk, hfits.toInt_level (Nat.le_trans hspan hk),
    sweep.exactLevel_of_span_le hspan]

omit hfits

/-- A sweep of at least one step, all of whose exact values fit, on any target that records without
a limit.  The target logs the start, the steps and the finish.  The first step is at the finish
already.  From the start on, the values go in the direction of the finish, so those of the steps are
at the finish or beyond it and never strictly between the two, and they rest from as many steps on
as the span has units.  By what the parts after the first one sum up to, the last step is beyond the
finish, and the last value takes that back at the position of that step. -/
theorem steps_overshoot_finish (sweep : Sweep) (hsteps : 1 ≤ sweep.steps.toInt) (hfits : sweep.Fits)
    {τ : Type} [Target τ] {R : τ → Recorder → Prop} {cause : Refusal}
    (hrecords : Target.Records R cause) (target : τ) (position : Ticks) (value : Int32)
    (hseen : R target { position, value }) :
    let n := sweep.steps.toNatClampNeg
    let place := Curve.place (position.toInt + sweep.startDelay.toInt) sweep.step
    let stepped := (List.range' 1 n).map fun k => (place k, sweep.level k)
    let finish :=
      Int32.ofInt (2 * position.toInt + sweep.startDelay.toInt + n * sweep.step.toInt)
    let log := (place 0, sweep.start) :: stepped ++ [(place n, sweep.finish)]
    ((sweep.drive target).1 = .ok () ∧
      R (sweep.drive target).2
        { position := finish, value := sweep.finish, log := log.toArray }) ∧
      sweep.level 0 = sweep.start ∧ sweep.level 1 = sweep.finish ∧
      (∀ i j, i ≤ j → j ≤ n →
        (sweep.start ≤ sweep.finish → sweep.level i ≤ sweep.level j) ∧
          (sweep.finish < sweep.start → sweep.level j ≤ sweep.level i)) ∧
      (∀ k, 1 ≤ k → k ≤ n →
        (sweep.start ≤ sweep.finish → sweep.finish ≤ sweep.level k) ∧
          (sweep.finish < sweep.start → sweep.level k ≤ sweep.finish) ∧
          ¬(sweep.start < sweep.level k ∧ sweep.level k < sweep.finish) ∧
          ¬(sweep.finish < sweep.level k ∧ sweep.level k < sweep.start)) ∧
      (∀ k, sweep.span.natAbs ≤ k → k ≤ n → sweep.level k = sweep.level sweep.span.natAbs) ∧
      (sweep.level n).toInt =
        sweep.finish.toInt + ∑ j ∈ Finset.Icc 2 n, sweep.span.tdiv j := by
  intro n place stepped finish log
  have hcount : 1 ≤ n := by
    have hclamp := sweep.steps.toNat_toInt
    omega
  have hfirst : sweep.level 1 = sweep.finish := hfits.level_one hcount
  have hrising {i j : Nat} (hij : i ≤ j) (hj : j ≤ n) (h : sweep.start ≤ sweep.finish) :
      sweep.level i ≤ sweep.level j := hfits.level_le hij hj h
  have hfalling {i j : Nat} (hij : i ≤ j) (hj : j ≤ n) (h : sweep.finish < sweep.start) :
      sweep.level j ≤ sweep.level i := hfits.level_ge hij hj (Int32.le_of_lt h)
  have hentries : sweep.entries position sweep.steps.toNatClampNeg = log := by
    rw [entries, List.range_eq_range', List.range'_succ, List.map_cons, level_zero]
  have hbeyond (k : Nat) (hk : 1 ≤ k) (hkn : k ≤ n) :
      (sweep.start ≤ sweep.finish → sweep.finish ≤ sweep.level k) ∧
        (sweep.finish < sweep.start → sweep.level k ≤ sweep.finish) :=
    ⟨fun h => hfirst ▸ hrising hk hkn h, fun h => hfirst ▸ hfalling hk hkn h⟩
  refine ⟨?_, sweep.level_zero, hfirst, fun i j hij hj => ⟨hrising hij hj, hfalling hij hj⟩, ?_,
    fun k hspan hk => hfits.level_of_span_le hspan hk, ?_⟩
  · have hdrive := hrecords.drive_course hseen rfl (.sweep sweep)
    simp only [Course.curve, points_curve, finish_curve_exact] at hdrive
    rw [Recorder.record_of_fits rfl, Recorder.logged, lastValue_entries, hentries] at hdrive
    exact hdrive
  · intro k hk hkn
    obtain ⟨hup, hdown⟩ := hbeyond k hk hkn
    simp only [Int32.le_iff_toInt_le, Int32.lt_iff_toInt_lt] at hup hdown ⊢
    exact ⟨hup, hdown, by omega, by omega⟩
  · rw [hfits.toInt_level (Nat.le_refl n), sweep.exactLevel_eq_overshoot hcount]

/-- Seven down in nine steps of two ticks.  The values rest from the seventh step on, nine units
beyond the finish. -/
theorem steps_overshoot_finish_falling :
    let sweep : Sweep := ⟨64, 57, 6, 18, 2⟩
    1 ≤ sweep.steps.toInt ∧ sweep.Fits ∧
      sweep.drive ({ position := 30, value := 7 } : Recorder) =
        (.ok (),
          { position := 84, value := 57,
            log := #[(36, 64), (38, 57), (40, 54), (42, 52), (44, 51), (46, 50), (48, 49),
              (50, 48), (52, 48), (54, 48), (54, 57)] }) := by
  intro sweep
  have hfits : sweep.Fits := ⟨by decide, by decide +kernel⟩
  obtain ⟨hreply, hafter⟩ :=
    (steps_overshoot_finish sweep (by decide) hfits Target.recorder_records
      { position := 30, value := 7 } 30 7 rfl).1
  refine ⟨by decide, hfits, Prod.ext hreply (hafter.trans ?_)⟩
  decide +kernel

end Sweep

end MusicMacro
