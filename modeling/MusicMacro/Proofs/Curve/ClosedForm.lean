import Mathlib.Algebra.BigOperators.Intervals
import MusicMacro.Proofs.Curve.Target

/-! The logs of sweeps and waves in closed form.  How many steps a curve has is read off its fields,
and where a step stands and what it sets is an exact number modulo `2^32`: the steps of a sweep add
up the parts of its span, each of them truncated, and those of a wave go up and down between its
start and its peak.  This is what every recording target logs, as far as its limit goes. -/

namespace MusicMacro

/-! ### Positions -/

namespace Curve

/-- The position `i` steps after the first one. -/
def place (first : Int) (step : Ticks) (i : Nat) : Ticks := Int32.ofInt (first + i * step.toInt)

theorem place_zero (origin delay step : Ticks) :
    place (origin.toInt + delay.toInt) step 0 = origin + delay := by
  simp [place]

theorem place_succ (first : Int) (step : Ticks) (i : Nat) :
    place first step (i + 1) = place first step i + step := by
  rw [place, place, Int.natCast_add, Int.add_mul, ← Int.add_assoc, Int32.ofInt_add]
  simp

end Curve

open Curve

/-! ### Sweeps -/

namespace Sweep

/-- The value after `k` steps: step `j` adds the `j`-th part of the span, truncated. -/
def level (sweep : Sweep) (k : Nat) : Int32 :=
  Int32.ofInt
    (sweep.start.toInt + ∑ j ∈ Finset.Icc 1 k, (sweep.finish - sweep.start).toInt.tdiv j)

/-- The log of a sweep of `n` steps that starts at `origin`: the start, each step, and the finish at
the position of the last step. -/
def entries (sweep : Sweep) (origin : Ticks) (n : Nat) : List (Ticks × Int32) :=
  let first := origin.toInt + sweep.startDelay.toInt
  (List.range (n + 1)).map (fun k => (place first sweep.step k, sweep.level k)) ++
    [(place first sweep.step n, sweep.finish)]

theorem level_zero (sweep : Sweep) : sweep.level 0 = sweep.start := by
  simp [level]

theorem level_succ (sweep : Sweep) {k : Nat} (h : k + 1 < 2 ^ 31) :
    sweep.level (k + 1) =
      sweep.level k + (sweep.finish - sweep.start) / Int32.ofNat (k + 1) := by
  have hcount : (Int32.ofNat (k + 1)).toInt = (k + 1 : Nat) := Int32.toInt_ofNat_of_lt h
  have hne : Int32.ofNat (k + 1) ≠ -1 := by
    intro hminus
    rw [hminus] at hcount
    cases hcount
  have hpart : Int32.ofInt ((sweep.finish - sweep.start).toInt.tdiv (k + 1 : Nat)) =
      (sweep.finish - sweep.start) / Int32.ofNat (k + 1) := by
    rw [← hcount, ← Int32.toInt_div_of_ne_right _ _ hne, Int32.ofInt_toInt]
  rw [level, Finset.sum_Icc_succ_top (Nat.le_add_left 1 k), ← Int.add_assoc, Int32.ofInt_add, hpart,
    level]

/-- The rest of a sweep before step `k + 1`. -/
theorem points_decay (sweep : Sweep) (origin : Ticks) (first : Int) {left k : Nat}
    (h : k + left < 2 ^ 31) :
    (sweep.decay origin left (k + 1) (place first sweep.step k) (sweep.level k)).points =
      (List.range' (k + 1) left).map (fun i => (place first sweep.step i, sweep.level i)) ++
        [(place first sweep.step (k + left), sweep.finish)] := by
  induction left generalizing k with
  | zero => rfl
  | succ left ih =>
    have hrest := @ih (k + 1) (by omega)
    have hlast : k + 1 + left = k + (left + 1) := by omega
    rw [place_succ, level_succ sweep (by omega), hlast] at hrest
    rw [decay, Curve.points, hrest, List.range'_succ, List.map_cons, place_succ,
      level_succ sweep (by omega), List.cons_append]

theorem points_curve (sweep : Sweep) (origin : Ticks) :
    (sweep.curve origin).points = sweep.entries origin sweep.steps.toNatClampNeg := by
  have hbound : 0 + sweep.steps.toNatClampNeg < 2 ^ 31 := by
    have hhigh := sweep.steps.toInt_lt
    rw [← Int32.toNat_toInt]
    omega
  have hrest := sweep.points_decay origin (origin.toInt + sweep.startDelay.toInt) hbound
  rw [place_zero, level_zero, Nat.zero_add, Nat.zero_add] at hrest
  rw [curve, Curve.points, hrest, entries, List.range_eq_range', List.range'_succ, List.map_cons,
    place_zero, level_zero, Nat.zero_add, List.cons_append]

theorem length_entries (sweep : Sweep) (origin : Ticks) (n : Nat) :
    (sweep.entries origin n).length = n + 2 := by
  simp [entries]

/-- A sweep ends where its steps lead from twice the position it started from. -/
theorem finish_curve_exact (sweep : Sweep) (origin : Ticks) :
    (sweep.curve origin).finish =
      Int32.ofInt (2 * origin.toInt + sweep.startDelay.toInt +
        sweep.steps.toNatClampNeg * sweep.step.toInt) := by
  have htwo : Int32.ofInt 2 = 2 := rfl
  simp only [finish_curve, Int32.ofInt_add, Int32.ofInt_mul, Int32.ofInt_toInt,
    Int32.ofInt_eq_ofNat, htwo]
  grind

theorem lastValue_entries (sweep : Sweep) (origin : Ticks) (n : Nat) (value : Int32) :
    Curve.lastValue value (sweep.entries origin n) = sweep.finish := by
  rw [Curve.lastValue, entries, List.getLast?_concat]
  rfl

/-- A sweep on a recorder without a log, at any position and with any limit.  It has as many steps
as fit into its length, none if they are zero or lead the other way, and the log has two entries
more, of which the last is the finish; the recorder keeps it up to the limit, and ends where the
steps lead from twice its position, or where it stood.  The same is shown by every target that
records, with its own refusal. -/
theorem records_slowing_steps (sweep : Sweep) (position : Ticks) (value : Int32)
    (limit : Option Nat) :
    let recorder : Recorder := { position, value, limit }
    let n := if sweep.step = 0 then 0 else (sweep.length / sweep.step).toInt.toNat
    let finish :=
      Int32.ofInt (2 * position.toInt + sweep.startDelay.toInt + n * sweep.step.toInt)
    (sweep.entries position n).length = n + 2 ∧
      Curve.lastValue value (sweep.entries position n) = sweep.finish ∧
      recorder.follow (sweep.curve position) =
        recorder.record (.port closed) (sweep.entries position n) finish ∧
      ∀ {τ : Type} [Target τ] {R : τ → Recorder → Prop} {cause : Refusal},
        Target.Records R cause → ∀ target, R target recorder →
          let kept := recorder.record cause (sweep.entries position n) finish
          (sweep.drive target).1 = kept.1 ∧ R (sweep.drive target).2 kept.2 := by
  intro recorder n finish
  have hn : sweep.steps.toNatClampNeg = n := toNatClampNeg_quotientOrZero _ _
  have hpoints := sweep.points_curve recorder.position
  have hfinish := sweep.finish_curve_exact recorder.position
  rw [hn] at hpoints hfinish
  refine ⟨sweep.length_entries position n, sweep.lastValue_entries position n value, ?_, ?_⟩
  · rw [Recorder.follow_eq_record rfl, hpoints, hfinish]
  · intro τ _ R cause hrecords target hseen
    have hdrive := hrecords.drive_course hseen rfl (.sweep sweep)
    simp only [Course.curve, hpoints, hfinish] at hdrive
    exact hdrive

/-- A falling sweep of twelve steps, cut off at three values.  Steps of four ticks fit four times
into nineteen, and steps that lead the other way do not fit at all. -/
theorem records_slowing_steps_counted :
    let recorder (limit : Option Nat) : Recorder := { position := 30, value := 7, limit }
    (Sweep.mk 0 (-200) 6 48 4).drive (recorder (some 3)) =
        (.error (.port closed),
          { recorder (some 3) with
            value := -300, log := #[(36, 0), (40, -200), (44, -300)] }) ∧
      (Sweep.mk 0 (-200) 6 19 4).drive (recorder none) =
        (.ok (),
          { position := 82, value := -200,
            log := #[(36, 0), (40, -200), (44, -300), (48, -366), (52, -416), (52, -200)] }) ∧
      (Sweep.mk 0 (-200) 6 19 (-4)).drive (recorder none) =
        (.ok (), { position := 66, value := -200, log := #[(36, 0), (36, -200)] }) := by
  intro recorder
  have hlogged (sweep : Sweep) (limit : Option Nat) :=
    (records_slowing_steps sweep 30 7 limit).2.2.2 Target.recorder_records (recorder limit) rfl
  refine ⟨?_, ?_, ?_⟩
  · obtain ⟨hreply, hkept⟩ := hlogged (Sweep.mk 0 (-200) 6 48 4) (some 3)
    exact (Prod.ext hreply hkept).trans (by decide +kernel)
  · obtain ⟨hreply, hkept⟩ := hlogged (Sweep.mk 0 (-200) 6 19 4) none
    exact (Prod.ext hreply hkept).trans (by decide +kernel)
  · obtain ⟨hreply, hkept⟩ := hlogged (Sweep.mk 0 (-200) 6 19 (-4)) none
    exact (Prod.ext hreply hkept).trans (by decide +kernel)

end Sweep

/-! ### Waves -/

namespace Wave

/-- The value after `j` steps of a round of `h` steps up and `h` down: as many steps up as there are
from the nearer end. -/
def level (wave : Wave) (h j : Nat) : Int32 :=
  Int32.ofInt (wave.start.toInt + min (j : Int) (2 * h - j) * wave.delta.toInt)

/-- The log of the round number `q` of a wave, where `first` is the position before the rounds. -/
def round (wave : Wave) (first : Int) (h q : Nat) : List (Ticks × Int32) :=
  (List.range' 1 (2 * h)).map fun j =>
    (place first wave.step (2 * h * q + j), wave.level h j)

/-- The log of a wave of `r` rounds that starts at `origin`: the start, the rounds, and the finish
after the last wait. -/
def entries (wave : Wave) (origin : Ticks) (h r : Nat) : List (Ticks × Int32) :=
  let first := origin.toInt + wave.startDelay.toInt
  (place first wave.step 0, wave.start) :: (List.range r).flatMap (wave.round first h) ++
    [(Int32.ofInt (first + 2 * h * r * wave.step.toInt + wave.endDuration.toInt), wave.finish)]

theorem level_zero (wave : Wave) (h : Nat) : wave.level h 0 = wave.start := by
  have hnear : min ((0 : Nat) : Int) (2 * (h : Int) - (0 : Nat)) = 0 := by omega
  rw [level, hnear, Int.zero_mul, Int.add_zero, Int32.ofInt_toInt]

theorem level_round (wave : Wave) (h : Nat) : wave.level h (2 * h) = wave.start := by
  have hnear : min ((2 * h : Nat) : Int) (2 * (h : Int) - (2 * h : Nat)) = 0 := by omega
  rw [level, hnear, Int.zero_mul, Int.add_zero, Int32.ofInt_toInt]

theorem level_peak (wave : Wave) (h : Nat) :
    wave.level h h = Int32.ofInt (wave.start.toInt + h * wave.delta.toInt) := by
  have hnear : min (h : Int) (2 * h - h) = h := by omega
  rw [level, hnear]

theorem level_rise (wave : Wave) {h j : Nat} (hj : j < h) :
    wave.level h (j + 1) = wave.level h j + wave.delta := by
  have hnear : min ((j + 1 : Nat) : Int) (2 * h - (j + 1 : Nat)) =
      min (j : Int) (2 * h - j) + 1 := by
    omega
  rw [level, hnear, Int.add_mul, Int.one_mul, ← Int.add_assoc, Int32.ofInt_add, Int32.ofInt_toInt,
    level]

theorem level_fall (wave : Wave) {h j : Nat} (hj : h ≤ j) :
    wave.level h (j + 1) = wave.level h j + -wave.delta := by
  have hnear : min ((j + 1 : Nat) : Int) (2 * h - (j + 1 : Nat)) =
      min (j : Int) (2 * h - j) + -1 := by
    omega
  rw [level, hnear, Int.add_mul, Int.neg_one_mul, ← Int.add_assoc, Int32.ofInt_add,
    Int32.ofInt_neg, Int32.ofInt_toInt, level]

/-- A ramp through positions and values that go on in its steps from number `k` to `k + left`. -/
theorem points_ramp {step : Ticks} {delta : Int32} (after : Ticks → Int32 → Curve)
    {position : Nat → Ticks} {value : Nat → Int32} (k left : Nat)
    (hposition : ∀ i, position (i + 1) = position i + step)
    (hvalue : ∀ i, k ≤ i → i < k + left → value (i + 1) = value i + delta) :
    (ramp step delta after left (position k) (value k)).points =
      (List.range' (k + 1) left).map (fun i => (position i, value i)) ++
        (after (position (k + left)) (value (k + left))).points := by
  induction left generalizing k with
  | zero => rfl
  | succ left ih =>
    have hrest := ih (k + 1) fun i hlow hhigh => hvalue i (by omega) (by omega)
    have hlast : k + 1 + left = k + (left + 1) := by omega
    rw [hposition, hvalue k (by omega) (by omega), hlast] at hrest
    rw [ramp, Curve.points, hrest, List.range'_succ, List.map_cons, hposition,
      hvalue k (by omega) (by omega), List.cons_append]

/-- One round of a wave goes up and comes back to the start. -/
theorem points_round (wave : Wave) (first : Int) (after : Ticks → Int32 → Curve) (h q : Nat) :
    (ramp wave.step wave.delta (ramp wave.step (-wave.delta) after h) h
        (place first wave.step (2 * h * q)) wave.start).points =
      wave.round first h q ++
        (after (place first wave.step (2 * h * (q + 1))) wave.start).points := by
  let there (i : Nat) : Ticks := place first wave.step (2 * h * q + i)
  have hthere : ∀ i, there (i + 1) = there i + wave.step := fun i => place_succ first wave.step _
  have hback : wave.level h (h + h) = wave.start := by
    rw [← Nat.two_mul]
    exact wave.level_round h
  have hnext : there (h + h) = place first wave.step (2 * h * (q + 1)) := by
    rw [← Nat.two_mul]
    rfl
  have hround : wave.round first h q =
      (List.range' 1 h).map (fun j => (there j, wave.level h j)) ++
        (List.range' (h + 1) h).map (fun j => (there j, wave.level h j)) := by
    rw [← List.map_append, Nat.add_comm h 1, List.range'_append_1, ← Nat.two_mul]
    rfl
  have hrise := points_ramp (ramp wave.step (-wave.delta) after h) 0 h hthere
    fun j _ hhigh => wave.level_rise (show j < h by omega)
  have hfall := points_ramp after h h hthere fun j hlow _ => wave.level_fall hlow
  rw [Nat.zero_add, Nat.zero_add, hfall, level_zero, hback, hnext] at hrise
  rw [hround, List.append_assoc]
  exact hrise

theorem points_rounds (wave : Wave) (first : Int) (after : Ticks → Int32 → Curve)
    (h left q : Nat) :
    (wave.rounds h after left (place first wave.step (2 * h * q)) wave.start).points =
      (List.range' q left).flatMap (wave.round first h) ++
        (after (place first wave.step (2 * h * (q + left))) wave.start).points := by
  induction left generalizing q with
  | zero => rfl
  | succ left ih =>
    have hlast : q + 1 + left = q + (left + 1) := by omega
    rw [rounds, points_round, ih, hlast, List.range'_succ, List.flatMap_cons, List.append_assoc]

theorem points_curve (wave : Wave) (origin : Ticks) :
    (wave.curve origin).points =
      wave.entries origin wave.halfSteps.toNatClampNeg wave.repeats.toNatClampNeg := by
  have hplace : ∀ first i, place first wave.step i + wave.endDuration =
      Int32.ofInt (first + i * wave.step.toInt + wave.endDuration.toInt) := by
    intro first i
    rw [Int32.ofInt_add, Int32.ofInt_toInt, place]
  have hrounds := wave.points_rounds (origin.toInt + wave.startDelay.toInt)
    (fun position _ =>
      .point (position + wave.endDuration) wave.finish fun _ =>
        .stop (position + wave.endDuration + origin))
    wave.halfSteps.toNatClampNeg wave.repeats.toNatClampNeg 0
  rw [Nat.mul_zero, place_zero, Nat.zero_add, ← List.range_eq_range', ← rounds_roundCount]
    at hrounds
  rw [curve, Curve.points, hrounds, entries, place_zero]
  simp only [Curve.points, hplace]
  push_cast
  rfl

theorem length_round (wave : Wave) (first : Int) (h q : Nat) :
    (wave.round first h q).length = 2 * h := by
  simp [round]

theorem length_entries (wave : Wave) (origin : Ticks) (h r : Nat) :
    (wave.entries origin h r).length = 2 * h * r + 2 := by
  have hrounds : ∀ first, ((List.range r).flatMap (wave.round first h)).length = r * (2 * h) := by
    intro first
    simp only [List.length_flatMap, length_round, List.map_const', List.length_range,
      List.sum_replicate_nat]
  rw [entries, List.length_append, List.length_cons, hrounds, Nat.mul_comm]
  rfl

/-- A wave ends where its steps and its last wait lead from twice the position it started from. -/
theorem finish_curve_exact (wave : Wave) (origin : Ticks) :
    (wave.curve origin).finish =
      Int32.ofInt (2 * origin.toInt + wave.startDelay.toInt +
        2 * wave.halfSteps.toNatClampNeg * wave.repeats.toNatClampNeg * wave.step.toInt +
          wave.endDuration.toInt) := by
  have htwo : Int32.ofInt 2 = 2 := rfl
  simp only [finish_curve, Int32.ofInt_add, Int32.ofInt_mul, Int32.ofInt_toInt,
    Int32.ofInt_eq_ofNat, htwo]
  grind

theorem lastValue_entries (wave : Wave) (origin : Ticks) (h r : Nat) (value : Int32) :
    Curve.lastValue value (wave.entries origin h r) = wave.finish := by
  rw [Curve.lastValue, entries, List.getLast?_concat]
  rfl

/-- A wave on a recorder without a log, at any position and with any limit.  A half of a round has
as many steps as fit into the period, none if they are zero or lead the other way.  The log has an
entry for each step of each round, which peaks half-way and comes back to the start, one before them
and the finish behind them; the recorder keeps it up to the limit, and ends where the steps and the
last wait lead from twice its position, or where it stood.  The same is shown by every target that
records, with its own refusal. -/
theorem records_rounds (wave : Wave) (position : Ticks) (value : Int32) (limit : Option Nat) :
    let recorder : Recorder := { position, value, limit }
    let h := if wave.step = 0 then 0 else (wave.period / wave.step).toInt.toNat
    let r := wave.repeats.toInt.toNat
    let finish :=
      Int32.ofInt (2 * position.toInt + wave.startDelay.toInt + 2 * h * r * wave.step.toInt +
        wave.endDuration.toInt)
    (wave.entries position h r).length = 2 * h * r + 2 ∧
      wave.level h h = Int32.ofInt (wave.start.toInt + h * wave.delta.toInt) ∧
      wave.level h (2 * h) = wave.start ∧
      Curve.lastValue value (wave.entries position h r) = wave.finish ∧
      recorder.follow (wave.curve position) =
        recorder.record (.port closed) (wave.entries position h r) finish ∧
      ∀ {τ : Type} [Target τ] {R : τ → Recorder → Prop} {cause : Refusal},
        Target.Records R cause → ∀ target, R target recorder →
          let kept := recorder.record cause (wave.entries position h r) finish
          (wave.drive target).1 = kept.1 ∧ R (wave.drive target).2 kept.2 := by
  intro recorder h r finish
  have hh : wave.halfSteps.toNatClampNeg = h := toNatClampNeg_quotientOrZero _ _
  have hr : wave.repeats.toNatClampNeg = r := (Int32.toNat_toInt _).symm
  have hpoints := wave.points_curve recorder.position
  have hfinish := wave.finish_curve_exact recorder.position
  rw [hh, hr] at hpoints hfinish
  refine ⟨wave.length_entries position h r, wave.level_peak h, wave.level_round h,
    wave.lastValue_entries position h r value, ?_, ?_⟩
  · rw [Recorder.follow_eq_record rfl, hpoints, hfinish]
  · intro τ _ R cause hrecords target hseen
    have hdrive := hrecords.drive_course hseen rfl (.wave wave)
    simp only [Course.curve, hpoints, hfinish] at hdrive
    exact hdrive

/-- Two rounds of two steps up and two down, on a recorder that takes them all. -/
theorem records_rounds_unlimited :
    let recorder : Recorder := { position := 100, value := 7 }
    (Wave.mk 64 60 2 12 8 4 10 2).drive recorder =
      (.ok (),
        { position := 246, value := 60,
          log := #[(102, 64), (106, 74), (110, 84), (114, 74), (118, 64), (122, 74), (126, 84),
            (130, 74), (134, 64), (146, 60)] }) := by
  intro recorder
  obtain ⟨hreply, hkept⟩ :=
    (records_rounds (Wave.mk 64 60 2 12 8 4 10 2) 100 7 none).2.2.2.2.2
      Target.recorder_records recorder rfl
  exact (Prod.ext hreply hkept).trans (by decide +kernel)

end Wave

end MusicMacro
