import MusicMacro.Proofs.Curve.Finish
import MusicMacro.Proofs.Curve.Recorder

/-! Targets of curves.  Whatever has a position that ticks move and a value that can be set can be
driven along a sweep or a wave, step by step: each step moves the target and sets it to what becomes
of the value that it holds.  Such a drive draws the curve of the sweep or the wave, whatever the
target makes of the points.  A target that logs its values and takes a limited number of them shows
what a recorder shows that follows the curve, and that depends on nothing but the points of the
curve and its finish. -/

namespace MusicMacro

/-! ### Driving a target -/

/-- What a curve can drive: it stands at a position, which ticks move, and holds a value, which can
be set, unless that is refused. -/
class Target (τ : Type) where
  position : τ → Ticks
  value : τ → Int32
  advance : Ticks → τ → τ
  setValue : Int32 → τ → Except Refusal Unit × τ

namespace Target

variable {τ : Type}

/-- Goes on with what comes second, unless the first was refused. -/
def andThen (first second : τ → Except Refusal Unit × τ) (target : τ) : Except Refusal Unit × τ :=
  match first target with
  | (.ok _, target) => second target
  | (.error cause, target) => (.error cause, target)

def rest (target : τ) : Except Refusal Unit × τ := (.ok (), target)

/-- Does the same a number of times. -/
def times (drive : τ → Except Refusal Unit × τ) : Nat → τ → Except Refusal Unit × τ
  | 0 => rest
  | count + 1 => andThen drive (times drive count)

theorem andThen_rest (drive : τ → Except Refusal Unit × τ) : andThen drive rest = drive := by
  funext target
  rw [andThen]
  split <;> simp_all [rest]

theorem andThen_assoc (first second third : τ → Except Refusal Unit × τ) :
    andThen (andThen first second) third = andThen first (andThen second third) := by
  funext target
  simp only [andThen]
  cases first target with
  | mk reply after => cases reply <;> rfl

variable [Target τ]

/-- Moves a target and sets it to what becomes of the value that it holds then. -/
def step (ticks : Ticks) (change : Int32 → Int32) (target : τ) : Except Refusal Unit × τ :=
  let there := advance ticks target
  setValue (change (value there)) there

/-- Ends a drive that started at `origin`: that position is added once more, and after a refusal the
ticks gone since then are taken back. -/
def settle (origin : Ticks) : Except Refusal Unit × τ → Except Refusal Unit × τ
  | (.ok _, target) => (.ok (), advance origin target)
  | (.error cause, target) => (.error cause, advance (-(position target - origin)) target)

end Target

namespace Sweep

variable {τ : Type} [Target τ]

/-- The steps of a sweep from step number `count` on. -/
def driveSteps (sweep : Sweep) : (left count : Nat) → τ → Except Refusal Unit × τ
  | 0, _ => Target.rest
  | left + 1, count =>
    Target.andThen
      (Target.step sweep.step (· + (sweep.finish - sweep.start) / Int32.ofNat count))
      (sweep.driveSteps left (count + 1))

/-- Drives a target along a sweep. -/
def drive (sweep : Sweep) (target : τ) : Except Refusal Unit × τ :=
  Target.settle (Target.position target)
    (Target.andThen (Target.step sweep.startDelay fun _ => sweep.start)
      (Target.andThen (sweep.driveSteps sweep.steps.toNatClampNeg 1)
        (Target.setValue sweep.finish)) target)

end Sweep

namespace Wave

variable {τ : Type} [Target τ]

/-- One round of a wave: the steps up, and as many down. -/
def driveRound (wave : Wave) : τ → Except Refusal Unit × τ :=
  Target.andThen
    (Target.times (Target.step wave.step (· + wave.delta)) wave.halfSteps.toNatClampNeg)
    (Target.times (Target.step wave.step (· - wave.delta)) wave.halfSteps.toNatClampNeg)

/-- Drives a target along a wave. -/
def drive (wave : Wave) (target : τ) : Except Refusal Unit × τ :=
  Target.settle (Target.position target)
    (Target.andThen (Target.step wave.startDelay fun _ => wave.start)
      (Target.andThen (Target.times wave.driveRound wave.repeats.toNatClampNeg)
        (Target.step wave.endDuration fun _ => wave.finish)) target)

end Wave

/-- What a target can be driven along. -/
inductive Course where
  | sweep (sweep : Sweep)
  | wave (wave : Wave)

namespace Course

def curve : Course → Ticks → Curve
  | .sweep course => course.curve
  | .wave course => course.curve

def drive {τ : Type} [Target τ] : Course → τ → Except Refusal Unit × τ
  | .sweep course => course.drive
  | .wave course => course.drive

end Course

/-! ### From drives to curves -/

namespace Target

variable {τ : Type} [Target τ] {origin : Ticks} {Fit : τ → Prop}
  {Meets : τ → Curve → Except Refusal Unit × τ → Prop}

/-- A way to say what becomes of a target that meets a curve, one that started at `origin`.  What is
said of a curve follows from what becomes of its first point and from what is said of the rest.
`Fit` holds of the targets that are on their way. -/
structure Tracing (origin : Ticks) (Fit : τ → Prop)
    (Meets : τ → Curve → Except Refusal Unit × τ → Prop) : Prop where
  advanced (ticks : Ticks) {target : τ} (h : Fit target) :
    Fit (advance ticks target) ∧ position (advance ticks target) = position target + ticks ∧
      value (advance ticks target) = value target
  set {next : Int32} {target after : τ} (h : Fit target)
    (hset : setValue next target = (.ok (), after)) :
    Fit after ∧ position after = position target ∧ value after = next
  stop {target : τ} (h : Fit target) :
    Meets target (.stop (position target + origin)) (.ok (), advance origin target)
  taken {next : Int32} {target after : τ} {rest : Unit → Curve} {ended : Except Refusal Unit × τ}
    (h : Fit target) (hset : setValue next target = (.ok (), after))
    (hrest : Meets after (rest ()) ended) : Meets target (.point (position target) next rest) ended
  refused {next : Int32} {target after : τ} {cause : Refusal} (rest : Unit → Curve)
    (h : Fit target) (hset : setValue next target = (.error cause, after)) :
    Meets target (.point (position target) next rest) (settle origin (.error cause, after))
  /-- A curve does not depend on where the target waits for it. -/
  moved {ticks : Ticks} {target : τ} {curve : Curve} {ended : Except Refusal Unit × τ}
    (h : Fit target) (hmeets : Meets (advance ticks target) curve ended) : Meets target curve ended

/-- A drive, ended as one that started at `origin`, comes to what a curve comes to that goes on from
the position and the value of the target. -/
def Draws (origin : Ticks) (Fit : τ → Prop) (Meets : τ → Curve → Except Refusal Unit × τ → Prop)
    (drive : τ → Except Refusal Unit × τ) (curve : Ticks → Int32 → Curve) : Prop :=
  ∀ target, Fit target →
    Meets target (curve (position target) (value target)) (settle origin (drive target))

namespace Tracing

variable (h : Tracing origin Fit Meets)
include h

theorem draws_rest : Draws origin Fit Meets rest fun position _ => .stop (position + origin) :=
  fun _ hfit => h.stop hfit

/-- A value that is set is the next point of the curve. -/
theorem draws_setValue {next : τ → Except Refusal Unit × τ} {after : Ticks → Int32 → Curve}
    (hnext : Draws origin Fit Meets next after) (value : Int32) :
    Draws origin Fit Meets (andThen (Target.setValue value) next) fun position _ =>
      .point position value fun _ => after position value := by
  intro target hfit
  rw [andThen]
  cases hset : Target.setValue value target with
  | mk reply there =>
    cases reply with
    | error cause => exact h.refused _ hfit hset
    | ok _ =>
      obtain ⟨hfit', hposition, hvalue⟩ := h.set hfit hset
      have hrest := hnext there hfit'
      rw [hposition, hvalue] at hrest
      exact h.taken hfit hset hrest

/-- A step reads back the value that was set last. -/
theorem draws_step {next : τ → Except Refusal Unit × τ} {after : Ticks → Int32 → Curve}
    (hnext : Draws origin Fit Meets next after) (ticks : Ticks) (change : Int32 → Int32) :
    Draws origin Fit Meets (andThen (step ticks change) next) fun position value =>
      .point (position + ticks) (change value) fun _ => after (position + ticks) (change value) := by
  intro target hfit
  obtain ⟨hfit', hposition, hvalue⟩ := h.advanced ticks hfit
  have hset := h.draws_setValue hnext (change (value target)) (advance ticks target) hfit'
  rw [hposition] at hset
  rw [andThen, step, hvalue]
  exact h.moved hfit hset

theorem draws_ramp {next : τ → Except Refusal Unit × τ} {after : Ticks → Int32 → Curve}
    (hnext : Draws origin Fit Meets next after) (ticks : Ticks) (delta : Int32) (count : Nat) :
    Draws origin Fit Meets (andThen (times (step ticks (· + delta)) count) next)
      (Wave.ramp ticks delta after count) := by
  induction count with
  | zero => exact hnext
  | succ count ih =>
    rw [times, andThen_assoc]
    exact h.draws_step ih ticks (· + delta)

theorem draws_rounds (wave : Wave) {next : τ → Except Refusal Unit × τ}
    {after : Ticks → Int32 → Curve} (hnext : Draws origin Fit Meets next after) (count : Nat) :
    Draws origin Fit Meets (andThen (times wave.driveRound count) next)
      (wave.rounds wave.halfSteps.toNatClampNeg after count) := by
  induction count with
  | zero => exact hnext
  | succ count ih =>
    have hfall := h.draws_ramp ih wave.step (-wave.delta) wave.halfSteps.toNatClampNeg
    rw [times, andThen_assoc, Wave.driveRound, andThen_assoc]
    simp only [← Int32.sub_eq_add_neg] at hfall
    exact h.draws_ramp hfall wave.step wave.delta wave.halfSteps.toNatClampNeg

theorem draws_decay (sweep : Sweep) (left count : Nat) :
    Draws origin Fit Meets
      (andThen (sweep.driveSteps left count) (Target.setValue sweep.finish))
      (sweep.decay origin left count) := by
  induction left generalizing count with
  | zero =>
    have hlast := h.draws_setValue h.draws_rest sweep.finish
    rw [andThen_rest] at hlast
    exact hlast
  | succ left ih =>
    rw [Sweep.driveSteps, andThen_assoc]
    exact h.draws_step (ih (count + 1)) sweep.step _

/-- The loops of a sweep and of a wave, which read the value back at each step, draw their curves. -/
theorem meets_course (course : Course) {target : τ} (hfit : Fit target)
    (horigin : position target = origin) :
    Meets target (course.curve origin) (course.drive target) := by
  subst horigin
  cases course with
  | sweep sweep =>
    exact h.draws_step (h.draws_decay sweep sweep.steps.toNatClampNeg 1)
      sweep.startDelay (fun _ => sweep.start) target hfit
  | wave wave =>
    have hlast := h.draws_step h.draws_rest wave.endDuration fun _ => wave.finish
    rw [andThen_rest] at hlast
    have hrounds := h.draws_rounds wave hlast wave.repeats.toNatClampNeg
    rw [← Wave.rounds_roundCount] at hrounds
    exact h.draws_step hrounds wave.startDelay (fun _ => wave.start) target hfit

end Tracing

/-! ### Targets that record -/

/-- Targets that go along with recorders.  A target stands and holds what its recorder does, ticks
move both alike, and both take a value or refuse it, the target with its `cause`. -/
structure Records (R : τ → Recorder → Prop) (cause : Refusal) : Prop where
  position_eq {target : τ} {recorder : Recorder} (h : R target recorder) :
    position target = recorder.position
  value_eq {target : τ} {recorder : Recorder} (h : R target recorder) :
    value target = recorder.value
  advance (ticks : Ticks) {target : τ} {recorder : Recorder} (h : R target recorder) :
    R (advance ticks target) { recorder with position := recorder.position + ticks }
  setValue (value : Int32) {target : τ} {recorder : Recorder} (h : R target recorder) :
    (setValue value target).1 = (recorder.set cause value).1 ∧
      R (setValue value target).2 (recorder.set cause value).2

instance : Target Recorder where
  position recorder := recorder.position
  value recorder := recorder.value
  advance ticks recorder := { recorder with position := recorder.position + ticks }
  setValue := Recorder.set (.port closed)

theorem recorder_records :
    Records (fun target recorder : Recorder => target = recorder) (.port closed) where
  position_eq h := congrArg Recorder.position h
  value_eq h := congrArg Recorder.value h
  advance ticks _ _ h := congrArg (Target.advance ticks) h
  setValue value _ _ h := by
    subst h
    exact ⟨rfl, rfl⟩

/-- The target goes along with the recorder once that has logged `log`, wherever it stands. -/
def Logged (R : τ → Recorder → Prop) (recorder : Recorder) (log : List (Ticks × Int32))
    (target : τ) : Prop :=
  R target { recorder.logged log with position := position target } ∧
    recorder.limit.any (· < log.length) = false

namespace Records

variable {R : τ → Recorder → Prop} {cause : Refusal} (h : Records R cause)
  {recorder : Recorder} {log : List (Ticks × Int32)} {target after : τ} {next : Int32}
include h

theorem logged_advance (ticks : Ticks) (hlog : Logged R recorder log target) :
    Logged R recorder log (Target.advance ticks target) ∧
      position (Target.advance ticks target) = position target + ticks ∧
      value (Target.advance ticks target) = value target := by
  have hthere := h.advance ticks hlog.1
  have hposition : position (Target.advance ticks target) = position target + ticks :=
    h.position_eq hthere
  refine ⟨⟨?_, hlog.2⟩, hposition, (h.value_eq hthere).trans (h.value_eq hlog.1).symm⟩
  rw [hposition]
  exact hthere

theorem logged_of_taken (hlog : Logged R recorder log target)
    (hset : Target.setValue next target = (.ok (), after)) :
    Logged R recorder (log ++ [(position target, next)]) after ∧
      position after = position target ∧ value after = next := by
  obtain ⟨hanswer, hafter⟩ := h.setValue next hlog.1
  rw [hset] at hanswer hafter
  by_cases hfull : recorder.limit = some log.length
  · rw [Recorder.set_of_full hfull] at hanswer
    cases hanswer
  · rw [Recorder.set_of_room hfull] at hafter
    have hposition : position after = position target := h.position_eq hafter
    have hvalue : value after = next := by
      rw [h.value_eq hafter]
      simp [Recorder.logged, Curve.lastValue]
    refine ⟨⟨?_, Recorder.fits_concat hlog.2 hfull _⟩, hposition, hvalue⟩
    rw [hposition]
    exact hafter

theorem full_of_refused {refusal : Refusal} (hlog : Logged R recorder log target)
    (hset : Target.setValue next target = (.error refusal, after)) :
    recorder.limit = some log.length ∧ refusal = cause ∧
      R after { recorder.logged log with position := position target } := by
  obtain ⟨hanswer, hafter⟩ := h.setValue next hlog.1
  rw [hset] at hanswer hafter
  by_cases hfull : recorder.limit = some log.length
  · rw [Recorder.set_of_full hfull] at hanswer hafter
    cases hanswer
    exact ⟨hfull, rfl, hafter⟩
  · rw [Recorder.set_of_room hfull] at hanswer
    cases hanswer

/-- A target that records comes to what the recorder keeps of the curve. -/
theorem tracing (recorder : Recorder) :
    Tracing recorder.position (fun target => ∃ log, Logged R recorder log target)
      fun target curve ended => ∀ log, Logged R recorder log target →
        let kept := recorder.record cause (log ++ curve.points) curve.finish
        ended.1 = kept.1 ∧ R ended.2 kept.2 where
  advanced ticks target := by
    rintro ⟨log, hlog⟩
    obtain ⟨hthere, hrest⟩ := h.logged_advance ticks hlog
    exact ⟨⟨log, hthere⟩, hrest⟩
  set := by
    rintro next target after ⟨log, hlog⟩ hset
    obtain ⟨hafter, hrest⟩ := h.logged_of_taken hlog hset
    exact ⟨⟨_, hafter⟩, hrest⟩
  stop {target} _ log hlog := by
    simp only [Curve.points, Curve.finish]
    rw [List.append_nil, Recorder.record_of_fits hlog.2]
    exact ⟨rfl, h.advance recorder.position hlog.1⟩
  taken {next target after rest ended} _ hset hrest log hlog := by
    have hkept := hrest _ (h.logged_of_taken hlog hset).1
    rw [List.append_assoc] at hkept
    exact hkept
  refused {next target after refusal} rest _ hset log hlog := by
    obtain ⟨hfull, rfl, hafter⟩ := h.full_of_refused hlog hset
    have hback : position target + -(position target - recorder.position) = recorder.position := by
      grind
    have hsettled := h.advance (-(position target - recorder.position)) hafter
    rw [hback] at hsettled
    simp only [Curve.points, Curve.finish]
    rw [Recorder.record_of_full hfull, settle, h.position_eq hafter]
    exact ⟨rfl, hsettled⟩
  moved {ticks target curve ended} _ hmeets log hlog := hmeets log (h.logged_advance ticks hlog).1

/-- Before anything is logged, a target is at the start of its way. -/
theorem drive_course (hseen : R target recorder) (hfresh : recorder.log = #[]) (course : Course) :
    let curve := course.curve recorder.position
    let kept := recorder.record cause curve.points curve.finish
    (course.drive target).1 = kept.1 ∧ R (course.drive target).2 kept.2 := by
  have hposition := h.position_eq hseen
  have hlog : Logged R recorder [] target := by
    rw [Logged, hposition, Recorder.logged_nil hfresh]
    exact ⟨hseen, recorder.fits_nil⟩
  exact (h.tracing recorder).meets_course course ⟨[], hlog⟩ hposition [] hlog

end Records

end Target

end MusicMacro
