import MusicMacro.Curve

/-! The triangle wave: the value rises from the start in equal steps, falls back in as many, and
repeats this; after a last wait it settles. -/

namespace MusicMacro

/-- A wave of `repeats` rounds, each rising for `period` ticks and falling for as many, by `delta`
for each `step` ticks. -/
structure Wave where
  start : Int32
  finish : Int32
  startDelay : Ticks
  endDuration : Ticks
  period : Ticks
  step : Ticks
  delta : Int32
  repeats : Int32
  deriving DecidableEq, Repr

namespace Wave

def halfSteps (wave : Wave) : Int32 := quotientOrZero wave.period wave.step

/-- As many steps as `left` says, each adding `delta`, before what comes after them. -/
def ramp (step : Ticks) (delta : Int32) (after : Ticks → Int32 → Curve) :
    (left : Nat) → (position : Ticks) → (value : Int32) → Curve
  | 0, position, value => after position value
  | left + 1, position, value =>
    .point (position + step) (value + delta) fun _ =>
      ramp step delta after left (position + step) (value + delta)

def rounds (wave : Wave) (half : Nat) (after : Ticks → Int32 → Curve) :
    (left : Nat) → (position : Ticks) → (value : Int32) → Curve
  | 0, position, value => after position value
  | left + 1, position, value =>
    ramp wave.step wave.delta
      (ramp wave.step (-wave.delta) (wave.rounds half after left) half) half position value

/-- The number of rounds that have points.  A round without steps has none. -/
def roundCount (wave : Wave) : Nat :=
  if wave.halfSteps.toNatClampNeg = 0 then 0 else wave.repeats.toNatClampNeg

/-- The wave as it starts at the position `origin`.  The position it started from is added once
more at the end. -/
def curve (wave : Wave) (origin : Ticks) : Curve :=
  let first := origin + wave.startDelay
  .point first wave.start fun _ =>
    wave.rounds wave.halfSteps.toNatClampNeg
      (fun position _ =>
        .point (position + wave.endDuration) wave.finish fun _ =>
          .stop (position + wave.endDuration + origin))
      wave.roundCount first wave.start

end Wave

end MusicMacro
