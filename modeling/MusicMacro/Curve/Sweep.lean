import MusicMacro.Curve

/-! The sweep from one value to another that slows down as it goes: its first step covers the whole
span, the second half of it, the third a third, and so on, and the last value is the target
itself. -/

namespace MusicMacro

structure Sweep where
  start : Int32
  finish : Int32
  startDelay : Ticks
  length : Ticks
  step : Ticks
  deriving DecidableEq, Repr

namespace Sweep

def standardStep : Ticks := 4

def steps (sweep : Sweep) : Int32 := quotientOrZero sweep.length sweep.step

/-- The rest of the sweep before its step number `count`, with `left` steps to go. -/
def decay (sweep : Sweep) (origin : Ticks) :
    (left count : Nat) → (position : Ticks) → (value : Int32) → Curve
  | 0, _, position, _ => .point position sweep.finish fun _ => .stop (position + origin)
  | left + 1, count, position, value =>
    let later := position + sweep.step
    let next := value + (sweep.finish - sweep.start) / Int32.ofNat count
    .point later next fun _ => sweep.decay origin left (count + 1) later next

/-- The sweep as it starts at the position `origin`.  The position it started from is added once
more at the end. -/
def curve (sweep : Sweep) (origin : Ticks) : Curve :=
  let first := origin + sweep.startDelay
  .point first sweep.start fun _ =>
    sweep.decay origin sweep.steps.toNatClampNeg 1 first sweep.start

end Sweep

end MusicMacro
