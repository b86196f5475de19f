import MusicMacro.Curve
import MusicMacro.Sink

/-! The plainest thing that a curve can drive: it keeps the value and a log of what it was set to,
and takes a limited number of values. -/

namespace MusicMacro

structure Recorder where
  position : Ticks
  value : Int32
  log : Array (Ticks × Int32) := #[]
  limit : Option Nat := none
  deriving DecidableEq, Repr

/-- Follows a curve that started at `origin`.  The position moves with the curve.  A value beyond
the limit is refused and not kept, and the ticks gone since the start are taken back. -/
def Recorder.followFrom (origin : Ticks) : Curve → Recorder → Except Refusal Unit × Recorder
  | .stop position, recorder => (.ok (), { recorder with position })
  | .point position value next, recorder =>
    if recorder.limit = some recorder.log.size then
      (.error (.port closed), { recorder with position := position + -(position - origin) })
    else
      Recorder.followFrom origin (next ())
        { recorder with position, value, log := recorder.log.push (position, value) }

def Recorder.follow (curve : Curve) (recorder : Recorder) : Except Refusal Unit × Recorder :=
  Recorder.followFrom recorder.position curve recorder

end MusicMacro
