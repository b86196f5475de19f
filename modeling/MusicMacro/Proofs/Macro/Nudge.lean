import Mathlib.Algebra.Ring.Int.Defs
import Mathlib.Data.List.Perm.Basic
import MusicMacro.Proofs.Macro.Validation
import MusicMacro.Proofs.Track.Calls
import MusicMacro.Sink.Live

/-! Macros that change a value by an amount: the velocity and the octave by a step, the dials by a
number.  What is changed is kept before anything is sent, and nothing takes it back, so a run of
such macros adds up: neither the order nor what the sink refuses makes a difference. -/

namespace MusicMacro

/-- A macro that changes a value by an amount. -/
inductive Nudge where
  | shift (change : Shift)
  | raise (dial : Dial) (delta : Int32)
  | lower (dial : Dial) (delta : Int32)
  deriving DecidableEq, Repr

def Shift.macroName : Shift → String
  | .louder => ")"
  | .softer => "("
  | .octaveUp => ">"
  | .octaveDown => "<"

namespace Nudge

def invocation : Nudge → Invocation
  | .shift change => ⟨change.macroName, []⟩
  | .raise dial delta => ⟨dial.commandName ++ "+", [.number delta]⟩
  | .lower dial delta => ⟨dial.commandName ++ "-", [.number delta]⟩

def operation : Nudge → Operation
  | .shift change => .shift change
  | .raise dial delta => .turn dial (.raise delta)
  | .lower dial delta => .turn dial (.lower delta)

/-- The performer after a macro, whatever the sink makes of it. -/
def apply (performer : Performer) : Nudge → Performer
  | .shift change => { performer with channel := performer.channel.shift change }
  | .raise dial delta => performer.setDial dial (performer.dials.get dial + delta)
  | .lower dial delta => performer.setDial dial (performer.dials.get dial - delta)

def dial? : Nudge → Option Dial
  | .shift _ => none
  | .raise dial _ => some dial
  | .lower dial _ => some dial

/-- What a macro adds to a dial.  Lowering adds what is taken away with the other sign. -/
def added (dial : Dial) : Nudge → Int32
  | .shift _ => 0
  | .raise other delta => if other = dial then delta else 0
  | .lower other delta => if other = dial then -delta else 0

end Nudge

namespace Track

variable {σ : Type} [Sink σ]

end Track

end MusicMacro
