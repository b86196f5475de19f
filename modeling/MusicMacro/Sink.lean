import MusicMacro.Timeline
import MusicMacro.Primitive

/-! What takes the primitives of a track.  A sink answers every primitive, and a refusal gives its
cause.  Remarks are not music: a sink takes them as well as it can, and never refuses one. -/

namespace MusicMacro

inductive Refusal where
  | unsupported (operation : String)
  | io (reason : String)
  | port (reason : String)
  deriving DecidableEq, Repr

def Refusal.message : Refusal → String
  | .unsupported operation => "unsupported operation: " ++ operation
  | .io reason => "IO error: " ++ reason
  | .port reason => "MIDI port error: " ++ reason

/-- The reason that an output or a port gives once it takes no more. -/
def closed : String := "closed"

inductive Severity where
  | trace
  | info
  | warn
  deriving DecidableEq, Repr

inductive Notice where
  | stepMismatch (label : String) (expected actual : Ticks)
  | diagnosticLost (reason : String)
  | diagnostic (text : String)
  /-- A message goes out.  The flag tells whether it is a message of the live protocol. -/
  | transmit (wellFormed : Bool)
  deriving DecidableEq, Repr

namespace Notice

def severity : Notice → Severity
  | .stepMismatch .. => .warn
  | .diagnosticLost _ => .warn
  | .diagnostic _ => .info
  | .transmit _ => .trace

def message : Notice → String
  | .stepMismatch .. => "step assertion failed"
  | .diagnosticLost reason => "debug output failed: " ++ reason
  | .diagnostic text => text
  | .transmit wellFormed => if wellFormed then "transmit" else "transmit (unparsed)"

end Notice

inductive Remark where
  | debug (text : String)
  | notice (notice : Notice)
  deriving DecidableEq, Repr

class Sink (σ : Type) where
  emit : Primitive → σ → Except Refusal Unit × σ
  remark : Remark → σ → σ
  /-- Asks whether everything taken so far has gone out. -/
  flush : σ → Except Refusal Unit

end MusicMacro
