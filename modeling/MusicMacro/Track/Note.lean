import MusicMacro.Track.Plan

/-! Notes.  A note takes its step from the timeline, whatever it sounds like: the onset comes after
the key delay, the release after the gate, and then the rest of the step follows and the key delay
is taken back. -/

namespace MusicMacro

/-- What a note can say for itself.  A value that is missing or negative leaves it to the
channel. -/
structure Articulation where
  step : Option Ticks := none
  gate : Option Ticks := none
  velocity : Option Int32 := none
  keyDelay : Option Ticks := none
  offVelocity : UInt8 := 0
  deriving DecidableEq, Repr

/-- A value where a negative number means that none is given. -/
def nonneg? (value : Int32) : Option Int32 := if 0 ≤ value then some value else none

/-- A value that counts only if it is given and not negative. -/
def nonnegOr (value : Option Int32) (standard : Int32) : Int32 :=
  match value with
  | some v => if 0 ≤ v then v else standard
  | none => standard

namespace Articulation

def ofStep (step : Ticks) : Articulation := { step := some step }

def ofNumbers (step gate velocity keyDelay : Int32) (offVelocity : UInt8) : Articulation where
  step := nonneg? step
  gate := nonneg? gate
  velocity := nonneg? velocity
  keyDelay := nonneg? keyDelay
  offVelocity := offVelocity

end Articulation

namespace Performer

def noteStep (performer : Performer) (options : Articulation) : Ticks :=
  nonnegOr options.step performer.defaultTicks

def noteVelocity (performer : Performer) (options : Articulation) : Int32 :=
  nonnegOr options.velocity performer.channel.velocity

def noteDelay (performer : Performer) (options : Articulation) : Ticks :=
  nonnegOr options.keyDelay performer.channel.keyDelay

def noteGate (performer : Performer) (options : Articulation) : Ticks :=
  performer.channel.gate.sounding (nonnegOr options.gate (performer.noteStep options))

def onset (performer : Performer) (options : Articulation) : Performer :=
  performer.move .advance (performer.noteDelay options)

def release (performer : Performer) (options : Articulation) : Performer :=
  (performer.onset options).move .advance (performer.noteGate options)

def afterNote (performer : Performer) (options : Articulation) : Performer :=
  ((performer.release options).move .advance
    (performer.noteStep options - performer.noteGate options)).move .rewind
      (performer.noteDelay options)

end Performer

/-- Plays a note.  A refusal takes the track back to where the note started. -/
def Plan.note (performer : Performer) (key : UInt8) (options : Articulation) : Plan :=
  let channel := performer.channel.number
  let velocity := lowByte (performer.noteVelocity options)
  let back (reached : Performer) : Performer := reached.move .jump performer.position
  .emit ((Message.noteOn key velocity).primitive channel) (back (performer.onset options)) fun _ =>
    .emit ((Message.noteOff key options.offVelocity).primitive channel)
      (back (performer.release options)) fun _ =>
        .done .done (performer.afterNote options)

end MusicMacro
