import MusicMacro.Timeline
import MusicMacro.Pitch

/-! The performance settings of a channel.  Nothing here is checked for range: a setting that ends
up in a message is cut to a byte where the message is built. -/

namespace MusicMacro

/-- How much of a note's length it sounds: a fraction, less a number of ticks. -/
structure Gate where
  relative : Int32
  denominator : Int32
  absolute : Ticks
  deriving DecidableEq, Repr

/-- The ticks that a note of length `basis` sounds.  The fraction of the length is rounded down to
a tick; a fraction without a denominator keeps the whole length. -/
def Gate.sounding (gate : Gate) (basis : Ticks) : Ticks :=
  let share : Int :=
    if gate.denominator = 0 then basis.toInt
    else Int.fdiv (basis.toInt * gate.relative.toInt) gate.denominator.toInt
  Int32.ofInt share - gate.absolute

/-- The settings of a channel that a configuration can name, with their standard values. -/
structure ChannelSetup where
  number : UInt8 := 0
  velocity : Int32 := 100
  /-- What one step of the velocity adds or takes away. -/
  velocityStep : Int32 := 4
  octave : Int32 := 4
  defaultLength : Length := .quarter
  /-- The ticks from the start of a note's step to its onset. -/
  keyDelay : Ticks := 0
  gate : Gate := { relative := 8, denominator := 8, absolute := 0 }
  transpose : Int32 := 0
  deriving DecidableEq, Repr

structure Channel extends ChannelSetup where
  keySignature : KeySignature
  /-- The range of the pitch bend in semitones, under which a bend is given in cents.  Without a
  range a bend is given as it is sent. -/
  bendRange : Int32
  deriving DecidableEq, Repr

def ChannelSetup.start (setup : ChannelSetup) : Channel :=
  { setup with keySignature := .natural, bendRange := 0 }

def Channel.key (channel : Channel) (pitch : PitchClass) (accidental : Accidental) : Int32 :=
  channel.keySignature.key pitch accidental channel.octave channel.transpose

end MusicMacro
