import MusicMacro.Curve.Sweep
import MusicMacro.Curve.Wave
import MusicMacro.Text.Decimal
import MusicMacro.Timeline
import MusicMacro.Track.Note

/-! The operations of a track.  Each is described by its plan: moves and settings change the
performer and send nothing, messages send and change nothing, notes and dials do both. -/

namespace MusicMacro

inductive Setting where
  | velocity
  | velocityStep
  | octave
  | transpose
  | defaultLength
  | keyDelay
  | gateRelative
  | gateDenominator
  | gateAbsolute
  | bendRange
  deriving DecidableEq, Repr

def Channel.assign (channel : Channel) (setting : Setting) (value : Int32) : Channel :=
  match setting with
  | .velocity => { channel with velocity := value }
  | .velocityStep => { channel with velocityStep := value }
  | .octave => { channel with octave := value }
  | .transpose => { channel with transpose := value }
  | .defaultLength => { channel with defaultLength := ⟨value⟩ }
  | .keyDelay => { channel with keyDelay := value }
  | .gateRelative => { channel with gate := { channel.gate with relative := value } }
  | .gateDenominator => { channel with gate := { channel.gate with denominator := value } }
  | .gateAbsolute => { channel with gate := { channel.gate with absolute := value } }
  | .bendRange => { channel with bendRange := value }

inductive Shift where
  | louder
  | softer
  | octaveUp
  | octaveDown
  deriving DecidableEq, Repr

def Channel.shift (channel : Channel) : Shift → Channel
  | .louder => { channel with velocity := channel.velocity + channel.velocityStep }
  | .softer => { channel with velocity := channel.velocity - channel.velocityStep }
  | .octaveUp => { channel with octave := channel.octave + 1 }
  | .octaveDown => { channel with octave := channel.octave - 1 }

/-- The channel with the sign of a pitch class in its key signature.  The sign that leaves the
alteration to the key signature changes nothing. -/
def Channel.sign (channel : Channel) (pitch : PitchClass) (accidental : Accidental) : Channel :=
  match accidental.fixed? with
  | some offset => { channel with keySignature := channel.keySignature.set pitch offset }
  | none => channel

inductive Query where
  | position
  | wholeNote
  | defaultTicks
  | gate (basis : Ticks)
  | dial (dial : Dial)
  deriving DecidableEq, Repr

def Performer.ask (performer : Performer) : Query → Int32
  | .position => performer.position
  | .wholeNote => performer.resolution.wholeNote
  | .defaultTicks => performer.defaultTicks
  | .gate basis => performer.channel.gate.sounding basis
  | .dial dial => performer.dials.get dial

inductive LoopMark where
  | opening
  | leaving (targets : List Int32)
  | closing (repeats : Int32)
  deriving DecidableEq, Repr

def LoopMark.primitive (channel : UInt8) : LoopMark → Primitive
  | .opening => .loopOpening channel
  | .leaving targets => .loopLeaving channel targets
  | .closing repeats => .loopClosing channel repeats

inductive Turn where
  | set (value : Int32)
  | raise (delta : Int32)
  | lower (delta : Int32)
  | sweep (sweep : Sweep)
  | wave (wave : Wave)
  deriving DecidableEq, Repr

inductive Operation where
  | query (query : Query)
  | move (move : Move) (ticks : Ticks)
  | moveLength (move : Move) (length : Length)
  /-- Sets the channel, counted from zero. -/
  | setChannel (number : UInt8)
  /-- Sets the channel, counted from one. -/
  | selectChannel (number : UInt8)
  | assign (setting : Setting) (value : Int32)
  | shift (shift : Shift)
  | clearKeySignature
  | setAlteration (pitch : PitchClass) (offset : Int32)
  | setSign (pitch : PitchClass) (accidental : Accidental)
  | note (key : UInt8) (options : Articulation)
  | play (pitch : PitchClass) (accidental : Accidental) (options : Articulation)
  | send (messages : List Message)
  | loop (mark : LoopMark)
  | primitive (primitive : Primitive)
  | turn (dial : Dial) (turn : Turn)
  | debug (text : String)
  | assertPosition (expected : Ticks) (label : String)
  deriving DecidableEq, Repr

def mismatchText (label : String) (expected actual : Ticks) : String :=
  "WARNING: step assertion failed: " ++ label ++ " (expected: " ++
    Decimal.text expected.toInt ++ ", actual: " ++ Decimal.text actual.toInt ++ ")"

namespace Plan

def become (performer : Performer) : Plan := .done .done performer

/-- Turns a dial.  Its value is kept before it is sent, and stays if it is refused. -/
def turn (performer : Performer) (dial : Dial) : Turn → Plan
  | .set value => setTo value
  | .raise delta => setTo (performer.dials.get dial + delta)
  | .lower delta => setTo (performer.dials.get dial - delta)
  | .sweep course => along (course.curve performer.position)
  | .wave course => along (course.curve performer.position)
where
  setTo (value : Int32) : Plan :=
    sendAll (performer.setDial dial value) [dial.primitive performer.channel value]
  along (curve : Curve) : Plan := followCurve dial performer.position curve performer

def assertPosition (performer : Performer) (expected : Ticks) (label : String) : Plan :=
  if expected = performer.position then .done (.held true) performer
  else
    .remark (.notice (.stepMismatch label expected performer.position)) fun _ =>
      .remark (.debug (mismatchText label expected performer.position)) fun _ =>
        .done (.held false) performer

end Plan

def Operation.plan (performer : Performer) : Operation → Plan
  | .query question => .done (.number (performer.ask question)) performer
  | .move m ticks => .become (performer.move m ticks)
  | .moveLength m length => .become (performer.move m (performer.resolution.toTicks length))
  | .setChannel number => .become { performer with channel.number := number }
  | .selectChannel number => .become { performer with channel.number := number - 1 }
  | .assign setting value =>
    .become { performer with channel := performer.channel.assign setting value }
  | .shift change => .become { performer with channel := performer.channel.shift change }
  | .clearKeySignature => .become { performer with channel.keySignature := .natural }
  | .setAlteration pitch offset =>
    .become { performer with
      channel.keySignature := performer.channel.keySignature.set pitch offset }
  | .setSign pitch accidental =>
    .become { performer with channel := performer.channel.sign pitch accidental }
  | .note key options => .note performer key options
  | .play pitch accidental options =>
    .note performer (lowByte (performer.channel.key pitch accidental)) options
  | .send messages =>
    .sendAll performer (messages.map fun message => message.primitive performer.channel.number)
  | .loop mark => .sendAll performer [mark.primitive performer.channel.number]
  | .primitive p => .sendAll performer [p]
  | .turn dial how => .turn performer dial how
  | .debug text => .remark (.debug text) fun _ => .done .done performer
  | .assertPosition expected label => .assertPosition performer expected label

end MusicMacro
