import MusicMacro.Channel
import MusicMacro.Message

/-! Dials: the values of a track that can be swept.  A dial remembers what it was last set to, and
setting it sends its value at once, the tempo as a meta event, the bend as a bend message and the
others as control changes. -/

namespace MusicMacro

inductive Dial where
  | tempo
  | pitchBend
  | expression
  | modulation
  | volume
  | pan
  | damperPedal
  | reverbSend
  | chorusSend
  | delaySend
  deriving DecidableEq, Repr

inductive Dial.Route where
  | tempo
  | bend
  | controller (number : UInt8)
  deriving DecidableEq, Repr

namespace Dial

def all : List Dial :=
  [.tempo, .pitchBend, .expression, .modulation, .volume, .pan, .damperPedal, .reverbSend,
    .chorusSend, .delaySend]

def index : Dial → Fin 10
  | .tempo => 0 | .pitchBend => 1 | .expression => 2 | .modulation => 3 | .volume => 4
  | .pan => 5 | .damperPedal => 6 | .reverbSend => 7 | .chorusSend => 8 | .delaySend => 9

theorem index_inj {dial other : Dial} : dial.index = other.index ↔ dial = other := by
  cases dial <;> cases other <;> decide

def commandName : Dial → String
  | .tempo => "t" | .pitchBend => "B" | .expression => "E" | .modulation => "M" | .volume => "V"
  | .pan => "P" | .damperPedal => "H" | .reverbSend => "RSD" | .chorusSend => "CSD"
  | .delaySend => "DSD"

def name : Dial → String
  | .tempo => "Tempo" | .pitchBend => "PitchBend" | .expression => "Expression"
  | .modulation => "Modulation" | .volume => "Volume" | .pan => "Pan"
  | .damperPedal => "DumperPedal" | .reverbSend => "ReverbSendDepth"
  | .chorusSend => "ChorusSendDepth" | .delaySend => "DelaySendDepth"

def route : Dial → Route
  | .tempo => .tempo
  | .pitchBend => .bend
  | .expression => .controller 0x0B
  | .modulation => .controller 0x01
  | .volume => .controller 0x07
  | .pan => .controller 0x0A
  | .damperPedal => .controller 0x40
  | .reverbSend => .controller 0x5B
  | .chorusSend => .controller 0x5D
  | .delaySend => .controller 0x5E

def controllerNumber? (dial : Dial) : Option UInt8 :=
  match dial.route with
  | .controller number => some number
  | _ => none

end Dial

/-- The bend that is sent for a value: the value itself, or with a range its whole semitones as a
share of 8192. -/
def Channel.bend (channel : Channel) (value : Int32) : Int32 :=
  if channel.bendRange = 0 then value else value / 100 * 8192 / channel.bendRange

/-- The three bytes of a tempo, the most significant one first. -/
def tempoBytes (value : Int32) : List UInt8 :=
  [lowByte (value / 0x10000), lowByte (value % 0x10000 / 0x100), lowByte (value % 0x100)]

def Dial.primitive (dial : Dial) (channel : Channel) (value : Int32) : Primitive :=
  match dial.route with
  | .tempo => .metaBytes 0x51 (tempoBytes value)
  | .bend => (Message.pitchBend (channel.bend value)).primitive channel.number
  | .controller number => (Message.controlChange number (lowByte value)).primitive channel.number

structure Dials where
  values : Vector Int32 10
  deriving DecidableEq, Repr

namespace Dials

def zero : Dials := ⟨.replicate 10 0⟩

def get (dials : Dials) (dial : Dial) : Int32 := dials.values[dial.index]

def set (dials : Dials) (dial : Dial) (value : Int32) : Dials :=
  ⟨dials.values.set dial.index value⟩

theorem get_set (dials : Dials) (dial other : Dial) (value : Int32) :
    (dials.set dial value).get other = if other = dial then value else dials.get other := by
  simp only [get, set, Fin.getElem_fin, Vector.getElem_set, ← Fin.ext_iff, Dial.index_inj, eq_comm]

theorem set_get (dials : Dials) (dial : Dial) : dials.set dial (dials.get dial) = dials := by
  simp [get, set]

theorem set_set (dials : Dials) (dial : Dial) (value later : Int32) :
    (dials.set dial value).set dial later = dials.set dial later := by
  simp [set]

theorem ext_get {dials other : Dials} (h : ∀ dial, dials.get dial = other.get dial) :
    dials = other := by
  have hdial : ∀ index : Fin 10, ∃ dial ∈ Dial.all, dial.index = index := by decide
  obtain ⟨values⟩ := dials
  obtain ⟨others⟩ := other
  congr 1
  refine Vector.ext fun index hindex => ?_
  obtain ⟨dial, -, hindex⟩ := hdial ⟨index, hindex⟩
  simpa [get, hindex] using h dial

end Dials

end MusicMacro
