import MusicMacro.Config
import MusicMacro.FileError
import MusicMacro.Json.Format

/-! The written form of a configuration.  A configuration names what it changes; everything else
has its standard value. -/

namespace MusicMacro

instance : JsonFormat Length := .ofNumber Length.denominator Length.mk

instance : JsonFormat Resolution := .ofNumber Resolution.wholeNote Resolution.mk

def ChannelSetup.fields : List (Json.Field ChannelSetup) :=
  [.of "channel" (·.number) fun value setup => { setup with number := value },
    .of "velocity" (·.velocity) fun value setup => { setup with velocity := value },
    .of "velocity_sensitivity" (·.velocityStep) fun value setup =>
      { setup with velocityStep := value },
    .of "octave" (·.octave) fun value setup => { setup with octave := value },
    .of "default_length" (·.defaultLength) fun value setup => { setup with defaultLength := value },
    .of "key_delay" (·.keyDelay) fun value setup => { setup with keyDelay := value },
    .of "gate_denominator" (·.gate.denominator) fun value setup =>
      { setup with gate := { setup.gate with denominator := value } },
    .of "gate_relative" (·.gate.relative) fun value setup =>
      { setup with gate := { setup.gate with relative := value } },
    .of "gate_absolute" (·.gate.absolute) fun value setup =>
      { setup with gate := { setup.gate with absolute := value } },
    .of "transpose" (·.transpose) fun value setup => { setup with transpose := value }]

instance : JsonFormat ChannelSetup := .ofFields ChannelSetup.fields {}

def Config.fields : List (Json.Field Config) :=
  [.of "base_count" (·.wholeNote) fun value config => { config with wholeNote := value },
    .of "channel" (·.channel) fun value config => { config with channel := value }]

instance : JsonFormat Config := .ofFields Config.fields .standard

inductive LoadError where
  | file (cause : FileError)
  | notText
  | unreadable (error : Json.ReadError)
  deriving DecidableEq, Repr

def LoadError.message : LoadError → String
  | .file cause => cause.message
  | .notText => "stream did not contain valid UTF-8"
  | .unreadable error => error.message

def Config.load (file : Except FileError ByteArray) : Except LoadError Config :=
  match file with
  | .error cause => .error (.file cause)
  | .ok bytes =>
    match String.fromUTF8? bytes with
    | none => .error .notText
    | some text => (JsonFormat.read Config text).mapError .unreadable

end MusicMacro
