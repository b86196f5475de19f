import MusicMacro.LowByte
import MusicMacro.Primitive

/-! The messages of a channel, and the groups of messages that set its program and its registered
and unregistered parameters. -/

namespace MusicMacro

inductive Message where
  | noteOff (key velocity : UInt8)
  | noteOn (key velocity : UInt8)
  | polyAftertouch (key pressure : UInt8)
  | controlChange (controller value : UInt8)
  | programChange (program : UInt8)
  | channelAftertouch (pressure : UInt8)
  | pitchBend (value : Int32)
  deriving DecidableEq, Repr

namespace Message

/-- The primitive that sends a message.  A bend is split into its last seven bits and the rest,
with the sign of the bend on both. -/
def primitive (channel : UInt8) : Message → Primitive
  | .noteOff key velocity => .message3 channel 0x80 key velocity
  | .noteOn key velocity => .message3 channel 0x90 key velocity
  | .polyAftertouch key pressure => .message3 channel 0xA0 key pressure
  | .controlChange controller value => .message3 channel 0xB0 controller value
  | .programChange program => .message2 channel 0xC0 program
  | .channelAftertouch pressure => .message2 channel 0xD0 pressure
  | .pitchBend value => .message3 channel 0xE0 (lowByte (value % 0x80)) (lowByte (value / 0x80))

end Message

inductive Controller where
  | dataEntryMsb
  | dataEntryLsb
  | sostenuto
  | softPedal
  | legato
  | nrpnMsb
  | nrpnLsb
  | rpnMsb
  | rpnLsb
  deriving DecidableEq, Repr

def Controller.number : Controller → UInt8
  | .dataEntryMsb => 0x06
  | .dataEntryLsb => 0x26
  | .sostenuto => 0x42
  | .softPedal => 0x43
  | .legato => 0x54
  | .nrpnMsb => 0x63
  | .nrpnLsb => 0x62
  | .rpnMsb => 0x65
  | .rpnLsb => 0x64

def Controller.message (controller : Controller) (value : UInt8) : Message :=
  .controlChange controller.number value

inductive WideController where
  | dataEntry
  | nrpn
  | rpn
  deriving DecidableEq, Repr

def WideController.bytes : WideController → Controller × Controller
  | .dataEntry => (.dataEntryMsb, .dataEntryLsb)
  | .nrpn => (.nrpnMsb, .nrpnLsb)
  | .rpn => (.rpnMsb, .rpnLsb)

def WideController.messages (controller : WideController) (msb lsb : UInt8) : List Message :=
  [controller.bytes.1.message msb, controller.bytes.2.message lsb]

namespace Message

def bankProgram (program bankMsb bankLsb : UInt8) : List Message :=
  [.controlChange 0x00 bankMsb, .controlChange 0x20 bankLsb, .programChange program]

/-- Sets the range of the pitch bend, which is the registered parameter zero. -/
def bendSensitivity (semitones : UInt8) : List Message :=
  WideController.rpn.messages 0 0 ++ WideController.dataEntry.messages semitones 0

end Message

namespace Primitive

/-- The meta event of a time signature.  Halves, quarters, eighths and sixteenths are written as
powers of two, and any other denominator as it is. -/
def timeSignature (numerator denominator : UInt8) : Primitive :=
  let power : UInt8 :=
    match denominator with
    | 2 => 1
    | 4 => 2
    | 8 => 3
    | 16 => 4
    | other => other
  .metaBytes 0x58 [numerator, power, 0, 0]

def wholeSysex (bytes : List UInt8) : Primitive := .sysex bytes 0 (UInt64.ofNat bytes.length)

def gmSystemOn : Primitive := wholeSysex [0xF0, 0x7E, 0x7F, 0x09, 0x01, 0xF7]

def xgReset : Primitive :=
  wholeSysex [0xF0, 0x43, 0x10, 0x4C, 0x00, 0x00, 0x7E, 0x00, 0xF7]

end Primitive

end MusicMacro
