import MusicMacro.Sink

/-! The sink for a live port.  The channel is added to the status byte, and the bytes go out as one
message.  Loops and meta events have no form on a port: they exist only in written music.  All that
the sink asks of its port is that it takes messages or refuses them, whenever it likes. -/

namespace MusicMacro

/-- The messages that a port has sent, and the number it can still send if that is bounded. -/
structure Port where
  sent : Array (List UInt8) := #[]
  room : Option Nat := none

def Port.send (port : Port) (message : List UInt8) : Except Refusal Unit × Port :=
  match port.room with
  | none => (.ok (), { port with sent := port.sent.push message })
  | some 0 => (.error (.port closed), port)
  | some (room + 1) => (.ok (), { sent := port.sent.push message, room := some room })

/-- Whether the bytes start with a message of the live protocol: a status byte, and the data bytes
that it asks for.  The end of an exclusive message does not start one. -/
def isLiveMessage : List UInt8 → Bool
  | [] => false
  | status :: rest =>
    let data := (rest.takeWhile (· < 0x80)).length
    if status < 0x80 then false
    else if status < 0xF0 then (if 0xC0 ≤ status && status < 0xE0 then 1 else 2) ≤ data
    else status != 0xF7

def Primitive.liveMessage? : Primitive → Option (List UInt8)
  | .message2 channel status data => some [status + channel, data]
  | .message3 channel status data1 data2 => some [status + channel, data1, data2]
  | .sysex bytes offset length => some (excerpt bytes offset length)
  | _ => none

/-- What can take the messages of a live sink. -/
class MidiPort (π : Type) where
  send : List UInt8 → π → Except Refusal Unit × π

instance : MidiPort Port where
  send message port := port.send message

structure Live (π : Type) where
  port : π
  log : Array Notice := #[]

namespace Live

variable {π : Type} [MidiPort π]

def emit (primitive : Primitive) (sink : Live π) : Except Refusal Unit × Live π :=
  match primitive.liveMessage? with
  | none => (.error (.unsupported primitive.name), sink)
  | some message =>
    let (reply, port) := MidiPort.send message sink.port
    (reply, { port, log := sink.log.push (.transmit (isLiveMessage message)) })

def remark (remark : Remark) (sink : Live π) : Live π :=
  match remark with
  | .notice notice => { sink with log := sink.log.push notice }
  | .debug text => { sink with log := sink.log.push (.diagnostic text) }

instance : Sink (Live π) where
  emit := emit
  remark := remark
  flush _ := .ok ()

end Live

/-- The live sink on a port that keeps what it has sent. -/
abbrev Transmitter := Live Port

end MusicMacro
