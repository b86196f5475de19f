/-! The primitives of a track: the calls that playing comes down to.  A primitive for a channel
carries the channel beside the status byte, and the sink that takes it decides how the two are
written. -/

namespace MusicMacro

inductive Primitive where
  | loopOpening (channel : UInt8)
  /-- Leaves the innermost loop in the listed rounds. -/
  | loopLeaving (channel : UInt8) (targets : List Int32)
  /-- Closes the innermost loop, which is played so many times. -/
  | loopClosing (channel : UInt8) (repeats : Int32)
  | message2 (channel status data : UInt8)
  | message3 (channel status data1 data2 : UInt8)
  | metaBytes (type : UInt8) (bytes : List UInt8)
  | metaText (type : UInt8) (text : String)
  /-- The part of a system exclusive message that starts at `offset` and is `length` long. -/
  | sysex (bytes : List UInt8) (offset length : UInt64)
  deriving DecidableEq, Repr

namespace Primitive

def name : Primitive → String
  | .loopOpening .. => "begin_loop"
  | .loopLeaving .. => "break_loop"
  | .loopClosing .. => "end_loop"
  | .message2 .. => "midi_event2"
  | .message3 .. => "midi_event3"
  | .metaBytes .. => "midi_meta"
  | .metaText .. => "midi_meta_text"
  | .sysex .. => "midi_sysex"

def excerpt (bytes : List UInt8) (offset length : UInt64) : List UInt8 :=
  (bytes.drop offset.toNat).take length.toNat

end Primitive

end MusicMacro
