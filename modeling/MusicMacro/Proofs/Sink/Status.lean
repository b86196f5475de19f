import MusicMacro.Dial
import MusicMacro.Sink.Sheet
import MusicMacro.Sink.Live

/-! The status of a message and its channel.  A live port puts both into the first byte, by adding
them, while written music has the status alone.  A status leaves the low nibble free, so a channel
that fits there does not carry into the status, and both can be read off the byte again. -/

namespace MusicMacro

namespace Message

def status : Message → UInt8
  | .noteOff .. => 0x80
  | .noteOn .. => 0x90
  | .polyAftertouch .. => 0xA0
  | .controlChange .. => 0xB0
  | .programChange .. => 0xC0
  | .channelAftertouch .. => 0xD0
  | .pitchBend .. => 0xE0

/-- The bytes behind the status. -/
def data : Message → List UInt8
  | .noteOff key velocity | .noteOn key velocity => [key, velocity]
  | .polyAftertouch key pressure => [key, pressure]
  | .controlChange controller value => [controller, value]
  | .programChange program => [program]
  | .channelAftertouch pressure => [pressure]
  | .pitchBend value => [lowByte (value % 0x80), lowByte (value / 0x80)]

theorem liveMessage?_primitive (message : Message) (channel : UInt8) :
    (message.primitive channel).liveMessage? =
      some ((message.status + channel) :: message.data) := by
  cases message <;> rfl

theorem parts_primitive (message : Message) (channel : UInt8) :
    (message.primitive channel).parts =
      Primitive.messageParts (message.status :: message.data) := by
  cases message <;> rfl

theorem length_data (message : Message) :
    message.data.length = if message.status = 0xC0 ∨ message.status = 0xD0 then 1 else 2 := by
  cases message <;> rfl

/-- A channel below 16 is added to the status without a carry. -/
theorem nibbles (message : Message) {channel : UInt8} (h : channel ≤ 15) :
    (message.status + channel) &&& 0xF0 = message.status ∧
      (message.status + channel) &&& 0x0F = channel := by
  have hadd : ∀ status ∈ ([0x80, 0x90, 0xA0, 0xB0, 0xC0, 0xD0, 0xE0] : List UInt8), ∀ low < 16,
      (status + UInt8.ofNat low) &&& 0xF0 = status ∧
        (status + UInt8.ofNat low) &&& 0x0F = UInt8.ofNat low := by
    decide +kernel
  have hstatus : message.status ∈ ([0x80, 0x90, 0xA0, 0xB0, 0xC0, 0xD0, 0xE0] : List UInt8) := by
    cases message <;> simp [status]
  have hlow : channel.toNat < 16 := Nat.lt_succ_of_le (UInt8.le_iff_toNat_le.mp h)
  have hsum := hadd message.status hstatus channel.toNat hlow
  rwa [UInt8.ofNat_toNat] at hsum

end Message

/-- The statuses of the messages that a dial sends. -/
def Dial.statuses (dial : Dial) : List UInt8 :=
  match dial.route with
  | .tempo => []
  | .bend => [0xE0]
  | .controller _ => [0xB0]

end MusicMacro
