import MusicMacro.Dial

/-! What each dial sends, on numbers without bounds.  Quotients are truncated and rests have the
sign of their number, and a byte is a number modulo 256. -/

namespace MusicMacro

theorem toInt_div_of_pos (value divisor : Int32) (h : 0 < divisor.toInt) :
    (value / divisor).toInt = value.toInt.tdiv divisor.toInt := by
  have hne : divisor ≠ -1 := by
    rintro rfl
    exact absurd h (by decide)
  exact Int32.toInt_div_of_ne_right _ _ hne

theorem lowByte_eq_ofInt (value : Int32) : lowByte value = UInt8.ofInt value.toInt := by
  have hbyte : (UInt8.ofInt value.toInt).toNat = (value.toInt % 256).toNat % 256 :=
    UInt8.toNat_ofNat'
  have hlow := toNat_lowByte value
  refine UInt8.toNat_inj.mp ?_
  omega

/-- The bend for a value under a range in semitones.  With a range the value is in cents: its whole
semitones are taken as a share of 8192, where the product and the quotient are cut to words. -/
def bendUnder (range value : Int) : Int :=
  if range = 0 then value
  else (((value.tdiv 100 * 8192).bmod Int32.size).tdiv range).bmod Int32.size

theorem Channel.toInt_bend_eq (channel : Channel) (value : Int32) :
    (channel.bend value).toInt = bendUnder channel.bendRange.toInt value.toInt := by
  have hsemitones : (value / 100).toInt = value.toInt.tdiv 100 :=
    toInt_div_of_pos value 100 (by decide)
  have hfactor : (8192 : Int32).toInt = 8192 := by decide
  have hzero : channel.bendRange = 0 ↔ channel.bendRange.toInt = 0 := Int32.toInt_inj.symm
  rw [bend, bendUnder]
  by_cases hrange : channel.bendRange = 0
  · rw [if_pos hrange, if_pos (hzero.mp hrange)]
  · rw [if_neg hrange, if_neg (mt hzero.mpr hrange), Int32.toInt_div, Int32.toInt_mul, hsemitones,
      hfactor]

namespace Dial

/-- The primitive that carries a value of a dial: a tempo event with three digits of the value in
base 256, a bend message with two digits of the bend in base 128, or the control change of the
dial's own controller. -/
def event (dial : Dial) (channel : UInt8) (range value : Int) : Primitive :=
  let change (controller : UInt8) : Primitive := .message3 channel 0xB0 controller (.ofInt value)
  match dial with
  | .tempo =>
    .metaBytes 0x51 [.ofInt (value.tdiv 0x10000), .ofInt ((value.tmod 0x10000).tdiv 0x100),
      .ofInt (value.tmod 0x100)]
  | .pitchBend =>
    let bend := bendUnder range value
    .message3 channel 0xE0 (.ofInt (bend.tmod 0x80)) (.ofInt (bend.tdiv 0x80))
  | .expression => change 0x0B
  | .modulation => change 0x01
  | .volume => change 0x07
  | .pan => change 0x0A
  | .damperPedal => change 0x40
  | .reverbSend => change 0x5B
  | .chorusSend => change 0x5D
  | .delaySend => change 0x5E

theorem primitive_eq_event (dial : Dial) (channel : Channel) (value : Int32) :
    dial.primitive channel value =
      dial.event channel.number channel.bendRange.toInt value.toInt := by
  have hquotient (n divisor : Int32) (h : 0 < divisor.toInt) :
      lowByte (n / divisor) = .ofInt (n.toInt.tdiv divisor.toInt) := by
    rw [lowByte_eq_ofInt, toInt_div_of_pos n divisor h]
  have hrest (n divisor : Int32) :
      lowByte (n % divisor) = .ofInt (n.toInt.tmod divisor.toInt) := by
    rw [lowByte_eq_ofInt, Int32.toInt_mod]
  have hchange (controller : UInt8) :
      (Message.controlChange controller (lowByte value)).primitive channel.number =
        .message3 channel.number 0xB0 controller (.ofInt value.toInt) := by
    rw [Message.primitive, lowByte_eq_ofInt]
  cases dial with
  | tempo =>
    show Primitive.metaBytes 0x51 (tempoBytes value) = .metaBytes 0x51 _
    rw [tempoBytes, hquotient _ _ (by decide), hquotient _ _ (by decide), hrest, Int32.toInt_mod]
    rfl
  | pitchBend =>
    show (Message.pitchBend (channel.bend value)).primitive channel.number = .message3 _ _ _ _
    rw [Message.primitive, hrest, hquotient _ _ (by decide), Channel.toInt_bend_eq]
    rfl
  | _ => exact hchange _

end Dial

end MusicMacro
