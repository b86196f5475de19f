import MusicMacro.Proofs.Checked.Word
import MusicMacro.Sink.Live
import MusicMacro.Track.Operation

/-! The values of a track in checked steps: lengths and gates, the tables of signs and dials, the
bytes of bends and tempos, the curves, and the window of an exclusive message.  Nothing bounds what
a setting may hold, so each guard of the arithmetic has to do its work for every number: a divisor
is tested or counts up from one, a product of two settings leaves room in its word, and the ends of
a window are cut off at the length of the message. -/

namespace MusicMacro

open Checked

/-! ### Lengths, gates and tables -/

def quotientOrZero? (whole part : Int32) : Option Int32 :=
  if part = 0 then some 0 else wrappingQuotient? whole part

theorem quotientOrZero?_eq (whole part : Int32) :
    quotientOrZero? whole part = some (quotientOrZero whole part) := by
  by_cases h : part = 0 <;> simp [quotientOrZero?, quotientOrZero, wrappingQuotient?, h]

def Resolution.toTicks? (resolution : Resolution) (length : Length) : Option Ticks :=
  quotientOrZero? resolution.wholeNote length.denominator

theorem Resolution.toTicks?_eq (resolution : Resolution) (length : Length) :
    resolution.toTicks? length = some (resolution.toTicks length) :=
  quotientOrZero?_eq _ _

/-- The gate of a note.  The product is made in a word of 64 bits. -/
def Gate.sounding? (gate : Gate) (basis : Ticks) : Option Ticks := do
  let product ← word? 64 (basis.toInt * gate.relative.toInt)
  let share ←
    if gate.denominator = 0 then some basis.toInt
    else floorQuotient? product gate.denominator.toInt
  return Int32.ofInt share - gate.absolute

theorem Gate.sounding?_eq (gate : Gate) (basis : Ticks) :
    gate.sounding? basis = some (gate.sounding basis) := by
  have hbound : ∀ value : Int32, value.toInt.natAbs ≤ 2 ^ 31 := by
    intro value
    have hlow := value.le_toInt
    have hhigh := value.toInt_lt
    omega
  have hproduct : (basis.toInt * gate.relative.toInt).natAbs ≤ 2 ^ 31 * 2 ^ 31 := by
    rw [Int.natAbs_mul]
    exact Nat.mul_le_mul (hbound basis) (hbound gate.relative)
  have hword : word? 64 (basis.toInt * gate.relative.toInt) =
      some (basis.toInt * gate.relative.toInt) := word?_eq_some (by omega) (by omega)
  rw [sounding?, hword, sounding]
  by_cases hzero : gate.denominator = 0
  · simp [hzero]
  · have hdenominator : gate.denominator.toInt ≠ 0 := fun h =>
      hzero (Int32.toInt_inj.mp (h.trans Int32.toInt_zero.symm))
    have hfloor := floorQuotient?_eq_some (a := basis.toInt * gate.relative.toInt) hdenominator
      (by omega)
    simp [hzero, hfloor]

def KeySignature.get? (signature : KeySignature) (pitch : PitchClass) : Option Int32 :=
  signature.offsets[pitch.index.val]?

def KeySignature.set? (signature : KeySignature) (pitch : PitchClass) (offset : Int32) :
    Option KeySignature :=
  if h : pitch.index.val < 7 then some ⟨signature.offsets.set pitch.index.val offset h⟩ else none

theorem KeySignature.get?_eq (signature : KeySignature) (pitch : PitchClass) :
    signature.get? pitch = some (signature.get pitch) := by
  simp [get?, get]

theorem KeySignature.set?_eq (signature : KeySignature) (pitch : PitchClass) (offset : Int32) :
    signature.set? pitch offset = some (signature.set pitch offset) := by
  simp [set?, set]

/-- The key of a pitch class.  Only the sign that leaves the alteration to the key signature looks
it up. -/
def Channel.key? (channel : Channel) (pitch : PitchClass) (accidental : Accidental) :
    Option Int32 := do
  let alteration ←
    match accidental.fixed? with
    | some offset => some offset
    | none => channel.keySignature.get? pitch
  return channel.octave * 12 + pitch.semitones + alteration + channel.transpose

theorem Channel.key?_eq (channel : Channel) (pitch : PitchClass) (accidental : Accidental) :
    channel.key? pitch accidental = some (channel.key pitch accidental) := by
  cases accidental <;> simp [key?, key, KeySignature.key, Accidental.fixed?, KeySignature.get?_eq]

def Channel.sign? (channel : Channel) (pitch : PitchClass) (accidental : Accidental) :
    Option Channel :=
  match accidental.fixed? with
  | some offset =>
    (channel.keySignature.set? pitch offset).map fun keySignature => { channel with keySignature }
  | none => some channel

theorem Channel.sign?_eq (channel : Channel) (pitch : PitchClass) (accidental : Accidental) :
    channel.sign? pitch accidental = some (channel.sign pitch accidental) := by
  cases accidental <;> simp [sign?, sign, Accidental.fixed?, KeySignature.set?_eq]

def Dials.get? (dials : Dials) (dial : Dial) : Option Int32 := dials.values[dial.index.val]?

def Dials.set? (dials : Dials) (dial : Dial) (value : Int32) : Option Dials :=
  if h : dial.index.val < 10 then some ⟨dials.values.set dial.index.val value h⟩ else none

theorem Dials.get?_eq (dials : Dials) (dial : Dial) : dials.get? dial = some (dials.get dial) := by
  simp [get?, get]

theorem Dials.set?_eq (dials : Dials) (dial : Dial) (value : Int32) :
    dials.set? dial value = some (dials.set dial value) := by
  simp [set?, set]

/-! ### Bytes of bends and tempos -/

theorem quotient?_toInt (value divisor : Int32) (h : 0 < divisor.toInt) :
    quotient? 32 value.toInt divisor.toInt = some (value / divisor).toInt := by
  have hne : divisor ≠ -1 := by
    rintro rfl
    exact absurd h (by decide)
  rw [quotient?_of_pos h (by have := value.le_toInt; omega) (by have := value.toInt_lt; omega),
    Int32.toInt_div_of_ne_right _ _ hne]

theorem remainder?_toInt (value divisor : Int32) (h : 0 < divisor.toInt) :
    remainder? 32 value.toInt divisor.toInt = some (value % divisor).toInt := by
  rw [remainder?, quotient?_toInt value divisor h, Option.map_some, Int32.toInt_mod]

def Channel.bend? (channel : Channel) (value : Int32) : Option Int32 :=
  if channel.bendRange = 0 then some value
  else do
    let semitones ← quotient? 32 value.toInt (100 : Int32).toInt
    wrappingQuotient? (Int32.ofInt semitones * 8192) channel.bendRange

theorem Channel.bend?_eq (channel : Channel) (value : Int32) :
    channel.bend? value = some (channel.bend value) := by
  have hquotient := quotient?_toInt value 100 (by decide)
  by_cases h : channel.bendRange = 0
  · simp [bend?, bend, h]
  · simp only [bend?, bend, if_neg h, hquotient, Option.bind_eq_bind, Option.bind_some,
      Int32.ofInt_toInt, wrappingQuotient?]

def tempoBytes? (value : Int32) : Option (List UInt8) := do
  let high ← quotient? 32 value.toInt (0x10000 : Int32).toInt
  let rest ← remainder? 32 value.toInt (0x10000 : Int32).toInt
  let middle ← quotient? 32 rest (0x100 : Int32).toInt
  let low ← remainder? 32 value.toInt (0x100 : Int32).toInt
  return [high, middle, low].map fun byte => lowByte (Int32.ofInt byte)

theorem tempoBytes?_eq (value : Int32) : tempoBytes? value = some (tempoBytes value) := by
  have hhigh := quotient?_toInt value 0x10000 (by decide)
  have hrest := remainder?_toInt value 0x10000 (by decide)
  have hmiddle := quotient?_toInt (value % 0x10000) 0x100 (by decide)
  have hlow := remainder?_toInt value 0x100 (by decide)
  simp only [tempoBytes?, hhigh, hrest, hmiddle, hlow, Option.bind_eq_bind, Option.bind_some,
    List.map, Int32.ofInt_toInt]
  rfl

/-- The primitive of a message.  Only a bend divides. -/
def Message.primitive? (channel : UInt8) : Message → Option Primitive
  | .pitchBend value => do
    let last ← remainder? 32 value.toInt (0x80 : Int32).toInt
    let first ← quotient? 32 value.toInt (0x80 : Int32).toInt
    return .message3 channel 0xE0 (lowByte (Int32.ofInt last)) (lowByte (Int32.ofInt first))
  | message => some (message.primitive channel)

theorem Message.primitive?_eq (channel : UInt8) (message : Message) :
    message.primitive? channel = some (message.primitive channel) := by
  cases message with
  | pitchBend value =>
    have hlast := remainder?_toInt value 0x80 (by decide)
    have hfirst := quotient?_toInt value 0x80 (by decide)
    simp only [primitive?, primitive, hlast, hfirst, Option.bind_eq_bind, Option.bind_some,
      Int32.ofInt_toInt]
    rfl
  | _ => rfl

def Dial.primitive? (dial : Dial) (channel : Channel) (value : Int32) : Option Primitive :=
  match dial.route with
  | .tempo => (tempoBytes? value).map (.metaBytes 0x51)
  | .bend => do
    let bend ← channel.bend? value
    (Message.pitchBend bend).primitive? channel.number
  | .controller number => (Message.controlChange number (lowByte value)).primitive? channel.number

theorem Dial.primitive?_eq (dial : Dial) (channel : Channel) (value : Int32) :
    dial.primitive? channel value = some (dial.primitive channel value) := by
  rw [primitive?, primitive]
  cases dial.route with
  | tempo => simp [tempoBytes?_eq]
  | bend => simp [Channel.bend?_eq, Message.primitive?_eq]
  | controller number => simp [Message.primitive?_eq]

/-! ### Curves -/

namespace Sweep

def steps? (sweep : Sweep) : Option Int32 := quotientOrZero? sweep.length sweep.step

/-- The rest of a sweep behind its step number `done`, with `left` steps to go.  The span is divided
by the number of the step, which is one more than the steps that are done. -/
def decay? (sweep : Sweep) (origin : Ticks) :
    (left done : Nat) → (position : Ticks) → (value : Int32) → Option Curve
  | 0, _, position, _ => some (.point position sweep.finish fun _ => .stop (position + origin))
  | left + 1, done, position, value => do
    let count ← word? 32 (done + 1)
    let share ← quotient? 32 (sweep.finish - sweep.start).toInt count
    let later := position + sweep.step
    let next := value + Int32.ofInt share
    let rest ← sweep.decay? origin left (done + 1) later next
    return .point later next fun _ => rest

def curve? (sweep : Sweep) (origin : Ticks) : Option Curve := do
  let first := origin + sweep.startDelay
  let steps ← sweep.steps?
  let rest ← sweep.decay? origin steps.toNatClampNeg 0 first sweep.start
  return .point first sweep.start fun _ => rest

theorem decay?_eq (sweep : Sweep) (origin : Ticks) {left done : Nat} (h : done + left < 2 ^ 31)
    (position : Ticks) (value : Int32) :
    sweep.decay? origin left done position value =
      some (sweep.decay origin left (done + 1) position value) := by
  induction left generalizing done position value with
  | zero => rfl
  | succ left ih =>
    have hcount : (Int32.ofNat (done + 1)).toInt = (done : Int) + 1 := by
      rw [Int32.toInt_ofNat_of_lt (by omega)]
      rfl
    have hword : word? 32 ((done : Int) + 1) = some (Int32.ofNat (done + 1)).toInt := by
      rw [hcount]
      exact word?_eq_some (by omega) (by omega)
    have hshare := quotient?_toInt (sweep.finish - sweep.start)
      (Int32.ofNat (done + 1)) (by omega)
    simp only [decay?, hword, hshare, @ih (done + 1) (by omega), Option.bind_eq_bind,
      Option.bind_some, Int32.ofInt_toInt]
    rfl

theorem curve?_eq (sweep : Sweep) (origin : Ticks) :
    sweep.curve? origin = some (sweep.curve origin) := by
  have hsteps : sweep.steps? = some sweep.steps := quotientOrZero?_eq _ _
  have hbound : 0 + sweep.steps.toNatClampNeg < 2 ^ 31 := by
    have hhigh := sweep.steps.toInt_lt
    rw [← Int32.toNat_toInt]
    omega
  simp only [curve?, hsteps, decay?_eq sweep origin hbound, Option.bind_eq_bind,
    Option.bind_some]
  rfl

end Sweep

namespace Wave

def halfSteps? (wave : Wave) : Option Int32 := quotientOrZero? wave.period wave.step

/-- The wave.  The number of its steps is all that it divides for. -/
def curve? (wave : Wave) (origin : Ticks) : Option Curve := do
  let first := origin + wave.startDelay
  let half ← wave.halfSteps?
  let left := if half.toNatClampNeg = 0 then 0 else wave.repeats.toNatClampNeg
  return .point first wave.start fun _ =>
    wave.rounds half.toNatClampNeg
      (fun position _ =>
        .point (position + wave.endDuration) wave.finish fun _ =>
          .stop (position + wave.endDuration + origin))
      left first wave.start

theorem curve?_eq (wave : Wave) (origin : Ticks) :
    wave.curve? origin = some (wave.curve origin) := by
  have hhalf : wave.halfSteps? = some wave.halfSteps := quotientOrZero?_eq _ _
  simp only [curve?, hhalf, Option.bind_eq_bind, Option.bind_some]
  rfl

end Wave

/-! ### Windows -/

namespace Primitive

/-- The bytes from one place up to another, if the places are in order and in the list. -/
def slice? (bytes : List UInt8) (start stop : Nat) : Option (List UInt8) :=
  if start ≤ stop ∧ stop ≤ bytes.length then some ((bytes.take stop).drop start) else none

/-- The window of an exclusive message.  Its start is cut off at the end of the message, and so is
its stop, which a sum that would not fit into 64 bits brings to the greatest number. -/
def excerpt? (bytes : List UInt8) (offset length : UInt64) : Option (List UInt8) :=
  let start := min offset.toNat bytes.length
  let stop := min (min (start + length.toNat) (2 ^ 64 - 1)) bytes.length
  slice? bytes start stop

/-- Whether the number of the bytes that a window is cut out of fits into 64 bits, like the place
and the length of the window. -/
def Storable : Primitive → Prop
  | .sysex bytes _ _ => bytes.length < 2 ^ 64
  | _ => True

instance : DecidablePred Storable := fun primitive => by
  cases primitive <;> unfold Storable <;> infer_instance

theorem excerpt?_eq {bytes : List UInt8} (h : bytes.length < 2 ^ 64) (offset length : UInt64) :
    excerpt? bytes offset length = some (excerpt bytes offset length) := by
  have hbounds : min offset.toNat bytes.length ≤
      min (min (min offset.toNat bytes.length + length.toNat) (2 ^ 64 - 1)) bytes.length := by
    omega
  rw [excerpt?, slice?, if_pos ⟨hbounds, Nat.min_le_right _ _⟩, excerpt, List.drop_take]
  by_cases hinside : offset.toNat ≤ bytes.length
  · have hleft : (bytes.drop offset.toNat).length = bytes.length - offset.toNat :=
      List.length_drop
    have hsize : min (min (offset.toNat + length.toNat) (2 ^ 64 - 1)) bytes.length -
        offset.toNat = min length.toNat (bytes.drop offset.toNat).length := by omega
    rw [Nat.min_eq_left hinside, hsize, List.take_eq_take_min (i := length.toNat)]
  · have hbehind : bytes.drop offset.toNat = [] := List.drop_eq_nil_of_le (by omega)
    have hend : min offset.toNat bytes.length = bytes.length := by omega
    rw [hend, hbehind, List.drop_length, List.take_nil, List.take_nil]

end Primitive

end MusicMacro
