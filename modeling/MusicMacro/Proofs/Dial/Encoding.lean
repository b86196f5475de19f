import Mathlib.Algebra.Order.Group.Unbundled.Int
import MusicMacro.Proofs.Dial.Event
import MusicMacro.Proofs.Track.Calls
import MusicMacro.Sink.Live

/-! What the bytes of bends and tempos say.  The two bytes of a bend, read as signed bytes, are a
number in base 128 whose digits have the sign of the bend, so they give back every bend whose
quotient a signed byte holds.  A bend in cents under a range is made without any wrap as long as the
whole range fits, and lies within 8192 of zero, where its bytes can be read.  The three bytes of a
tempo are the last three digits of its value in base 256. -/

namespace MusicMacro

/-! ### Bytes of bends -/

/-- A bend is what its bytes say exactly where a signed byte holds the quotient. -/
theorem bend_eq_bytes_iff (value : Int32) :
    value.toInt =
        128 * (lowByte (value / 0x80)).toInt8.toInt + (lowByte (value % 0x80)).toInt8.toInt ↔
      -16511 ≤ value.toInt ∧ value.toInt ≤ 16383 := by
  have hquotient : (value / 0x80).toInt = value.toInt.tdiv 128 :=
    toInt_div_of_pos value 0x80 (by decide)
  have hrest : (value % 0x80).toInt = value.toInt.tmod 128 := Int32.toInt_mod _ _
  have hsum := Int.mul_tdiv_add_tmod value.toInt 128
  have hlow := Int.lt_tmod_of_pos value.toInt (b := 128) (by decide)
  have hhigh := Int.tmod_lt_of_pos value.toInt (b := 128) (by decide)
  have hnonneg : 0 ≤ value.toInt → 0 ≤ value.toInt.tmod 128 := Int.tmod_nonneg 128
  have hnonpos : value.toInt ≤ 0 → value.toInt.tmod 128 ≤ 0 := by
    intro h
    have hneg := Int.tmod_nonneg 128 (Int.neg_nonneg_of_nonpos h)
    rw [Int.neg_tmod] at hneg
    omega
  -- A signed byte always holds the rest, so it is the quotient that decides.
  have hlast : (lowByte (value % 0x80)).toInt8.toInt = value.toInt.tmod 128 := by
    rw [← hrest, toInt_toInt8_lowByte_eq_iff]
    omega
  have hfirst := toInt_toInt8_lowByte_eq_iff (value / 0x80)
  rw [hquotient] at hfirst
  omega

theorem bend_bytes_lt {value : Int32} (hlow : 0 ≤ value.toInt) (hhigh : value.toInt ≤ 16383) :
    lowByte (value % 0x80) < 0x80 ∧ lowByte (value / 0x80) < 0x80 := by
  have hquotient : (value / 0x80).toInt = value.toInt / 128 :=
    (toInt_div_of_pos value 0x80 (by decide)).trans (Int.tdiv_eq_ediv_of_nonneg hlow)
  have hrest : (value % 0x80).toInt = value.toInt % 128 :=
    (Int32.toInt_mod _ _).trans (Int.tmod_eq_emod_of_nonneg hlow)
  have hlast := toNat_lowByte (value % 0x80)
  have hfirst := toNat_lowByte (value / 0x80)
  simp only [UInt8.lt_iff_toNat_lt, UInt8.reduceToNat]
  omega

/-! ### Bends in cents -/

/-- The bend for a number of cents under a range in semitones, where nothing wraps. -/
def exactBend (range cents : Int) : Int := (8192 * cents.tdiv 100).tdiv range

section Cents

variable {range cents : Int}

theorem tdiv_bounds {n divisor bound : Int} (hdivisor : 0 < divisor)
    (h : n.natAbs ≤ divisor * bound) : -bound ≤ n.tdiv divisor ∧ n.tdiv divisor ≤ bound := by
  have hexact : (divisor * bound).tdiv divisor = bound :=
    Int.mul_tdiv_cancel_left bound (by omega)
  have hhigh : n.tdiv divisor ≤ (divisor * bound).tdiv divisor :=
    Int.tdiv_le_tdiv hdivisor (by omega)
  have hlow : (-(divisor * bound)).tdiv divisor ≤ n.tdiv divisor :=
    Int.tdiv_le_tdiv hdivisor (by omega)
  rw [Int.neg_tdiv] at hlow
  omega

theorem exactBend_bounds (hrange : 0 < range) (h : cents.natAbs ≤ 100 * range) :
    -8192 ≤ exactBend range cents ∧ exactBend range cents ≤ 8192 := by
  have hsemitones := tdiv_bounds (by decide) h
  exact tdiv_bounds hrange (by omega)

theorem exactBend_mono (hrange : 0 < range) {other : Int} (h : cents ≤ other) :
    exactBend range cents ≤ exactBend range other := by
  have hsemitones : cents.tdiv 100 ≤ other.tdiv 100 := Int.tdiv_le_tdiv (by decide) h
  exact Int.tdiv_le_tdiv hrange (by omega)

theorem exactBend_neg (range cents : Int) : exactBend range (-cents) = -exactBend range cents := by
  rw [exactBend, exactBend, Int.neg_tdiv, Int.mul_neg, Int.neg_tdiv]

end Cents

/-- The greatest range that leaves room for the product is 262143. -/
theorem Channel.toInt_bend {channel : Channel} {cents : Int32} (hlow : 1 ≤ channel.bendRange.toInt)
    (hhigh : channel.bendRange.toInt ≤ 262143)
    (h : (cents.toInt.natAbs : Int) ≤ 100 * channel.bendRange.toInt) :
    (cents / 100 * 8192).toInt = 8192 * cents.toInt.tdiv 100 ∧
      (channel.bend cents).toInt = exactBend channel.bendRange.toInt cents.toInt := by
  have hne : channel.bendRange ≠ 0 := by
    intro hzero
    rw [hzero] at hlow
    exact absurd hlow (by decide)
  have hsemitones : (cents / 100).toInt = cents.toInt.tdiv 100 :=
    toInt_div_of_pos cents 100 (by decide)
  have hbounds := tdiv_bounds (by decide) h
  have hproduct : (cents / 100 * 8192).toInt = 8192 * cents.toInt.tdiv 100 := by
    have hfactor : (8192 : Int32).toInt = 8192 := by decide
    rw [Int32.toInt_mul, hsemitones, hfactor, Int.mul_comm]
    exact Int.bmod_eq_of_le (by omega) (by omega)
  refine ⟨hproduct, ?_⟩
  rw [bend, if_neg hne, toInt_div_of_pos _ _ (by omega), hproduct]
  rfl

theorem Channel.bend_neg {channel : Channel} {cents : Int32} (hlow : 1 ≤ channel.bendRange.toInt)
    (hhigh : channel.bendRange.toInt ≤ 262143)
    (h : (cents.toInt.natAbs : Int) ≤ 100 * channel.bendRange.toInt) :
    channel.bend (-cents) = -channel.bend cents := by
  have hcents : (-cents).toInt = -cents.toInt := by
    rw [Int32.toInt_neg]
    exact Int.bmod_eq_of_le (by omega) (by omega)
  obtain ⟨hleast, hgreatest⟩ := exactBend_bounds hlow h
  obtain ⟨-, hbend⟩ := toInt_bend hlow hhigh h
  have hbound : ((-cents).toInt.natAbs : Int) ≤ 100 * channel.bendRange.toInt := by omega
  obtain ⟨-, hneg⟩ := toInt_bend hlow hhigh hbound
  rw [← Int32.toInt_inj, hneg, hcents, exactBend_neg, Int32.toInt_neg, hbend]
  exact (Int.bmod_eq_of_le (by omega) (by omega)).symm

/-! ### Bytes of tempos -/

/-- The bytes of a tempo that is not negative are its last three digits in base 256. -/
theorem tempoBytes_digits {value : Int32} (h : 0 ≤ value.toInt) :
    ∃ high middle low : UInt8, tempoBytes value = [high, middle, low] ∧
      ((high.toNat * 0x10000 + middle.toNat * 0x100 + low.toNat : Nat) : Int) =
        value.toInt % 2 ^ 24 := by
  have hhigh : (value / 0x10000).toInt = value.toInt / 0x10000 :=
    (toInt_div_of_pos value 0x10000 (by decide)).trans (Int.tdiv_eq_ediv_of_nonneg h)
  have hrest : (value % 0x10000).toInt = value.toInt % 0x10000 :=
    (Int32.toInt_mod _ _).trans (Int.tmod_eq_emod_of_nonneg h)
  have hmiddle : (value % 0x10000 / 0x100).toInt = value.toInt % 0x10000 / 0x100 := by
    rw [toInt_div_of_pos _ 0x100 (by decide), hrest]
    exact Int.tdiv_eq_ediv_of_nonneg (by omega)
  have hlow : (value % 0x100).toInt = value.toInt % 0x100 :=
    (Int32.toInt_mod _ _).trans (Int.tmod_eq_emod_of_nonneg h)
  refine ⟨_, _, _, rfl, ?_⟩
  have hfirst := toNat_lowByte (value / 0x10000)
  have hsecond := toNat_lowByte (value % 0x10000 / 0x100)
  have hthird := toNat_lowByte (value % 0x100)
  omega

namespace Track

variable {σ : Type} [Sink σ]

/-- What is sent for bends and tempos can be read back where it can be.  The two bytes of a bend,
read as signed bytes, say the bend exactly if it lies between -16511 and 16383, and from zero on
both are data bytes.  Under a range that leaves room for the product, a bend in cents within the
range is made without a wrap, lies within 8192 of zero, is said by its bytes, keeps the order of the
cents and changes its sign with them.  The three bytes of a tempo that is not negative are the
digits of its value modulo `2^24`. -/
theorem bends_and_tempos_read_back (track : Track σ) :
    let channel := track.performer.channel
    let range := channel.bendRange.toInt
    let InRange (cents : Int32) : Prop := (cents.toInt.natAbs : Int) ≤ 100 * range
    (∀ value : Int32, ∃ low high : UInt8,
      track.calls [.operation (.send [.pitchBend value])] =
          [.message3 channel.number 0xE0 low high] ∧
        (value.toInt = 128 * high.toInt8.toInt + low.toInt8.toInt ↔
          -16511 ≤ value.toInt ∧ value.toInt ≤ 16383) ∧
        (0 ≤ value.toInt → value.toInt ≤ 16383 → low < 0x80 ∧ high < 0x80)) ∧
    (1 ≤ range → range ≤ 262143 →
      (∀ cents, InRange cents →
        (cents / 100 * 8192).toInt = 8192 * cents.toInt.tdiv 100 ∧
        (channel.bend cents).toInt = (8192 * cents.toInt.tdiv 100).tdiv range ∧
        -8192 ≤ (channel.bend cents).toInt ∧ (channel.bend cents).toInt ≤ 8192 ∧
        channel.bend (-cents) = -channel.bend cents ∧
        ∃ low high : UInt8,
          track.calls [.operation (.turn .pitchBend (.set cents))] =
              [.message3 channel.number 0xE0 low high] ∧
            (channel.bend cents).toInt = 128 * high.toInt8.toInt + low.toInt8.toInt) ∧
      ∀ cents other, InRange cents → InRange other → cents ≤ other →
        channel.bend cents ≤ channel.bend other) ∧
    ∀ value : Int32, 0 ≤ value.toInt → ∃ high middle low : UInt8,
      track.calls [.operation (.turn .tempo (.set value))] =
          [.metaBytes 0x51 [high, middle, low]] ∧
        ((high.toNat * 0x10000 + middle.toNat * 0x100 + low.toNat : Nat) : Int) =
          value.toInt % 2 ^ 24 := by
  intro channel range InRange
  refine ⟨fun value => ⟨_, _, calls_sendOne rfl, bend_eq_bytes_iff value, bend_bytes_lt⟩,
    fun hlow hhigh => ⟨fun cents hcents => ?_, fun cents other hcents hother hle => ?_⟩,
    fun value hvalue => ?_⟩
  · obtain ⟨hproduct, hbend⟩ := Channel.toInt_bend hlow hhigh hcents
    obtain ⟨hleast, hgreatest⟩ := exactBend_bounds hlow hcents
    rw [← hbend] at hleast hgreatest
    exact ⟨hproduct, hbend, hleast, hgreatest, Channel.bend_neg hlow hhigh hcents, _, _,
      calls_sendOne rfl, (bend_eq_bytes_iff _).mpr ⟨by omega, by omega⟩⟩
  · rw [Int32.le_iff_toInt_le, (Channel.toInt_bend hlow hhigh hcents).2,
      (Channel.toInt_bend hlow hhigh hother).2]
    exact exactBend_mono hlow (Int32.le_iff_toInt_le.mp hle)
  · obtain ⟨high, middle, low, hbytes, hdigits⟩ := tempoBytes_digits hvalue
    refine ⟨high, middle, low, ?_, hdigits⟩
    rw [← hbytes]
    exact calls_sendOne rfl

/-- The widest range: its whole bend down is said by two bytes, and a tempo above `2^24` loses its
first digit. -/
theorem bends_and_tempos_read_back_widest :
    let performer := { Performer.start Config.standard with channel.bendRange := 262143 }
    let track : Track Transmitter := { performer, sink.port := {} }
    (∃ low high : UInt8,
      track.calls [.operation (.turn .pitchBend (.set (-26214300)))] = [.message3 0 0xE0 low high] ∧
        -8192 = 128 * high.toInt8.toInt + low.toInt8.toInt) ∧
      ∃ high middle low : UInt8,
        track.calls [.operation (.turn .tempo (.set 0x1FFFFFE))] =
            [.metaBytes 0x51 [high, middle, low]] ∧
          ((high.toNat * 0x10000 + middle.toNat * 0x100 + low.toNat : Nat) : Int) = 0xFFFFFE := by
  intro performer track
  obtain ⟨-, hbends, htempos⟩ := track.bends_and_tempos_read_back
  obtain ⟨-, hbend, -, -, -, low, high, hcalls, hbytes⟩ :=
    (hbends (by decide) (by decide)).1 (-26214300) (by decide)
  refine ⟨⟨low, high, hcalls, ?_⟩, htempos 0x1FFFFFE (by decide)⟩
  rw [← hbytes, hbend]
  decide

end Track

end MusicMacro
