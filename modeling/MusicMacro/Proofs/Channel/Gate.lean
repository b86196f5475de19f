import Mathlib.Data.Int.ModEq
import Mathlib.Data.Rat.Floor
import MusicMacro.Proofs.Checked.Value

/-! The gate of a note in exact numbers.  The share of a length is the greatest whole number of
ticks in the rational share, whatever the signs of the fraction, and only what is left of it after
the cut to a word can differ from the ticks that sound.  Where nothing is cut, a longer note never
sounds shorter under a fraction that is not negative. -/

namespace MusicMacro

/-- Rounding a quotient of integers down is the floor of the rational quotient, for divisors of both
signs and for zero. -/
theorem fdiv_eq_floor (a b : ℤ) : a.fdiv b = ⌊(a : ℚ) / b⌋ := by
  obtain ⟨d, rfl | rfl⟩ := b.eq_nat_or_neg
  · rw [Int.fdiv_eq_ediv_of_nonneg a (Int.natCast_nonneg d), Int.cast_natCast,
      Rat.floor_intCast_div_natCast]
  · have hquotient : (a : ℚ) / ((-(d : ℤ) : ℤ) : ℚ) = ((-a : ℤ) : ℚ) / (d : ℚ) := by
      push_cast
      rw [div_neg, neg_div]
    rw [hquotient, Rat.floor_intCast_div_natCast, ← Int.neg_fdiv_neg, Int.neg_neg,
      Int.fdiv_eq_ediv_of_nonneg _ (Int.natCast_nonneg d)]

namespace Gate

/-- The share of a length that the fraction of a gate leaves, if words had no bounds. -/
def share (gate : Gate) (basis : Ticks) : ℤ :=
  if gate.denominator = 0 then basis.toInt
  else ⌊(basis.toInt * gate.relative.toInt : ℚ) / gate.denominator.toInt⌋

def exactSounding (gate : Gate) (basis : Ticks) : ℤ := gate.share basis - gate.absolute.toInt

/-- The exact ticks that sound are a signed word of 32 bits. -/
def Fits (gate : Gate) (basis : Ticks) : Prop :=
  -2 ^ 31 ≤ gate.exactSounding basis ∧ gate.exactSounding basis < 2 ^ 31

theorem share_of_zero {gate : Gate} (h : gate.denominator = 0) (basis : Ticks) :
    gate.share basis = basis.toInt :=
  if_pos h

theorem share_eq_floor {gate : Gate} (h : gate.denominator ≠ 0) (basis : Ticks) :
    gate.share basis = ⌊(basis.toInt * gate.relative.toInt : ℚ) / gate.denominator.toInt⌋ :=
  if_neg h

theorem share_eq_fdiv {gate : Gate} (h : gate.denominator ≠ 0) (basis : Ticks) :
    gate.share basis = (basis.toInt * gate.relative.toInt).fdiv gate.denominator.toInt := by
  rw [share_eq_floor h, fdiv_eq_floor, Int.cast_mul]

theorem share_isGreatest {gate : Gate} (h : gate.denominator ≠ 0) (basis : Ticks) :
    IsGreatest
      {n : ℤ | (n : ℚ) ≤ (basis.toInt * gate.relative.toInt : ℚ) / gate.denominator.toInt}
      (gate.share basis) := by
  rw [share_eq_floor h]
  constructor
  · show ((⌊_⌋ : ℤ) : ℚ) ≤ _
    exact Int.floor_le _
  · intro n hn
    exact Int.le_floor.mpr hn

theorem share_le_share {gate : Gate}
    (hratio : 0 ≤ (gate.relative.toInt : ℚ) / gate.denominator.toInt) {basis longer : Ticks}
    (hlonger : basis ≤ longer) : gate.share basis ≤ gate.share longer := by
  have hint : basis.toInt ≤ longer.toInt := Int32.le_iff_toInt_le.mp hlonger
  by_cases hzero : gate.denominator = 0
  · rwa [share_of_zero hzero, share_of_zero hzero]
  · rw [share_eq_floor hzero, share_eq_floor hzero, mul_div_assoc, mul_div_assoc]
    exact Int.floor_mono (mul_le_mul_of_nonneg_right (Int.cast_le.mpr hint) hratio)

/-- The share is cut to a word before the absolute ticks are taken off, and the exact difference is
cut to the same word. -/
theorem sounding_eq_ofInt (gate : Gate) (basis : Ticks) :
    gate.sounding basis = Int32.ofInt (gate.exactSounding basis) := by
  rw [exactSounding, Int32.ofInt_sub, Int32.ofInt_toInt, sounding]
  by_cases hzero : gate.denominator = 0
  · rw [if_pos hzero, share_of_zero hzero]
  · rw [if_neg hzero, share_eq_fdiv hzero]

theorem toInt_sounding_modEq (gate : Gate) (basis : Ticks) :
    (gate.sounding basis).toInt ≡ gate.exactSounding basis [ZMOD 2 ^ 32] := by
  rw [sounding_eq_ofInt, Int32.toInt_ofInt]
  exact Int.bmod_emod

theorem Fits.toInt_sounding {gate : Gate} {basis : Ticks} (h : gate.Fits basis) :
    (gate.sounding basis).toInt = gate.exactSounding basis := by
  rw [sounding_eq_ofInt, Int32.toInt_ofInt_of_le h.1 h.2]

theorem sounding_le_sounding {gate : Gate}
    (hratio : 0 ≤ (gate.relative.toInt : ℚ) / gate.denominator.toInt) {basis longer : Ticks}
    (hlonger : basis ≤ longer) (hbasis : gate.Fits basis) (hfits : gate.Fits longer) :
    gate.sounding basis ≤ gate.sounding longer := by
  have hshare := share_le_share hratio hlonger
  rw [Int32.le_iff_toInt_le, hbasis.toInt_sounding, hfits.toInt_sounding, exactSounding,
    exactSounding]
  omega

/-- What a note sounds is the exact floor of its share, less the absolute ticks, up to words.  The
steps in words of 64 bits that correct a quotient toward zero come to it and are never refused.  The
share is the greatest integer not above the rational quotient, or the whole length where there is no
denominator.  Under a fraction that is not negative, of two notes for which nothing wraps the longer
one sounds at least as long. -/
theorem sounding_is_exact_floor (gate : Gate) (basis : Ticks) :
    gate.sounding? basis = some (gate.sounding basis) ∧
      (gate.denominator ≠ 0 →
        IsGreatest
          {n : ℤ | (n : ℚ) ≤ (basis.toInt * gate.relative.toInt : ℚ) / gate.denominator.toInt}
          (gate.share basis)) ∧
      (gate.denominator = 0 → gate.share basis = basis.toInt) ∧
      (gate.sounding basis).toInt ≡ gate.share basis - gate.absolute.toInt [ZMOD 2 ^ 32] ∧
      (0 ≤ (gate.relative.toInt : ℚ) / gate.denominator.toInt →
        ∀ longer, basis ≤ longer → gate.Fits basis → gate.Fits longer →
          gate.sounding basis ≤ gate.sounding longer) :=
  ⟨gate.sounding?_eq basis, fun h => share_isGreatest h basis, fun h => share_of_zero h basis,
    gate.toInt_sounding_modEq basis,
    fun hratio _ hlonger hbasis hfits => sounding_le_sounding hratio hlonger hbasis hfits⟩

/-- Three eighths with both signs turned.  The length below zero has a negative share that is no
whole number, so the quotient toward zero is one too many. -/
theorem sounding_is_exact_floor_turned :
    let gate : Gate := ⟨-3, -8, 2⟩
    gate.sounding? (-5) = some (-4) ∧
      IsGreatest {n : ℤ | (n : ℚ) ≤ -15 / 8} (-2) ∧ gate.sounding (-5) ≤ gate.sounding 5 := by
  intro gate
  have hshare (basis : Ticks) : gate.share basis = (basis.toInt * -3).fdiv (-8) :=
    share_eq_fdiv (by decide) basis
  have hfits : gate.Fits (-5) ∧ gate.Fits 5 := by
    simp only [Fits, exactSounding, hshare]
    decide
  have hratio : (0 : ℚ) ≤ (gate.relative.toInt : ℚ) / gate.denominator.toInt := by
    show (0 : ℚ) ≤ ((-3 : ℤ) : ℚ) / ((-8 : ℤ) : ℚ)
    norm_num
  have hquotient : ((-5 : Ticks).toInt * gate.relative.toInt : ℚ) / gate.denominator.toInt =
      -15 / 8 := by
    show ((-5 : ℤ) : ℚ) * ((-3 : ℤ) : ℚ) / ((-8 : ℤ) : ℚ) = -15 / 8
    norm_num
  have hvalue : gate.share (-5) = -2 := (hshare (-5)).trans (by decide)
  obtain ⟨hsounding, hgreatest, -, -, hmono⟩ := sounding_is_exact_floor gate (-5)
  rw [hquotient, hvalue] at hgreatest
  exact ⟨hsounding.trans (by decide), hgreatest (by decide),
    hmono hratio 5 (by decide) hfits.1 hfits.2⟩

end Gate

end MusicMacro
