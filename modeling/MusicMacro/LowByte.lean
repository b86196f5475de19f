/-! The low byte of a number, which is what a message carries of it. -/

namespace MusicMacro

/-- A number modulo 256. -/
def lowByte (value : Int32) : UInt8 := value.toUInt32.toUInt8

theorem toNat_lowByte (value : Int32) : ((lowByte value).toNat : Int) = value.toInt % 256 := by
  have hv : value.toInt = value.toBitVec.toInt := rfl
  have hb : (lowByte value).toNat = value.toBitVec.toNat % 256 := by
    simp only [lowByte, UInt32.toNat_toUInt8]; rfl
  rw [hv, hb, BitVec.toInt_eq_toNat_cond]
  split <;> omega

/-- Read as a signed byte, the low byte gives back the numbers that a signed byte holds, and no
others. -/
theorem toInt_toInt8_lowByte_eq_iff (value : Int32) :
    (lowByte value).toInt8.toInt = value.toInt ↔ -128 ≤ value.toInt ∧ value.toInt ≤ 127 := by
  have hsigned : (lowByte value).toInt8.toInt = ((lowByte value).toNat : Int).bmod 256 := by
    show (lowByte value).toBitVec.toInt = _
    rw [BitVec.toInt_eq_toNat_bmod]
    rfl
  rw [hsigned, toNat_lowByte, Int.bmod_def]
  split <;> omega

end MusicMacro
