import MusicMacro.Timeline

/-! Lengths and ticks converted there and back.  Both directions divide the whole note by what they
are given, so conversions in a row divide it again and again.  Between positive numbers this
division is an adjunction with itself: what it loses it loses the first time, and from then on two
numbers change into each other.  Signs multiply, and a zero, given or come to, stays a zero. -/

namespace MusicMacro

/-! ### Repeated division of one number -/

theorem le_div_comm_of_pos {n a b : Nat} (ha : 0 < a) (hb : 0 < b) : a ≤ n / b ↔ b ≤ n / a := by
  rw [Nat.le_div_iff_mul_le hb, Nat.le_div_iff_mul_le ha, Nat.mul_comm]

theorem div_thrice (n d : Nat) : n / (n / (n / d)) = n / d := by
  by_cases hquotient : n / d = 0
  · rw [hquotient, Nat.div_zero, Nat.div_zero]
  have hpos : 0 < n / d := Nat.pos_of_ne_zero hquotient
  have hd : 0 < d := by
    refine Nat.pos_of_ne_zero fun h => hquotient ?_
    rw [h, Nat.div_zero]
  have hback : d ≤ n / (n / d) := (le_div_comm_of_pos hpos hd).mp (Nat.le_refl _)
  have hagain : n / d ≤ n / (n / (n / d)) :=
    (le_div_comm_of_pos (Nat.lt_of_lt_of_le hd hback) hpos).mp (Nat.le_refl _)
  exact Nat.le_antisymm (Nat.div_le_div_left hback hd) hagain

/-- The sign of a quotient is that of the product, and three quotients have the sign of one. -/
theorem tdiv_thrice (a b : Int) : a.tdiv (a.tdiv (a.tdiv b)) = a.tdiv b := by
  obtain ⟨n, rfl | rfl⟩ := a.eq_nat_or_neg <;> obtain ⟨d, rfl | rfl⟩ := b.eq_nat_or_neg <;>
    simp only [Int.neg_tdiv, Int.tdiv_neg, Int.neg_neg, ← Int.ofNat_tdiv, div_thrice]

theorem tdiv_twice_of_dvd {a b : Int} (ha : a ≠ 0) (h : b ∣ a) : a.tdiv (a.tdiv b) = b := by
  obtain ⟨c, rfl⟩ := h
  have hb : b ≠ 0 := fun hzero => ha (by rw [hzero, Int.zero_mul])
  have hc : c ≠ 0 := fun hzero => ha (by rw [hzero, Int.mul_zero])
  rw [Int.mul_tdiv_cancel_left c hb, Int.mul_tdiv_cancel b hc]

/-! ### Words -/

section

variable {whole : Int32} (hwhole : whole ≠ Int32.minValue)
include hwhole

/-- No quotient of another number than the least one wraps. -/
theorem toInt_quotientOrZero (part : Int32) :
    (quotientOrZero whole part).toInt = whole.toInt.tdiv part.toInt := by
  rw [quotientOrZero]
  split
  · next hzero => rw [hzero, Int32.toInt_zero, Int.tdiv_zero]
  · exact Int32.toInt_div_of_ne_left whole part hwhole

theorem quotientOrZero_thrice (part : Int32) :
    quotientOrZero whole (quotientOrZero whole (quotientOrZero whole part)) =
      quotientOrZero whole part := by
  rw [← Int32.toInt_inj]
  simp only [toInt_quotientOrZero hwhole, tdiv_thrice]

theorem quotientOrZero_twice_of_dvd {part : Int32} (hne : whole ≠ 0)
    (h : part.toInt ∣ whole.toInt) : quotientOrZero whole (quotientOrZero whole part) = part := by
  have hint : whole.toInt ≠ 0 := fun hzero =>
    hne (Int32.toInt_inj.mp (hzero.trans Int32.toInt_zero.symm))
  rw [← Int32.toInt_inj, toInt_quotientOrZero hwhole, toInt_quotientOrZero hwhole,
    tdiv_twice_of_dvd hint h]

end

namespace Resolution

/-- A conversion loses at most once.  The ticks of a length convert to a length with the same ticks,
and the length for a number of ticks converts to ticks with the same length; a length that divides
the whole note comes back as it was. -/
theorem conversion_loses_once (resolution : Resolution)
    (hwhole : resolution.wholeNote ≠ Int32.minValue) :
    (∀ length, resolution.toTicks (resolution.ofTicks (resolution.toTicks length)) =
        resolution.toTicks length) ∧
      (∀ ticks, resolution.ofTicks (resolution.toTicks (resolution.ofTicks ticks)) =
        resolution.ofTicks ticks) ∧
      (resolution.wholeNote ≠ 0 → ∀ length : Length,
        length.denominator.toInt ∣ resolution.wholeNote.toInt →
          resolution.ofTicks (resolution.toTicks length) = length) := by
  refine ⟨fun length => quotientOrZero_thrice hwhole length.denominator,
    fun ticks => congrArg Length.mk (quotientOrZero_thrice hwhole ticks),
    fun hne length hdvd => ?_⟩
  exact congrArg Length.mk (quotientOrZero_twice_of_dvd hwhole hne hdvd)

/-- A negative whole note, as far from zero as words go on both sides.  A length that takes minus
one tick comes back as another one that takes it, and a length that divides the whole note once
comes back as it was. -/
theorem conversion_loses_once_below_zero :
    let resolution : Resolution := ⟨-2147483647⟩
    resolution.toTicks ⟨1500000000⟩ = -1 ∧ resolution.ofTicks (-1) = ⟨2147483647⟩ ∧
      resolution.toTicks (resolution.ofTicks (resolution.toTicks ⟨1500000000⟩)) = -1 ∧
      resolution.ofTicks (resolution.toTicks (resolution.ofTicks (-1))) = ⟨2147483647⟩ ∧
      resolution.ofTicks (resolution.toTicks ⟨-2147483647⟩) = ⟨-2147483647⟩ := by
  intro resolution
  have hticks : resolution.toTicks ⟨1500000000⟩ = -1 := by decide
  have hlength : resolution.ofTicks (-1) = ⟨2147483647⟩ := by decide
  obtain ⟨hback, hagain, hexact⟩ := conversion_loses_once resolution (by decide)
  exact ⟨hticks, hlength, (hback _).trans hticks, (hagain _).trans hlength,
    hexact (by decide) _ (by decide)⟩

/-- With the least number of ticks as the whole note a quotient may wrap, and loses again. -/
example :
    let resolution : Resolution := ⟨Int32.minValue⟩
    resolution.toTicks ⟨2147483647⟩ = -1 ∧
      resolution.toTicks (resolution.ofTicks (resolution.toTicks ⟨2147483647⟩)) = 1 := by
  decide

end Resolution

end MusicMacro
