/-! Whole numbers in decimal.  A written number has no sign unless it is negative and no leading
zero; a read number may have either sign in front and any digits after it. -/

namespace MusicMacro.Decimal

def ofInt : Int → List Char
  | .ofNat n => Nat.toDigits 10 n
  | .negSucc n => '-' :: Nat.toDigits 10 (n + 1)

def text (n : Int) : String := String.ofList (ofInt n)

def unsigned? (digits : List Char) : Option Nat :=
  if !digits.isEmpty && digits.all Char.isDigit then some (Nat.ofDigitChars 10 digits 0) else none

/-- The number that digits after at most one sign write. -/
def signed? : List Char → Option Int
  | '-' :: digits => (unsigned? digits).map fun n => -(n : Int)
  | '+' :: digits => (unsigned? digits).map fun n => (n : Int)
  | digits => (unsigned? digits).map fun n => (n : Int)

def inInt32 (n : Int) : Bool := -2147483648 ≤ n && n ≤ 2147483647

def int32? (text : List Char) : Option Int32 :=
  (signed? text).bind fun n => if inInt32 n then some (Int32.ofInt n) else none

theorem unsigned?_toDigits (n : Nat) : unsigned? (Nat.toDigits 10 n) = some n := by
  have h : (Nat.toDigits 10 n).all Char.isDigit = true :=
    List.all_eq_true.mpr fun c hc => Nat.isDigit_of_mem_toDigits (b := 10) (by decide) (by decide) hc
  simp [unsigned?, h, Nat.toDigits_ne_nil, Nat.ofDigitChars_ten_toDigits]

theorem ofInt_ne_nil (n : Int) : ofInt n ≠ [] := by
  cases n <;> simp [ofInt, Nat.toDigits_ne_nil]

theorem isDigit_of_mem_ofInt {n : Int} {c : Char} (h : c ∈ ofInt n) :
    c.isDigit = true ∨ c = '-' := by
  have hdigit : ∀ m : Nat, c ∈ Nat.toDigits 10 m → c.isDigit = true := fun m hm =>
    Nat.isDigit_of_mem_toDigits (by decide) (by decide) hm
  cases n with
  | ofNat m => exact .inl (hdigit m h)
  | negSucc m =>
    rcases List.mem_cons.mp h with rfl | h
    · exact .inr rfl
    · exact .inl (hdigit _ h)

theorem head?_toDigits (n : Nat) : ∃ c, (Nat.toDigits 10 n).head? = some c ∧ c.isDigit = true := by
  cases h : Nat.toDigits 10 n with
  | nil => exact absurd h Nat.toDigits_ne_nil
  | cons c rest => exact ⟨c, rfl,
      Nat.isDigit_of_mem_toDigits (b := 10) (n := n) (by decide) (by decide) (by rw [h]; simp)⟩

theorem signed?_ofInt (n : Int) : signed? (ofInt n) = some n := by
  cases n with
  | ofNat n =>
    obtain ⟨c, hc, hd⟩ := head?_toDigits n
    cases h : Nat.toDigits 10 n with
    | nil => simp [h] at hc
    | cons d rest =>
      have hcd : d = c := by simpa [h] using hc
      subst hcd
      have hm : d ≠ '-' := by rintro rfl; simp [Char.isDigit] at hd
      have hp : d ≠ '+' := by rintro rfl; simp [Char.isDigit] at hd
      have hu := unsigned?_toDigits n
      rw [h] at hu
      simp [ofInt, h, signed?, hm, hp, hu]
  | negSucc n => simp [ofInt, signed?, unsigned?_toDigits]; omega

theorem int32?_ofInt (v : Int32) : int32? (ofInt v.toInt) = some v := by
  have h1 := v.le_toInt
  have h2 := v.toInt_lt
  have h : inInt32 v.toInt = true := by
    simp [inInt32]; omega
  simp [int32?, signed?_ofInt, h]

end MusicMacro.Decimal
