import MusicMacro.Json.Fault

/-! Numbers in JSON.  A number that is written without a fraction and an exponent and fits into 64
bits is whole; any other is a floating-point number, of which only the size matters here: one that
would round to infinity is refused. -/

namespace MusicMacro.Json

inductive Number where
  | integer (value : Int)
  | float
  deriving DecidableEq, Repr

namespace Number

/-- A number to 53 binary digits.  A half goes to the even neighbour. -/
def roundToDouble (n : Nat) : Nat :=
  let excess := n.log2 + 1 - 53
  let unit := 1 <<< excess
  let quotient := n / unit
  let twice := 2 * (n % unit)
  if unit < twice ∨ (unit = twice ∧ quotient % 2 = 1) then (quotient + 1) * unit
  else quotient * unit

/-- Whether `significand * 10 ^ exponent`, computed in floating point with both factors rounded, is
infinite. -/
def isTooLarge (significand : Nat) (exponent : Int) : Bool :=
  match exponent with
  | .ofNat e =>
    significand != 0 && (308 < e ||
      (1 <<< 1024) - (1 <<< 970) ≤ roundToDouble significand * roundToDouble (Nat.pow 10 e))
  | .negSucc _ => false

/-- Appends decimal digits to a number as long as it fits into 64 bits, and tells how many digits
were taken and how many were left over. -/
def absorb (significand : Nat) : List Char → Nat × Nat × Nat
  | [] => (significand, 0, 0)
  | digit :: rest =>
    let next := significand * 10 + (digit.toNat - '0'.toNat)
    if next < 1 <<< 64 then
      let (result, taken, left) := absorb next rest
      (result, taken + 1, left)
    else (significand, 0, rest.length + 1)

/-- A number as it is written: its sign, the digits before and after the point, and the
exponent. -/
structure Written where
  negative : Bool
  whole : List Char
  fraction : Option (List Char)
  exponent : Option Int
  deriving DecidableEq, Repr

def Written.value (written : Written) : Except Fault Number :=
  let (significand, _, dropped) := absorb 0 written.whole
  let (significand, taken, _) := absorb significand (written.fraction.getD [])
  let exponent : Int := written.exponent.getD 0 + dropped - taken
  if written.fraction = none ∧ written.exponent = none ∧ dropped = 0 ∧
      (!written.negative || (0 < significand && significand ≤ 1 <<< 63)) then
    .ok (.integer (if written.negative then -(significand : Int) else significand))
  else if isTooLarge significand exponent then .error .numberTooLarge
  else .ok .float

/-- What a missing digit means: the text may be over, or something else may stand there. -/
def missingDigit : List Char → Fault
  | [] => .endIn .value
  | _ :: _ => .invalidNumber

def digits (text : List Char) : Except Fault (List Char × List Char) :=
  match text.takeWhile Char.isDigit with
  | [] => .error (missingDigit text)
  | taken => .ok (taken, text.dropWhile Char.isDigit)

def wholeDigits (text : List Char) : Except Fault (List Char × List Char) :=
  match digits text with
  | .ok ('0' :: _ :: _, _) => .error .invalidNumber
  | reading => reading

def fractionDigits : List Char → Except Fault (Option (List Char) × List Char)
  | '.' :: rest => (digits rest).map fun (taken, rest) => (some taken, rest)
  | text => .ok (none, text)

def exponentDigits (negative : Bool) (text : List Char) : Except Fault (Option Int × List Char) :=
  (digits text).map fun (taken, rest) =>
    let size : Int := Nat.ofDigitChars 10 taken 0
    (some (if negative then -size else size), rest)

def exponent : List Char → Except Fault (Option Int × List Char)
  | c :: rest =>
    if c = 'e' ∨ c = 'E' then
      match rest with
      | '-' :: rest => exponentDigits true rest
      | '+' :: rest => exponentDigits false rest
      | rest => exponentDigits false rest
    else .ok (none, c :: rest)
  | [] => .ok (none, [])

def scan (text : List Char) : Except Fault (Written × List Char) := do
  let negative := text.head? == some '-'
  let (whole, rest) ← wholeDigits (if negative then text.tail else text)
  let (fraction, rest) ← fractionDigits rest
  let (exponent, rest) ← exponent rest
  return ({ negative, whole, fraction, exponent }, rest)

/-! ### A number takes at least one character -/

theorem length_digits {text taken rest : List Char} (h : digits text = .ok (taken, rest)) :
    rest.length < text.length := by
  unfold digits at h
  split at h
  · cases h
  · next hne =>
    cases h
    have happ := congrArg List.length (List.takeWhile_append_dropWhile (p := Char.isDigit) (l := text))
    have hpos := List.length_pos_iff.mpr hne
    rw [List.length_append] at happ
    omega

theorem length_wholeDigits {text taken rest : List Char}
    (h : wholeDigits text = .ok (taken, rest)) : rest.length < text.length := by
  unfold wholeDigits at h
  split at h
  · cases h
  · exact length_digits h

theorem length_fractionDigits {text rest : List Char} {taken : Option (List Char)}
    (h : fractionDigits text = .ok (taken, rest)) : rest.length ≤ text.length := by
  unfold fractionDigits at h
  split at h
  · next tail =>
    cases hd : digits tail with
    | error fault => rw [hd] at h; cases h
    | ok reading =>
      rw [hd] at h
      cases h
      have := length_digits hd
      simp only [List.length_cons]
      omega
  · cases h; exact Nat.le_refl _

theorem length_exponentDigits {negative : Bool} {text rest : List Char} {size : Option Int}
    (h : exponentDigits negative text = .ok (size, rest)) : rest.length ≤ text.length := by
  unfold exponentDigits at h
  cases hd : digits text with
  | error fault => rw [hd] at h; cases h
  | ok reading =>
    rw [hd] at h
    cases h
    exact Nat.le_of_lt (length_digits hd)

theorem length_exponent {text rest : List Char} {size : Option Int}
    (h : exponent text = .ok (size, rest)) : rest.length ≤ text.length := by
  unfold exponent at h
  split at h
  · split at h
    · split at h <;> have := length_exponentDigits h <;> simp only [List.length_cons] at * <;> omega
    · cases h; exact Nat.le_refl _
  · cases h; exact Nat.le_refl _

theorem length_scan {text rest : List Char} {written : Written}
    (h : scan text = .ok (written, rest)) : rest.length < text.length := by
  unfold scan at h
  simp only [bind, Except.bind, pure, Except.pure] at h
  split at h
  · cases h
  · next hw =>
    split at h
    · cases h
    · next hf =>
      split at h
      · cases h
      · next he =>
        cases h
        have h₁ := length_wholeDigits hw
        have h₂ := length_fractionDigits hf
        have h₃ := length_exponent he
        have ht : text.tail.length ≤ text.length := by simp
        split at h₁ <;> omega

end Number

end MusicMacro.Json
