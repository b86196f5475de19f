import Mathlib.Algebra.Ring.Int.Defs
import Mathlib.Algebra.Ring.Nat
import MusicMacro.Json.Token
import MusicMacro.Json.Value
import MusicMacro.Proofs.Sheet.RoundTrip

/-! The texts that spell a JSON value: its tokens, with blanks between them and with any characters
of its texts escaped.  Both written forms of a value spell it.  A text that spells a value has the
tokens of the value, in front of any text that cannot go on a number. -/

namespace MusicMacro.Json

/-! ### Numbers -/

def continuesNumber (c : Char) : Bool := c.isDigit || c == '.' || c == 'e' || c == 'E'

/-- The text does not go on a number that ends in front of it. -/
def EndsNumber (text : List Char) : Prop :=
  ∀ c, text.head? = some c → continuesNumber c = false

theorem endsNumber_nil : EndsNumber [] := fun _ h => nomatch h

theorem endsNumber_cons {c : Char} (rest : List Char) (h : continuesNumber c = false) :
    EndsNumber (c :: rest) := by
  intro d hd
  obtain rfl : c = d := by simpa using hd
  exact h

theorem EndsNumber.not_isDigit {text : List Char} (h : EndsNumber text) {c : Char}
    (hc : text.head? = some c) : c.isDigit = false := by
  have hcontinues := h c hc
  simp only [continuesNumber, Bool.or_eq_false_iff] at hcontinues
  exact hcontinues.1.1.1

namespace Number

/-- The whole numbers that are read as such: those with a sign that fit into 64 bits, and those
without one. -/
def IsWord (n : Int) : Prop := -2 ^ 63 ≤ n ∧ n < 2 ^ 64

theorem le_ofDigitChars (digits : List Char) (start : Nat) :
    start ≤ Nat.ofDigitChars 10 digits start := by
  rw [Nat.ofDigitChars_eq_ofDigitChars_zero]
  have hpower : 0 < 10 ^ digits.length := Nat.pow_pos (by decide)
  exact Nat.le_trans (Nat.le_mul_of_pos_left start hpower) (Nat.le_add_right _ _)

/-- All digits of a number that fits are taken. -/
theorem absorb_of_lt {digits : List Char} {start : Nat}
    (h : Nat.ofDigitChars 10 digits start < 2 ^ 64) :
    absorb start digits = (Nat.ofDigitChars 10 digits start, digits.length, 0) := by
  induction digits generalizing start with
  | nil => rfl
  | cons digit digits ih =>
    rw [Nat.ofDigitChars_cons, Nat.mul_comm] at h
    -- The numbers of fewer digits are no greater, so none of them stops the reading.
    have hnext : start * 10 + (digit.toNat - '0'.toNat) < 1 <<< 64 :=
      Nat.lt_of_le_of_lt (le_ofDigitChars digits _) h
    rw [absorb, if_pos hnext, ih h, Nat.ofDigitChars_cons, Nat.mul_comm 10]
    rfl

theorem head?_toDigits_ne_zero {n : Nat} (h : 0 < n) : (Nat.toDigits 10 n).head? ≠ some '0' := by
  induction n using Nat.strongRecOn with
  | ind n ih =>
    by_cases hn : n < 10
    · rw [Nat.toDigits_of_lt_base hn]
      have hdigit : ∀ m < 10, 0 < m → [Nat.digitChar m].head? ≠ some '0' := by decide
      exact hdigit n hn h
    · rw [Nat.toDigits_of_base_le (by decide) (Nat.le_of_not_lt hn),
        List.head?_append_of_ne_nil _ Nat.toDigits_ne_nil]
      exact ih (n / 10) (by omega) (by omega)

theorem digits_toDigits_append (n : Nat) {rest : List Char} (h : EndsNumber rest) :
    digits (Nat.toDigits 10 n ++ rest) = .ok (Nat.toDigits 10 n, rest) := by
  have hdigits : ∀ c ∈ Nat.toDigits 10 n, c.isDigit = true := fun c hc =>
    Nat.isDigit_of_mem_toDigits (b := 10) (by decide) (by decide) hc
  obtain ⟨htake, hdrop⟩ := Sheet.span_append hdigits fun c hc => h.not_isDigit hc
  unfold digits
  rw [htake, hdrop]
  split
  · next hnil => exact absurd hnil Nat.toDigits_ne_nil
  · rfl

/-- A number is written without leading zeros. -/
theorem wholeDigits_toDigits_append (n : Nat) {rest : List Char} (h : EndsNumber rest) :
    wholeDigits (Nat.toDigits 10 n ++ rest) = .ok (Nat.toDigits 10 n, rest) := by
  unfold wholeDigits
  rw [digits_toDigits_append n h]
  split
  · next hzero =>
    have hdigits : Nat.toDigits 10 n = '0' :: _ :: _ := (Prod.mk.inj (Except.ok.inj hzero)).1
    have hpos : 0 < n := by
      rcases Nat.eq_zero_or_pos n with rfl | hpos
      · simp at hdigits
      · exact hpos
    exact absurd (by rw [hdigits]; rfl) (head?_toDigits_ne_zero hpos)
  · rfl

theorem fractionDigits_of_endsNumber {rest : List Char} (h : EndsNumber rest) :
    fractionDigits rest = .ok (none, rest) := by
  unfold fractionDigits
  split
  · exact absurd (h '.' rfl) (by decide)
  · rfl

theorem exponent_of_endsNumber {rest : List Char} (h : EndsNumber rest) :
    exponent rest = .ok (none, rest) := by
  cases rest with
  | nil => rfl
  | cons c rest =>
    refine if_neg ?_
    rintro (rfl | rfl) <;> exact absurd (h _ rfl) (by decide)

/-- A whole number as it is written. -/
def Written.ofInt (n : Int) : Written where
  negative := n < 0
  whole := Nat.toDigits 10 n.natAbs
  fraction := none
  exponent := none

/-- A number is its sign and its digits. -/
theorem scan_digits {text rest : List Char} {negative : Bool} (n : Nat)
    (hsign : (text.head? == some '-') = negative)
    (htext : (if negative then text.tail else text) = Nat.toDigits 10 n ++ rest)
    (h : EndsNumber rest) :
    scan text = .ok
      ({ negative, whole := Nat.toDigits 10 n, fraction := none, exponent := none }, rest) := by
  simp only [scan, hsign, htext, wholeDigits_toDigits_append n h, fractionDigits_of_endsNumber h,
    exponent_of_endsNumber h, bind, Except.bind, pure, Except.pure]

theorem scan_ofInt_append (n : Int) {rest : List Char} (h : EndsNumber rest) :
    scan (Decimal.ofInt n ++ rest) = .ok (.ofInt n, rest) := by
  cases n with
  | ofNat n =>
    have hsign : ((Nat.toDigits 10 n ++ rest).head? == some '-') = false := by
      obtain ⟨c, hc, hdigit⟩ := Decimal.head?_toDigits n
      rw [List.head?_append_of_ne_nil _ Nat.toDigits_ne_nil, hc]
      have hminus : c ≠ '-' := by
        rintro rfl
        exact absurd hdigit (by decide)
      simpa using hminus
    exact scan_digits n hsign rfl h
  | negSucc n =>
    have hnegative : decide (Int.negSucc n < 0) = true := decide_eq_true (Int.negSucc_lt_zero n)
    rw [Written.ofInt, hnegative]
    exact scan_digits (n + 1) rfl rfl h

theorem scan_ofInt (n : Int) : scan (Decimal.ofInt n) = .ok (.ofInt n, []) := by
  rw [← scan_ofInt_append n endsNumber_nil, List.append_nil]

theorem value_ofInt {n : Int} (h : IsWord n) : (Written.ofInt n).value = .ok (.integer n) := by
  obtain ⟨hlow, hhigh⟩ := h
  have hsize : Nat.ofDigitChars 10 (Nat.toDigits 10 n.natAbs) 0 = n.natAbs :=
    Nat.ofDigitChars_ten_toDigits
  have hwhole : absorb 0 (Nat.toDigits 10 n.natAbs) =
      (n.natAbs, (Nat.toDigits 10 n.natAbs).length, 0) := by
    rw [absorb_of_lt (by omega), hsize]
  have hsign : (if decide (n < 0) = true then -(n.natAbs : Int) else n.natAbs) = n := by
    simp only [decide_eq_true_eq]
    omega
  unfold Written.value
  simp only [Written.ofInt, hwhole, Option.getD_none, absorb]
  rw [if_pos]
  · rw [hsign]
  · have hbounds : n < 0 → 0 < n.natAbs ∧ n.natAbs ≤ 1 <<< 63 := by
      rw [show (1 : Nat) <<< 63 = 2 ^ 63 from rfl]
      omega
    simp only [true_and, Bool.or_eq_true, Bool.and_eq_true, decide_eq_true_eq, Bool.not_eq_true',
      decide_eq_false_iff_not]
    exact Decidable.not_or_of_imp hbounds

end Number

/-! ### Texts -/

namespace Text

theorem hex4?_control {n : Nat} (h : n < 32) :
    hex4? '0' '0' (Nat.digitChar (n / 16)) (Nat.digitChar (n % 16)) = some n := by
  have hzero : Hex.value? '0' = some 0 := rfl
  rw [hex4?, hzero, Hex.value?_digitChar (n / 16) (by omega),
    Hex.value?_digitChar (n % 16) (by omega)]
  simp only [Option.some.injEq]
  omega

theorem lower_ofNat {n : Nat} (h : n < 32) :
    Hex.lower (UInt8.ofNat n) = [Nat.digitChar (n / 16), Nat.digitChar (n % 16)] := by
  have hn : (UInt8.ofNat n).toNat = n := by
    rw [UInt8.toNat_ofNat']
    omega
  rw [Hex.lower, hn]

/-- A character as it may stand in a text: it stands for itself, or it is escaped by a letter, by
its number, or by the numbers of the two halves that it is a pair of. -/
inductive SpellsChar : Char → List Char → Prop where
  | plain {c : Char} (hquote : c ≠ '"') (hback : c ≠ '\\') (hcontrol : 0x20 ≤ c.toNat) :
    SpellsChar c [c]
  | short {c letter : Char} (h : shortEscape? letter = some c) : SpellsChar c ['\\', letter]
  | number {c d₁ d₂ d₃ d₄ : Char} (h : hex4? d₁ d₂ d₃ d₄ = some c.toNat) :
    SpellsChar c ['\\', 'u', d₁, d₂, d₃, d₄]
  | halves {leading trailing : Nat} {d₁ d₂ d₃ d₄ e₁ e₂ e₃ e₄ : Char}
    (hfirst : hex4? d₁ d₂ d₃ d₄ = some leading) (hleading : isLeading leading = true)
    (hsecond : hex4? e₁ e₂ e₃ e₄ = some trailing) (htrailing : isTrailing trailing = true) :
    SpellsChar (pair leading trailing)
      ['\\', 'u', d₁, d₂, d₃, d₄, '\\', 'u', e₁, e₂, e₃, e₄]

inductive SpellsChars : List Char → List Char → Prop where
  | nil : SpellsChars [] []
  | cons {c : Char} {text written more : List Char} (hc : SpellsChar c written)
    (h : SpellsChars text more) : SpellsChars (c :: text) (written ++ more)

/-- No character is half of a pair. -/
theorem not_half (c : Char) : isLeading c.toNat = false ∧ isTrailing c.toNat = false := by
  have hvalid : c.toNat < 0xD800 ∨ 0xDFFF < c.toNat ∧ c.toNat < 0x110000 := c.valid
  simp only [isLeading, isTrailing, Bool.and_eq_false_iff, decide_eq_false_iff_not]
  omega

theorem isTrailing_of_isLeading {n : Nat} (h : isLeading n = true) : isTrailing n = false := by
  simp only [isLeading, isTrailing, Bool.and_eq_true, Bool.and_eq_false_iff, decide_eq_true_eq,
    decide_eq_false_iff_not] at *
  omega

theorem read_spellsChar {c : Char} {written : List Char} (h : SpellsChar c written)
    (rest : List Char) : read (written ++ rest) = push c (read rest) := by
  cases h with
  | plain hquote hback hcontrol =>
    conv_lhs => rw [List.singleton_append, read.eq_def]
    simp [hquote, hback, Nat.not_lt.mpr hcontrol]
  | short h =>
    unfold shortEscape? at h
    split at h <;> cases h <;> simp [read, shortEscape?]
  | number h =>
    obtain ⟨hleading, htrailing⟩ := not_half c
    simp [read, h, hleading, htrailing]
  | halves hfirst hleading hsecond htrailing =>
    simp [read, hfirst, hleading, isTrailing_of_isLeading hleading, hsecond, htrailing]

theorem pass_spellsChar {c : Char} {written : List Char} (h : SpellsChar c written)
    (rest : List Char) : pass (written ++ rest) = pass rest := by
  cases h with
  | plain hquote hback hcontrol =>
    conv_lhs => rw [List.singleton_append, pass.eq_def]
    simp [hquote, hback, Nat.not_lt.mpr hcontrol]
  | short h =>
    unfold shortEscape? at h
    split at h <;> cases h <;> simp [pass, shortEscape?]
  | number h => simp [pass, h]
  | halves hfirst _ hsecond _ => simp [pass, hfirst, hsecond]

theorem read_spellsChars {text written : List Char} (h : SpellsChars text written)
    (rest : List Char) : read (written ++ '"' :: rest) = .ok (text, rest) := by
  induction h with
  | nil =>
    rw [List.nil_append, read.eq_def]
    rfl
  | cons hc _ ih =>
    rw [List.append_assoc, read_spellsChar hc, ih]
    rfl

theorem pass_spellsChars {text written : List Char} (h : SpellsChars text written)
    (rest : List Char) : pass (written ++ '"' :: rest) = .ok rest := by
  induction h with
  | nil =>
    rw [List.nil_append, pass.eq_def]
    rfl
  | cons hc _ ih => rw [List.append_assoc, pass_spellsChar hc, ih]

/-- A control character without a short escape is written by its number. -/
theorem spellsChar_escapeChar (c : Char) : SpellsChar c (escapeChar c) := by
  unfold escapeChar
  split
  case h_8 hquote hback _ _ _ _ _ =>
    split
    · next hcontrol =>
      rw [lower_ofNat hcontrol]
      exact .number (hex4?_control hcontrol)
    · next hcontrol => exact .plain hquote hback (Nat.le_of_not_lt hcontrol)
  all_goals exact .short rfl

theorem spellsChars_escape (text : List Char) : SpellsChars text (text.flatMap escapeChar) := by
  induction text with
  | nil => exact .nil
  | cons c text ih => exact .cons (spellsChar_escapeChar c) ih

end Text

/-! ### Tokens -/

/-- Blanks between tokens. -/
def IsGap (gap : List Char) : Prop := ∀ c ∈ gap, Token.isSpace c = true

theorem isGap_nil : IsGap [] := fun _ h => nomatch h

theorem isGap_newLine (level : Nat) : IsGap (newLine level) := by
  intro c hc
  rcases List.mem_cons.mp hc with rfl | hc
  · rfl
  · rw [List.eq_of_mem_replicate hc]
    rfl

theorem isGap_blank : IsGap [' '] := fun c hc => by
  rw [List.mem_singleton.mp hc]
  rfl

theorem tokens_of_next?_none {text : List Char} (h : Token.next? text = none) :
    tokens text = [] := by
  rw [tokens]
  split
  · rfl
  · next hsome => rw [h] at hsome; cases hsome

theorem tokens_of_next? {text rest : List Char} {token : Token}
    (h : Token.next? text = some (token, rest)) : tokens text = token :: tokens rest := by
  rw [tokens]
  split
  · next hnone => rw [h] at hnone; cases hnone
  · next hsome =>
    obtain ⟨rfl, rfl⟩ := Prod.mk.inj (Option.some.inj (h.symm.trans hsome))
    rfl

theorem tokens_of_isSpace {c : Char} (rest : List Char) (h : Token.isSpace c = true) :
    tokens (c :: rest) = tokens rest := by
  have hnext : Token.next? (c :: rest) = Token.next? rest := by rw [Token.next?, if_pos h]
  cases hrest : Token.next? rest with
  | none => rw [tokens_of_next?_none (hnext.trans hrest), tokens_of_next?_none hrest]
  | some reading => rw [tokens_of_next? (hnext.trans hrest), tokens_of_next? hrest]

theorem tokens_gap_append {gap : List Char} (h : IsGap gap) (rest : List Char) :
    tokens (gap ++ rest) = tokens rest := by
  induction gap with
  | nil => rfl
  | cons c gap ih =>
    rw [List.cons_append, tokens_of_isSpace _ (h c List.mem_cons_self),
      ih fun d hd => h d (List.mem_cons_of_mem c hd)]

namespace Token

/-- The token of a number that is written out. -/
def ofInt (n : Int) : Token := (ofNumber (Decimal.ofInt n)).1

theorem ofNumber_append (n : Int) {rest : List Char} (h : EndsNumber rest) :
    ofNumber (Decimal.ofInt n ++ rest) = (ofInt n, rest) := by
  rw [ofInt, ofNumber, ofNumber, Number.scan_ofInt_append n h, Number.scan_ofInt]

theorem ofInt_of_isWord {n : Int} (h : Number.IsWord n) :
    ofInt n = .bare (.ok (.integer n)) none := by
  rw [ofInt, ofNumber, Number.scan_ofInt]
  simp only [Number.value_ofInt h]
  rfl

theorem exists_ofInt (n : Int) : ∃ reading flaw, ofInt n = .bare reading flaw := by
  rw [ofInt, ofNumber, Number.scan_ofInt]
  exact ⟨_, _, rfl⟩

theorem ofText_spellsChars {text written : List Char} (h : Text.SpellsChars text written)
    (rest : List Char) :
    ofText (written ++ '"' :: rest) = (.quoted (.ok (String.ofList text)) none, rest) := by
  rw [ofText, Text.read_spellsChars h, Text.pass_spellsChars h]
  rfl

theorem isSpace_of_isDigit {c : Char} (h : c.isDigit = true) : isSpace c = false := by
  rw [Bool.eq_false_iff]
  intro hspace
  simp only [isSpace, Bool.or_eq_true, beq_iff_eq] at hspace
  rcases hspace with ((rfl | rfl) | rfl) | rfl <;> exact absurd h (by decide)

theorem starting_number {c : Char} (rest : List Char) (h : c = '-' ∨ c.isDigit = true) :
    starting c rest = ofNumber (c :: rest) := by
  unfold starting
  split
  case h_11 => exact if_pos h
  all_goals exact absurd h (by decide)

end Token

theorem tokens_ofInt_append (n : Int) {rest : List Char} (h : EndsNumber rest) :
    tokens (Decimal.ofInt n ++ rest) = Token.ofInt n :: tokens rest := by
  refine tokens_of_next? ?_
  cases htext : Decimal.ofInt n with
  | nil => exact absurd htext (Decimal.ofInt_ne_nil n)
  | cons c digits =>
    have hstart : c.isDigit = true ∨ c = '-' :=
      Decimal.isDigit_of_mem_ofInt (n := n) (by rw [htext]; exact List.mem_cons_self)
    have hspace : Token.isSpace c = false := by
      rcases hstart with hdigit | rfl
      · exact Token.isSpace_of_isDigit hdigit
      · rfl
    rw [List.cons_append, Token.next?, hspace, if_neg (by decide),
      Token.starting_number _ hstart.symm, ← List.cons_append, ← htext, Token.ofNumber_append n h]

/-- The text in quotes, with any of its characters escaped. -/
inductive Quotes (text : String) : List Char → Prop where
  | intro {written : List Char} (h : Text.SpellsChars text.toList written) :
    Quotes text ('"' :: (written ++ ['"']))

theorem quotes_quote (text : String) : Quotes text (quote text) :=
  .intro (Text.spellsChars_escape text.toList)

theorem Quotes.tokens_append {text : String} {quoted : List Char} (h : Quotes text quoted)
    (rest : List Char) : tokens (quoted ++ rest) = .quoted (.ok text) none :: tokens rest := by
  obtain ⟨hwritten⟩ := h
  refine tokens_of_next? ?_
  rw [List.cons_append, List.append_assoc]
  show some (Token.ofText _) = _
  rw [List.singleton_append, Token.ofText_spellsChars hwritten, String.ofList_toList]

/-! ### Values -/

mutual

/-- The tokens of a value.  A number has the token that its digits have. -/
def toTokens : Json → List Token
  | .null => [.bare (.ok .null) none]
  | .bool value => [.bare (.ok (.bool value)) none]
  | .number value => [.ofInt value]
  | .text value => [.quoted (.ok value) none]
  | .list items => .openList :: (itemTokens items ++ [.closeList])
  | .object members => .openObject :: (memberTokens members ++ [.closeObject])

def itemTokens : List Json → List Token
  | [] => []
  | [item] => toTokens item
  | item :: rest => toTokens item ++ .comma :: itemTokens rest

def memberTokens : List (String × Json) → List Token
  | [] => []
  | [(key, value)] => .quoted (.ok key) none :: .colon :: toTokens value
  | (key, value) :: rest =>
    .quoted (.ok key) none :: .colon :: (toTokens value ++ .comma :: memberTokens rest)

end

mutual

/-- The text spells the value: there may be blanks between any two of its tokens. -/
inductive Spells : Json → List Char → Prop where
  | null : Spells .null "null".toList
  | bool (value : Bool) : Spells (.bool value) (boolWord value)
  | number (value : Int) : Spells (.number value) (Decimal.ofInt value)
  | text {value : String} {quoted : List Char} : Quotes value quoted → Spells (.text value) quoted
  | emptyList {gap : List Char} : IsGap gap → Spells (.list []) ('[' :: (gap ++ [']']))
  | list {items : List Json} {before text after : List Char} : IsGap before →
      SpellsItems items text → IsGap after →
      Spells (.list items) ('[' :: (before ++ text ++ after ++ [']']))
  | emptyObject {gap : List Char} : IsGap gap →
      Spells (.object []) ('\x7b' :: (gap ++ ['\x7d']))
  | object {members : List (String × Json)} {before text after : List Char} : IsGap before →
      SpellsMembers members text → IsGap after →
      Spells (.object members) ('\x7b' :: (before ++ text ++ after ++ ['\x7d']))

inductive SpellsItems : List Json → List Char → Prop where
  | single {item : Json} {text : List Char} : Spells item text → SpellsItems [item] text
  | cons {item : Json} {items : List Json} {text before after later : List Char} :
      Spells item text → IsGap before → IsGap after → SpellsItems items later →
      SpellsItems (item :: items) (text ++ (before ++ ',' :: (after ++ later)))

inductive SpellsMembers : List (String × Json) → List Char → Prop where
  | single {key : String} {value : Json} {quoted text before after : List Char} :
      Quotes key quoted → IsGap before → IsGap after → Spells value text →
      SpellsMembers [(key, value)] (quoted ++ (before ++ ':' :: (after ++ text)))
  | cons {key : String} {value : Json} {members : List (String × Json)}
      {quoted text before after behind between later : List Char} :
      Quotes key quoted → IsGap before → IsGap after → Spells value text → IsGap behind →
      IsGap between → SpellsMembers members later →
      SpellsMembers ((key, value) :: members)
        (quoted ++ (before ++ ':' :: (after ++ (text ++ (behind ++ ',' :: (between ++ later))))))

end

mutual

theorem spells_compact : ∀ json : Json, Spells json json.compact
  | .null => .null
  | .bool value => .bool value
  | .number value => .number value
  | .text value => .text (quotes_quote value)
  | .list [] => .emptyList isGap_nil
  | .list (item :: items) => by
    have h := Spells.list isGap_nil (spells_compactItems (item :: items) (by simp)) isGap_nil
    rwa [List.nil_append, List.append_nil] at h
  | .object [] => .emptyObject isGap_nil
  | .object (member :: members) => by
    have h :=
      Spells.object isGap_nil (spells_compactMembers (member :: members) (by simp)) isGap_nil
    rwa [List.nil_append, List.append_nil] at h

theorem spells_compactItems : ∀ items : List Json, items ≠ [] →
    SpellsItems items (compactItems items)
  | [], h => absurd rfl h
  | [item], _ => .single (spells_compact item)
  | item :: next :: items, _ =>
    .cons (spells_compact item) isGap_nil isGap_nil (spells_compactItems (next :: items) (by simp))

theorem spells_compactMembers : ∀ members : List (String × Json), members ≠ [] →
    SpellsMembers members (compactMembers members)
  | [], h => absurd rfl h
  | [(key, value)], _ => .single (quotes_quote key) isGap_nil isGap_nil (spells_compact value)
  | (key, value) :: next :: members, _ =>
    .cons (quotes_quote key) isGap_nil isGap_nil (spells_compact value) isGap_nil isGap_nil
      (spells_compactMembers (next :: members) (by simp))

end

mutual

theorem spells_layOut (level : Nat) : ∀ json : Json, Spells json (json.layOut level)
  | .null => .null
  | .bool value => .bool value
  | .number value => .number value
  | .text value => .text (quotes_quote value)
  | .list [] => .emptyList isGap_nil
  | .list (item :: items) =>
    .list (isGap_newLine _) (spells_layOutItems (level + 1) (item :: items) (by simp))
      (isGap_newLine _)
  | .object [] => .emptyObject isGap_nil
  | .object (member :: members) =>
    .object (isGap_newLine _) (spells_layOutMembers (level + 1) (member :: members) (by simp))
      (isGap_newLine _)

theorem spells_layOutItems (level : Nat) : ∀ items : List Json, items ≠ [] →
    SpellsItems items (layOutItems level items)
  | [], h => absurd rfl h
  | [item], _ => .single (spells_layOut level item)
  | item :: next :: items, _ =>
    .cons (spells_layOut level item) isGap_nil (isGap_newLine level)
      (spells_layOutItems level (next :: items) (by simp))

theorem spells_layOutMembers (level : Nat) : ∀ members : List (String × Json), members ≠ [] →
    SpellsMembers members (layOutMembers level members)
  | [], h => absurd rfl h
  | [(key, value)], _ =>
    .single (quotes_quote key) isGap_nil isGap_blank (spells_layOut level value)
  | (key, value) :: next :: members, _ =>
    .cons (quotes_quote key) isGap_nil isGap_blank (spells_layOut level value) isGap_nil
      (isGap_newLine level) (spells_layOutMembers level (next :: members) (by simp))

end

theorem endsNumber_of_isSpace {c : Char} (rest : List Char) (h : Token.isSpace c = true) :
    EndsNumber (c :: rest) := by
  simp only [Token.isSpace, Bool.or_eq_true, beq_iff_eq] at h
  rcases h with ((rfl | rfl) | rfl) | rfl <;> exact endsNumber_cons rest rfl

theorem endsNumber_gap_append {gap rest : List Char} (h : IsGap gap) (hrest : EndsNumber rest) :
    EndsNumber (gap ++ rest) := by
  cases gap with
  | nil => exact hrest
  | cons c gap => exact endsNumber_of_isSpace _ (h c List.mem_cons_self)

theorem tokens_null_append (rest : List Char) :
    tokens ("null".toList ++ rest) = .bare (.ok .null) none :: tokens rest :=
  tokens_of_next? rfl

theorem tokens_boolWord_append (value : Bool) (rest : List Char) :
    tokens (boolWord value ++ rest) = .bare (.ok (.bool value)) none :: tokens rest := by
  cases value <;> exact tokens_of_next? rfl

theorem itemTokens_cons (item : Json) {items : List Json} (h : items ≠ []) :
    itemTokens (item :: items) = item.toTokens ++ .comma :: itemTokens items := by
  cases items with
  | nil => exact absurd rfl h
  | cons next items => rfl

theorem memberTokens_cons (key : String) (value : Json) {members : List (String × Json)}
    (h : members ≠ []) :
    memberTokens ((key, value) :: members) =
      .quoted (.ok key) none :: .colon :: (value.toTokens ++ .comma :: memberTokens members) := by
  cases members with
  | nil => exact absurd rfl h
  | cons next members => rfl

theorem SpellsItems.ne_nil {items : List Json} {text : List Char} (h : SpellsItems items text) :
    items ≠ [] := by
  cases h <;> exact List.cons_ne_nil _ _

theorem SpellsMembers.ne_nil {members : List (String × Json)} {text : List Char}
    (h : SpellsMembers members text) : members ≠ [] := by
  cases h <;> exact List.cons_ne_nil _ _

mutual

/-- A text that spells a value has the tokens of the value. -/
theorem tokens_of_spells {json : Json} {text : List Char} :
    Spells json text → ∀ {rest : List Char}, EndsNumber rest →
      tokens (text ++ rest) = json.toTokens ++ tokens rest
  | .null, rest, _ => tokens_null_append rest
  | .bool value, rest, _ => tokens_boolWord_append value rest
  | .number value, _, hrest => tokens_ofInt_append value hrest
  | .text hquoted, rest, _ => hquoted.tokens_append rest
  | .emptyList hgap, rest, _ => by
    rw [List.cons_append, tokens_of_next? rfl, List.append_assoc, tokens_gap_append hgap,
      List.singleton_append, tokens_of_next? rfl]
    rfl
  | .list hbefore hitems hafter, rest, _ => by
    -- The last item may be a number, which the bracket or the blank behind it ends.
    have hend := endsNumber_gap_append hafter (endsNumber_cons (c := ']') rest rfl)
    rw [List.cons_append, tokens_of_next? rfl]
    simp only [List.append_assoc]
    rw [tokens_gap_append hbefore, List.singleton_append, tokens_of_spellsItems hitems hend,
      tokens_gap_append hafter, tokens_of_next? rfl]
    simp [toTokens]
  | .emptyObject hgap, rest, _ => by
    rw [List.cons_append, tokens_of_next? rfl, List.append_assoc, tokens_gap_append hgap,
      List.singleton_append, tokens_of_next? rfl]
    rfl
  | .object hbefore hmembers hafter, rest, _ => by
    have hend := endsNumber_gap_append hafter (endsNumber_cons (c := '\x7d') rest rfl)
    rw [List.cons_append, tokens_of_next? rfl]
    simp only [List.append_assoc]
    rw [tokens_gap_append hbefore, List.singleton_append, tokens_of_spellsMembers hmembers hend,
      tokens_gap_append hafter, tokens_of_next? rfl]
    simp [toTokens]

theorem tokens_of_spellsItems {items : List Json} {text : List Char} :
    SpellsItems items text → ∀ {rest : List Char}, EndsNumber rest →
      tokens (text ++ rest) = itemTokens items ++ tokens rest
  | .single hitem, _, hrest => tokens_of_spells hitem hrest
  | .cons hitem hbefore hafter hlater, rest, hrest => by
    have hend later := endsNumber_gap_append hbefore (endsNumber_cons (c := ',') later rfl)
    simp only [List.append_assoc, List.cons_append]
    rw [tokens_of_spells hitem (hend _), tokens_gap_append hbefore, tokens_of_next? rfl,
      tokens_gap_append hafter, tokens_of_spellsItems hlater hrest, itemTokens_cons _ hlater.ne_nil]
    simp

theorem tokens_of_spellsMembers {members : List (String × Json)} {text : List Char} :
    SpellsMembers members text → ∀ {rest : List Char}, EndsNumber rest →
      tokens (text ++ rest) = memberTokens members ++ tokens rest
  | .single hkey hbefore hafter hvalue, rest, hrest => by
    simp only [List.append_assoc, List.cons_append]
    rw [hkey.tokens_append, tokens_gap_append hbefore, tokens_of_next? rfl,
      tokens_gap_append hafter, tokens_of_spells hvalue hrest]
    rfl
  | .cons hkey hbefore hafter hvalue hbehind hbetween hlater, rest, hrest => by
    have hend later := endsNumber_gap_append hbehind (endsNumber_cons (c := ',') later rfl)
    simp only [List.append_assoc, List.cons_append]
    rw [hkey.tokens_append, tokens_gap_append hbefore, tokens_of_next? rfl,
      tokens_gap_append hafter, tokens_of_spells hvalue (hend _), tokens_gap_append hbehind,
      tokens_of_next? rfl, tokens_gap_append hbetween, tokens_of_spellsMembers hlater hrest,
      memberTokens_cons _ _ hlater.ne_nil]
    simp

end

end MusicMacro.Json
