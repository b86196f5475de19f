import MusicMacro.Proofs.Macro.Line

/-! The grammar of lines.  A line is a sequence of separators, bare words and quoted words, and
every line is such a sequence in exactly one way, a quote that is left open included.  Reading a
line gives the words of this sequence, so a line without words is one of separators alone, and a
line that ends outside of quotes can be followed by another behind a separator, with the words of
both.  A bare word is a run of characters that nothing next to it makes longer, and it is a number
exactly if it is written as one and fits a word of the machine. -/

namespace MusicMacro

/-! ### Written numbers -/

namespace Decimal

/-- One or more ASCII digits and the number they write. -/
structure Digits (digits : List Char) (value : Nat) : Prop where
  ne_nil : digits ≠ []
  isDigit : ∀ c ∈ digits, c.isDigit = true
  value_eq : value = Nat.ofDigitChars 10 digits 0

/-- Digits behind at most one sign and the number they write. -/
inductive Numeral : List Char → Int → Prop
  | unsigned {digits : List Char} {value : Nat} (h : Digits digits value) : Numeral digits value
  | plus {digits : List Char} {value : Nat} (h : Digits digits value) :
    Numeral ('+' :: digits) value
  | minus {digits : List Char} {value : Nat} (h : Digits digits value) :
    Numeral ('-' :: digits) (-value)

theorem unsigned?_eq_some_iff {digits : List Char} {value : Nat} :
    unsigned? digits = some value ↔ Digits digits value := by
  rw [unsigned?]
  constructor
  · intro h
    split at h
    · rename_i hdigits
      simp only [Bool.and_eq_true, Bool.not_eq_true', List.isEmpty_eq_false_iff,
        List.all_eq_true] at hdigits
      exact ⟨hdigits.1, hdigits.2, (Option.some.inj h).symm⟩
    · cases h
  · rintro ⟨hne, hdigits, rfl⟩
    rw [if_pos]
    simpa [hne] using hdigits

theorem Digits.head_ne {digits : List Char} {value : Nat} {c : Char} (hc : c.isDigit = false) :
    ¬Digits (c :: digits) value := by
  intro h
  rw [h.isDigit c List.mem_cons_self] at hc
  cases hc

theorem signed?_eq_some_iff {text : List Char} {value : Int} :
    signed? text = some value ↔ Numeral text value := by
  have hread : ∀ {digits : List Char} {n : Int},
      (do let found ← unsigned? digits; pure (found : Int)) = some n →
        ∃ found : Nat, n = found ∧ Digits digits found := by
    intro digits n h
    obtain ⟨found, hfound, hn⟩ := Option.bind_eq_some_iff.mp h
    exact ⟨found, (Option.some.inj hn).symm, unsigned?_eq_some_iff.mp hfound⟩
  constructor
  · intro h
    rw [signed?.eq_def] at h
    split at h <;> obtain ⟨n, hn, rfl⟩ := Option.map_eq_some_iff.mp h <;>
      obtain ⟨found, rfl, hdigits⟩ := hread hn
    · exact .minus hdigits
    · exact .plus hdigits
    · exact .unsigned hdigits
  · rintro (h | h | h)
    · rw [signed?.eq_def]
      split
      · exact absurd h (Digits.head_ne (by decide))
      · exact absurd h (Digits.head_ne (by decide))
      · rw [unsigned?_eq_some_iff.mpr h]
        rfl
    · simp [signed?, unsigned?_eq_some_iff.mpr h]
    · simp [signed?, unsigned?_eq_some_iff.mpr h]

theorem int32?_eq_some_iff {text : List Char} {value : Int32} :
    int32? text = some value ↔ Numeral text value.toInt := by
  rw [int32?, ← signed?_eq_some_iff, Option.bind_eq_some_iff]
  constructor
  · rintro ⟨n, hn, h⟩
    split at h
    · rename_i hrange
      obtain rfl := Option.some.inj h
      simp only [inInt32, Bool.and_eq_true, decide_eq_true_eq] at hrange
      rw [hn, Int32.toInt_ofInt_of_le (by omega) (by omega)]
    · cases h
  · intro h
    have hle := value.le_toInt
    have hlt := value.toInt_lt
    have hrange : inInt32 value.toInt = true := by
      simp [inInt32]
      omega
    exact ⟨value.toInt, h, by rw [if_pos hrange, Int32.ofInt_toInt]⟩

end Decimal

/-- A bare word is a number exactly if it is written as one that fits, and else it is its text. -/
theorem Word.arg_bare (word : List Char) :
    (∀ value, (Word.bare word).arg = .number value ↔ Decimal.Numeral word value.toInt) ∧
      ((∀ value : Int32, ¬Decimal.Numeral word value.toInt) →
        (Word.bare word).arg = .text (String.ofList word)) := by
  cases hread : Decimal.int32? word with
  | none =>
    have harg : (bare word).arg = .text (String.ofList word) := by rw [arg, hread]
    refine ⟨fun value => ?_, fun _ => harg⟩
    rw [harg, ← Decimal.int32?_eq_some_iff, hread]
    constructor
    · intro h
      cases h
    · intro h
      cases h
  | some found =>
    have harg : (bare word).arg = .number found := by rw [arg, hread]
    have hfound := Decimal.int32?_eq_some_iff.mp hread
    refine ⟨fun value => ?_, fun h => absurd hfound (h found)⟩
    rw [harg, ← Decimal.int32?_eq_some_iff, hread, Arg.number.injEq, Option.some.injEq]

namespace Line

/-! ### Texts and their words -/

/-- A text and the words it consists of.  A quote that is left open ends with the text, and so may
an escape. -/
inductive Spells : List Char → List Word → Prop
  | nil : Spells [] []
  | separator {c : Char} {rest : List Char} {words : List Word} (hc : isSeparator c = true)
    (h : Spells rest words) : Spells (c :: rest) words
  | bare {word rest : List Char} {words : List Word} (hne : word ≠ [])
    (hword : ∀ c ∈ word, IsBare c) (hend : ∀ c, rest.head? = some c → ¬IsBare c)
    (h : Spells rest words) : Spells (word ++ rest) (.bare word :: words)
  | quoted {source text rest : List Char} {words : List Word} (hinside : Inside source text)
    (h : Spells rest words) : Spells ('"' :: (source ++ '"' :: rest)) (.quoted text :: words)
  | openQuote {source text : List Char} (hinside : Inside source text) :
    Spells ('"' :: source) [.quoted text]
  | openEscape {source text : List Char} (hinside : Inside source text) :
    Spells ('"' :: (source ++ ['\\'])) [.quoted text]

/-- A text that ends inside of quotes: it opens a quote that nothing behind it closes. -/
inductive EndsOpen : List Char → Prop
  | inside {source text : List Char} (h : Inside source text) : EndsOpen ('"' :: source)
  | escaping {source text : List Char} (h : Inside source text) :
    EndsOpen ('"' :: (source ++ ['\\']))
  | outside {c : Char} {rest : List Char} (hc : c ≠ '"') (h : EndsOpen rest) : EndsOpen (c :: rest)
  | closed {source text rest : List Char} (hinside : Inside source text) (h : EndsOpen rest) :
    EndsOpen ('"' :: (source ++ '"' :: rest))

/-- A run of bare characters, which neither the character before it nor the one behind it makes
longer. -/
structure IsRun (before word behind : List Char) : Prop where
  ne_nil : word ≠ []
  bare : ∀ c ∈ word, IsBare c
  before : ∀ c, before.getLast? = some c → ¬IsBare c
  behind : ∀ c, behind.head? = some c → ¬IsBare c

theorem not_isBare_quote : ¬IsBare '"' := fun h => h.2 rfl

/-! ### Reading follows the grammar -/

theorem Spells.words_eq {text : List Char} {found : List Word} (h : Spells text found) :
    words .between text = found := by
  induction h with
  | nil => rfl
  | separator hc _ ih => rw [words, if_pos hc, ih]
  | bare hne hword hend _ ih => rw [words_run hne hword hend, ih]
  | quoted hinside _ ih =>
    rw [words_quote, hinside.words_append, words, if_pos rfl, ih]
    simp
  | openQuote hinside =>
    have hread := hinside.words_append [] []
    rw [List.append_nil] at hread
    rw [words_quote, hread, words]
    simp
  | openEscape hinside =>
    rw [words_quote, hinside.words_append, words, if_neg (by decide), if_pos rfl, words]
    simp

/-- Behind an opening quote there is the quote that closes it, or the text ends inside. -/
theorem exists_inside : ∀ behind : List Char,
    (∃ source text rest, behind = source ++ '"' :: rest ∧ Inside source text) ∨
      (∃ text, Inside behind text) ∨ ∃ source text, behind = source ++ ['\\'] ∧ Inside source text
  | [] => .inr (.inl ⟨[], .nil⟩)
  | [c] => by
    by_cases hquote : c = '"'
    · exact .inl ⟨[], [], [], by rw [hquote]; rfl, .nil⟩
    by_cases hback : c = '\\'
    · exact .inr (.inr ⟨[], [], by rw [hback]; rfl, .nil⟩)
    · exact .inr (.inl ⟨[c], .plain hquote hback .nil⟩)
  | c :: d :: behind => by
    by_cases hquote : c = '"'
    · exact .inl ⟨[], [], d :: behind, by rw [hquote]; rfl, .nil⟩
    by_cases hback : c = '\\'
    · subst hback
      rcases exists_inside behind with ⟨source, text, rest, rfl, h⟩ | ⟨text, h⟩ |
        ⟨source, text, rfl, h⟩
      · exact .inl ⟨_, _, rest, rfl, .escaped d h⟩
      · exact .inr (.inl ⟨_, .escaped d h⟩)
      · exact .inr (.inr ⟨_, _, rfl, .escaped d h⟩)
    · rcases exists_inside (d :: behind) with ⟨source, text, rest, hsource, h⟩ | ⟨text, h⟩ |
        ⟨source, text, hsource, h⟩
      · exact .inl ⟨_, _, rest, by rw [hsource]; rfl, .plain hquote hback h⟩
      · exact .inr (.inl ⟨_, .plain hquote hback h⟩)
      · exact .inr (.inr ⟨_, _, by rw [hsource]; rfl, .plain hquote hback h⟩)

/-- Behind a bare character the word goes on until something stops it. -/
theorem exists_run (behind : List Char) :
    ∃ word rest, behind = word ++ rest ∧ (∀ c ∈ word, IsBare c) ∧
      ∀ c, rest.head? = some c → ¬IsBare c := by
  induction behind with
  | nil => exact ⟨[], [], rfl, nofun, nofun⟩
  | cons c behind ih =>
    by_cases hc : IsBare c
    · obtain ⟨word, rest, rfl, hword, hrest⟩ := ih
      exact ⟨c :: word, rest, rfl, List.forall_mem_cons.mpr ⟨hc, hword⟩, hrest⟩
    · refine ⟨[], c :: behind, rfl, nofun, fun d hd => ?_⟩
      obtain rfl : c = d := by simpa using hd
      exact hc

theorem exists_spells (text : List Char) : ∃ found, Spells text found := by
  -- A word takes any number of characters, so what is left of the text is only known to be shorter.
  induction hlength : text.length using Nat.strongRecOn generalizing text with
  | ind length ih =>
    subst hlength
    have hshorter : ∀ rest : List Char, rest.length < text.length → ∃ found, Spells rest found :=
      fun rest hrest => ih rest.length hrest rest rfl
    cases text with
    | nil => exact ⟨[], .nil⟩
    | cons c behind =>
      by_cases hc : isSeparator c = true
      · obtain ⟨found, h⟩ := hshorter behind (by simp)
        exact ⟨found, .separator hc h⟩
      by_cases hquote : c = '"'
      · subst hquote
        rcases exists_inside behind with ⟨source, text, rest, rfl, hinside⟩ | ⟨text, hinside⟩ |
          ⟨source, text, rfl, hinside⟩
        · obtain ⟨found, h⟩ :=
            hshorter rest (by simp only [List.length_cons, List.length_append]; omega)
          exact ⟨_, .quoted hinside h⟩
        · exact ⟨_, .openQuote hinside⟩
        · exact ⟨_, .openEscape hinside⟩
      · obtain ⟨word, rest, rfl, hword, hrest⟩ := exists_run behind
        obtain ⟨found, h⟩ :=
          hshorter rest (by simp only [List.length_cons, List.length_append]; omega)
        have hbare : ∀ d ∈ c :: word, IsBare d :=
          List.forall_mem_cons.mpr ⟨⟨by simpa using hc, hquote⟩, hword⟩
        exact ⟨_, .bare (List.cons_ne_nil c word) hbare hrest h⟩

/-- Every text consists of exactly the words that reading it gives. -/
theorem spells_iff {text : List Char} {found : List Word} :
    Spells text found ↔ found = words .between text := by
  constructor
  · exact fun h => h.words_eq.symm
  · rintro rfl
    obtain ⟨found, h⟩ := exists_spells text
    rw [h.words_eq]
    exact h

/-! ### Lines one behind the other -/

theorem ne_quote_of_isSeparator {c : Char} (hc : isSeparator c = true) : c ≠ '"' := by
  rintro rfl
  rw [isSeparator_quote] at hc
  cases hc

theorem EndsOpen.behind_bare {word rest : List Char} (hword : ∀ c ∈ word, IsBare c)
    (h : EndsOpen rest) : EndsOpen (word ++ rest) := by
  induction word with
  | nil => exact h
  | cons c word ih =>
    obtain ⟨⟨-, hquote⟩, hword⟩ := List.forall_mem_cons.mp hword
    exact .outside hquote (ih hword)

/-- A text that does not end inside of quotes keeps its words, whatever comes behind it that does
not go on with its last one. -/
theorem Spells.append {text rest : List Char} {found more : List Word} (h : Spells text found)
    (hopen : ¬EndsOpen text) (hmore : Spells rest more)
    (hrest : ∀ c, rest.head? = some c → ¬IsBare c) : Spells (text ++ rest) (found ++ more) := by
  induction h with
  | nil => exact hmore
  | separator hc _ ih =>
    have hopen' := fun h => hopen (.outside (ne_quote_of_isSeparator hc) h)
    exact .separator hc (ih hopen')
  | @bare word behind found hne hword hend _ ih =>
    have hopen' := fun h => hopen (EndsOpen.behind_bare hword h)
    have hend' : ∀ c, (behind ++ rest).head? = some c → ¬IsBare c := by
      cases behind with
      | nil => exact hrest
      | cons d behind => exact hend
    rw [List.append_assoc]
    exact .bare hne hword hend' (ih hopen')
  | @quoted source text behind found hinside _ ih =>
    have hopen' := fun h => hopen (.closed hinside h)
    rw [List.cons_append, List.append_assoc, List.cons_append]
    exact .quoted hinside (ih hopen')
  | openQuote hinside => exact absurd (.inside hinside) hopen
  | openEscape hinside => exact absurd (.escaping hinside) hopen

/-- Whether a text ends inside of quotes, if it starts inside of them or outside. -/
def endsOpen : Bool → List Char → Bool
  | inside, [] => inside
  | false, c :: rest => endsOpen (c = '"') rest
  | true, ['\\'] => true
  | true, '\\' :: _ :: rest => endsOpen true rest
  | true, c :: rest => endsOpen (c ≠ '"') rest

theorem Inside.endsOpen_append {source text : List Char} (h : Inside source text)
    (rest : List Char) : endsOpen true (source ++ rest) = endsOpen true rest := by
  induction h with
  | nil => rfl
  | plain hquote hback _ ih => simp [endsOpen, hquote, hback, ih]
  | escaped c _ ih => exact ih

theorem endsOpen_bare {word : List Char} (hword : ∀ c ∈ word, IsBare c) (rest : List Char) :
    endsOpen false (word ++ rest) = endsOpen false rest := by
  induction word with
  | nil => rfl
  | cons c word ih =>
    obtain ⟨⟨-, hquote⟩, hword⟩ := List.forall_mem_cons.mp hword
    simp [endsOpen, hquote, ih hword]

theorem endsOpen_of_spells {text : List Char} {found : List Word} (h : Spells text found) :
    endsOpen false text = true → EndsOpen text := by
  induction h with
  | nil => exact nofun
  | @separator c rest found hc _ ih =>
    have hquote := ne_quote_of_isSeparator hc
    intro hopen
    exact .outside hquote (ih (by simpa [endsOpen, hquote] using hopen))
  | bare _ hword _ _ ih =>
    rw [endsOpen_bare hword]
    exact fun hopen => .behind_bare hword (ih hopen)
  | quoted hinside _ ih =>
    intro hopen
    exact .closed hinside (ih (by simpa [endsOpen, hinside.endsOpen_append] using hopen))
  | openQuote hinside => exact fun _ => .inside hinside
  | openEscape hinside => exact fun _ => .escaping hinside

theorem endsOpen_iff {text : List Char} : EndsOpen text ↔ endsOpen false text = true := by
  constructor
  · intro h
    induction h with
    | inside hinside =>
      have hread := hinside.endsOpen_append []
      rw [List.append_nil] at hread
      simp [endsOpen, hread]
    | escaping hinside => simp [endsOpen, hinside.endsOpen_append]
    | outside hc _ ih => simpa [endsOpen, hc] using ih
    | closed hinside _ ih => simpa [endsOpen, hinside.endsOpen_append] using ih
  · obtain ⟨found, h⟩ := exists_spells text
    exact endsOpen_of_spells h

instance (text : List Char) : Decidable (EndsOpen text) := decidable_of_iff _ endsOpen_iff.symm

theorem Spells.isGap {text : List Char} {found : List Word} (h : Spells text found)
    (hnone : found = []) : IsGap text := by
  induction h with
  | nil => exact nofun
  | separator hc _ ih => exact List.forall_mem_cons.mpr ⟨hc, ih hnone⟩
  | bare | quoted | openQuote | openEscape => cases hnone

theorem words_eq_nil_iff {text : List Char} : words .between text = [] ↔ IsGap text := by
  constructor
  · exact fun h => (spells_iff.mpr rfl).isGap h
  · intro h
    rw [← List.append_nil text, words_gap h]
    rfl

/-- A run stays one behind a text that does not end in a bare character. -/
theorem IsRun.append_left {front before word behind : List Char} (h : IsRun before word behind)
    (hfront : before = [] → ∀ c, front.getLast? = some c → ¬IsBare c) :
    IsRun (front ++ before) word behind := by
  refine { h with before := fun c hc => ?_ }
  rw [List.getLast?_append] at hc
  cases hlast : before.getLast? with
  | none =>
    rw [hlast] at hc
    exact hfront (List.getLast?_eq_none_iff.mp hlast) c hc
  | some d =>
    rw [hlast] at hc
    obtain rfl : d = c := Option.some.inj hc
    exact h.before d hlast

/-- Each bare word of a text is a run in it. -/
theorem Spells.exists_isRun {text word : List Char} {found : List Word} (h : Spells text found)
    (hmem : .bare word ∈ found) :
    ∃ before behind, text = before ++ (word ++ behind) ∧ IsRun before word behind := by
  induction h with
  | nil => cases hmem
  | @separator c rest found hc _ ih =>
    obtain ⟨before, behind, rfl, hrun⟩ := ih hmem
    refine ⟨[c] ++ before, behind, rfl, hrun.append_left fun _ d hd => ?_⟩
    obtain rfl : c = d := by simpa using hd
    exact not_isBare_of_isSeparator hc
  | @bare first rest found hne hword hend hrest ih =>
    rcases List.mem_cons.mp hmem with heq | hmem
    · cases heq
      exact ⟨[], rest, rfl, hne, hword, nofun, hend⟩
    · obtain ⟨before, behind, rfl, hrun⟩ := ih hmem
      refine ⟨first ++ before, behind, by simp, hrun.append_left fun hbefore => ?_⟩
      obtain ⟨c, word, rfl⟩ := List.exists_cons_of_ne_nil hrun.ne_nil
      rw [hbefore] at hend
      exact absurd (hrun.bare c List.mem_cons_self) (hend c rfl)
  | @quoted source text rest found hinside _ ih =>
    rcases List.mem_cons.mp hmem with heq | hmem
    · cases heq
    · obtain ⟨before, behind, rfl, hrun⟩ := ih hmem
      refine ⟨('"' :: source ++ ['"']) ++ before, behind, by simp,
        hrun.append_left fun _ c hc => ?_⟩
      rw [List.getLast?_append] at hc
      obtain rfl : '"' = c := Option.some.inj hc
      exact not_isBare_quote
  | openQuote | openEscape => cases List.mem_singleton.mp hmem

end Line

/-! ### Invocations -/

namespace Invocation

/-- The call that words make: the first one is the name, as it is, and the others are arguments. -/
def ofWords? : List Word → Option Invocation
  | [] => none
  | name :: args => some ⟨String.ofList name.text, args.map Word.arg⟩

theorem ofLine?_eq (line : String) : ofLine? line = ofWords? (Line.words .between line.toList) := by
  rw [ofLine?]
  cases Line.words .between line.toList <;> rfl

theorem ofLine?_of_spells {line : String} {found : List Word}
    (h : Line.Spells line.toList found) : ofLine? line = ofWords? found := by
  rw [ofLine?_eq, h.words_eq]

theorem ofLine?_eq_none_iff (line : String) : ofLine? line = none ↔ Line.IsGap line.toList := by
  rw [← Line.words_eq_nil_iff, ofLine?_eq]
  cases Line.words .between line.toList <;> simp [ofWords?]

/-- A line that ends outside of quotes takes the words of another line as further arguments.  What
these are can be seen behind any other name. -/
theorem ofLine?_append {first gap second : String} (hblank : ¬Line.IsGap first.toList)
    (hopen : ¬Line.EndsOpen first.toList) (hgap : Line.IsGap gap.toList) (hne : gap ≠ "") :
    ∃ name args more, ofLine? first = some ⟨name, args⟩ ∧
      ofLine? ("x" ++ gap ++ second) = some ⟨"x", more⟩ ∧
      ofLine? (first ++ gap ++ second) = some ⟨name, args ++ more⟩ := by
  obtain ⟨found, hfirst⟩ := Line.exists_spells first.toList
  obtain ⟨more, hsecond⟩ := Line.exists_spells (gap.toList ++ second.toList)
  have hgapped : ∀ c, (gap.toList ++ second.toList).head? = some c → ¬Line.IsBare c := by
    obtain ⟨d, rest, hcons⟩ := List.exists_cons_of_ne_nil (l := gap.toList) (by simpa using hne)
    intro c hc
    rw [hcons] at hc hgap
    obtain rfl : d = c := Option.some.inj hc
    exact Line.not_isBare_of_isSeparator (hgap d List.mem_cons_self)
  have hx : Line.Spells ("x" ++ gap ++ second).toList (.bare ['x'] :: more) := by
    have hbare : ∀ c ∈ ['x'], Line.IsBare c :=
      List.forall_mem_singleton.mpr ⟨by decide, by decide⟩
    rw [String.toList_append, String.toList_append, List.append_assoc]
    exact .bare (List.cons_ne_nil _ _) hbare hgapped hsecond
  have hboth : Line.Spells (first ++ gap ++ second).toList (found ++ more) := by
    rw [String.toList_append, String.toList_append, List.append_assoc]
    exact hfirst.append hopen hsecond hgapped
  cases found with
  | nil => exact absurd (hfirst.isGap rfl) hblank
  | cons name args =>
    refine ⟨_, _, more.map Word.arg, ofLine?_of_spells hfirst, ofLine?_of_spells hx, ?_⟩
    rw [ofLine?_of_spells hboth, List.cons_append, ofWords?, List.map_append]

/-- The grammar of lines.  A line has no call in it exactly if it is all separators.  A line that
ends outside of quotes can be followed by another one behind a separator, and then takes the words
there as further arguments.  Each line consists of words in exactly one way, and the first one of
them names the call that it makes; the bare ones are runs of bare characters that nothing makes
longer.  As an argument a bare word is a number exactly if it is digits behind at most one sign that
write a number in range, and is its own text otherwise; a quoted word is always text. -/
theorem line_grammar :
    (∀ line, ofLine? line = none ↔ ∀ c ∈ line.toList, Line.isSeparator c = true) ∧
    (∀ first gap second : String, ¬(∀ c ∈ first.toList, Line.isSeparator c = true) →
      ¬Line.EndsOpen first.toList → (∀ c ∈ gap.toList, Line.isSeparator c = true) → gap ≠ "" →
        ∃ name args more, ofLine? first = some ⟨name, args⟩ ∧
          ofLine? ("x" ++ gap ++ second) = some ⟨"x", more⟩ ∧
          ofLine? (first ++ gap ++ second) = some ⟨name, args ++ more⟩) ∧
    (∀ line, ∃ found, (∀ other, Line.Spells line.toList other ↔ other = found) ∧
      ofLine? line = ofWords? found ∧
      ∀ word, .bare word ∈ found → ∃ before behind,
        line.toList = before ++ (word ++ behind) ∧ Line.IsRun before word behind) ∧
    ∀ word,
      (∀ value, (Word.bare word).arg = .number value ↔ Decimal.Numeral word value.toInt) ∧
      ((∀ value : Int32, ¬Decimal.Numeral word value.toInt) →
        (Word.bare word).arg = .text (String.ofList word)) ∧
      (Word.quoted word).arg = .text (String.ofList word) := by
  refine ⟨ofLine?_eq_none_iff, fun _ _ _ => ofLine?_append, fun line => ?_, fun word => ?_⟩
  · have hspells : ∀ other,
        Line.Spells line.toList other ↔ other = Line.words .between line.toList :=
      fun other => Line.spells_iff
    exact ⟨_, hspells, ofLine?_eq line, fun word hword => ((hspells _).mpr rfl).exists_isRun hword⟩
  · obtain ⟨hnumber, htext⟩ := Word.arg_bare word
    exact ⟨hnumber, htext, rfl⟩

end Invocation

/-- Behind a name with a quoted word glued to it, the words of another line are further
arguments. -/
theorem Invocation.line_grammar_glued :
    let first := "TEXT\"say \\\"hi\\\\\""
    ¬Line.EndsOpen first.toList ∧
      ∃ name args more, ofLine? first = some ⟨name, args⟩ ∧
        ofLine? ("x" ++ ",\t" ++ "-7 \"left open \\") = some ⟨"x", more⟩ ∧
        ofLine? (first ++ ",\t" ++ "-7 \"left open \\") = some ⟨name, args ++ more⟩ := by
  intro first
  have hopen : ¬Line.EndsOpen first.toList := by decide +kernel
  have hwords : ¬Line.IsGap first.toList := by decide
  have hgap : Line.IsGap ",\t".toList := by decide
  exact ⟨hopen, line_grammar.2.1 first ",\t" _ hwords hopen hgap (by decide)⟩

end MusicMacro
