import MusicMacro.Macro.Line
import MusicMacro.Text.Quoted

/-! Lines that are written and read back.  A written invocation has its name and its texts in double
quotes and its numbers in decimal, with blanks and commas between the words as the writer likes.
Reading it gives the invocation again: a word in quotes is taken as it was before it was escaped,
whatever it holds, and a number is a word of its own, which no separator and no quote cuts short. -/

namespace MusicMacro

/-! ### Written invocations -/

/-- The word of an argument in a written line. -/
def Arg.written : Arg → List Char
  | .number value => Decimal.ofInt value.toInt
  | .text value => Quoted.token value.toList

def Arg.word : Arg → Word
  | .number value => .bare (Decimal.ofInt value.toInt)
  | .text value => .quoted value.toList

namespace Line

/-- A run of separators, which may be empty. -/
def IsGap (gap : List Char) : Prop := ∀ c ∈ gap, isSeparator c = true

instance (gap : List Char) : Decidable (IsGap gap) :=
  List.decidableBAll (fun c => isSeparator c = true) gap

/-- The text behind the name of an invocation: each argument has a gap in front that is not empty,
and a last gap ends the line. -/
inductive Arguments : List Arg → List Char → Prop
  | none {gap : List Char} (hgap : IsGap gap) : Arguments [] gap
  | more {gap rest : List Char} {args : List Arg} (arg : Arg) (hgap : IsGap gap) (hne : gap ≠ [])
    (hrest : Arguments args rest) : Arguments (arg :: args) (gap ++ (arg.written ++ rest))

end Line

/-- A line in which an invocation is written, with its name in quotes. -/
def Invocation.Written (invocation : Invocation) (line : String) : Prop :=
  ∃ gap rest, Line.IsGap gap ∧ Line.Arguments invocation.args rest ∧
    line.toList = gap ++ (Quoted.token invocation.name.toList ++ rest)

/-! ### Words in front of the rest of a line -/

theorem Arg.arg_word (arg : Arg) : arg.word.arg = arg := by
  cases arg with
  | number value => simp [word, Word.arg, Decimal.int32?_ofInt]
  | text value => simp [word, Word.arg]

namespace Line

theorem words_gap {gap : List Char} (h : IsGap gap) (rest : List Char) :
    words .between (gap ++ rest) = words .between rest := by
  induction gap with
  | nil => rfl
  | cons c gap ih =>
    have hc : isSeparator c = true := h c List.mem_cons_self
    have hgap : IsGap gap := fun d hd => h d (List.mem_cons_of_mem c hd)
    rw [List.cons_append, words, if_pos hc, ih hgap]

/-- A text inside of quotes and what is meant by it.  It has no bare quote, and a backslash stands
in front of a character that is meant as it is. -/
inductive Inside : List Char → List Char → Prop
  | nil : Inside [] []
  | plain {c : Char} {source text : List Char} (hquote : c ≠ '"') (hback : c ≠ '\\')
    (h : Inside source text) : Inside (c :: source) (c :: text)
  | escaped (c : Char) {source text : List Char} (h : Inside source text) :
    Inside ('\\' :: c :: source) (c :: text)

theorem Inside.words_append {source text : List Char} (h : Inside source text)
    (taken rest : List Char) :
    words (.quoted taken) (source ++ rest) = words (.quoted (text.reverse ++ taken)) rest := by
  induction h generalizing taken with
  | nil => rfl
  | plain hquote hback _ ih =>
    rw [List.cons_append, words, if_neg hquote, if_neg hback, ih, List.reverse_cons,
      List.append_assoc, List.singleton_append]
  | escaped c _ ih =>
    rw [List.cons_append, List.cons_append, words, if_neg (by decide), if_pos rfl, words, ih,
      List.reverse_cons, List.append_assoc, List.singleton_append]

theorem inside_escape (text : List Char) : Inside (Quoted.escape text) text := by
  induction text with
  | nil => exact .nil
  | cons c text ih =>
    rw [Quoted.escape]
    split
    · exact .escaped c ih
    · rename_i hc
      rw [not_or] at hc
      exact .plain hc.2 hc.1 ih

/-- An escaped text is taken as it was, up to the bare quote behind it. -/
theorem words_escape (text taken rest : List Char) :
    words (.quoted taken) (Quoted.escape text ++ '"' :: rest) =
      .quoted (taken.reverse ++ text) :: words .between rest := by
  rw [(inside_escape text).words_append, words, if_pos rfl, List.reverse_append,
    List.reverse_reverse]

theorem isSeparator_quote : isSeparator '"' = false := by decide

theorem words_quote (rest : List Char) :
    words .between ('"' :: rest) = words (.quoted []) rest := by
  rw [words, if_neg (by simp [isSeparator_quote]), if_pos rfl]

theorem words_token (text rest : List Char) :
    words .between (Quoted.token text ++ rest) = .quoted text :: words .between rest := by
  rw [Quoted.token, List.cons_append, List.append_assoc, words_quote]
  exact words_escape text [] rest

def IsBare (c : Char) : Prop := isSeparator c = false ∧ c ≠ '"'

theorem not_isBare_of_isSeparator {c : Char} (h : isSeparator c = true) : ¬IsBare c := by
  rintro ⟨hc, -⟩
  rw [h] at hc
  cases hc

/-- A bare word goes on as far as it can, to a separator, a quote or the end of the line. -/
theorem words_bare {word rest : List Char} (hword : ∀ c ∈ word, IsBare c)
    (hrest : ∀ c, rest.head? = some c → ¬IsBare c) (taken : List Char) :
    words (.bare taken) (word ++ rest) =
      .bare (taken.reverse ++ word) :: words .between rest := by
  induction word generalizing taken with
  | nil =>
    cases rest with
    | nil => simp [words]
    | cons c rest =>
      by_cases hc : isSeparator c = true
      · simp [words, hc]
      · obtain rfl : c = '"' :=
          Classical.byContradiction fun hquote => hrest c rfl ⟨by simpa using hc, hquote⟩
        simp [words, isSeparator_quote]
  | cons c word ih =>
    obtain ⟨hc, hquote⟩ := hword c List.mem_cons_self
    have htaken : (c :: taken).reverse ++ word = taken.reverse ++ c :: word := by simp
    have hnext := ih (fun d hd => hword d (List.mem_cons_of_mem c hd)) (c :: taken)
    rw [List.cons_append, words, if_neg (by simp [hc]), if_neg hquote, hnext, htaken]

theorem words_run {word rest : List Char} (hne : word ≠ []) (hword : ∀ c ∈ word, IsBare c)
    (hrest : ∀ c, rest.head? = some c → ¬IsBare c) :
    words .between (word ++ rest) = .bare word :: words .between rest := by
  cases word with
  | nil => exact absurd rfl hne
  | cons c word =>
    obtain ⟨hc, hquote⟩ := hword c List.mem_cons_self
    rw [List.cons_append, words, if_neg (by simp [hc]), if_neg hquote,
      words_bare (fun d hd => hword d (List.mem_cons_of_mem c hd)) hrest [c]]
    rfl

theorem isBare_of_mem_ofInt {n : Int} {c : Char} (h : c ∈ Decimal.ofInt n) : IsBare c := by
  rcases Decimal.isDigit_of_mem_ofInt h with hdigit | rfl
  · have hcomma : c ≠ ',' := by rintro rfl; simp at hdigit
    have hquote : c ≠ '"' := by rintro rfl; simp at hdigit
    have hrange := Char.isDigit_iff_toNat.mp hdigit
    have hblank : Text.isBlank c = false := by
      simp [Text.isBlank, Text.blankRanges] at hrange ⊢
      omega
    exact ⟨by simp [isSeparator, hblank, hcomma], hquote⟩
  · exact ⟨by decide, by decide⟩

theorem words_number (value : Int32) {rest : List Char}
    (hrest : ∀ c, rest.head? = some c → isSeparator c = true) :
    words .between (Decimal.ofInt value.toInt ++ rest) =
      .bare (Decimal.ofInt value.toInt) :: words .between rest :=
  words_run (Decimal.ofInt_ne_nil _) (fun _ => isBare_of_mem_ofInt)
    fun c hc => not_isBare_of_isSeparator (hrest c hc)

theorem words_written (arg : Arg) {rest : List Char}
    (hrest : ∀ c, rest.head? = some c → isSeparator c = true) :
    words .between (arg.written ++ rest) = arg.word :: words .between rest := by
  cases arg with
  | number value => exact words_number value hrest
  | text value => exact words_token value.toList rest

/-- Behind a word the line ends or goes on with a separator. -/
theorem Arguments.head?_separator {args : List Arg} {text : List Char} (h : Arguments args text) :
    ∀ c, text.head? = some c → isSeparator c = true := by
  intro c hc
  cases h with
  | none hgap => exact hgap c (List.mem_of_head? hc)
  | @more gap rest args arg hgap hne hrest =>
    cases gap with
    | nil => exact absurd rfl hne
    | cons d gap =>
      obtain rfl : d = c := by simpa using hc
      exact hgap d List.mem_cons_self

theorem Arguments.words_eq {args : List Arg} {text : List Char} (h : Arguments args text) :
    words .between text = args.map Arg.word := by
  induction h with
  | @none gap hgap =>
    rw [← List.append_nil gap, words_gap hgap]
    rfl
  | more arg hgap _ hrest ih =>
    rw [words_gap hgap, words_written arg hrest.head?_separator, ih]
    rfl

end Line

/-- Reading a line undoes writing it: whatever separators stand around the words, the line reads as
the invocation that was written, with every number a number and every text the same text. -/
theorem Invocation.written_reads_back {invocation : Invocation} {line : String}
    (h : invocation.Written line) : Invocation.ofLine? line = some invocation := by
  obtain ⟨gap, rest, hgap, hargs, hline⟩ := h
  have hwords : Line.words .between line.toList =
      .quoted invocation.name.toList :: invocation.args.map Arg.word := by
    rw [hline, Line.words_gap hgap, Line.words_token, hargs.words_eq]
  have hback : (invocation.args.map Arg.word).map Word.arg = invocation.args := by
    rw [List.map_map]
    exact List.map_id'' Arg.arg_word invocation.args
  simp [ofLine?, hwords, hback, Word.text]

/-- A call whose texts hold a quote, a number, and a backslash at the end. -/
def trickyCall : Invocation :=
  ⟨"say \"", [.number (-2147483648), .text "42", .text "a\\"]⟩

def trickyLine : String := ",\"say \\\"\"\t-2147483648, \"42\" \"a\\\\\""

theorem Invocation.written_reads_back_trickyLine :
    trickyCall.Written trickyLine ∧ ofLine? trickyLine = some trickyCall := by
  have hargs : Line.Arguments trickyCall.args (['\t'] ++ ((Arg.number (-2147483648)).written ++
      ([',', ' '] ++ ((Arg.text "42").written ++ ([' '] ++ ((Arg.text "a\\").written ++ [])))))) :=
    .more _ (by decide) (by decide) (.more _ (by decide) (by decide)
      (.more _ (by decide) (by decide) (.none (by decide))))
  have h : trickyCall.Written trickyLine := ⟨[','], _, by decide, hargs, by decide +kernel⟩
  exact ⟨h, written_reads_back h⟩

end MusicMacro
