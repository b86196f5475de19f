import MusicMacro.Proofs.Macro.FailedCall
import MusicMacro.Proofs.Macro.Line
import MusicMacro.Proofs.Sink.Metered

/-! Quoted text on its way through a track.  A line escapes a text between its quotes, reading the
line takes the escapes away, and the written music puts them back.  So what is written is the quoted
word of the line, letter by letter, whatever the text holds. -/

namespace MusicMacro

namespace Quoted

/-- The text with another one in the place of each `old`. -/
def replace (old : Char) (new text : List Char) : List Char :=
  text.flatMap fun c => if c = old then new else [c]

/-- Escaping is two replacements.  The backslashes come first, for those that the quotes bring along
are not to be escaped. -/
theorem escape_eq_replace (text : List Char) :
    escape text = replace '"' ['\\', '"'] (replace '\\' ['\\', '\\'] text) := by
  induction text with
  | nil => rfl
  | cons c text ih =>
    simp only [replace, List.flatMap_cons, List.flatMap_append] at ih ⊢
    rw [escape, ih]
    by_cases hback : c = '\\'
    · subst hback
      rfl
    by_cases hquote : c = '"'
    · subst hquote
      rfl
    · simp [hback, hquote]

/-- No two texts are escaped alike, for reading takes the escapes away. -/
theorem escape_injective : Function.Injective escape := by
  intro text other h
  have hread : Line.words .between (token text) = Line.words .between (token other) := by
    rw [token, token, h]
  rw [← List.append_nil (token text), ← List.append_nil (token other), Line.words_token,
    Line.words_token] at hread
  simpa using hread

end Quoted

/-- The macros that write a text, and the types of their meta events. -/
def Macro.textEvents : List (String × UInt8) :=
  [("TEXT", 0x01), ("COPYRIGHT", 0x02), ("TRACKNAME", 0x03), ("INSTRUMENTNAME", 0x04),
    ("LYRIC", 0x05), ("MARKER", 0x06), ("CUE", 0x07)]

theorem Macro.textEvents_listed :
    ∀ event ∈ textEvents,
      lookup? event.1 = some ⟨event.1, [.text], 1, .metaText event.2⟩ := by
  decide +kernel

theorem Macro.textEvents_bare :
    ∀ event ∈ textEvents, event.1.toList ≠ [] ∧ ∀ c ∈ event.1.toList, Line.IsBare c := by
  -- A quantifier over the characters of a name would be decided by trying all characters there are.
  have hall : ∀ event ∈ textEvents, event.1.toList ≠ [] ∧
      event.1.toList.all (fun c => !Line.isSeparator c && c != '"') = true := by
    decide +kernel
  intro event hevent
  obtain ⟨hne, hchars⟩ := hall event hevent
  refine ⟨hne, fun c hc => ?_⟩
  have hc := List.all_eq_true.mp hchars c hc
  rw [Bool.and_eq_true, Bool.not_eq_true', bne_iff_ne] at hc
  exact hc

theorem Invocation.ofLine?_quoted {name : String} {type : UInt8}
    (hlisted : (name, type) ∈ Macro.textEvents) (text : String) :
    ofLine? (name ++ " " ++ String.ofList (Quoted.token text.toList)) =
      some ⟨name, [.text text]⟩ := by
  obtain ⟨hne, hbare⟩ := Macro.textEvents_bare _ hlisted
  have hgap : Line.IsGap [' '] := by decide
  have hrest : ∀ c, ([' '] ++ (Quoted.token text.toList ++ [])).head? = some c →
      ¬Line.IsBare c := by
    intro c hc
    obtain rfl : ' ' = c := Option.some.inj hc
    exact Line.not_isBare_of_isSeparator (by decide)
  have hline : (name ++ " " ++ String.ofList (Quoted.token text.toList)).toList =
      name.toList ++ ([' '] ++ (Quoted.token text.toList ++ [])) := by
    simp
  rw [ofLine?, hline, Line.words_run hne hbare hrest, Line.words_gap hgap, Line.words_token]
  simp [Line.words, Word.text, Word.arg]

theorem Invocation.operation_text {name : String} {type : UInt8}
    (hlisted : (name, type) ∈ Macro.textEvents) (text : String) (resolution : Resolution) :
    operation {} resolution ⟨name, [.text text]⟩ = .ok (.primitive (.metaText type text)) := by
  rw [operation, Macro.textEvents_listed _ hlisted]
  rfl

namespace Track

/-- On music without a bound a primitive adds its written form, and nothing else changes. -/
theorem perform_primitive {track : Track Sheet} (hroom : track.sink.events.room = none)
    (primitive : Primitive) :
    track.perform (.primitive primitive) =
      (.ok .done,
        { track with
          sink.events.written :=
            track.sink.events.written ++ Text.utf8 primitive.render }) := by
  have hfits : track.sink.events.Fits (Text.utf8 primitive.render).size := by
    intro room h
    rw [hroom] at h
    cases h
  rw [perform, Operation.plan, Plan.sendAll, Plan.carryOut, Sheet.emit_eq,
    Writer.write_of_fits hfits]
  simp [Plan.sendAll, Plan.carryOut, hroom]

/-- A quoted text goes through a track as it is.  The line of a text macro reads as the macro and
the text, and the macro adds to music without a bound the type of its event and the very token that
stands in the line; it changes nothing else.  So reading undoes escaping, which puts a backslash in
front of each backslash and then of each quote, and no two texts are escaped alike. -/
theorem quoted_text_verbatim (track : Track Sheet) (hroom : track.sink.events.room = none)
    {name : String} {type : UInt8} (hlisted : (name, type) ∈ Macro.textEvents) (text : String) :
    let token := '"' :: (Quoted.escape text.toList ++ ['"'])
    let event := "__MIDI_META \x7b #".toList ++ (Hex.upper type ++
      (", ".toList ++ (token ++ " \x7d ".toList)))
    Invocation.ofLine? (name ++ " " ++ String.ofList token) = some ⟨name, [.text text]⟩ ∧
      track.invoke ⟨name, [.text text]⟩ =
        (.ok (),
          { track with
            sink.events.written := track.sink.events.written ++ Text.utf8 event }) ∧
      (∀ source rest, Line.words (.quoted []) (Quoted.escape source ++ '"' :: rest) =
        .quoted source :: Line.words .between rest) ∧
      (∀ source, Quoted.escape source =
        Quoted.replace '"' ['\\', '"'] (Quoted.replace '\\' ['\\', '\\'] source)) ∧
      Function.Injective Quoted.escape := by
  intro token event
  refine ⟨Invocation.ofLine?_quoted hlisted text, ?_, fun source => Line.words_escape source [],
    Quoted.escape_eq_replace, Quoted.escape_injective⟩
  have hrender : (Primitive.metaText type text).render = event := by
    simp [Primitive.render, Primitive.parts, Primitive.byteParts, event, token, Quoted.token]
  rw [invoke, Invocation.operation_text hlisted]
  simp only [perform_primitive hroom, hrender]
  rfl

/-- A text with a quote, with a backslash in front of another one, and with a backslash at its
end. -/
theorem quoted_text_verbatim_tricky :
    let track := Track.start Config.standard ({} : Sheet)
    let text := "a \x7d \"\\\"\\"
    let token := "\"a \x7d \\\"\\\\\\\"\\\\\""
    let event := "__MIDI_META \x7b #05, " ++ token ++ " \x7d "
    Invocation.ofLine? ("LYRIC" ++ " " ++ token) = some ⟨"LYRIC", [.text text]⟩ ∧
      track.invoke ⟨"LYRIC", [.text text]⟩ =
        (.ok (),
          { track with
            sink.events.written := track.sink.events.written ++ Text.utf8 event.toList }) := by
  intro track text token event
  have hlisted : ("LYRIC", (0x05 : UInt8)) ∈ Macro.textEvents := by decide
  have htoken : String.ofList ('"' :: (Quoted.escape text.toList ++ ['"'])) = token := by
    decide +kernel
  have hevent : "__MIDI_META \x7b #".toList ++ (Hex.upper 0x05 ++ (", ".toList ++
      ('"' :: (Quoted.escape text.toList ++ ['"']) ++ " \x7d ".toList))) = event.toList := by
    decide +kernel
  obtain ⟨hline, hinvoke, -⟩ := track.quoted_text_verbatim rfl hlisted text
  rw [htoken] at hline
  rw [hevent] at hinvoke
  exact ⟨hline, hinvoke⟩

end Track

end MusicMacro
