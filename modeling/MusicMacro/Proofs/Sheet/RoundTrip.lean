import MusicMacro.Proofs.Sheet.Reader
import MusicMacro.Proofs.Sink.Metered

/-! Written music determines its entries.  Each kind of entry reads back from its textual form in
front of any text that starts an entry itself, so a text of many entries reads back one by one. -/

namespace MusicMacro

/-! ### Digits, numbers and quoted text -/

namespace Hex

theorem value?_digitChar : ∀ n < 16, value? (Nat.digitChar n) = some n := by decide

theorem value?_toUpper_digitChar : ∀ n < 16, value? (Nat.digitChar n).toUpper = some n := by
  decide

theorem byte?_eq_some {high low : Char} {byte : UInt8} (hHigh : value? high = some (byte.toNat / 16))
    (hLow : value? low = some (byte.toNat % 16)) : byte? high low = some byte := by
  have hsum : 16 * (byte.toNat / 16) + byte.toNat % 16 = byte.toNat := Nat.div_add_mod _ _
  rw [byte?, hHigh, hLow]
  show some (UInt8.ofNat (16 * (byte.toNat / 16) + byte.toNat % 16)) = some byte
  rw [hsum, UInt8.ofNat_toNat]

theorem exists_lower (byte : UInt8) :
    ∃ high low, lower byte = [high, low] ∧ byte? high low = some byte := by
  have hlt := byte.toNat_lt
  exact ⟨_, _, rfl, byte?_eq_some (value?_digitChar _ (by omega)) (value?_digitChar _ (by omega))⟩

theorem exists_upper (byte : UInt8) :
    ∃ high low, upper byte = [high, low] ∧ byte? high low = some byte := by
  have hlt := byte.toNat_lt
  exact ⟨_, _, rfl, byte?_eq_some (value?_toUpper_digitChar _ (by omega))
    (value?_toUpper_digitChar _ (by omega))⟩

end Hex

/-- Reading undoes escaping, whatever the text holds. -/
theorem Quoted.read?_escape (text rest : List Char) :
    read? (escape text ++ '"' :: rest) = some (text, rest) := by
  induction text with
  | nil => rfl
  | cons c text ih =>
    by_cases hc : c = '\\' ∨ c = '"'
    · rcases hc with rfl | rfl <;> simp [escape, read?, ih]
    · have hback : c ≠ '\\' := fun h => hc (.inl h)
      have hquote : c ≠ '"' := fun h => hc (.inr h)
      simp [escape, hback, hquote, read?, ih]

namespace Sheet

theorem isNumeral_of_mem_ofInt {n : Int} {c : Char} (h : c ∈ Decimal.ofInt n) :
    isNumeral c = true := by
  rcases Decimal.isDigit_of_mem_ofInt h with hdigit | rfl
  · simp [isNumeral, hdigit]
  · rfl

/-- A word ends where the text goes on with a character that cannot stand in it. -/
theorem span_append {p : Char → Bool} {word rest : List Char} (hword : ∀ c ∈ word, p c = true)
    (hrest : ∀ c, rest.head? = some c → p c = false) :
    (word ++ rest).takeWhile p = word ∧ (word ++ rest).dropWhile p = rest := by
  rw [List.takeWhile_append_of_pos hword, List.dropWhile_append_of_pos hword]
  cases rest with
  | nil => simp
  | cons c rest => simp [hrest c rfl]

def listed (targets : List Int32) : List Char :=
  [','].intercalate (targets.map fun target => Decimal.ofInt target.toInt)

theorem listed_cons (target : Int32) (targets : List Int32) :
    listed (target :: targets) =
      Decimal.ofInt target.toInt ++ if targets = [] then [] else ',' :: listed targets := by
  cases targets <;> simp [listed, List.intercalate]

theorem isListed_of_mem_listed {targets : List Int32} {c : Char} (h : c ∈ listed targets) :
    isListed c = true := by
  induction targets with
  | nil => simp [listed, List.intercalate] at h
  | cons target targets ih =>
    rw [listed_cons] at h
    rcases List.mem_append.mp h with h | h
    · simp [isListed, isNumeral_of_mem_ofInt h]
    · split at h
      · simp at h
      · rcases List.mem_cons.mp h with rfl | h
        · rfl
        · exact ih h

theorem mapM_int32? (targets : List Int32) :
    (targets.map fun target => Decimal.ofInt target.toInt).mapM Decimal.int32? = some targets := by
  induction targets with
  | nil => rfl
  | cons target targets ih => simp [Decimal.int32?_ofInt, ih]

theorem numbers?_listed (targets : List Int32) : numbers? (listed targets) = some targets := by
  cases targets with
  | nil => rfl
  | cons target targets =>
    have hne : listed (target :: targets) ≠ [] := by
      simp [listed_cons, Decimal.ofInt_ne_nil]
    have hcomma : ∀ word ∈ (target :: targets).map fun target => Decimal.ofInt target.toInt,
        ',' ∉ word := by
      intro word hword hmem
      obtain ⟨_, _, rfl⟩ := List.mem_map.mp hword
      exact absurd (isNumeral_of_mem_ofInt hmem) (by decide)
    rw [numbers?, if_neg (by simpa using hne), listed, List.splitOn_intercalate _ hcomma (by simp),
      mapM_int32?]

/-! ### Events -/

theorem laterBytes?_append (bytes : List UInt8) (rest : List Char) :
    laterBytes? ((bytes.flatMap fun byte => ',' :: ' ' :: '#' :: Hex.lower byte) ++
      (closing ++ rest)) = some (bytes, closing ++ rest) := by
  induction bytes with
  | nil => rfl
  | cons byte bytes ih =>
    obtain ⟨high, low, hlower, hread⟩ := Hex.exists_lower byte
    rw [List.flatMap_cons, hlower]
    simp only [List.cons_append, List.nil_append, laterBytes?, hread]
    rw [ih]
    rfl

theorem dropPrefix?_closing (rest : List Char) :
    (closing ++ rest).dropPrefix? closing = some rest :=
  List.dropPrefix?_append_of_beq rest (by simp)

theorem flatten_byteParts (first : UInt8) (bytes : List UInt8) :
    (Primitive.byteParts (first :: bytes)).flatten =
      '#' :: (Hex.upper first ++
        bytes.flatMap fun byte => ',' :: ' ' :: '#' :: Hex.lower byte) := by
  simp [Primitive.byteParts, List.flatMap_def]

theorem flatten_messageParts (bytes : List UInt8) :
    (Primitive.messageParts bytes).flatten =
      "__MIDI \x7b".toList ++
        ((if bytes.isEmpty then [] else ' ' :: (Primitive.byteParts bytes).flatten) ++ closing) := by
  cases bytes <;> simp [Primitive.messageParts, closing]

theorem message?_append (bytes : List UInt8) (rest : List Char) :
    message? ((if bytes.isEmpty then [] else ' ' :: (Primitive.byteParts bytes).flatten) ++
      (closing ++ rest)) = some (.message bytes, rest) := by
  cases bytes with
  | nil => simp [closing, message?, List.dropPrefix?]
  | cons first bytes =>
    obtain ⟨high, low, hupper, hread⟩ := Hex.exists_upper first
    rw [flatten_byteParts, hupper]
    simp [message?, hread, laterBytes?_append, dropPrefix?_closing]

theorem payload?_bytes (type : UInt8) (bytes : List UInt8) (rest : List Char) :
    payload? type ((bytes.flatMap fun byte => ',' :: ' ' :: '#' :: Hex.lower byte) ++
      (closing ++ rest)) = some (.metaBytes type bytes, rest) := by
  have hread := laterBytes?_append bytes rest
  cases bytes with
  | nil => simp [closing, payload?, laterBytes?, List.dropPrefix?]
  | cons byte bytes =>
    simp only [List.flatMap_cons, List.cons_append, List.append_assoc] at hread ⊢
    simp [payload?, hread, dropPrefix?_closing]

theorem payload?_text (type : UInt8) (text : String) (rest : List Char) :
    payload? type (", ".toList ++ (Quoted.token text.toList ++ (closing ++ rest))) =
      some (.metaText type text, rest) := by
  simp [Quoted.token, payload?, Quoted.read?_escape, dropPrefix?_closing]

theorem readOne?_event {text : List Char} (h : text.head? = some '_') :
    readOne? text =
      match text.dropPrefix? "__MIDI \x7b".toList with
      | some rest => message? rest
      | none => (text.dropPrefix? "__MIDI_META \x7b".toList).bind metaEvent? := by
  cases text with
  | nil => cases h
  | cons c text =>
    cases h
    rfl

theorem readOne?_message (body : List Char) :
    readOne? ("__MIDI \x7b".toList ++ body) = message? body := by
  have hstart : ("__MIDI \x7b".toList ++ body).head? = some '_' := by
    simp only [String.reduceToList, List.cons_append, List.head?_cons]
  rw [readOne?_event hstart, List.dropPrefix?_append_of_beq body BEq.rfl]

theorem readOne?_metaEvent (body : List Char) :
    readOne? ("__MIDI_META \x7b".toList ++ body) = metaEvent? body := by
  have hstart : ("__MIDI_META \x7b".toList ++ body).head? = some '_' := by
    simp only [String.reduceToList, List.cons_append, List.head?_cons]
  have hother : ("__MIDI_META \x7b".toList ++ body).dropPrefix? "__MIDI \x7b".toList = none := by
    simp only [String.reduceToList, List.cons_append]
    rfl
  rw [readOne?_event hstart, hother, List.dropPrefix?_append_of_beq body BEq.rfl]
  rfl

/-! ### Entries -/

theorem Entry.render_entry (primitive : Primitive) :
    primitive.entry.render = primitive.render := by
  cases primitive <;> rfl

/-- The text ends here or goes on with an entry. -/
def AtEntry (text : List Char) : Prop :=
  ∀ c, text.head? = some c → c = '[' ∨ c = ':' ∨ c = ']' ∨ c = '_'

theorem AtEntry.not_isListed {text : List Char} (h : AtEntry text) :
    ∀ c, text.head? = some c → isListed c = false := by
  intro c hc
  rcases h c hc with rfl | rfl | rfl | rfl <;> rfl

theorem AtEntry.not_isNumeral {text : List Char} (h : AtEntry text) :
    ∀ c, text.head? = some c → isNumeral c = false := by
  intro c hc
  rcases h c hc with rfl | rfl | rfl | rfl <;> rfl

theorem render_loopLeaving (channel : UInt8) (targets : List Int32) :
    (Primitive.loopLeaving channel targets).render = ':' :: listed targets := by
  simp [Primitive.render, Primitive.parts, listed]

theorem render_loopClosing (channel : UInt8) (repeats : Int32) :
    (Primitive.loopClosing channel repeats).render = ']' :: Decimal.ofInt repeats.toInt := by
  simp [Primitive.render, Primitive.parts]

theorem readOne?_messageParts (bytes : List UInt8) (rest : List Char) :
    readOne? ((Primitive.messageParts bytes).flatten ++ rest) = some (.message bytes, rest) := by
  rw [flatten_messageParts, List.append_assoc, List.append_assoc, readOne?_message, message?_append]

theorem readOne?_metaBytes (type : UInt8) (bytes : List UInt8) (rest : List Char) :
    readOne? ((Primitive.metaBytes type bytes).render ++ rest) =
      some (.metaBytes type bytes, rest) := by
  obtain ⟨high, low, hupper, hread⟩ := Hex.exists_upper type
  have hform : (Primitive.metaBytes type bytes).render ++ rest =
      "__MIDI_META \x7b".toList ++ ' ' :: '#' :: high :: low ::
        ((bytes.flatMap fun byte => ',' :: ' ' :: '#' :: Hex.lower byte) ++ (closing ++ rest)) := by
    simp [Primitive.render, Primitive.parts, flatten_byteParts, hupper, closing]
  rw [hform, readOne?_metaEvent, metaEvent?, hread]
  exact payload?_bytes type bytes rest

theorem readOne?_metaText (type : UInt8) (text : String) (rest : List Char) :
    readOne? ((Primitive.metaText type text).render ++ rest) =
      some (.metaText type text, rest) := by
  obtain ⟨high, low, hupper, hread⟩ := Hex.exists_upper type
  have hform : (Primitive.metaText type text).render ++ rest =
      "__MIDI_META \x7b".toList ++ ' ' :: '#' :: high :: low ::
        (", ".toList ++ (Quoted.token text.toList ++ (closing ++ rest))) := by
    simp [Primitive.render, Primitive.parts, flatten_byteParts, hupper, closing]
  rw [hform, readOne?_metaEvent, metaEvent?, hread]
  exact payload?_text type text rest

/-- The textual form of a primitive reads back as its entry in front of any text that starts an
entry itself. -/
theorem readOne?_render (primitive : Primitive) {rest : List Char} (h : AtEntry rest) :
    readOne? (primitive.render ++ rest) = some (primitive.entry, rest) := by
  cases primitive with
  | loopOpening channel => rfl
  | loopLeaving channel targets =>
    obtain ⟨hword, hrest⟩ :=
      span_append (fun c (hc : c ∈ listed targets) => isListed_of_mem_listed hc) h.not_isListed
    rw [render_loopLeaving, List.cons_append, readOne?, hword, hrest, numbers?_listed]
    rfl
  | loopClosing channel repeats =>
    obtain ⟨hword, hrest⟩ :=
      span_append (fun c (hc : c ∈ Decimal.ofInt repeats.toInt) => isNumeral_of_mem_ofInt hc)
        h.not_isNumeral
    rw [render_loopClosing, List.cons_append, readOne?, hword, hrest, Decimal.int32?_ofInt]
    rfl
  | message2 channel status data => exact readOne?_messageParts _ rest
  | message3 channel status data1 data2 => exact readOne?_messageParts _ rest
  | metaBytes type bytes => exact readOne?_metaBytes type bytes rest
  | metaText type text => exact readOne?_metaText type text rest
  | sysex bytes offset length => exact readOne?_messageParts _ rest

theorem render_starts (primitive : Primitive) :
    ∃ c rest, primitive.render = c :: rest ∧ (c = '[' ∨ c = ':' ∨ c = ']' ∨ c = '_') := by
  cases primitive with
  | loopOpening channel => exact ⟨'[', _, rfl, by simp⟩
  | loopLeaving channel targets => exact ⟨':', _, rfl, by simp⟩
  | loopClosing channel repeats => exact ⟨']', _, rfl, by simp⟩
  | message2 channel status data => exact ⟨'_', _, rfl, by simp⟩
  | message3 channel status data1 data2 => exact ⟨'_', _, rfl, by simp⟩
  | metaBytes type bytes => exact ⟨'_', _, rfl, by simp⟩
  | metaText type text => exact ⟨'_', _, rfl, by simp⟩
  | sysex bytes offset length => exact ⟨'_', _, rfl, by simp⟩

theorem atEntry_flatMap_render (primitives : List Primitive) :
    AtEntry (primitives.flatMap Primitive.render) := by
  intro c hc
  cases primitives with
  | nil => simp at hc
  | cons primitive primitives =>
    obtain ⟨d, rest, hrender, hd⟩ := render_starts primitive
    rw [List.flatMap_cons, hrender] at hc
    obtain rfl : d = c := by simpa using hc
    exact hd

theorem read?_render_append (primitive : Primitive) {rest : List Char} (h : AtEntry rest) :
    read? (primitive.render ++ rest) = (read? rest).map (primitive.entry :: ·) := by
  obtain ⟨c, body, hrender, -⟩ := render_starts primitive
  have hne : (primitive.render ++ rest).isEmpty = false := by simp [hrender]
  have hshort : rest.length < (primitive.render ++ rest).length := by
    rw [hrender, List.length_append, List.length_cons]
    omega
  rw [read?, hne, readOne?_render primitive h, if_neg (by simp)]
  exact if_pos hshort

theorem read?_flatMap_render (primitives : List Primitive) :
    read? (primitives.flatMap Primitive.render) = some (primitives.map Primitive.entry) := by
  induction primitives with
  | nil => simp [read?]
  | cons primitive primitives ih =>
    rw [List.flatMap_cons, read?_render_append primitive (atEntry_flatMap_render primitives), ih]
    rfl

/-! ### Written outputs -/

theorem written_emitAll (primitives : List Primitive) :
    (Sink.emitAll primitives ({} : Sheet)).2.events.written =
      Text.utf8 (primitives.flatMap Primitive.render) := by
  have hroom : Metered.room ({} : Sheet) = none := rfl
  exact written_eq_iff.mpr (Metered.emitAll_of_room_none primitives hroom).2

theorem readBytes?_utf8 (text : List Char) : readBytes? (Text.utf8 text) = read? text := by
  have hread : String.fromUTF8? (Text.utf8 text) = some (String.ofList text) :=
    dif_pos (String.ofList text).isValidUTF8
  rw [readBytes?, hread, Option.bind_some, String.toList_ofList]

theorem flatMap_render_congr {primitives others : List Primitive}
    (h : primitives.map Primitive.entry = others.map Primitive.entry) :
    primitives.flatMap Primitive.render = others.flatMap Primitive.render := by
  have hform : Primitive.render = Entry.render ∘ Primitive.entry :=
    funext fun primitive => (Entry.render_entry primitive).symm
  rw [List.flatMap_def, List.flatMap_def, hform, ← List.map_map, ← List.map_map, h]

/-- Written music determines its entries and nothing more.  Every primitive is taken, the output
reads back as the entries of the primitives in order, and two outputs are equal exactly if the
entries are. -/
theorem written_music_determines_entries (primitives others : List Primitive) :
    (∀ reply ∈ (Sink.emitAll primitives ({} : Sheet)).1, reply = .ok ()) ∧
      readBytes? (Sink.emitAll primitives ({} : Sheet)).2.events.written =
        some (primitives.map Primitive.entry) ∧
      ((Sink.emitAll primitives ({} : Sheet)).2.events.written =
          (Sink.emitAll others ({} : Sheet)).2.events.written ↔
        primitives.map Primitive.entry = others.map Primitive.entry) := by
  have hreads : ∀ written : List Primitive,
      readBytes? (Sink.emitAll written ({} : Sheet)).2.events.written =
        some (written.map Primitive.entry) := fun written => by
    rw [written_emitAll, readBytes?_utf8, read?_flatMap_render]
  refine ⟨fun reply hreply => ?_, hreads primitives, fun h => ?_, fun h => ?_⟩
  · have hroom : Metered.room ({} : Sheet) = none := rfl
    rw [(Metered.emitAll_of_room_none primitives hroom).1] at hreply
    obtain ⟨_, _, rfl⟩ := List.mem_map.mp hreply
    rfl
  · have hread := hreads primitives
    rw [h, hreads others] at hread
    exact (Option.some.inj hread).symm
  · rw [written_emitAll, written_emitAll, flatMap_render_congr h]

end Sheet

end MusicMacro
