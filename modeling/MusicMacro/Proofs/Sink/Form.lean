import MusicMacro.Proofs.Sink.Window

/-! The forms of primitives.  In written music each has a text of its own, with bytes of two
hexadecimal digits.  On a port it is the bytes of one message, or nothing but a name under which it
is refused. -/

namespace MusicMacro.Primitive

/-- The bytes of an exclusive message at the places of a window. -/
def window (bytes : List UInt8) (offset length : Nat) : List UInt8 :=
  (bytes.zipIdx.filter fun entry => offset ≤ entry.2 ∧ entry.2 - offset < length).map Prod.fst

/-- The bytes after the first one, in lowercase. -/
def laterForm (bytes : List UInt8) : List Char :=
  bytes.flatMap fun byte => ", #".toList ++ Hex.lower byte

/-- An event of a kind, with its first byte in uppercase. -/
def eventForm (kind : String) (first : UInt8) (rest : List Char) : List Char :=
  kind.toList ++ " \x7b #".toList ++ Hex.upper first ++ rest ++ " \x7d ".toList

/-- The text of a primitive in written music.  Backslashes and double quotes are escaped, and the
channel is left out. -/
def writtenForm : Primitive → List Char
  | .loopOpening _ => ['[']
  | .loopLeaving _ targets =>
    ':' :: [','].intercalate (targets.map fun target => Decimal.ofInt target.toInt)
  | .loopClosing _ repeats => ']' :: Decimal.ofInt repeats.toInt
  | .message2 _ status data => eventForm "__MIDI" status (laterForm [data])
  | .message3 _ status data1 data2 => eventForm "__MIDI" status (laterForm [data1, data2])
  | .metaBytes type bytes => eventForm "__MIDI_META" type (laterForm bytes)
  | .metaText type text =>
    let escaped := text.toList.flatMap fun c => if c = '\\' ∨ c = '"' then ['\\', c] else [c]
    eventForm "__MIDI_META" type (", ".toList ++ '"' :: escaped ++ ['"'])
  | .sysex bytes offset length =>
    match window bytes offset.toNat length.toNat with
    | [] => "__MIDI \x7b \x7d ".toList
    | first :: rest => eventForm "__MIDI" first (laterForm rest)

/-- The message of a primitive on a port, where the channel is added to the status modulo 256, or
the name under which it is refused there. -/
def onPort : Primitive → Except String (List UInt8)
  | .loopOpening _ => .error "begin_loop"
  | .loopLeaving _ _ => .error "break_loop"
  | .loopClosing _ _ => .error "end_loop"
  | .message2 channel status data => .ok [.ofNat (status.toNat + channel.toNat), data]
  | .message3 channel status data1 data2 =>
    .ok [.ofNat (status.toNat + channel.toNat), data1, data2]
  | .metaBytes _ _ => .error "midi_meta"
  | .metaText _ _ => .error "midi_meta_text"
  | .sysex bytes offset length => .ok (window bytes offset.toNat length.toNat)

theorem excerpt_eq_window (bytes : List UInt8) (offset length : UInt64) :
    excerpt bytes offset length = window bytes offset.toNat length.toNat :=
  excerpt_eq_filter bytes offset length

theorem escape_eq_flatMap (text : List Char) :
    Quoted.escape text =
      text.flatMap fun c => if c = '\\' ∨ c = '"' then ['\\', c] else [c] := by
  induction text with
  | nil => rfl
  | cons c text ih =>
    rw [Quoted.escape, List.flatMap_cons, ih]
    split <;> rfl

theorem flatten_messageParts_cons (first : UInt8) (rest : List UInt8) :
    (messageParts (first :: rest)).flatten = eventForm "__MIDI" first (laterForm rest) := by
  simp [Sheet.flatten_messageParts, Sheet.flatten_byteParts, eventForm, laterForm, Sheet.closing]

theorem render_eq_writtenForm : render = writtenForm := by
  funext primitive
  cases primitive with
  | loopOpening channel => rfl
  | loopLeaving channel targets => exact Sheet.render_loopLeaving channel targets
  | loopClosing channel repeats => exact Sheet.render_loopClosing channel repeats
  | message2 channel status data => exact flatten_messageParts_cons status [data]
  | message3 channel status data1 data2 => exact flatten_messageParts_cons status [data1, data2]
  | metaBytes type bytes =>
    simp [render, parts, writtenForm, Sheet.flatten_byteParts, eventForm, laterForm]
  | metaText type text =>
    simp [render, parts, writtenForm, Sheet.flatten_byteParts, eventForm, Quoted.token,
      escape_eq_flatMap]
  | sysex bytes offset length =>
    show (messageParts (excerpt bytes offset length)).flatten = _
    rw [excerpt_eq_window, writtenForm]
    cases window bytes offset.toNat length.toNat with
    | nil => rfl
    | cons first rest => exact flatten_messageParts_cons first rest

theorem liveMessage?_eq_onPort : liveMessage? = fun primitive => primitive.onPort.toOption := by
  have hstatus (status channel : UInt8) :
      status + channel = .ofNat (status.toNat + channel.toNat) := by
    rw [UInt8.ofNat_add, UInt8.ofNat_toNat, UInt8.ofNat_toNat]
  funext primitive
  cases primitive with
  | message2 channel status data => rw [liveMessage?, hstatus]; rfl
  | message3 channel status data1 data2 => rw [liveMessage?, hstatus]; rfl
  | sysex bytes offset length => rw [liveMessage?, excerpt_eq_window]; rfl
  | _ => rfl

theorem exists_onPort (primitive : Primitive) (h : primitive.liveMessage?.isSome) :
    ∃ message, primitive.onPort = .ok message := by
  rw [liveMessage?_eq_onPort] at h
  cases hport : primitive.onPort with
  | ok message => exact ⟨message, rfl⟩
  | error name => simp [hport, Except.toOption] at h

theorem onPort_of_liveMessage?_eq_none {primitive : Primitive}
    (h : primitive.liveMessage? = none) : primitive.onPort = .error primitive.name := by
  cases primitive with
  | message2 channel status data => cases h
  | message3 channel status data1 data2 => cases h
  | sysex bytes offset length => cases h
  | _ => rfl

end MusicMacro.Primitive
