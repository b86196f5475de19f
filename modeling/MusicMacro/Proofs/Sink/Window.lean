import MusicMacro.Proofs.Checked.Value
import MusicMacro.Proofs.Sheet.RoundTrip
import MusicMacro.Proofs.Sink.Live

/-! The windows of exclusive messages.  A window has the bytes whose places are in it, counted
without bounds, although its ends are made in words of 64 bits and cut off at the end of the
message.  Both sinks send the window and nothing else of the message, so they make no difference
between messages with the same window.  Two windows behind each other are one window. -/

namespace MusicMacro

/-! ### Windows of a list -/

/-- A list that is counted from `start` on.  The entries whose count is in a window are what is left
when those in front of the window are dropped, as many as the window still covers. -/
theorem map_fst_filter_zipIdx {α : Type} (entries : List α) (start offset length : Nat) :
    ((entries.zipIdx start).filter fun entry =>
        offset ≤ entry.2 ∧ entry.2 - offset < length).map Prod.fst =
      (entries.drop (offset - start)).take (length - (start - offset)) := by
  -- The count of the first entry says whether the window is still ahead, is here or is past.
  induction entries generalizing start with
  | nil => simp
  | cons first rest ih =>
    have hrest := ih (start + 1)
    rw [List.zipIdx_cons]
    by_cases hbefore : start < offset
    · have hskip : offset - start = (offset - (start + 1)) + 1 := by omega
      have hlength : start + 1 - offset = 0 ∧ start - offset = 0 := by omega
      rw [List.filter_cons_of_neg (by rw [decide_eq_true_eq]; omega), hrest, hskip,
        List.drop_succ_cons, hlength.1, hlength.2]
    have hfrom : offset - start = 0 ∧ offset - (start + 1) = 0 := by omega
    rw [hfrom.2, List.drop_zero] at hrest
    rw [hfrom.1, List.drop_zero]
    by_cases hinside : start - offset < length
    · have hleft : length - (start - offset) = (length - (start + 1 - offset)) + 1 := by omega
      rw [List.filter_cons_of_pos (by rw [decide_eq_true_eq]; omega), List.map_cons, hrest, hleft,
        List.take_succ_cons]
    · have hbehind : length - (start - offset) = 0 ∧ length - (start + 1 - offset) = 0 := by omega
      rw [List.filter_cons_of_neg (by rw [decide_eq_true_eq]; omega), hrest, hbehind.1, hbehind.2,
        List.take_zero, List.take_zero]

namespace Primitive

theorem excerpt_eq_filter (bytes : List UInt8) (offset length : UInt64) :
    excerpt bytes offset length =
      (bytes.zipIdx.filter fun entry =>
        offset.toNat ≤ entry.2 ∧ entry.2 - offset.toNat < length.toNat).map Prod.fst := by
  rw [map_fst_filter_zipIdx, excerpt, Nat.sub_zero, Nat.zero_sub, Nat.sub_zero]

theorem excerpt_whole {bytes : List UInt8} {length : UInt64} (h : bytes.length ≤ length.toNat) :
    excerpt bytes 0 length = bytes :=
  List.take_of_length_le h

/-- Two windows, one behind the other, are one window, if its length and the place of the second one
are words. -/
theorem excerpt_append (bytes : List UInt8) {offset length more : UInt64}
    (hplace : offset.toNat + length.toNat < 2 ^ 64) (hlength : length.toNat + more.toNat < 2 ^ 64) :
    excerpt bytes offset length ++ excerpt bytes (offset + length) more =
      excerpt bytes offset (length + more) := by
  have hsecond : (offset + length).toNat = offset.toNat + length.toNat := by
    rw [UInt64.toNat_add, Nat.mod_eq_of_lt hplace]
  have hboth : (length + more).toNat = length.toNat + more.toNat := by
    rw [UInt64.toNat_add, Nat.mod_eq_of_lt hlength]
  rw [excerpt, excerpt, excerpt, hsecond, hboth, List.take_add, List.drop_drop]

end Primitive

/-! ### What is sent of a message -/

namespace Sheet

theorem emit_sysex (bytes : List UInt8) (offset length : UInt64) (sink : Sheet) :
    Sink.emit (.sysex bytes offset length) sink =
      let text := Text.utf8 (Entry.message (Primitive.excerpt bytes offset length)).render
      ((sink.events.write text).1, { sink with events := (sink.events.write text).2 }) :=
  emit_eq _ _

theorem readBytes?_excerpt (bytes : List UInt8) (offset length : UInt64) :
    let window := Primitive.excerpt bytes offset length
    readBytes? (Text.utf8 (Entry.message window).render) = some [.message window] := by
  intro window
  have hread := read?_flatMap_render [.sysex bytes offset length]
  rw [List.flatMap_singleton] at hread
  rw [readBytes?_utf8]
  exact hread

end Sheet

theorem Live.emit_sysex {π : Type} [MidiPort π] (bytes : List UInt8) (offset length : UInt64)
    (sink : Live π) :
    Sink.emit (.sysex bytes offset length) sink =
      let window := Primitive.excerpt bytes offset length
      ((MidiPort.send window sink.port).1,
        ⟨(MidiPort.send window sink.port).2,
          sink.log.push (.transmit (isLiveMessage window))⟩) :=
  emit_message rfl sink

/-- A track makes no difference between two primitives if its sink makes none. -/
theorem Track.perform_primitive_congr {σ : Type} [Sink σ] {track : Track σ}
    {primitive other : Primitive}
    (h : Sink.emit primitive track.sink = Sink.emit other track.sink) :
    track.perform (.primitive primitive) = track.perform (.primitive other) := by
  simp only [perform, Operation.plan, Plan.sendAll, Plan.carryOut, h]

namespace Primitive

/-- A window of an exclusive message is exactly that part of it, and it is what both sinks send.
The bytes of the window are those at its places in the message, counted without bounds, and the ends
that are made for it in words are in order and in the message.  Written music is given the text that
reads as the bytes of the window, and a port, whatever port it is, the window as one message.  To
send a whole message is to send any window from its start that is long enough, and two windows
behind each other make up one. -/
theorem windows_are_sent_exactly {bytes : List UInt8} (hbytes : bytes.length < 2 ^ 63)
    (offset length : UInt64) {π : Type} [MidiPort π] :
    let window := excerpt bytes offset length
    let text := Text.utf8 (Sheet.Entry.message window).render
    window = (bytes.zipIdx.filter fun entry =>
        offset.toNat ≤ entry.2 ∧ entry.2 - offset.toNat < length.toNat).map Prod.fst ∧
      excerpt? bytes offset length = some window ∧
      Sheet.readBytes? text = some [.message window] ∧
      (∀ sink : Sheet, Sink.emit (.sysex bytes offset length) sink =
        ((sink.events.write text).1, { sink with events := (sink.events.write text).2 })) ∧
      (∀ sink : Live π, ∃ wellFormed : Bool, Sink.emit (.sysex bytes offset length) sink =
        ((MidiPort.send window sink.port).1,
          ⟨(MidiPort.send window sink.port).2, sink.log.push (.transmit wellFormed)⟩)) ∧
      (bytes.length ≤ length.toNat →
        (∀ track : Track Sheet, track.perform (.primitive (wholeSysex bytes)) =
          track.perform (.primitive (.sysex bytes 0 length))) ∧
        (∀ track : Track (Live π), track.perform (.primitive (wholeSysex bytes)) =
          track.perform (.primitive (.sysex bytes 0 length)))) ∧
      (∀ more : UInt64, offset.toNat + length.toNat < 2 ^ 64 →
        length.toNat + more.toNat < 2 ^ 64 →
        window ++ excerpt bytes (offset + length) more = excerpt bytes offset (length + more)) := by
  intro window text
  refine ⟨excerpt_eq_filter bytes offset length, excerpt?_eq (by omega) offset length,
    Sheet.readBytes?_excerpt bytes offset length, Sheet.emit_sysex bytes offset length,
    fun sink => ⟨isLiveMessage window, Live.emit_sysex bytes offset length sink⟩,
    fun hlength => ?_, fun more => excerpt_append bytes⟩
  have hsize : bytes.length ≤ (UInt64.ofNat bytes.length).toNat := by
    rw [UInt64.toNat_ofNat', Nat.mod_eq_of_lt (by omega)]
  have hsame : excerpt bytes 0 (.ofNat bytes.length) = excerpt bytes 0 length := by
    rw [excerpt_whole hsize, excerpt_whole hlength]
  refine ⟨fun track => ?_, fun track => ?_⟩ <;> refine Track.perform_primitive_congr ?_
  · rw [wholeSysex, Sheet.emit_sysex, Sheet.emit_sysex, hsame]
  · rw [wholeSysex, Live.emit_sysex, Live.emit_sysex, hsame]

/-- A window that ends behind its message and behind all words, and one as long as a word can tell
that is made up of two. -/
theorem windows_are_sent_exactly_beyond :
    let bytes : List UInt8 := [0xF0, 0x7E, 0x7F, 0x09, 0x01, 0xF7]
    let greatest : UInt64 := 0xFFFFFFFFFFFFFFFF
    let track := Track.start Config.standard ({} : Sheet)
    bytes.length < 2 ^ 63 ∧ excerpt? bytes 4 greatest = some [0x01, 0xF7] ∧
      Sheet.readBytes? (Text.utf8 "__MIDI \x7b #01, #f7 \x7d ".toList) =
        some [.message [0x01, 0xF7]] ∧
      (∃ wellFormed : Bool, Sink.emit (.sysex bytes 4 greatest) ({ port := {} } : Transmitter) =
        (.ok (), { port.sent := #[[0x01, 0xF7]], log := #[.transmit wellFormed] })) ∧
      track.perform (.primitive (wholeSysex bytes)) =
        track.perform (.primitive (.sysex bytes 0 greatest)) ∧
      excerpt bytes 1 2 ++ excerpt bytes 3 0xFFFFFFFFFFFFFFFD = excerpt bytes 1 greatest := by
  intro bytes greatest track
  have hbytes : bytes.length < 2 ^ 63 := by decide
  have htext : (Sheet.Entry.message [0x01, 0xF7]).render =
      "__MIDI \x7b #01, #f7 \x7d ".toList := by decide
  obtain ⟨-, hwindow, hread, -, hlive, hwhole, -⟩ :=
    windows_are_sent_exactly (π := Port) hbytes 4 greatest
  obtain ⟨-, -, -, -, -, -, happend⟩ := windows_are_sent_exactly (π := Port) hbytes 1 2
  have hexcerpt : excerpt bytes 4 greatest = [0x01, 0xF7] := by decide
  obtain ⟨wellFormed, hlive⟩ := hlive { port := {} }
  rw [hexcerpt] at hwindow hread hlive
  rw [htext] at hread
  exact ⟨hbytes, hwindow, hread, ⟨wellFormed, hlive⟩, (hwhole (by decide)).1 track,
    happend 0xFFFFFFFFFFFFFFFD (by decide) (by decide)⟩

end Primitive

end MusicMacro
