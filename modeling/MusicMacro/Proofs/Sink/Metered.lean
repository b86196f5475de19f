import MusicMacro.Proofs.Sink.Writer
import MusicMacro.Sink.Sheet
import MusicMacro.Sink.Live

/-! Metered sinks: what goes out can be counted, and a bound on it may be set.  While there is room
a metered sink answers a primitive by a fixed reply and puts out a fixed chunk, which may be empty;
where the chunk does not fit, the part that fits goes out and there is no room left.  Written music
is metered by the byte and a port by the message. -/

namespace MusicMacro

/-- A sink whose output is a list of units of `β`, bounded or not. -/
class Metered (σ : Type) [Sink σ] (β : outParam Type) where
  output : σ → List β
  room : σ → Option Nat
  /-- The units of a primitive. -/
  chunk : Primitive → List β
  /-- The answer to a primitive for which there is room. -/
  reply : Primitive → Except Refusal Unit
  full : Refusal
  emit_of_fits (primitive : Primitive) (sink : σ)
    (h : ∀ left, room sink = some left → (chunk primitive).length ≤ left) :
    (Sink.emit primitive sink).1 = reply primitive ∧
      output (Sink.emit primitive sink).2 = output sink ++ chunk primitive ∧
      room (Sink.emit primitive sink).2 = (room sink).map (· - (chunk primitive).length)
  emit_of_lt (primitive : Primitive) {sink : σ} {left : Nat} (hroom : room sink = some left)
    (h : left < (chunk primitive).length) :
    (Sink.emit primitive sink).1 = .error full ∧
      output (Sink.emit primitive sink).2 = output sink ++ (chunk primitive).take left ∧
      room (Sink.emit primitive sink).2 = some 0
  output_remark (remark : Remark) (sink : σ) : output (Sink.remark remark sink) = output sink
  room_remark (remark : Remark) (sink : σ) : room (Sink.remark remark sink) = room sink

/-! ### Written music -/

namespace Sheet

def chunk (primitive : Primitive) : List UInt8 := (Text.utf8 primitive.render).data.toList

def output (sink : Sheet) : List UInt8 := sink.events.written.data.toList

theorem flatMap_chunk (primitives : List Primitive) :
    primitives.flatMap chunk =
      (Text.utf8 (primitives.flatMap Primitive.render)).data.toList := by
  induction primitives with
  | nil => rfl
  | cons primitive primitives ih =>
    rw [List.flatMap_cons, List.flatMap_cons, ih, Text.utf8_append, ByteArray.data_append,
      Array.toList_append]
    rfl

theorem written_eq_iff {sink : Sheet} {primitives : List Primitive} :
    sink.events.written = Text.utf8 (primitives.flatMap Primitive.render) ↔
      output sink = primitives.flatMap chunk := by
  rw [flatMap_chunk, output]
  constructor
  · intro h
    rw [h]
  · intro h
    exact ByteArray.ext (Array.toList_inj.mp h)

theorem emit_eq (primitive : Primitive) (sink : Sheet) :
    Sink.emit primitive sink =
      ((sink.events.write (Text.utf8 primitive.render)).1,
        { sink with events := (sink.events.write (Text.utf8 primitive.render)).2 }) := by
  show Sheet.emit primitive sink = _
  rw [Sheet.emit, Writer.printAll_eq]
  rfl

theorem remark_events (remark : Remark) (sink : Sheet) :
    (Sink.remark remark sink).events = sink.events := by
  show (Sheet.remark remark sink).events = sink.events
  cases remark with
  | notice notice => rfl
  | debug text =>
    rw [Sheet.remark]
    split <;> rfl

theorem flush_of_room_none {sink : Sheet} (h : sink.events.room = none) :
    Sink.flush sink = .ok () := by
  have hroom : sink.events.room ≠ some 0 := by
    rw [h]
    exact nofun
  exact if_neg hroom

instance : Metered Sheet UInt8 where
  output := output
  room sink := sink.events.room
  chunk := chunk
  reply _ := .ok ()
  full := .io closed
  emit_of_fits primitive sink h := by
    have hfits : sink.events.Fits (Text.utf8 primitive.render).size := h
    rw [emit_eq, Writer.write_of_fits hfits]
    exact ⟨rfl, by simp [output, chunk], rfl⟩
  emit_of_lt primitive {sink left} hroom h := by
    rw [emit_eq, Writer.write_of_lt hroom h]
    exact ⟨rfl, by simp [output, chunk, ByteArray.data_extract], rfl⟩
  output_remark remark sink := by rw [output, remark_events, output]
  room_remark remark sink := by rw [remark_events]

end Sheet

/-! ### A live port -/

namespace Live

variable {π : Type} [MidiPort π]

theorem emit_silent {primitive : Primitive} (h : primitive.liveMessage? = none) (sink : Live π) :
    Sink.emit primitive sink = (.error (.unsupported primitive.name), sink) := by
  show Live.emit primitive sink = _
  rw [Live.emit, h]

theorem emit_message {primitive : Primitive} {message : List UInt8}
    (h : primitive.liveMessage? = some message) (sink : Live π) :
    Sink.emit primitive sink =
      ((MidiPort.send message sink.port).1,
        ⟨(MidiPort.send message sink.port).2,
          sink.log.push (.transmit (isLiveMessage message))⟩) := by
  show Live.emit primitive sink = _
  rw [Live.emit, h]

end Live

namespace Transmitter

def chunk (primitive : Primitive) : List (List UInt8) := primitive.liveMessage?.toList

def output (sink : Transmitter) : List (List UInt8) := sink.port.sent.toList

/-- The answer of a port with room: a primitive without a message has no form there. -/
def reply (primitive : Primitive) : Except Refusal Unit :=
  if primitive.liveMessage?.isSome then .ok () else .error (.unsupported primitive.name)

theorem flatMap_chunk (primitives : List Primitive) :
    primitives.flatMap chunk = primitives.filterMap Primitive.liveMessage? := by
  induction primitives with
  | nil => rfl
  | cons primitive primitives ih =>
    rw [List.flatMap_cons, List.filterMap_cons, ih, chunk]
    cases primitive.liveMessage? <;> rfl

instance : Metered Transmitter (List UInt8) where
  output := output
  room sink := sink.port.room
  chunk := chunk
  reply := reply
  full := .port closed
  emit_of_fits primitive sink h := by
    cases hmessage : primitive.liveMessage? with
    | none =>
      rw [Live.emit_silent hmessage]
      refine ⟨by simp [reply, hmessage], by simp [chunk, hmessage], ?_⟩
      cases sink.port.room <;> simp [chunk, hmessage]
    | some message =>
      rw [Live.emit_message hmessage, reply, chunk, hmessage]
      cases hroom : sink.port.room with
      | none => simp [MidiPort.send, Port.send, hroom, output]
      | some left =>
        obtain ⟨left, rfl⟩ : ∃ rest, left = rest + 1 := by
          have hle := h left hroom
          rw [chunk, hmessage] at hle
          exact ⟨left - 1, by simp at hle; omega⟩
        simp [MidiPort.send, Port.send, hroom, output]
  emit_of_lt primitive {sink left} hroom h := by
    cases hmessage : primitive.liveMessage? with
    | none => simp [chunk, hmessage] at h
    | some message =>
      obtain rfl : left = 0 := by simpa [chunk, hmessage] using h
      rw [Live.emit_message hmessage]
      simp [MidiPort.send, Port.send, hroom, output]
  output_remark remark sink := by cases remark <;> rfl
  room_remark remark sink := by cases remark <;> rfl

end Transmitter

/-! ### Primitives one after the other -/

def Sink.emitAll {σ : Type} [Sink σ] : List Primitive → σ → List (Except Refusal Unit) × σ
  | [], sink => ([], sink)
  | primitive :: rest, sink =>
    let (reply, sink) := Sink.emit primitive sink
    let (replies, sink) := Sink.emitAll rest sink
    (reply :: replies, sink)

namespace Metered

variable {σ β : Type} [Sink σ] [Metered σ β]

theorem emit_of_room_none (primitive : Primitive) {sink : σ} (h : room sink = none) :
    (Sink.emit primitive sink).1 = reply σ primitive ∧
      output (Sink.emit primitive sink).2 = output sink ++ chunk σ primitive ∧
      room (Sink.emit primitive sink).2 = none := by
  obtain ⟨hreply, houtput, hroom⟩ := emit_of_fits primitive sink
    fun left hleft => by rw [h] at hleft; cases hleft
  exact ⟨hreply, houtput, by rw [hroom, h]; rfl⟩

theorem emitAll_of_room_none (primitives : List Primitive) {sink : σ} (h : room sink = none) :
    (Sink.emitAll primitives sink).1 = primitives.map (reply σ) ∧
      output (Sink.emitAll primitives sink).2 = output sink ++ primitives.flatMap (chunk σ) := by
  induction primitives generalizing sink with
  | nil => simp [Sink.emitAll]
  | cons primitive primitives ih =>
    obtain ⟨hreply, houtput, hroom⟩ := emit_of_room_none primitive h
    obtain ⟨hreplies, houtputs⟩ := ih hroom
    simp [Sink.emitAll, hreply, houtput, hreplies, houtputs]

end Metered

end MusicMacro
