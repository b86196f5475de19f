import MusicMacro.Proofs.Track.Handed

/-! The live sink on any port.  A watched port keeps the messages that it is handed, of which nobody
takes notice, and these are the messages of the primitives that the sink is handed. -/

namespace MusicMacro

variable {π : Type} [MidiPort π]

/-- A port and the messages that it was handed, taken or refused. -/
structure Watched (π : Type) where
  port : π
  handed : List (List UInt8) := []

instance : MidiPort (Watched π) where
  send message watched :=
    ((MidiPort.send message watched.port).1,
      { port := (MidiPort.send message watched.port).2,
        handed := watched.handed ++ [message] })

/-- Watching the port comes to the same as tapping the sink. -/
theorem Watched.bisimulation :
    Sink.Bisimulation fun (live : Live (Watched π)) (tapped : Tapped (Live π)) =>
      live.port.port = tapped.sink.port ∧ live.log = tapped.sink.log ∧
        live.port.handed = tapped.calls.filterMap Primitive.liveMessage? where
  emit primitive {live tapped} h := by
    obtain ⟨⟨port, handed⟩, log⟩ := live
    obtain ⟨rfl, rfl, rfl⟩ := h
    have htap : Sink.emit primitive tapped =
        ((Sink.emit primitive tapped.sink).1,
          { sink := (Sink.emit primitive tapped.sink).2,
            calls := tapped.calls ++ [primitive] }) := rfl
    cases hmessage : primitive.liveMessage? with
    | none =>
      rw [htap, Live.emit_silent hmessage, Live.emit_silent hmessage]
      exact ⟨rfl, rfl, rfl, by simp [hmessage]⟩
    | some message =>
      rw [htap, Live.emit_message hmessage, Live.emit_message hmessage]
      exact ⟨rfl, rfl, rfl, by simp [MidiPort.send, hmessage]⟩
  remark said {live tapped} h := by
    obtain ⟨⟨port, handed⟩, log⟩ := live
    obtain ⟨rfl, rfl, rfl⟩ := h
    cases said <;> exact ⟨rfl, rfl, rfl⟩
  flush _ := rfl

namespace Track

/-- The track with its port watched. -/
def watch (track : Track (Live π)) : Track (Live (Watched π)) :=
  { performer := track.performer,
    sink := { port := { port := track.sink.port }, log := track.sink.log } }

/-- The messages that the port is handed in a run, taken or refused, in order. -/
def messages (track : Track (Live π)) (commands : List Command) : List (List UInt8) :=
  (track.watch.run commands).2.sink.port.handed

theorem messages_eq (track : Track (Live π)) (commands : List Command) :
    track.messages commands = (track.calls commands).filterMap Primitive.liveMessage? := by
  have hstart : track.watch.Alongside (fun live tapped =>
      live.port.port = tapped.sink.port ∧ live.log = tapped.sink.log ∧
        live.port.handed = tapped.calls.filterMap Primitive.liveMessage?) track.tap :=
    ⟨rfl, rfl, rfl, rfl⟩
  exact (Watched.bisimulation.run hstart commands).2.sink.2.2

end Track

end MusicMacro
