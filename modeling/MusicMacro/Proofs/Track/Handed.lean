import MusicMacro.Proofs.Sink.Status
import MusicMacro.Proofs.Track.Calls
import MusicMacro.Proofs.Track.Plan

/-! What is handed to a sink, and by which command.  An operation hands over messages of its own
statuses on the channel that is set, the marks of loops, tempos, and what it is given.  A run hands
over what its commands do, one after the other, each on the track that those before it have left. -/

namespace MusicMacro

/-! ### What an operation hands over -/

/-- The statuses of the messages that an operation sends. -/
def Operation.statuses : Operation → List UInt8
  | .note .. | .play .. => [0x90, 0x80]
  | .send messages => messages.map Message.status
  | .turn dial _ => dial.statuses
  | _ => []

/-- What an operation may hand over while the channel has the given number. -/
inductive Operation.Hands (channel : UInt8) (operation : Operation) : Primitive → Prop where
  | message {message : Message} (h : message.status ∈ operation.statuses) :
    Hands channel operation (message.primitive channel)
  | mark {mark : LoopMark} (h : operation = .loop mark) :
    Hands channel operation (mark.primitive channel)
  | tempo {turn : Turn} (h : operation = .turn .tempo turn) (value : Int32) :
    Hands channel operation (.metaBytes 0x51 (tempoBytes value))
  | given {primitive : Primitive} (h : operation = .primitive primitive) :
    Hands channel operation primitive

theorem Dial.hands (dial : Dial) (turn : Turn) (channel : Channel) (value : Int32) :
    (Operation.turn dial turn).Hands channel.number (dial.primitive channel value) := by
  rw [Dial.primitive]
  cases hroute : dial.route with
  | tempo =>
    obtain rfl : dial = .tempo := by
      cases dial <;> first | rfl | cases hroute
    exact .tempo rfl value
  | bend => exact .message (by simp [Operation.statuses, Dial.statuses, hroute, Message.status])
  | controller number =>
    exact .message (by simp [Operation.statuses, Dial.statuses, hroute, Message.status])

theorem Operation.plan_hands (performer : Performer) (operation : Operation) :
    (operation.plan performer).Calls (operation.Hands performer.channel.number) := by
  cases operation with
  | note key options =>
    exact ⟨.message List.mem_cons_self, .message (List.mem_cons_of_mem _ List.mem_cons_self),
      trivial⟩
  | play pitch accidental options =>
    exact ⟨.message List.mem_cons_self, .message (List.mem_cons_of_mem _ List.mem_cons_self),
      trivial⟩
  | send messages =>
    refine .sendAll fun primitive hprimitive => ?_
    obtain ⟨message, hmessage, rfl⟩ := List.mem_map.mp hprimitive
    exact .message (List.mem_map_of_mem hmessage)
  | loop mark => exact .sendOne performer (.mark rfl)
  | primitive primitive => exact .sendOne performer (.given rfl)
  | turn dial how =>
    have hdial : ∀ value, (Operation.turn dial how).Hands performer.channel.number
        (dial.primitive performer.channel value) := dial.hands how performer.channel
    cases how with
    | set value => exact .sendOne _ (hdial value)
    | raise delta => exact .sendOne _ (hdial _)
    | lower delta => exact .sendOne _ (hdial _)
    | sweep course => exact .followCurve _ _ hdial
    | wave course => exact .followCurve _ _ hdial
  | assertPosition expected label =>
    show (Plan.assertPosition performer expected label).Calls _
    rw [Plan.assertPosition]
    split <;> trivial
  | _ => trivial

/-! ### What a run hands over -/

section

variable {σ : Type} [Sink σ]

/-- A tap keeps nothing but what a plan hands over. -/
theorem Plan.Calls.of_mem_tapped {P : Primitive → Prop} {plan : Plan} (h : plan.Calls P)
    {tapped : Tapped σ} (hbefore : ∀ primitive ∈ tapped.calls, P primitive) :
    ∀ primitive ∈ (plan.carryOut tapped).2.2.calls, P primitive := by
  induction plan generalizing tapped with
  | done answer performer => exact hbefore
  | remark said next ih => exact ih () h hbefore
  | emit first refused next ih =>
    have hafter : ∀ primitive ∈ tapped.calls ++ [first], P primitive :=
      List.forall_mem_append.mpr ⟨hbefore, List.forall_mem_singleton.mpr h.1⟩
    rw [Plan.carryOut]
    cases hemit : Sink.emit first tapped with
    | mk reply after =>
      obtain rfl : { sink := (Sink.emit first tapped.sink).2,
                     calls := tapped.calls ++ [first] } = after := congrArg Prod.snd hemit
      cases reply with
      | ok _ => exact ih () h.2 hafter
      | error cause => exact hafter

/-- What a tap has kept before does not matter to a run. -/
theorem Tapped.bisimulation_earlier (earlier : List Primitive) :
    Sink.Bisimulation fun (tapped other : Tapped σ) =>
      tapped.sink = other.sink ∧ tapped.calls = earlier ++ other.calls where
  emit primitive {tapped other} h := by
    obtain ⟨hsink, hcalls⟩ := h
    show (Sink.emit primitive tapped.sink).1 = (Sink.emit primitive other.sink).1 ∧
      (Sink.emit primitive tapped.sink).2 = (Sink.emit primitive other.sink).2 ∧
        tapped.calls ++ [primitive] = earlier ++ (other.calls ++ [primitive])
    rw [hsink, hcalls, List.append_assoc]
    exact ⟨rfl, rfl, rfl⟩
  remark said {tapped other} h := ⟨congrArg (Sink.remark said) h.1, h.2⟩
  flush {tapped other} h := by
    show Sink.flush tapped.sink = Sink.flush other.sink
    rw [h.1]

namespace Track

theorem calls_append (track : Track σ) (commands more : List Command) :
    track.calls (commands ++ more) =
      track.calls commands ++ (track.run commands).2.calls more := by
  have huntapped := (track.run_tap commands).2
  have hstart : (track.tap.run commands).2.Alongside
      (fun tapped other => tapped.sink = other.sink ∧
        tapped.calls = track.calls commands ++ other.calls) (track.run commands).2.tap := by
    rw [← huntapped]
    exact ⟨rfl, rfl, (List.append_nil _).symm⟩
  rw [calls, run_append]
  exact ((Tapped.bisimulation_earlier _).run hstart more).2.sink.2

theorem of_mem_calls_operation {P : Primitive → Prop} {track : Track σ} {operation : Operation}
    (h : (operation.plan track.performer).Calls P) :
    ∀ primitive ∈ track.calls [.operation operation], P primitive := by
  rw [calls_operation]
  exact h.of_mem_tapped (List.forall_mem_nil _)

/-- Whatever a run hands over is handed over by one of its commands. -/
theorem exists_of_mem_calls {track : Track σ} {commands : List Command} {primitive : Primitive}
    (h : primitive ∈ track.calls commands) :
    ∃ before command after, commands = before ++ command :: after ∧
      primitive ∈ (track.run before).2.calls [command] := by
  induction commands generalizing track with
  | nil => cases h
  | cons command commands ih =>
    rw [← List.singleton_append, calls_append] at h
    rcases List.mem_append.mp h with h | h
    · exact ⟨[], command, commands, rfl, h⟩
    · obtain ⟨before, later, after, rfl, hlater⟩ := ih h
      refine ⟨command :: before, later, after, rfl, ?_⟩
      rw [← List.singleton_append, run_append]
      exact hlater

end Track

end

end MusicMacro
