import MusicMacro.Proofs.Sink.Form
import MusicMacro.Proofs.Track.Frame
import MusicMacro.Proofs.Track.Step

/-! Written music and a live port as two views of one run.  An operation either hands out nothing
but primitives that have a message, or it hands out a single primitive that has none and ends with
the same performer whether that is taken or refused.  The exceptions are the sweeps of the tempo,
which a port refuses at the first point.  Without them the performers of the two runs never part,
and one list of primitives accounts for the text and for the messages. -/

namespace MusicMacro

/-! ### The plans of operations on a port -/

/-- A plan that comes to the same performer whether primitives without a message are taken or
refused: it has none of them, or nothing but one. -/
inductive Plan.Portable : Plan → Prop where
  | live {plan : Plan} (h : plan.Calls fun primitive => primitive.liveMessage?.isSome) :
    plan.Portable
  | silent {primitive : Primitive} (performer : Performer) (h : primitive.liveMessage? = none) :
    (sendAll performer [primitive]).Portable

theorem Message.liveMessage?_isSome (channel : UInt8) (message : Message) :
    (message.primitive channel).liveMessage?.isSome := by
  cases message <;> rfl

theorem Dial.liveMessage?_isSome {dial : Dial} (h : dial ≠ .tempo) (channel : Channel)
    (value : Int32) : (dial.primitive channel value).liveMessage?.isSome := by
  cases dial with
  | tempo => exact absurd rfl h
  | _ => exact rfl

namespace Plan

theorem sendAll_one_portable (performer : Performer) (primitive : Primitive) :
    (sendAll performer [primitive]).Portable := by
  cases h : primitive.liveMessage? with
  | none => exact .silent performer h
  | some message =>
    have hlive : primitive.liveMessage?.isSome := by rw [h]; rfl
    exact .live ⟨hlive, trivial⟩

theorem note_portable (performer : Performer) (key : UInt8) (options : Articulation) :
    (note performer key options).Portable :=
  .live ⟨Message.liveMessage?_isSome _ _, Message.liveMessage?_isSome _ _, trivial⟩

end Plan

def Operation.sweepsTempo : Operation → Bool
  | .turn .tempo (.sweep _) => true
  | .turn .tempo (.wave _) => true
  | _ => false

theorem Operation.plan_portable {operation : Operation} (h : operation.sweepsTempo = false)
    (performer : Performer) : (operation.plan performer).Portable := by
  cases operation with
  | note key options => exact Plan.note_portable performer key options
  | play pitch accidental options => exact Plan.note_portable performer _ options
  | send messages =>
    refine .live (.sendAll fun primitive hprimitive => ?_)
    obtain ⟨message, -, rfl⟩ := List.mem_map.mp hprimitive
    exact message.liveMessage?_isSome performer.channel.number
  | loop mark => exact Plan.sendAll_one_portable performer _
  | primitive primitive => exact Plan.sendAll_one_portable performer primitive
  | turn dial how =>
    have hcurve : dial ≠ .tempo → ∀ curve, (Plan.turn.along performer dial curve).Portable :=
      fun hdial curve => .live (.followCurve _ curve (Dial.liveMessage?_isSome hdial _))
    cases how with
    | set value => exact Plan.sendAll_one_portable _ _
    | raise delta => exact Plan.sendAll_one_portable _ _
    | lower delta => exact Plan.sendAll_one_portable _ _
    | sweep course => exact hcurve (by rintro rfl; cases h) _
    | wave course => exact hcurve (by rintro rfl; cases h) _
  | assertPosition expected label =>
    refine .live ?_
    show (Plan.assertPosition performer expected label).Calls _
    rw [Plan.assertPosition]
    split <;> trivial
  | _ => exact .live trivial

/-! ### One step in two views -/

/-- What comes of one step in written music and on a port, where the step hands out `calls`. -/
inductive StepViews : List Primitive → Outcome → Outcome → Prop where
  | live {calls : List Primitive} {outcome : Outcome}
    (h : ∀ primitive ∈ calls, ∃ message, primitive.onPort = .ok message) :
    StepViews calls outcome outcome
  /-- The port refuses the one primitive that is handed out, by its name. -/
  | silent {primitive : Primitive} {name : String} (h : primitive.onPort = .error name) :
    StepViews [primitive] (.answered .done) (.failed (.sink (.unsupported name)))

/-- One track in written music and on a port, after both have handed out `calls` without a bound:
the performers are the same, the text is that of the calls, and the messages are those of the calls
that have one. -/
structure TrackViews (calls : List Primitive) (sheet : Track Sheet) (live : Track Transmitter) :
    Prop where
  performer : sheet.performer = live.performer
  text : sheet.sink.events.written = Text.utf8 (calls.flatMap Primitive.writtenForm)
  messages : live.sink.port.sent.toList =
    calls.filterMap fun primitive => primitive.onPort.toOption
  unbounded : sheet.sink.events.room = none
  open_port : live.sink.port.room = none

def Command.sweepsTempo (resolution : Resolution) (command : Command) : Bool :=
  match command.task resolution with
  | .operation wanted _ => wanted.sweepsTempo
  | _ => false

theorem Plan.Portable.stepViews {plan : Plan} (h : plan.Portable) (told : Bool) :
    plan.calls (Metered.reply Transmitter) = plan.calls (Metered.reply Sheet) ∧
      (plan.result (Metered.reply Transmitter)).2 = (plan.result (Metered.reply Sheet)).2 ∧
      StepViews (plan.calls (Metered.reply Sheet))
        (.ofReply told (plan.result (Metered.reply Sheet)).1)
        (.ofReply told (plan.result (Metered.reply Transmitter)).1) := by
  cases h with
  | live h =>
    have hreply : ∀ primitive : Primitive, primitive.liveMessage?.isSome →
        Metered.reply Transmitter primitive = Metered.reply Sheet primitive :=
      fun primitive hlive => if_pos hlive
    obtain ⟨hcalls, hresult⟩ := (h.mono hreply).congr
    have hsent : ∀ primitive ∈ plan.calls (Metered.reply Sheet),
        ∃ message, primitive.onPort = .ok message :=
      fun primitive hprimitive => primitive.exists_onPort (h.of_mem_calls primitive hprimitive)
    rw [hcalls, hresult]
    exact ⟨rfl, rfl, .live hsent⟩
  | silent performer h =>
    rename_i primitive
    have hrefused : Metered.reply Transmitter primitive = .error (.unsupported primitive.name) :=
      if_neg (by simp [h])
    have htaken : Metered.reply Sheet primitive = .ok () := rfl
    simp only [sendAll, calls, result, hrefused, htaken, true_and]
    cases told <;> exact .silent (Primitive.onPort_of_liveMessage?_eq_none h)

namespace TrackViews

open Metered

variable {sheet : Track Sheet} {live : Track Transmitter} {before : List Primitive}

theorem start (config : Config) (diagnostics : Writer) :
    TrackViews [] (.start config { diagnostics }) (.start config { port := {} }) :=
  ⟨rfl, rfl, rfl, rfl, rfl⟩

theorem perform {operation : Operation} (h : TrackViews before sheet live)
    (hoperation : operation.sweepsTempo = false) (told : Bool) :
    ∃ calls, TrackViews (before ++ calls) (sheet.perform operation).2 (live.perform operation).2 ∧
      StepViews calls (.ofReply told (sheet.perform operation).1)
        (.ofReply told (live.perform operation).1) := by
  obtain ⟨performer, port⟩ := live
  obtain rfl : sheet.performer = performer := h.performer
  have hportable := Operation.plan_portable hoperation sheet.performer
  obtain ⟨hcalls, hresult, hviews⟩ := hportable.stepViews told
  have hfree : room sheet.sink = none := h.unbounded
  have hfree' : room port = none := h.open_port
  obtain ⟨hreply, hleft, houtput, hroom⟩ :=
    (operation.plan sheet.performer).carryOut_of_room_none hfree
  obtain ⟨hreply', hleft', houtput', hroom'⟩ :=
    (operation.plan sheet.performer).carryOut_of_room_none hfree'
  refine ⟨(operation.plan sheet.performer).calls (reply Sheet), ⟨?_, ?_, ?_, hroom, hroom'⟩, ?_⟩
  · show ((operation.plan sheet.performer).carryOut sheet.sink).2.1 =
      ((operation.plan sheet.performer).carryOut port).2.1
    rw [hleft, hleft', hresult]
  · have hbefore := h.text
    rw [← Primitive.render_eq_writtenForm, Sheet.written_eq_iff] at hbefore
    rw [← Primitive.render_eq_writtenForm, Sheet.written_eq_iff, List.flatMap_append, ← hbefore]
    exact houtput
  · rw [List.filterMap_append, ← h.messages, ← Primitive.liveMessage?_eq_onPort,
      ← Transmitter.flatMap_chunk, ← hcalls]
    exact houtput'
  · show StepViews _ (.ofReply told ((operation.plan sheet.performer).carryOut sheet.sink).1)
      (.ofReply told ((operation.plan sheet.performer).carryOut port).1)
    rw [hreply, hreply']
    exact hviews

theorem step {command : Command} (h : TrackViews before sheet live)
    (hcommand : command.sweepsTempo sheet.performer.resolution = false) :
    ∃ calls, TrackViews (before ++ calls) (sheet.step command).2 (live.step command).2 ∧
      StepViews calls (sheet.step command).1 (live.step command).1 ∧
      (sheet.step command).2.performer.resolution = sheet.performer.resolution := by
  rw [Track.step_eq_handle, Track.step_eq_handle, ← h.performer]
  rw [Command.sweepsTempo] at hcommand
  have hidle : TrackViews (before ++ []) sheet live := by rwa [List.append_nil]
  have hnone : ∀ outcome, StepViews [] outcome outcome :=
    fun outcome => .live fun primitive hprimitive => by cases hprimitive
  cases htask : command.task sheet.performer.resolution with
  | idle outcome => exact ⟨[], hidle, hnone outcome, rfl⟩
  | operation operation told =>
    rw [htask] at hcommand
    obtain ⟨calls, hafter, houtcome⟩ := h.perform hcommand told
    exact ⟨calls, hafter, houtcome, sheet.perform_resolution operation⟩
  | flush =>
    have hflush : Sink.flush sheet.sink = .ok () := Sheet.flush_of_room_none h.unbounded
    have hflush' : Sink.flush live.sink = .ok () := rfl
    simp only [Track.handle, hflush, hflush']
    exact ⟨[], hidle, hnone _, trivial⟩

theorem run {commands : List Command} (h : TrackViews before sheet live)
    (hcommands : ∀ command ∈ commands, command.sweepsTempo sheet.performer.resolution = false) :
    ∃ calls : List (List Primitive), calls.length = commands.length ∧
      (∀ i ≤ commands.length,
        TrackViews (before ++ (calls.take i).flatten) (sheet.run (commands.take i)).2
          (live.run (commands.take i)).2) ∧
      ∀ i < commands.length, ∃ here outcome outcome', calls[i]? = some here ∧
        (sheet.run commands).1[i]? = some outcome ∧ (live.run commands).1[i]? = some outcome' ∧
        StepViews here outcome outcome' := by
  induction commands generalizing sheet live before with
  | nil =>
    refine ⟨[], rfl, fun i _ => ?_, fun i hi => absurd hi (by simp)⟩
    simpa using h
  | cons command commands ih =>
    obtain ⟨here, hafter, houtcome, hresolution⟩ := h.step (hcommands command List.mem_cons_self)
    obtain ⟨rest, hlength, htracks, houtcomes⟩ := ih hafter fun next hnext => by
      rw [hresolution]
      exact hcommands next (List.mem_cons_of_mem command hnext)
    refine ⟨here :: rest, by simp [hlength], fun i hi => ?_, fun i hi => ?_⟩
    · cases i with
      | zero => simpa using h
      | succ i =>
        have hrest := htracks i (by simpa using hi)
        simpa [Track.run_cons] using hrest
    · cases i with
      | zero => exact ⟨here, _, _, rfl, rfl, rfl, houtcome⟩
      | succ i => exact houtcomes i (by simpa using hi)

end TrackViews

/-- Two views of one run: without a sweep of the tempo, the performers of written music and of a
live port are the same after every step, one list of primitives accounts for the text and for the
messages, and the outcomes of a step differ only where it comes to a primitive that the port
refuses. -/
theorem Track.run_views (config : Config) (diagnostics : Writer) {commands : List Command}
    (h : ∀ command ∈ commands, command.sweepsTempo config.resolution = false) :
    ∃ calls : List (List Primitive), calls.length = commands.length ∧
      (∀ i ≤ commands.length,
        TrackViews (calls.take i).flatten
          ((Track.start config ({ diagnostics } : Sheet)).run (commands.take i)).2
          ((Track.start config ({ port := {} } : Transmitter)).run (commands.take i)).2) ∧
      ∀ i < commands.length, ∃ here outcome outcome', calls[i]? = some here ∧
        ((Track.start config ({ diagnostics } : Sheet)).run commands).1[i]? = some outcome ∧
        ((Track.start config ({ port := {} } : Transmitter)).run commands).1[i]? = some outcome' ∧
        StepViews here outcome outcome' :=
  (TrackViews.start config diagnostics).run h

/-- A loop on the eleventh channel with a tempo, a note, a program and a text in it, and a window of
an exclusive message after it. -/
def shortSong : List Command :=
  [.operation (.setChannel 10), .operation (.loop .opening), .invoke ⟨"TEMPO", [.number 500000]⟩,
    .operation (.note 60 {}), .operation (.send [.programChange 0xAB]),
    .operation (.loop (.leaving [1, -3])), .operation (.primitive (.metaText 1 "a\"b\\c")),
    .operation (.loop (.closing 4)),
    .operation (.primitive (.sysex [0xF0, 0x7E, 0x7F, 0x0A, 0x01, 0xF7] 2 3)),
    .operation (.primitive (.message3 0x20 0xF0 1 2)), .operation (.primitive (.sysex [] 0 0)),
    .line "V 100"]

theorem Track.run_views_shortSong :
    (∀ command ∈ shortSong, command.sweepsTempo Config.standard.resolution = false) ∧
    ∃ calls : List (List Primitive), calls.length = 12 ∧
      TrackViews calls.flatten
        ((Track.start Config.standard ({} : Sheet)).run shortSong).2
        ((Track.start Config.standard ({ port := {} } : Transmitter)).run shortSong).2 ∧
      Text.utf8 (calls.flatten.flatMap Primitive.writtenForm) =
        ("[__MIDI_META \x7b #51, #07, #a1, #20 \x7d __MIDI \x7b #90, #3c, #64 \x7d " ++
          "__MIDI \x7b #80, #3c, #00 \x7d __MIDI \x7b #C0, #ab \x7d :1,-3" ++
          "__MIDI_META \x7b #01, \"a\\\"b\\\\c\" \x7d ]4__MIDI \x7b #7F, #0a, #01 \x7d " ++
          "__MIDI \x7b #F0, #01, #02 \x7d __MIDI \x7b \x7d " ++
          "__MIDI \x7b #B0, #07, #64 \x7d ").toUTF8 ∧
      (calls.flatten.filterMap fun primitive => primitive.onPort.toOption) =
        [[0x9A, 0x3C, 0x64], [0x8A, 0x3C, 0x00], [0xCA, 0xAB], [0x7F, 0x0A, 0x01],
          [0x10, 0x01, 0x02], [], [0xBA, 0x07, 0x64]] := by
  have h : ∀ command ∈ shortSong, command.sweepsTempo Config.standard.resolution = false := by
    decide +kernel
  obtain ⟨calls, hlength, htracks, -⟩ := Track.run_views Config.standard {} h
  have hend := htracks 12 (Nat.le_refl 12)
  rw [List.take_of_length_le (by rw [hlength]; exact Nat.le_refl 12)] at hend
  refine ⟨h, calls, hlength, hend, hend.text.symm.trans ?_,
    hend.messages.symm.trans (by decide +kernel)⟩
  refine ByteArray.ext (Array.toList_inj.mp ?_)
  decide +kernel

end MusicMacro
