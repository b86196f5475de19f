import MusicMacro.Proofs.Macro.Dispatch
import MusicMacro.Proofs.Macro.Footprint
import MusicMacro.Proofs.Sink.Live

/-! The messages of macros on a live port.  As long as each channel that is selected is one of
sixteen, the channel of a track stays below sixteen, whatever is refused.  Then the first byte of
every message has the status of the operation that sent it in its high nibble, and the channel that
was set at that moment in its low one. -/

namespace MusicMacro

/-! ### What macros hand over -/

/-- The statuses of the messages that an action sends. -/
def Action.statuses : Action → List UInt8
  | .bankProgram => [0xB0, 0xC0]
  | .bendSensitivity | .control _ | .wideControl _ => [0xB0]
  | .bend => [0xE0]
  | .dial _ which => which.statuses
  | .note | .play .. => [0x90, 0x80]
  | _ => []

section

variable {resolution : Resolution} {fallback : Fallback} {args : List Arg}

theorem Action.statuses_operation {action : Action} {status : UInt8}
    (h : status ∈ (action.operation resolution fallback args).statuses) :
    status ∈ action.statuses := by
  cases action with
  | bankProgram =>
    simpa [operation, Operation.statuses, Message.bankProgram, Message.status, statuses] using h
  | bendSensitivity =>
    simpa [operation, Operation.statuses, Message.bendSensitivity, WideController.messages,
      Controller.message, Message.status, statuses] using h
  | control controller =>
    simpa [operation, Operation.statuses, Controller.message, Message.status, statuses] using h
  | wideControl controller =>
    simpa [operation, Operation.statuses, WideController.messages, Controller.message,
      Message.status, statuses] using h
  | _ => exact h

/-- The exclusive messages that an action may hand over: the resets send one, the others none. -/
inductive Action.Exclusive : Action → Primitive → Prop where
  | gmSystemOn (whole : List UInt8) (offset length : UInt64) :
    Exclusive .gmSystemOn (.sysex whole offset length)
  | xgReset (whole : List UInt8) (offset length : UInt64) :
    Exclusive .xgReset (.sysex whole offset length)

/-- What an action is given to hand over is a meta event or an exclusive message. -/
theorem Action.operation_given {action : Action} {primitive : Primitive}
    (h : action.operation resolution fallback args = .primitive primitive) :
    primitive.liveMessage? = none ∨ action.Exclusive primitive := by
  cases action with
  | metaText | beat =>
    cases h
    exact .inl rfl
  | gmSystemOn =>
    cases h
    exact .inr (.gmSystemOn _ _ _)
  | xgReset =>
    cases h
    exact .inr (.xgReset _ _ _)
  | _ => cases h

/-- What an action hands over with a form on a port is an exclusive message, or a message of its
operation on the channel that is set. -/
theorem Action.hands_live {action : Action} {channel : UInt8} {primitive : Primitive}
    {bytes : List UInt8}
    (h : (action.operation resolution fallback args).Hands channel primitive)
    (hlive : primitive.liveMessage? = some bytes) :
    action.Exclusive primitive ∨
      ∃ message : Message,
        message.status ∈ (action.operation resolution fallback args).statuses ∧
          primitive = message.primitive channel := by
  cases h with
  | message hstatus => exact .inr ⟨_, hstatus, rfl⟩
  | @mark mark _ => cases mark <;> cases hlive
  | tempo => cases hlive
  | given hgiven =>
    rcases operation_given hgiven with hsilent | hexclusive
    · rw [hsilent] at hlive
      cases hlive
    · exact .inl hexclusive

end

/-- What sends a message does not change the channel. -/
theorem Operation.channel_notMem_parts {operation : Operation} {status : UInt8}
    (h : status ∈ operation.statuses) : Part.channel ∉ operation.parts := by
  cases operation with
  | turn which how =>
    show Part.channel ∉ Part.dial which :: if how.moves then [.position] else []
    cases how.moves <;> simp
  | note | play =>
    show Part.channel ∉ [Part.position]
    simp
  | send => exact List.not_mem_nil
  | _ => cases h

/-! ### The channel of a track -/

theorem toNat_lowByte_sub_one {number : Int32} (hlow : 1 ≤ number.toInt % 256)
    (hhigh : number.toInt % 256 ≤ 16) : lowByte number - 1 ≤ 15 := by
  have hbyte := toNat_lowByte number
  have hone : (1 : UInt8) ≤ lowByte number := by
    simp only [UInt8.le_iff_toNat_le, UInt8.reduceToNat]
    omega
  have hless := UInt8.toNat_sub_of_le _ _ hone
  simp only [UInt8.le_iff_toNat_le, UInt8.reduceToNat] at hless ⊢
  omega

/-- A macro that selects a channel does so by the low byte of its only argument. -/
theorem Invocation.operation_select {resolution : Resolution} {invocation : Invocation}
    {operation : Operation} (hname : invocation.name = "CH")
    (h : invocation.operation {} resolution = .ok operation) :
    ∃ number, invocation = ⟨"CH", [.number number]⟩ ∧
      operation = .selectChannel (lowByte number) := by
  obtain ⟨entry, hentry, hvalid, rfl⟩ := operation_eq_ok h
  obtain ⟨hlisted, -⟩ := Macro.lookup?_eq_some hentry
  obtain ⟨values, hfilled⟩ := Macro.exists_filled hlisted hvalid
  obtain ⟨name, args⟩ := invocation
  obtain rfl : name = "CH" := hname
  obtain rfl : entry = ⟨"CH", [.byte], 1, .channel⟩ := by
    have hfirst : Macro.lookup? "CH" = some ⟨"CH", [.byte], 1, .channel⟩ := rfl
    exact Option.some.inj (hentry.symm.trans hfirst)
  obtain ⟨number, hargs, -⟩ := Parameter.filled_byte hfilled
  obtain rfl : args = [.number number] := hargs
  exact ⟨number, rfl, rfl⟩

namespace Track

section

variable {σ : Type} [Sink σ] {track : Track σ} {invocation : Invocation}

theorem invoke_channel_le (h : track.performer.channel.number ≤ 15)
    (hselect : ∀ number, invocation = ⟨"CH", [.number number]⟩ →
      1 ≤ number.toInt % 256 ∧ number.toInt % 256 ≤ 16) :
    (track.invoke invocation).2.performer.channel.number ≤ 15 := by
  by_cases hname : invocation.name = "CH"
  · rw [invoke]
    cases hoperation : invocation.operation {} track.performer.resolution with
    | error cause => exact h
    | ok operation =>
      obtain ⟨number, hinvocation, rfl⟩ := Invocation.operation_select hname hoperation
      obtain ⟨hlow, hhigh⟩ := hselect number hinvocation
      exact toNat_lowByte_sub_one hlow hhigh
  · have hwriters : invocation.name ∉ Part.channel.writers := by
      simpa [Part.writers] using hname
    have hkept := track.invoke_keeps hwriters
    rw [UInt8.toNat_inj.mp (Int.ofNat.inj hkept)]
    exact h

theorem run_channel_le (h : track.performer.channel.number ≤ 15) {invocations : List Invocation}
    (hselect : ∀ invocation ∈ invocations, ∀ number, invocation = ⟨"CH", [.number number]⟩ →
      1 ≤ number.toInt % 256 ∧ number.toInt % 256 ≤ 16) :
    (track.run (invocations.map .invoke)).2.performer.channel.number ≤ 15 := by
  refine run_invariant (P := fun later => later.performer.channel.number ≤ 15)
    (fun later command hcommand hlater => ?_) h
  obtain ⟨invocation, hinvocation, rfl⟩ := List.mem_map.mp hcommand
  rw [step_invoke]
  exact invoke_channel_le hlater (hselect invocation hinvocation)

/-- What a macro hands over with a form on a port.  Where that is a message of a channel, the macro
keeps the channel. -/
theorem sent_by_invoke {primitive : Primitive} {bytes : List UInt8}
    (h : primitive ∈ track.calls [.invoke invocation])
    (hlive : primitive.liveMessage? = some bytes) :
    ∃ entry, Macro.lookup? invocation.name = some entry ∧
      (entry.action.Exclusive primitive ∨
        ∃ message : Message, message.status ∈ entry.action.statuses ∧
          primitive = message.primitive track.performer.channel.number ∧
          (track.invoke invocation).2.performer.channel.number =
            track.performer.channel.number) := by
  cases hoperation : invocation.operation {} track.performer.resolution with
  | error cause =>
    rw [calls_invoke_of_error hoperation] at h
    cases h
  | ok operation =>
    rw [calls_invoke_of_ok hoperation] at h
    have hhands := of_mem_calls_operation (operation.plan_hands track.performer) primitive h
    obtain ⟨entry, hentry, -, rfl⟩ := Invocation.operation_eq_ok hoperation
    refine ⟨entry, hentry, ?_⟩
    rcases Action.hands_live hhands hlive with hexclusive | ⟨message, hstatus, rfl⟩
    · exact .inl hexclusive
    · have hkept := track.perform_keeps (Operation.channel_notMem_parts hstatus)
      rw [invoke, hoperation]
      exact .inr ⟨message, Action.statuses_operation hstatus, rfl,
        UInt8.toNat_inj.mp (Int.ofNat.inj hkept)⟩

end

/-- A track with a channel below sixteen, on any port, and macros that select none but such
channels.  The channel stays below sixteen.  Every message that the port is handed, taken or
refused, is handed over by one of the macros.  It is the exclusive one of a reset, or its first byte
has a status of that macro in the high nibble and the channel of that moment in the low one, and
there are as many bytes behind it as the status asks for.  Without the channel, these are the bytes
that written music shows of it. -/
theorem messages_carry_status_and_channel {π : Type} [MidiPort π] (config : Config) (port : π)
    (hchannel : config.channel.number ≤ 15) (invocations : List Invocation)
    (hselect : ∀ invocation ∈ invocations, ∀ number, invocation = ⟨"CH", [.number number]⟩ →
      1 ≤ number.toInt % 256 ∧ number.toInt % 256 ≤ 16) :
    let track := Track.start config ({ port } : Live π)
    let reached (before : List Invocation) := (track.run (before.map .invoke)).2
    (∀ before, before <+: invocations → (reached before).performer.channel.number ≤ 15) ∧
      ∀ bytes ∈ track.messages (invocations.map .invoke),
        ∃ before invocation after primitive entry, invocations = before ++ invocation :: after ∧
          primitive ∈ (reached before).calls [.invoke invocation] ∧
          primitive.liveMessage? = some bytes ∧
          Macro.lookup? invocation.name = some entry ∧
          (entry.action.Exclusive primitive ∨
            ∃ message : Message, ∃ first data,
              let channel := (reached before).performer.channel.number
              message.status ∈ entry.action.statuses ∧
                primitive = message.primitive channel ∧
                ((reached before).invoke invocation).2.performer.channel.number = channel ∧
                bytes = first :: data ∧ first &&& 0xF0 = message.status ∧
                first &&& 0x0F = channel ∧
                data.length = (if message.status = 0xC0 ∨ message.status = 0xD0 then 1 else 2) ∧
                ∀ sheet : Sheet, (Sink.emit primitive sheet).2.events =
                  (sheet.events.printAll
                    (Primitive.messageParts ((first &&& 0xF0) :: data))).2) := by
  intro track reached
  have hbelow : ∀ before, before <+: invocations →
      (reached before).performer.channel.number ≤ 15 := fun before hbefore =>
    run_channel_le hchannel fun invocation hinvocation =>
      hselect invocation (hbefore.subset hinvocation)
  refine ⟨hbelow, fun bytes hbytes => ?_⟩
  rw [messages_eq] at hbytes
  obtain ⟨primitive, hcalls, hlive⟩ := List.mem_filterMap.mp hbytes
  obtain ⟨commands, command, rest, hsplit, hsent⟩ := exists_of_mem_calls hcalls
  obtain ⟨before, others, rfl, rfl, hothers⟩ := List.map_eq_append_iff.mp hsplit
  obtain ⟨invocation, after, rfl, rfl, rfl⟩ := List.map_eq_cons_iff.mp hothers
  obtain ⟨entry, hentry, hmacro⟩ := sent_by_invoke hsent hlive
  refine ⟨before, invocation, after, primitive, entry, rfl, hsent, hlive, hentry, ?_⟩
  rcases hmacro with hexclusive | ⟨message, hstatus, rfl, hkept⟩
  · exact .inl hexclusive
  · have hlow := hbelow before (List.prefix_append _ _)
    obtain ⟨hhigh, hchannel⟩ := message.nibbles hlow
    rw [Message.liveMessage?_primitive] at hlive
    refine .inr ⟨message, _, _, hstatus, rfl, hkept, (Option.some.inj hlive).symm, hhigh,
      hchannel, message.length_data, fun sheet => ?_⟩
    rw [hhigh, ← message.parts_primitive]
    rfl

/-- The sixteenth channel by a number below zero, on a port that closes after four messages. -/
theorem messages_carry_status_and_channel_sixteenth :
    let config := { Config.standard with channel.number := 3 }
    let port : Port := { room := some 4 }
    let invocations : List Invocation :=
      [⟨"@", [.number 5, .number 0, .number 1]⟩, ⟨"CH", [.number (-240)]⟩,
        ⟨"n", [.number 60, .number 48]⟩, ⟨"GM_SYSTEM_ON", []⟩, ⟨"CH", [.text "16"]⟩,
        ⟨"CH", [.number 1]⟩, ⟨"BEND", [.number (-1)]⟩]
    let track := Track.start config ({ port } : Live Port)
    config.channel.number ≤ 15 ∧
      (∀ invocation ∈ invocations, ∀ number, invocation = ⟨"CH", [.number number]⟩ →
        1 ≤ number.toInt % 256 ∧ number.toInt % 256 ≤ 16) ∧
      track.messages (invocations.map .invoke) =
        [[0xB3, 0x00, 0x00], [0xB3, 0x20, 0x01], [0xC3, 0x05], [0x9F, 0x3C, 0x64],
          [0x8F, 0x3C, 0x00], [0xF0, 0x7E, 0x7F, 0x09, 0x01, 0xF7], [0xE0, 0xFF, 0x00]] ∧
      (∀ before, before <+: invocations →
        (track.run (before.map .invoke)).2.performer.channel.number ≤ 15) ∧
      ∃ before invocation after primitive, invocations = before ++ invocation :: after ∧
        primitive ∈ (track.run (before.map .invoke)).2.calls [.invoke invocation] ∧
        primitive.liveMessage? = some [0x8F, 0x3C, 0x00] := by
  intro config port invocations track
  have hchannel : config.channel.number ≤ 15 := by decide
  have hselect : ∀ invocation ∈ invocations, ∀ number, invocation = ⟨"CH", [.number number]⟩ →
      1 ≤ number.toInt % 256 ∧ number.toInt % 256 ≤ 16 := by
    simp [invocations]
  have hmessages : track.messages (invocations.map .invoke) =
      [[0xB3, 0x00, 0x00], [0xB3, 0x20, 0x01], [0xC3, 0x05], [0x9F, 0x3C, 0x64],
        [0x8F, 0x3C, 0x00], [0xF0, 0x7E, 0x7F, 0x09, 0x01, 0xF7], [0xE0, 0xFF, 0x00]] := by
    decide +kernel
  obtain ⟨hbelow, hsent⟩ :=
    messages_carry_status_and_channel config port hchannel invocations hselect
  obtain ⟨before, invocation, after, primitive, -, hsplit, hcalls, hlive, -⟩ :=
    hsent [0x8F, 0x3C, 0x00] (by rw [hmessages]; decide)
  exact ⟨hchannel, hselect, hmessages, hbelow, before, invocation, after, primitive, hsplit,
    hcalls, hlive⟩

end Track

end MusicMacro
