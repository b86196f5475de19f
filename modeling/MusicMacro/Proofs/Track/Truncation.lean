import MusicMacro.Proofs.Track.Plan
import MusicMacro.Proofs.Track.Step

/-! Sinks that die.  A sink with a bound is run beside the same sink without one.  Up to the bound
the two do the same; the step that needs more fails for want of room; and from there on the runs may
part, but the bounded one puts nothing out any more.  What it has put out in the end is the first
part of what the other one has. -/

namespace MusicMacro

/-! ### Sinks -/

namespace Metered

variable {σ β : Type} [Sink σ] [Metered σ β]

/-- A sink without a bound beside one that takes `limit` units in all: what the bounded one has put
out is the first part of what the other one has, and its room is what is left of the limit. -/
structure Cut (limit : Nat) (free bounded : σ) : Prop where
  unbounded : room free = none
  first : output bounded = (output free).take limit
  left : room bounded = some (limit - (output free).length)

variable {limit : Nat} {free bounded : σ}

/-- Once the limit is passed the sink without a bound may put out more, as long as the bounded one
is left alone. -/
theorem Cut.later (h : Cut limit free bounded) (hpassed : limit < (output free).length)
    {free' bounded' : σ} (hfree : room free' = none) (hmore : output free <+: output free')
    (hbounded : output bounded' = output bounded ∧ room bounded' = some 0) :
    Cut limit free' bounded' := by
  obtain ⟨more, hmore⟩ := hmore
  refine ⟨hfree, ?_, ?_⟩
  · rw [hbounded.1, h.first, ← hmore, List.take_append_of_le_length (by omega)]
  · have hlength : (output free').length = (output free).length + more.length := by
      rw [← hmore, List.length_append]
    rw [hbounded.2, Nat.sub_eq_zero_of_le (by omega)]

theorem emit_of_room_zero (primitive : Primitive) {sink : σ} (h : room sink = some 0) :
    output (Sink.emit primitive sink).2 = output sink ∧
      room (Sink.emit primitive sink).2 = some 0 := by
  by_cases hchunk : (chunk σ primitive).length = 0
  · obtain ⟨-, houtput, hroom⟩ := emit_of_fits primitive sink fun left _ => by omega
    rw [List.length_eq_zero_iff.mp hchunk, List.append_nil] at houtput
    exact ⟨houtput, by rw [hroom, h]; simp⟩
  · obtain ⟨-, houtput, hroom⟩ := emit_of_lt primitive h (by omega)
    rw [List.take_zero, List.append_nil] at houtput
    exact ⟨houtput, hroom⟩

theorem Cut.emit (h : Cut limit free bounded) (hlimit : (output free).length ≤ limit)
    (primitive : Primitive) :
    Cut limit (Sink.emit primitive free).2 (Sink.emit primitive bounded).2 ∧
      ((output (Sink.emit primitive free).2).length ≤ limit ∧
          (Sink.emit primitive bounded).1 = (Sink.emit primitive free).1 ∨
        limit < (output (Sink.emit primitive free).2).length ∧
          (Sink.emit primitive bounded).1 = .error (full σ)) := by
  obtain ⟨hreply, houtput, hroom⟩ := emit_of_room_none primitive h.unbounded
  have hfirst : output bounded = output free := by
    rw [h.first, List.take_of_length_le hlimit]
  have hlength : (output (Sink.emit primitive free).2).length =
      (output free).length + (chunk σ primitive).length := by
    rw [houtput, List.length_append]
  by_cases hfits : (chunk σ primitive).length ≤ limit - (output free).length
  · obtain ⟨hreply', houtput', hroom'⟩ := emit_of_fits primitive bounded fun left hleft => by
      rw [h.left] at hleft
      cases hleft
      exact hfits
    refine ⟨⟨hroom, ?_, ?_⟩, .inl ⟨by omega, by rw [hreply, hreply']⟩⟩
    · rw [houtput', hfirst, ← houtput, List.take_of_length_le (by omega)]
    · rw [hroom', h.left, Option.map_some, hlength, Nat.sub_add_eq]
  · obtain ⟨hreply', houtput', hroom'⟩ := emit_of_lt primitive h.left (by omega)
    refine ⟨⟨hroom, ?_, ?_⟩, .inr ⟨by omega, hreply'⟩⟩
    · rw [houtput', hfirst, houtput, List.take_append, List.take_of_length_le hlimit]
    · rw [hroom', hlength, Nat.sub_eq_zero_of_le (by omega)]

end Metered

/-! ### Plans -/

namespace Plan

variable {σ β : Type} [Sink σ] [Metered σ β]

open Metered

theorem carryOut_of_room_zero (plan : Plan) {sink : σ} (h : room sink = some 0) :
    output (plan.carryOut sink).2.2 = output sink ∧
      room (plan.carryOut sink).2.2 = some 0 := by
  induction plan generalizing sink with
  | done answer performer => exact ⟨rfl, h⟩
  | remark said next ih =>
    have hroom : room (Sink.remark said sink) = some 0 := by rw [room_remark, h]
    obtain ⟨houtput, hroom'⟩ := ih () hroom
    rw [output_remark] at houtput
    exact ⟨houtput, hroom'⟩
  | emit primitive refused next ih =>
    obtain ⟨houtput, hroom⟩ := emit_of_room_zero primitive h
    rw [carryOut]
    cases hemit : Sink.emit primitive sink with
    | mk reply after =>
      rw [hemit] at houtput hroom
      cases reply with
      | ok _ =>
        obtain ⟨houtput', hroom'⟩ := ih () hroom
        exact ⟨houtput'.trans houtput, hroom'⟩
      | error cause => exact ⟨houtput, hroom⟩

/-- Below the limit a plan either stays below it and comes to the same end on both sinks, or it
passes the limit and is refused by the bounded one. -/
theorem carryOut_cut (plan : Plan) {limit : Nat} {free bounded : σ} (h : Cut limit free bounded)
    (hlimit : (output free).length ≤ limit) :
    Cut limit (plan.carryOut free).2.2 (plan.carryOut bounded).2.2 ∧
      ((output (plan.carryOut free).2.2).length ≤ limit ∧
          (plan.carryOut bounded).1 = (plan.carryOut free).1 ∧
          (plan.carryOut bounded).2.1 = (plan.carryOut free).2.1 ∨
        limit < (output (plan.carryOut free).2.2).length ∧
          (plan.carryOut bounded).1 = .error (full σ)) := by
  induction plan generalizing free bounded with
  | done answer performer => exact ⟨h, .inl ⟨hlimit, rfl, rfl⟩⟩
  | remark said next ih =>
    refine ih () ⟨?_, ?_, ?_⟩ ?_
    · rw [room_remark, h.unbounded]
    · rw [output_remark, output_remark, h.first]
    · rw [room_remark, output_remark, h.left]
    · rwa [output_remark]
  | emit primitive refused next ih =>
    obtain ⟨hcut, hreplies⟩ := h.emit hlimit primitive
    rw [carryOut, carryOut]
    cases hfree : Sink.emit primitive free with
    | mk reply free' =>
      cases hbounded : Sink.emit primitive bounded with
      | mk reply' bounded' =>
        rw [hfree, hbounded] at hcut hreplies
        simp only at hcut hreplies
        rcases hreplies with ⟨hlimit', rfl⟩ | ⟨hpassed, rfl⟩
        · cases reply' with
          | ok _ => exact ih () hcut hlimit'
          | error cause => exact ⟨hcut, .inl ⟨hlimit', rfl, rfl⟩⟩
        · cases reply with
          | ok _ =>
            -- The plan goes on without a bound, while the bounded sink is left as it is.
            obtain ⟨-, -, hmore, hroom⟩ := (next ()).carryOut_of_room_none hcut.unbounded
            have hprefix : output free' <+: output ((next ()).carryOut free').2.2 :=
              ⟨_, hmore.symm⟩
            have hfull : room bounded' = some 0 := by
              rw [hcut.left, Nat.sub_eq_zero_of_le (Nat.le_of_lt hpassed)]
            exact ⟨hcut.later hpassed hroom hprefix ⟨rfl, hfull⟩,
              .inr ⟨Nat.lt_of_lt_of_le hpassed hprefix.length_le, rfl⟩⟩
          | error cause => exact ⟨hcut, .inr ⟨hpassed, rfl⟩⟩

end Plan

/-! ### Tracks -/

namespace Track

/-- A run over a bounded sink is the run over a sink without a bound, cut off at the limit.  `out`
reads what a sink has put out, and `cause` is the refusal of the bounded one. -/
structure Truncates {σ β : Type} [Sink σ] (out : σ → List β) (cause : Refusal) (limit : Nat)
    (free bounded : Track σ) (commands : List Command) : Prop where
  /-- After every step the bounded sink has put out the first part. -/
  first : ∀ i ≤ commands.length,
    out (bounded.run (commands.take i)).2.sink = (out (free.run (commands.take i)).2.sink).take limit
  /-- A step that keeps to the limit has the same outcome and leaves the same performer. -/
  within : ∀ i < commands.length, (out (free.run (commands.take (i + 1))).2.sink).length ≤ limit →
    (bounded.run commands).1[i]? = (free.run commands).1[i]? ∧
      (bounded.run (commands.take (i + 1))).2.performer =
        (free.run (commands.take (i + 1))).2.performer
  /-- The step that passes the limit fails. -/
  passing : ∀ i < commands.length, (out (free.run (commands.take i)).2.sink).length ≤ limit →
    limit < (out (free.run (commands.take (i + 1))).2.sink).length →
      (bounded.run commands).1[i]? = some (.failed (.sink cause))
  /-- No step after that one puts anything out. -/
  beyond : ∀ i j, i ≤ j → j ≤ commands.length →
    limit < (out (free.run (commands.take i)).2.sink).length →
      out (bounded.run (commands.take j)).2.sink = out (bounded.run (commands.take i)).2.sink

variable {σ β : Type} [Sink σ] [Metered σ β]

open Metered

theorem handle_of_room_none {track : Track σ} (h : room track.sink = none) (task : Task) :
    room (track.handle task).2.sink = none ∧
      output track.sink <+: output (track.handle task).2.sink := by
  cases task with
  | idle outcome => exact ⟨h, List.prefix_refl _⟩
  | operation operation told =>
    obtain ⟨-, -, hmore, hroom⟩ :=
      (operation.plan track.performer).carryOut_of_room_none h
    exact ⟨hroom, _, hmore.symm⟩
  | flush =>
    rw [handle]
    split <;> exact ⟨h, List.prefix_refl _⟩

theorem handle_of_room_zero {track : Track σ} (h : room track.sink = some 0) (task : Task) :
    output (track.handle task).2.sink = output track.sink ∧
      room (track.handle task).2.sink = some 0 := by
  cases task with
  | idle outcome => exact ⟨rfl, h⟩
  | operation operation told => exact (operation.plan track.performer).carryOut_of_room_zero h
  | flush =>
    rw [handle]
    split <;> exact ⟨rfl, h⟩

/-- A track over a sink without a bound beside one over a sink that takes `limit` units in all.
The performers are the same until the limit is passed. -/
structure Cut (limit : Nat) (free bounded : Track σ) : Prop where
  sink : Metered.Cut limit free.sink bounded.sink
  performer : (output free.sink).length ≤ limit → bounded.performer = free.performer

variable {limit : Nat} {free bounded : Track σ}

theorem Cut.perform (h : Cut limit free bounded) (hlimit : (output free.sink).length ≤ limit)
    (operation : Operation) :
    Cut limit (free.perform operation).2 (bounded.perform operation).2 ∧
      ((output (free.perform operation).2.sink).length ≤ limit ∧
          (bounded.perform operation).1 = (free.perform operation).1 ∨
        limit < (output (free.perform operation).2.sink).length ∧
          (bounded.perform operation).1 = .error (full σ)) := by
  obtain ⟨performer, sink⟩ := bounded
  obtain rfl : performer = free.performer := h.performer hlimit
  obtain ⟨hcut, hends⟩ := (operation.plan free.performer).carryOut_cut h.sink hlimit
  rcases hends with ⟨hlimit', hreply, hleft⟩ | ⟨hpassed, hreply⟩
  · exact ⟨⟨hcut, fun _ => hleft⟩, .inl ⟨hlimit', hreply⟩⟩
  · exact ⟨⟨hcut, fun hlimit' => absurd hpassed (Nat.not_lt.mpr hlimit')⟩,
      .inr ⟨hpassed, hreply⟩⟩

theorem Cut.step_of_le (h : Cut limit free bounded) (hlimit : (output free.sink).length ≤ limit)
    {command : Command} (hcommand : command ≠ .flush) :
    Cut limit (free.step command).2 (bounded.step command).2 ∧
      ((output (free.step command).2.sink).length ≤ limit ∧
          (bounded.step command).1 = (free.step command).1 ∨
        limit < (output (free.step command).2.sink).length ∧
          (bounded.step command).1 = .failed (.sink (full σ))) := by
  rw [step_eq_handle, step_eq_handle, h.performer hlimit]
  cases htask : command.task free.performer.resolution with
  | idle outcome => exact ⟨h, .inl ⟨hlimit, rfl⟩⟩
  | operation operation told =>
    obtain ⟨hcut, hreplies⟩ := h.perform hlimit operation
    refine ⟨hcut, ?_⟩
    rcases hreplies with ⟨hlimit', hreply⟩ | ⟨hpassed, hreply⟩
    · exact .inl ⟨hlimit', congrArg (Outcome.ofReply told) hreply⟩
    · exact .inr ⟨hpassed, congrArg (Outcome.ofReply told) hreply⟩
  | flush => exact absurd (Command.eq_flush_of_task htask) hcommand

theorem Cut.step (h : Cut limit free bounded) {command : Command} (hcommand : command ≠ .flush) :
    Cut limit (free.step command).2 (bounded.step command).2 := by
  by_cases hlimit : (output free.sink).length ≤ limit
  · exact (h.step_of_le hlimit hcommand).1
  · have hpassed : limit < (output free.sink).length := by omega
    have hzero : room bounded.sink = some 0 := by
      rw [h.sink.left, Nat.sub_eq_zero_of_le (Nat.le_of_lt hpassed)]
    rw [step_eq_handle, step_eq_handle]
    obtain ⟨hroom, hprefix⟩ := handle_of_room_none h.sink.unbounded
      (command.task free.performer.resolution)
    have hbounded := handle_of_room_zero hzero (command.task bounded.performer.resolution)
    refine ⟨h.sink.later hpassed hroom hprefix hbounded, fun hlimit' => ?_⟩
    have hle := hprefix.length_le
    omega

/-! ### Runs -/

theorem Cut.run (h : Cut limit free bounded) {commands : List Command}
    (hcommands : .flush ∉ commands) : Cut limit (free.run commands).2 (bounded.run commands).2 :=
  run_related (fun _ _ _ hcommand hcut => hcut.step fun hflush =>
    hcommands (hflush ▸ hcommand)) h

theorem Cut.run_take (h : Cut limit free bounded) {commands : List Command}
    (hcommands : .flush ∉ commands) (i : Nat) :
    Cut limit (free.run (commands.take i)).2 (bounded.run (commands.take i)).2 :=
  h.run fun hflush => hcommands (List.mem_of_mem_take hflush)

theorem Cut.free_prefix (h : Cut limit free bounded) {commands : List Command}
    (hcommands : .flush ∉ commands) {i j : Nat} (hij : i ≤ j) (hj : j ≤ commands.length) :
    output (free.run (commands.take i)).2.sink <+: output (free.run (commands.take j)).2.sink := by
  induction hij with
  | refl => exact List.prefix_refl _
  | step hij ih =>
    rename_i j
    have hunbounded := (h.run_take hcommands j).sink.unbounded
    refine (ih (Nat.le_of_succ_le hj)).trans ?_
    rw [(run_getElem free hj).1, step_eq_handle]
    exact (handle_of_room_none hunbounded _).2

theorem Cut.truncates (h : Cut limit free bounded) {commands : List Command}
    (hcommands : .flush ∉ commands) :
    Truncates output (full σ) limit free bounded commands := by
  have hstep : ∀ i (hi : i < commands.length),
      (output (free.run (commands.take i)).2.sink).length ≤ limit →
        (output (free.run (commands.take (i + 1))).2.sink).length ≤ limit ∧
            (bounded.run commands).1[i]? = (free.run commands).1[i]? ∨
          limit < (output (free.run (commands.take (i + 1))).2.sink).length ∧
            (bounded.run commands).1[i]? = some (.failed (.sink (full σ))) := by
    intro i hi hlimit
    have hcommand : commands[i] ≠ .flush := fun hflush =>
      hcommands (hflush ▸ List.getElem_mem hi)
    obtain ⟨hafter, houtcome⟩ := run_getElem free hi
    obtain ⟨-, houtcome'⟩ := run_getElem bounded hi
    rw [hafter, houtcome, houtcome', Option.some_inj, Option.some_inj]
    exact ((h.run_take hcommands i).step_of_le hlimit hcommand).2
  refine ⟨fun i _ => (h.run_take hcommands i).sink.first, fun i hi hlimit => ?_,
    fun i hi hlimit hpassed => ?_, fun i j hij hj hpassed => ?_⟩
  · have hprefix := h.free_prefix hcommands (Nat.le_succ i) hi
    refine ⟨?_, (h.run_take hcommands (i + 1)).performer hlimit⟩
    rcases hstep i hi (Nat.le_trans hprefix.length_le hlimit) with ⟨-, houtcome⟩ | ⟨hpassed, -⟩
    · exact houtcome
    · omega
  · rcases hstep i hi hlimit with ⟨hlimit', -⟩ | ⟨-, houtcome⟩
    · omega
    · exact houtcome
  · obtain ⟨more, hmore⟩ := h.free_prefix hcommands hij hj
    rw [(h.run_take hcommands i).sink.first, (h.run_take hcommands j).sink.first, ← hmore,
      List.take_append_of_le_length (Nat.le_of_lt hpassed)]

/-- A sink that dies only truncates.  Written music for which there is room for `limit` bytes, and a
port that takes `limit` messages, put out the first part of what they would put out without a bound,
whatever the commands are, as long as none of them asks for a flush. -/
theorem run_truncates (config : Config) (diagnostics : Writer) (limit : Nat)
    {commands : List Command} (h : .flush ∉ commands) :
    Truncates Sheet.output (.io closed) limit (.start config { diagnostics })
        (.start config { events.room := some limit, diagnostics }) commands ∧
      Truncates Transmitter.output (.port closed) limit (.start config { port := {} })
        (.start config { port.room := some limit }) commands := by
  have hsheet : Cut limit (.start config ({ diagnostics } : Sheet))
      (.start config { events.room := some limit, diagnostics }) :=
    ⟨⟨rfl, List.take_nil.symm, rfl⟩, fun _ => rfl⟩
  have hport : Cut limit (.start config ({ port := {} } : Transmitter))
      (.start config { port.room := some limit }) :=
    ⟨⟨rfl, List.take_nil.symm, rfl⟩, fun _ => rfl⟩
  exact ⟨hsheet.truncates h, hport.truncates h⟩

theorem run_truncates_note :
    .flush ∉ [Command.operation (.note 60 {})] ∧
      Truncates Sheet.output (.io closed) 1 (.start Config.standard {})
        (.start Config.standard { events.room := some 1 }) [.operation (.note 60 {})] ∧
      Truncates Transmitter.output (.port closed) 1 (.start Config.standard { port := {} })
        (.start Config.standard { port.room := some 1 }) [.operation (.note 60 {})] := by
  have h : .flush ∉ [Command.operation (.note 60 {})] := by decide
  exact ⟨h, run_truncates Config.standard {} 1 h⟩

end Track

end MusicMacro
