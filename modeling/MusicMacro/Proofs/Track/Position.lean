import Mathlib.Data.List.Induction
import MusicMacro.Proofs.Macro.Motion
import MusicMacro.Proofs.Track.Step
import MusicMacro.Sink.Live

/-! Where a track stands.  Every command of a run has a travel of its own, which its form and its
outcome tell.  The position at the end of a run is so the last place it was set to and the sum of
the ticks since then. -/

namespace MusicMacro

def Outcome.taken : Outcome → Bool
  | .failed _ => false
  | _ => true

/-- What a command does to the position, by its outcome.  A macro that fails does nothing to it,
whether it is not well called or refused on the way. -/
def Command.travel (performer : Performer) (outcome : Outcome) : Command → Travel
  | .operation wanted => wanted.travel performer outcome.taken
  | .invoke invocation => .ifTaken outcome.taken (invocation.ticks performer)
  | .line text =>
    match Invocation.ofLine? text with
    | some invocation => .ifTaken outcome.taken (invocation.ticks performer)
    | none => .moved 0
  | .flush => .moved 0

namespace Track

variable {σ : Type} [Sink σ]

/-- The travels of the commands of a run, in order. -/
def travels (track : Track σ) : List Command → List Travel
  | [] => []
  | command :: rest =>
    command.travel track.performer (track.step command).1 :: (track.step command).2.travels rest

/-- An operation leaves the position where a travel leads, if its plan does. -/
theorem position_perform (track : Track σ) {operation : Operation} (travel : Bool → Travel)
    (h : (operation.plan track.performer).Ends
      (fun left => left.position = (travel false).apply track.performer.position)
      fun left => left.position = (travel true).apply track.performer.position) (told : Bool) :
    (track.perform operation).2.performer.position =
      (travel (Outcome.ofReply told (track.perform operation).1).taken).apply
        track.performer.position := by
  rw [perform]
  cases hrun : (operation.plan track.performer).carryOut track.sink with
  | mk reply rest =>
    cases reply with
    | ok answer => exact h.of_ok hrun
    | error cause => exact h.of_error hrun

theorem position_invoked (track : Track σ) (invocation : Invocation) :
    let done := track.handle (invocation.task track.performer.resolution)
    done.2.performer.position =
      (Travel.ifTaken done.1.taken (invocation.ticks track.performer)).apply
        track.performer.position := by
  rw [Invocation.task]
  cases hoperation : invocation.operation {} track.performer.resolution with
  | error cause => exact (Travel.apply_ifTaken_false _ _).symm
  | ok operation =>
    exact track.position_perform (.ifTaken · _) (Invocation.plan_travel hoperation) false

theorem position_step (track : Track σ) (command : Command) :
    (track.step command).2.performer.position =
      (command.travel track.performer (track.step command).1).apply track.performer.position := by
  have hstays : track.performer.position = (Travel.moved 0).apply track.performer.position :=
    (Travel.apply_moved_zero _).symm
  rw [step_eq_handle]
  cases command with
  | operation operation =>
    exact track.position_perform (operation.travel track.performer)
      (Operation.plan_travel track.performer operation) true
  | invoke invocation => exact track.position_invoked invocation
  | line text =>
    rw [Command.task, Command.travel]
    cases Invocation.ofLine? text with
    | none => exact hstays
    | some invocation => exact track.position_invoked invocation
  | flush =>
    rw [Command.task, handle]
    split <;> exact hstays

theorem travels_concat (track : Track σ) (commands : List Command) (command : Command) :
    track.travels (commands ++ [command]) =
      track.travels commands ++
        [command.travel (track.run commands).2.performer
          ((track.run commands).2.step command).1] := by
  induction commands generalizing track with
  | nil => rfl
  | cons first commands ih => simp [travels, run_cons, ih]

/-- The account of a run: its final position is the last one that was set, or else the first one,
and the sum of the ticks that the commands after it took, modulo `2^32`. -/
theorem run_position (track : Track σ) (commands : List Command) :
    (track.run commands).2.performer.position =
      Int32.ofInt
        ((Travel.lastPlace track.performer.position (track.travels commands)).toInt +
          (Travel.ticksSince (track.travels commands)).sum) := by
  induction commands using List.reverseRecOn with
  | nil => simp [travels, Travel.lastPlace, Travel.ticksSince]
  | append_singleton commands command ih =>
    rw [run_append, run_cons, run_nil, travels_concat, Travel.ofInt_account_concat, ← ih]
    exact position_step (track.run commands).2 command

/-- Notes, a rest and curves on a port that takes twelve messages, which are used up by then: the
last note is refused, and what is behind it lacks its key. -/
theorem run_position_refused :
    let performer := { Performer.start Config.standard with position := 7 }
    let track : Track Transmitter := { performer, sink.port.room := some 12 }
    let commands : List Command :=
      [.operation (.note 60 { step := some 12, gate := some 99 }), .operation (.move .jump 100),
        .line "n 60 -1", .operation (.moveLength .rewind ⟨8⟩), .line "r -5",
        .line "V_ 0 9 8 4 24", .invoke ⟨"Mt", [0, 0, 8, 4, 24, 24, 1, 1].map .number⟩,
        .line "c+ 24", .line "n"]
    track.travels commands =
        [.moved 12, .placed 100, .moved 48, .moved (-24), .moved (-5), .moved 191, .moved 430,
          .moved 0, .moved 0] ∧
      (track.run commands).2.performer.position = 740 := by
  intro performer track commands
  have htravels : track.travels commands =
      [.moved 12, .placed 100, .moved 48, .moved (-24), .moved (-5), .moved 191, .moved 430,
        .moved 0, .moved 0] := by
    decide +kernel
  refine ⟨htravels, (track.run_position commands).trans ?_⟩
  rw [htravels]
  decide

end Track

end MusicMacro
