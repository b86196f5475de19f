import MusicMacro.Proofs.Track.Step

/-! Sinks that a track cannot tell apart.  Two sinks that give the same answers, and stay related
whatever they are handed, bring every plan to the same end.  Tracks that stand alike on such sinks
so come to the same outcomes in every run, and stand alike at its end. -/

namespace MusicMacro

variable {σ τ : Type} [Sink σ] [Sink τ]

/-- A relation of sinks that give the same answers and stay related. -/
structure Sink.Bisimulation (R : σ → τ → Prop) : Prop where
  emit (primitive : Primitive) {sink : σ} {other : τ} (h : R sink other) :
    (Sink.emit primitive sink).1 = (Sink.emit primitive other).1 ∧
      R (Sink.emit primitive sink).2 (Sink.emit primitive other).2
  remark (said : Remark) {sink : σ} {other : τ} (h : R sink other) :
    R (Sink.remark said sink) (Sink.remark said other)
  flush {sink : σ} {other : τ} (h : R sink other) : Sink.flush sink = Sink.flush other

/-- Tracks with the same performer whose sinks are related. -/
structure Track.Alongside (R : σ → τ → Prop) (track : Track σ) (other : Track τ) : Prop where
  performer : track.performer = other.performer
  sink : R track.sink other.sink

namespace Sink.Bisimulation

variable {R : σ → τ → Prop}

theorem carryOut (hR : Bisimulation R) (plan : Plan) {sink : σ} {other : τ} (h : R sink other) :
    (plan.carryOut sink).1 = (plan.carryOut other).1 ∧
      (plan.carryOut sink).2.1 = (plan.carryOut other).2.1 ∧
      R (plan.carryOut sink).2.2 (plan.carryOut other).2.2 := by
  induction plan generalizing sink other with
  | done answer performer => exact ⟨rfl, rfl, h⟩
  | remark said next ih => exact ih () (hR.remark said h)
  | emit primitive refused next ih =>
    obtain ⟨hreply, hafter⟩ := hR.emit primitive h
    rw [Plan.carryOut, Plan.carryOut]
    cases hemit : Sink.emit primitive sink with
    | mk reply after =>
      cases hemit' : Sink.emit primitive other with
      | mk reply' after' =>
        rw [hemit, hemit'] at hreply hafter
        simp only at hreply hafter
        subst hreply
        cases reply with
        | ok _ => exact ih () hafter
        | error cause => exact ⟨rfl, rfl, hafter⟩

theorem perform (hR : Bisimulation R) {track : Track σ} {other : Track τ}
    (h : track.Alongside R other) (operation : Operation) :
    (track.perform operation).1 = (other.perform operation).1 ∧
      (track.perform operation).2.Alongside R (other.perform operation).2 := by
  obtain ⟨performer, sink⟩ := other
  obtain rfl : track.performer = performer := h.performer
  obtain ⟨hreply, hleft, hsink⟩ := hR.carryOut (operation.plan track.performer) h.sink
  exact ⟨hreply, hleft, hsink⟩

theorem step (hR : Bisimulation R) {track : Track σ} {other : Track τ}
    (h : track.Alongside R other) (command : Command) :
    (track.step command).1 = (other.step command).1 ∧
      (track.step command).2.Alongside R (other.step command).2 := by
  rw [Track.step_eq_handle, Track.step_eq_handle, h.performer]
  cases command.task other.performer.resolution with
  | idle outcome => exact ⟨rfl, h⟩
  | operation operation told =>
    obtain ⟨hreply, hafter⟩ := hR.perform h operation
    exact ⟨congrArg (Outcome.ofReply told) hreply, hafter⟩
  | flush =>
    rw [Track.handle, Track.handle, hR.flush h.sink]
    cases Sink.flush other.sink <;> exact ⟨rfl, h⟩

theorem run (hR : Bisimulation R) {track : Track σ} {other : Track τ}
    (h : track.Alongside R other) (commands : List Command) :
    (track.run commands).1 = (other.run commands).1 ∧
      (track.run commands).2.Alongside R (other.run commands).2 := by
  obtain ⟨houtcomes, hend⟩ :=
    Track.run_forall₂ (fun _ _ command _ halong => hR.step halong command) h
  exact ⟨List.forall₂_eq_eq_eq ▸ houtcomes, hend⟩

end Sink.Bisimulation

end MusicMacro
