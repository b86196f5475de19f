import MusicMacro.Proofs.Track.Bisimulation

/-! The primitives that a run hands to its sink.  A tap on a sink keeps a list of them, of the taken
ones as well as the refused ones, and is noticed neither by the sink nor by the track. -/

namespace MusicMacro

/-- A sink with a tap: the list of the primitives that were handed to it. -/
structure Tapped (σ : Type) where
  sink : σ
  calls : List Primitive := []

variable {σ : Type} [Sink σ]

instance : Sink (Tapped σ) where
  emit primitive tapped :=
    ((Sink.emit primitive tapped.sink).1,
      { sink := (Sink.emit primitive tapped.sink).2, calls := tapped.calls ++ [primitive] })
  remark said tapped := { tapped with sink := Sink.remark said tapped.sink }
  flush tapped := Sink.flush tapped.sink

theorem Tapped.bisimulation :
    Sink.Bisimulation fun (tapped : Tapped σ) (sink : σ) => tapped.sink = sink where
  emit primitive {tapped sink} h := by
    subst h
    exact ⟨rfl, rfl⟩
  remark said {tapped sink} h := congrArg (Sink.remark said) h
  flush {tapped sink} h := congrArg Sink.flush h

namespace Track

def tap (track : Track σ) : Track (Tapped σ) :=
  { performer := track.performer, sink := { sink := track.sink } }

/-- The track without the tap on its sink. -/
def untap (track : Track (Tapped σ)) : Track σ :=
  { performer := track.performer, sink := track.sink.sink }

/-- The primitives that the sink is handed in a run, taken or refused, in order. -/
def calls (track : Track σ) (commands : List Command) : List Primitive :=
  (track.tap.run commands).2.sink.calls

theorem calls_operation (track : Track σ) (operation : Operation) :
    track.calls [.operation operation] = (track.tap.perform operation).2.sink.calls := by
  rw [calls, run_cons, run_nil, step_eq_handle]
  rfl

theorem calls_invoke (track : Track σ) (invocation : Invocation) :
    track.calls [.invoke invocation] = (track.tap.invoke invocation).2.sink.calls := by
  rw [calls, run_cons, run_nil, ← step_invoke]

/-- A macro hands over what the operation does that it stands for. -/
theorem calls_invoke_of_ok {track : Track σ} {invocation : Invocation} {operation : Operation}
    (h : invocation.operation {} track.performer.resolution = .ok operation) :
    track.calls [.invoke invocation] = track.calls [.operation operation] := by
  have htap : invocation.operation {} track.tap.performer.resolution = .ok operation := h
  rw [calls_invoke, calls_operation, invoke, htap]

/-- Nothing is handed over by a macro that is not well called. -/
theorem calls_invoke_of_error {track : Track σ} {invocation : Invocation} {cause : CallError}
    (h : invocation.operation {} track.performer.resolution = .error cause) :
    track.calls [.invoke invocation] = [] := by
  have htap : invocation.operation {} track.tap.performer.resolution = .error cause := h
  rw [calls_invoke, invoke, htap]
  rfl

/-- An operation that sends one primitive hands it over, whatever comes of it. -/
theorem calls_sendOne {track : Track σ} {operation : Operation} {left : Performer}
    {primitive : Primitive} (h : operation.plan track.performer = .sendAll left [primitive]) :
    track.calls [.operation operation] = [primitive] := by
  have htap : operation.plan track.tap.performer = .sendAll left [primitive] := h
  have hemit : Sink.emit primitive track.tap.sink =
      ((Sink.emit primitive track.sink).1,
        { sink := (Sink.emit primitive track.sink).2, calls := [primitive] }) := rfl
  rw [calls_operation, perform, htap, Plan.sendAll, Plan.carryOut, hemit]
  cases (Sink.emit primitive track.sink).1 <;> rfl

/-- A tap changes neither the outcomes of a run nor the track at its end. -/
theorem run_tap (track : Track σ) (commands : List Command) :
    (track.tap.run commands).1 = (track.run commands).1 ∧
      (track.tap.run commands).2.untap = (track.run commands).2 := by
  have hstart : track.tap.Alongside (fun tapped sink => tapped.sink = sink) track := ⟨rfl, rfl⟩
  obtain ⟨houtcomes, hend⟩ := Tapped.bisimulation.run hstart commands
  exact ⟨houtcomes, congrArg₂ Track.mk hend.performer hend.sink⟩

end Track

end MusicMacro
