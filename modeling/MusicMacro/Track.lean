import MusicMacro.Macro.Line

/-! Tracks and what can be asked of them: an operation, a macro by name or as a line of text, or
the flush of the sink.  A run takes commands in order, and an error does not stop it. -/

namespace MusicMacro

structure Track (σ : Type) where
  performer : Performer
  sink : σ

inductive Command where
  | operation (operation : Operation)
  | invoke (invocation : Invocation)
  | line (text : String)
  | flush
  deriving DecidableEq, Repr

inductive Outcome where
  | blank
  | answered (answer : Answer)
  | failed (cause : CallError)
  deriving DecidableEq, Repr

namespace Track

variable {σ : Type} [Sink σ]

def start (config : Config) (sink : σ) : Track σ := { performer := .start config, sink }

def perform (track : Track σ) (operation : Operation) : Except Refusal Answer × Track σ :=
  let (reply, performer, sink) := (operation.plan track.performer).carryOut track.sink
  (reply, { performer, sink })

/-- Carries out a macro.  One that is not well called does nothing, and what its operation answers
is not told. -/
def invoke (track : Track σ) (invocation : Invocation) : Except CallError Unit × Track σ :=
  match invocation.operation {} track.performer.resolution with
  | .error cause => (.error cause, track)
  | .ok operation =>
    let (reply, track) := track.perform operation
    ((reply.mapError CallError.sink).map fun _ => (), track)

def step (track : Track σ) : Command → Outcome × Track σ
  | .operation operation =>
    match track.perform operation with
    | (.ok answer, track) => (.answered answer, track)
    | (.error cause, track) => (.failed (.sink cause), track)
  | .invoke invocation => invoked (track.invoke invocation)
  | .line text =>
    match Invocation.ofLine? text with
    | none => (.blank, track)
    | some invocation => invoked (track.invoke invocation)
  | .flush =>
    match Sink.flush track.sink with
    | .ok _ => (.answered .done, track)
    | .error cause => (.failed (.sink cause), track)
where
  invoked : Except CallError Unit × Track σ → Outcome × Track σ
    | (.ok _, track) => (.answered .done, track)
    | (.error cause, track) => (.failed cause, track)

/-- Carries out commands in order, whatever comes of each. -/
def run (track : Track σ) : List Command → List Outcome × Track σ
  | [] => ([], track)
  | command :: rest =>
    let (outcome, track) := track.step command
    let (outcomes, track) := track.run rest
    (outcome :: outcomes, track)

end Track

end MusicMacro
