import MusicMacro.Curve
import MusicMacro.Sink
import MusicMacro.Track.Performer

/-! Plans: what an operation is going to do, before any sink has taken part in it.  A plan lists the
primitives and the remarks of the operation in order.  With each primitive stands the performer
that is left if the sink refuses it, for a refusal ends the operation; at the end stands the
performer that is left if everything was taken.  What a refusal leaves behind can so be read off
the plan. -/

namespace MusicMacro

inductive Answer where
  | done
  | number (value : Int32)
  | held (value : Bool)
  deriving DecidableEq, Repr

/-- The course of an operation. -/
inductive Plan where
  | done (answer : Answer) (performer : Performer)
  | emit (primitive : Primitive) (refused : Performer) (next : Unit → Plan)
  | remark (remark : Remark) (next : Unit → Plan)

namespace Plan

/-- Sends primitives in order and keeps the performer that stands at the end, refused or not. -/
def sendAll (performer : Performer) : List Primitive → Plan
  | [] => .done .done performer
  | primitive :: rest => .emit primitive performer fun _ => sendAll performer rest

/-- Turns a dial along a curve that started at `origin`.  The position moves with the curve, and
each value is kept before it is sent.  A refusal keeps the value and takes back the ticks gone since
the start. -/
def followCurve (dial : Dial) (origin : Ticks) : Curve → Performer → Plan
  | .stop position, performer => .done .done { performer with position }
  | .point position value next, performer =>
    let there := { performer with position }.setDial dial value
    .emit (dial.primitive performer.channel value)
      (there.move .advance (-(position - origin))) fun _ =>
        followCurve dial origin (next ()) there

/-- Carries out a plan on a sink, up to the first refusal. -/
def carryOut {σ : Type} [Sink σ] : Plan → σ → Except Refusal Answer × Performer × σ
  | .done answer performer, sink => (.ok answer, performer, sink)
  | .remark said next, sink => (next ()).carryOut (Sink.remark said sink)
  | .emit primitive refused next, sink =>
    match Sink.emit primitive sink with
    | (.ok _, sink) => (next ()).carryOut sink
    | (.error cause, sink) => (.error cause, refused, sink)

end Plan

end MusicMacro
