import MusicMacro.Proofs.Track.Plan
import MusicMacro.Track

/-! What an operation leaves behind when it is refused.  Notes and curves move the position before
they send anything.  A refused note jumps back to where it started, and a refused curve takes back
the ticks gone since its start; under arithmetic that wraps both come out at the same position.
What a refusal can change is so the value of the dial that the operation turns, and nothing
else. -/

namespace MusicMacro

/-- `after` agrees with `before` on everything but the value of one dial, or on everything. -/
structure Performer.Frame (dial? : Option Dial) (before after : Performer) : Prop where
  resolution : after.resolution = before.resolution
  position : after.position = before.position
  channel : after.channel = before.channel
  dials : ∀ dial, dial? ≠ some dial → after.dials.get dial = before.dials.get dial

def Operation.dial? : Operation → Option Dial
  | .turn dial _ => some dial
  | _ => none

namespace Performer

theorem Frame.refl (dial? : Option Dial) (performer : Performer) :
    Frame dial? performer performer :=
  ⟨rfl, rfl, rfl, fun _ _ => rfl⟩

theorem Frame.trans {dial? : Option Dial} {first second third : Performer}
    (h1 : Frame dial? first second) (h2 : Frame dial? second third) : Frame dial? first third :=
  ⟨h2.resolution.trans h1.resolution, h2.position.trans h1.position, h2.channel.trans h1.channel,
    fun dial hdial => (h2.dials dial hdial).trans (h1.dials dial hdial)⟩

theorem Frame.setDial (performer : Performer) (dial : Dial) (value : Int32) :
    Frame (some dial) performer (performer.setDial dial value) := by
  refine ⟨rfl, rfl, rfl, fun other hother => ?_⟩
  have hne : other ≠ dial := fun h => hother (by rw [h])
  show (performer.dials.set dial value).get other = _
  rw [Dials.get_set, if_neg hne]

/-- Taking back the ticks gone since the origin leads to the origin, wherever that is. -/
theorem move_back (performer : Performer) (origin : Ticks) :
    performer.move .advance (-(performer.position - origin)) =
      { performer with position := origin } := by
  have hposition : performer.position + -(performer.position - origin) = origin := by grind
  rw [move, Move.apply, hposition]

end Performer

namespace Plan

open Performer (Frame)

theorem sendAll_ends {dial? : Option Dial} {performer left : Performer}
    (h : Frame dial? performer left) (primitives : List Primitive) :
    (sendAll left primitives).Ends (Frame dial? performer)
      fun left => left.resolution = performer.resolution :=
  Ends.sendAll h h.resolution primitives

theorem note_ends (performer : Performer) (key : UInt8) (options : Articulation) :
    (note performer key options).Ends (Frame none performer)
      fun left => left.resolution = performer.resolution :=
  ⟨Frame.refl none performer, Frame.refl none performer, rfl⟩

theorem followCurve_ends {dial : Dial} {start : Performer} (curve : Curve) {performer : Performer}
    (h : Frame (some dial) start { performer with position := start.position }) :
    (followCurve dial start.position curve performer).Ends (Frame (some dial) start)
      fun left => left.resolution = start.resolution := by
  induction curve generalizing performer with
  | stop position => exact h.resolution
  | point position value next ih =>
    have hkept := h.trans (Frame.setDial { performer with position := start.position } dial value)
    have hback := Performer.move_back ({ performer with position }.setDial dial value)
      start.position
    exact ⟨hback ▸ hkept, ih () hkept⟩

theorem turn_ends (performer : Performer) (dial : Dial) (how : Turn) :
    (turn performer dial how).Ends (Frame (some dial) performer)
      fun left => left.resolution = performer.resolution := by
  have hset : ∀ value, (turn.setTo performer dial value).Ends (Frame (some dial) performer)
      fun left => left.resolution = performer.resolution :=
    fun value => sendAll_ends (Frame.setDial performer dial value) _
  have hcurve : ∀ curve, (turn.along performer dial curve).Ends (Frame (some dial) performer)
      fun left => left.resolution = performer.resolution :=
    fun curve => followCurve_ends curve (Frame.refl (some dial) performer)
  cases how with
  | set value => exact hset value
  | raise delta => exact hset _
  | lower delta => exact hset _
  | sweep course => exact hcurve _
  | wave course => exact hcurve _

theorem assertPosition_ends (performer : Performer) (expected : Ticks) (label : String) :
    (assertPosition performer expected label).Ends (Frame none performer)
      fun left => left.resolution = performer.resolution := by
  rw [assertPosition]
  split <;> exact rfl

end Plan

/-- A refused operation changes at most the value of the dial that it turns, and no operation
changes the resolution. -/
theorem Operation.plan_ends (performer : Performer) (operation : Operation) :
    (operation.plan performer).Ends (Performer.Frame operation.dial? performer)
      fun left => left.resolution = performer.resolution := by
  have hkept := Performer.Frame.refl none performer
  cases operation with
  | note key options => exact Plan.note_ends performer key options
  | play pitch accidental options => exact Plan.note_ends performer _ options
  | send messages => exact Plan.sendAll_ends hkept _
  | loop mark => exact Plan.sendAll_ends hkept _
  | primitive primitive => exact Plan.sendAll_ends hkept _
  | turn dial how => exact Plan.turn_ends performer dial how
  | assertPosition expected label => exact Plan.assertPosition_ends performer expected label
  | _ => exact rfl

namespace Track

variable {σ : Type} [Sink σ]

theorem perform_error_frame {track after : Track σ} {operation : Operation} {cause : Refusal}
    (h : track.perform operation = (.error cause, after)) :
    Performer.Frame operation.dial? track.performer after.performer := by
  rw [perform] at h
  cases hrun : (operation.plan track.performer).carryOut track.sink with
  | mk reply rest =>
    rw [hrun] at h
    cases h
    exact (Operation.plan_ends track.performer operation).of_error hrun

theorem perform_resolution (track : Track σ) (operation : Operation) :
    (track.perform operation).2.performer.resolution = track.performer.resolution :=
  ((Operation.plan_ends track.performer operation).mono (fun _ h => h.resolution)
    fun _ h => h).left track.sink

end Track

end MusicMacro
