import MusicMacro.Proofs.Track.Calls
import MusicMacro.Proofs.Track.Position
import MusicMacro.Sink.Sheet

/-! What a note comes to.  A note hands its onset to the sink and, if that is taken, its release.
If both are taken the position moves by the step, and otherwise the track stands where it stood.
Delay and gate decide when the two are handed over, not what is left behind.  An option that is
missing and one that is negative say the same, so there are several ways to write a note, which no
run can tell apart. -/

namespace MusicMacro

/-! ### Options that count -/

namespace Articulation

/-- The value of an option that counts: one that is given and not negative. -/
def counted (value : Option Int32) : Option Int32 := value.filter fun v => 0 ≤ v

theorem nonnegOr_eq (value : Option Int32) (standard : Int32) :
    nonnegOr value standard = (counted value).getD standard := by
  cases value with
  | none => rfl
  | some v => by_cases h : 0 ≤ v <;> simp [nonnegOr, counted, Option.filter, h]

/-- An option stands for a number: it gives the number, or neither of the two gives anything. -/
def StandsFor (value : Option Int32) (number : Int32) : Prop :=
  value = some number ∨ number < 0 ∧ ∀ v, value = some v → v < 0

theorem StandsFor.negative {value number : Int32} (hvalue : value < 0) (h : number < 0) :
    StandsFor (some value) number :=
  .inr ⟨h, fun _ heq => Option.some.inj heq ▸ hvalue⟩

end Articulation

namespace Track

variable {σ : Type} [Sink σ]

/-- The primitives of two that are handed over: the second one only if the first one is taken. -/
def handed (track : Track σ) (first second : Primitive) : List Primitive :=
  match (Sink.emit first track.sink).1 with
  | .ok _ => [first, second]
  | .error _ => [first]

end Track

end MusicMacro
