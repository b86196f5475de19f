/-! Pitch.  A note is named by a pitch class and an accidental, which either fixes the alteration
or leaves it to the key signature.  The octave, the class, the alteration and the transposition
add up to a key. -/

namespace MusicMacro

inductive PitchClass where
  | c | d | e | f | g | a | b
  deriving DecidableEq, Repr

namespace PitchClass

def all : List PitchClass := [.c, .d, .e, .f, .g, .a, .b]

def index : PitchClass → Fin 7
  | .c => 0 | .d => 1 | .e => 2 | .f => 3 | .g => 4 | .a => 5 | .b => 6

theorem index_inj {pitch other : PitchClass} : pitch.index = other.index ↔ pitch = other := by
  cases pitch <;> cases other <;> decide

def semitones : PitchClass → Int32
  | .c => 0 | .d => 2 | .e => 4 | .f => 5 | .g => 7 | .a => 9 | .b => 11

def letter : PitchClass → Char
  | .c => 'c' | .d => 'd' | .e => 'e' | .f => 'f' | .g => 'g' | .a => 'a' | .b => 'b'

def name : PitchClass → String
  | .c => "C" | .d => "D" | .e => "E" | .f => "F" | .g => "G" | .a => "A" | .b => "B"

end PitchClass

/-- Where the alteration of a note comes from: the key signature, or one of three fixed signs. -/
inductive Accidental where
  | signature
  | flat
  | natural
  | sharp
  deriving DecidableEq, Repr

namespace Accidental

def all : List Accidental := [.signature, .flat, .natural, .sharp]

def suffix : Accidental → String
  | .signature => "" | .flat => "-" | .natural => "=" | .sharp => "+"

def fixed? : Accidental → Option Int32
  | .signature => none | .flat => some (-1) | .natural => some 0 | .sharp => some 1

def name : Accidental → String
  | .signature => "Base" | .flat => "Flat" | .natural => "Natural" | .sharp => "Sharp"

end Accidental

structure KeySignature where
  offsets : Vector Int32 7
  deriving DecidableEq, Repr

namespace KeySignature

def natural : KeySignature := ⟨.replicate 7 0⟩

def get (signature : KeySignature) (pitch : PitchClass) : Int32 :=
  signature.offsets[pitch.index]

def set (signature : KeySignature) (pitch : PitchClass) (offset : Int32) : KeySignature :=
  ⟨signature.offsets.set pitch.index offset⟩

theorem get_set (signature : KeySignature) (pitch other : PitchClass) (offset : Int32) :
    (signature.set pitch offset).get other =
      if other = pitch then offset else signature.get other := by
  simp only [get, set, Fin.getElem_fin, Vector.getElem_set, ← Fin.ext_iff, PitchClass.index_inj,
    eq_comm]

theorem ext_get {signature other : KeySignature}
    (h : ∀ pitch, signature.get pitch = other.get pitch) : signature = other := by
  have hpitch : ∀ index : Fin 7, ∃ pitch ∈ PitchClass.all, pitch.index = index := by decide
  obtain ⟨offsets⟩ := signature
  obtain ⟨others⟩ := other
  congr 1
  refine Vector.ext fun index hindex => ?_
  obtain ⟨pitch, -, hindex⟩ := hpitch ⟨index, hindex⟩
  simpa [get, hindex] using h pitch

/-- The key of a pitch class under a key signature: twelve keys an octave, the class, its
alteration, and the transposition. -/
def key (signature : KeySignature) (pitch : PitchClass) (accidental : Accidental)
    (octave transpose : Int32) : Int32 :=
  octave * 12 + pitch.semitones + accidental.fixed?.getD (signature.get pitch) + transpose

end KeySignature

end MusicMacro
