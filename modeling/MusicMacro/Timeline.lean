/-! Note lengths and ticks.  A length is written as the denominator of a fraction of the whole
note, and a resolution says how many ticks the whole note takes.  Conversion divides the whole
note by the given number, in both directions by the same division, so a round trip is exact for
the numbers that divide the whole note and may lose for the others. -/

namespace MusicMacro

/-- A position on the timeline or a span of it.  Ticks wrap modulo `2^32`. -/
abbrev Ticks := Int32

/-- A note length as the denominator of a fraction of the whole note: 4 is a quarter note. -/
structure Length where
  denominator : Int32
  deriving DecidableEq, Repr

def Length.quarter : Length := ⟨4⟩

structure Resolution where
  wholeNote : Ticks
  deriving DecidableEq, Repr

def Resolution.standard : Resolution := ⟨192⟩

/-- The truncated quotient, where dividing by zero gives zero. -/
def quotientOrZero (whole part : Int32) : Int32 :=
  if part = 0 then 0 else whole / part

def Resolution.toTicks (resolution : Resolution) (length : Length) : Ticks :=
  quotientOrZero resolution.wholeNote length.denominator

def Resolution.ofTicks (resolution : Resolution) (ticks : Ticks) : Length :=
  ⟨quotientOrZero resolution.wholeNote ticks⟩

inductive Move where
  | advance
  | jump
  | rewind
  deriving DecidableEq, Repr

def Move.apply (move : Move) (ticks position : Ticks) : Ticks :=
  match move with
  | .advance => position + ticks
  | .jump => ticks
  | .rewind => position - ticks

end MusicMacro
