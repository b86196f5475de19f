import MusicMacro.Timeline

/-! Curves: the values that a dial takes along the timeline, one after the other, and the position
that is reached at the end.  A curve may have some billions of points, of which a closed output
takes none, so each point is made only when the one before it has been taken. -/

namespace MusicMacro

/-- The points of a curve in order, then the position it ends at. -/
inductive Curve where
  | stop (position : Ticks)
  | point (position : Ticks) (value : Int32) (next : Unit → Curve)

namespace Curve

def points : Curve → List (Ticks × Int32)
  | .stop _ => []
  | .point position value next => (position, value) :: (next ()).points

def finish : Curve → Ticks
  | .stop position => position
  | .point _ _ next => (next ()).finish

end Curve

end MusicMacro
