import MusicMacro.Config
import MusicMacro.Dial

/-! What a track knows while it plays: the resolution of its timeline, the position on it, the
settings of the channel, and what the dials were last set to. -/

namespace MusicMacro

structure Performer where
  resolution : Resolution
  position : Ticks
  channel : Channel
  dials : Dials
  deriving DecidableEq, Repr

namespace Performer

def start (config : Config) : Performer where
  resolution := config.resolution
  position := 0
  channel := config.channel.start
  dials := .zero

def defaultTicks (performer : Performer) : Ticks :=
  performer.resolution.toTicks performer.channel.defaultLength

def move (performer : Performer) (move : Move) (ticks : Ticks) : Performer :=
  { performer with position := move.apply ticks performer.position }

def setDial (performer : Performer) (dial : Dial) (value : Int32) : Performer :=
  { performer with dials := performer.dials.set dial value }

end Performer

end MusicMacro
