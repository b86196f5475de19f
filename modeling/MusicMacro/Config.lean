import MusicMacro.Channel

/-! The configuration of a track: the resolution of its timeline and the settings that its channel
starts with. -/

namespace MusicMacro

structure Config where
  wholeNote : Ticks := Resolution.standard.wholeNote
  channel : ChannelSetup := {}
  deriving DecidableEq, Repr

def Config.standard : Config := {}

def Config.resolution (config : Config) : Resolution := ⟨config.wholeNote⟩

end MusicMacro
