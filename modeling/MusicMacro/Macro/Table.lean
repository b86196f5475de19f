import MusicMacro.Macro.Action

/-! The table of the macros, in the order in which a listing shows them.  The macros of the dials
are named after the dial: its name alone sets it, `+` and `-` change it, `_` sweeps it and `t`
lets it swing.  A pitch letter alone plays the note as the key signature has it; with `-`, `=` or
`+` it plays the flat, the natural or the sharp, and a `K` in front writes the sign into the key
signature. -/

namespace MusicMacro

structure Macro where
  name : String
  params : List Parameter
  /-- The number of parameters that must be given, which are the first ones. -/
  required : Nat
  action : Action
  deriving DecidableEq, Repr

namespace Macro

def ofDial (dial : Dial) : List Macro :=
  [⟨dial.commandName, [.int], 1, .dial .set dial⟩,
    ⟨dial.commandName ++ "+", [.int], 1, .dial .raise dial⟩,
    ⟨dial.commandName ++ "-", [.int], 1, .dial .lower dial⟩,
    ⟨dial.commandName ++ "_", [.int, .int, .length, .length, .int], 4, .dial .sweep dial⟩,
    ⟨dial.commandName ++ "t", [.int, .int, .length, .length, .int, .int, .int, .int], 8,
      .dial .wave dial⟩]

def ofPitch (pitch : PitchClass) : List Macro :=
  [Accidental.sharp, .flat, .natural].map (fun accidental =>
    ⟨"K" ++ pitch.letter.toString ++ accidental.suffix, [], 0, .sign pitch accidental⟩) ++
  Accidental.all.map fun accidental =>
    ⟨pitch.letter.toString ++ accidental.suffix, [.int, .int, .int, .int, .byte], 0,
      .play pitch accidental⟩

def table : List Macro :=
  [⟨"CH", [.byte], 1, .channel⟩,
    ⟨"DEBUG", [.any], 1, .debug⟩,
    ⟨"ASSERT_STEP", [.length, .text], 2, .assertPosition⟩,
    ⟨"@", [.byte, .byte, .byte], 3, .bankProgram⟩,
    ⟨"TEMPO", [.int], 1, .tempo⟩,
    ⟨"BEND_CENT_MODE", [.int], 1, .assign .bendRange⟩,
    ⟨"BEND", [.int], 1, .bend⟩,
    ⟨"PITCH_BEND_SENSITIVITY", [.byte], 1, .bendSensitivity⟩] ++
  Dial.all.flatMap ofDial ++
  [⟨"DTEM", [.byte], 1, .control .dataEntryMsb⟩,
    ⟨"DTEL", [.byte], 1, .control .dataEntryLsb⟩,
    ⟨"DTE", [.byte, .byte], 2, .wideControl .dataEntry⟩,
    ⟨"SOS", [.byte], 1, .control .sostenuto⟩,
    ⟨"SOFT", [.byte], 1, .control .softPedal⟩,
    ⟨"LEGATO", [.byte], 1, .control .legato⟩,
    ⟨"NRPNM", [.byte], 1, .control .nrpnMsb⟩,
    ⟨"NRPNL", [.byte], 1, .control .nrpnLsb⟩,
    ⟨"NRPN", [.byte, .byte], 2, .wideControl .nrpn⟩,
    ⟨"RPNM", [.byte], 1, .control .rpnMsb⟩,
    ⟨"RPNL", [.byte], 1, .control .rpnLsb⟩,
    ⟨"RPN", [.byte, .byte], 2, .wideControl .rpn⟩,
    ⟨"TEXT", [.text], 1, .metaText 0x01⟩,
    ⟨"COPYRIGHT", [.text], 1, .metaText 0x02⟩,
    ⟨"TRACKNAME", [.text], 1, .metaText 0x03⟩,
    ⟨"INSTRUMENTNAME", [.text], 1, .metaText 0x04⟩,
    ⟨"LYRIC", [.text], 1, .metaText 0x05⟩,
    ⟨"MARKER", [.text], 1, .metaText 0x06⟩,
    ⟨"CUE", [.text], 1, .metaText 0x07⟩,
    ⟨"BEAT", [.byte, .byte], 2, .beat⟩,
    ⟨"v", [.int], 1, .assign .velocity⟩,
    ⟨")", [], 0, .shift .louder⟩,
    ⟨"(", [], 0, .shift .softer⟩,
    ⟨"l", [.length], 1, .assign .defaultLength⟩,
    ⟨"TIMING", [.int], 1, .assign .keyDelay⟩,
    ⟨"GATE_DENOM", [.int], 1, .assign .gateDenominator⟩,
    ⟨"Q", [.int], 1, .assign .gateRelative⟩,
    ⟨"q", [.int], 1, .assign .gateAbsolute⟩,
    ⟨"o", [.int], 1, .assign .octave⟩,
    ⟨">", [], 0, .shift .octaveUp⟩,
    ⟨"<", [], 0, .shift .octaveDown⟩,
    ⟨"K", [.int], 1, .assign .transpose⟩] ++
  PitchClass.all.flatMap ofPitch ++
  [⟨"n", [.byte, .int, .int, .int, .int, .byte], 1, .note⟩,
    ⟨"r", [.int], 1, .rest⟩,
    ⟨"[", [], 0, .loopOpening⟩,
    ⟨":", [.variadic], 0, .loopLeaving⟩,
    ⟨"/", [.variadic], 0, .loopLeaving⟩,
    ⟨"]", [.int], 1, .loopClosing⟩,
    ⟨"GM_SYSTEM_ON", [], 0, .gmSystemOn⟩,
    ⟨"XG_RESET", [], 0, .xgReset⟩]

def lookup? (name : String) : Option Macro := table.find? fun entry => entry.name == name

def arityLimit? (entry : Macro) : Option Nat :=
  if entry.params.getLast? = some .variadic then none else some entry.params.length

/-- The kind of the parameter that takes the argument at a place: the last one takes all that
follow it. -/
def kindAt (entry : Macro) (place : Nat) : Parameter :=
  (entry.params[place]?.or entry.params.getLast?).getD .any

def misfit? (entry : Macro) (args : List Arg) : Option (Arg × Nat) :=
  args.zipIdx.find? fun (arg, place) => !(entry.kindAt place).takes arg

end Macro

end MusicMacro
