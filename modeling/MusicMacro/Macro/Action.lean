import MusicMacro.Macro.Arg
import MusicMacro.Track.Operation

/-! What the macros do.  An action says which operation a macro stands for and where its arguments
go: to a byte, to a number, or as a note length to ticks. -/

namespace MusicMacro

inductive DialAction where
  | set
  | raise
  | lower
  | sweep
  | wave
  deriving DecidableEq, Repr

inductive Action where
  | channel
  | debug
  | assertPosition
  | bankProgram
  | bendSensitivity
  | tempo
  | bend
  | dial (how : DialAction) (dial : Dial)
  | control (controller : Controller)
  | wideControl (controller : WideController)
  | metaText (type : UInt8)
  | beat
  | assign (setting : Setting)
  | shift (shift : Shift)
  | sign (pitch : PitchClass) (accidental : Accidental)
  | note
  | play (pitch : PitchClass) (accidental : Accidental)
  | rest
  | loopOpening
  | loopLeaving
  | loopClosing
  | gmSystemOn
  | xgReset
  deriving DecidableEq, Repr

namespace Action

/-- The note options that stand from a place on.  Those left out are left to the channel, and the
release velocity is zero. -/
def articulation (args : List Arg) (place : Nat) : Articulation :=
  .ofNumbers (Arg.numberAt args place (-1)) (Arg.numberAt args (place + 1) (-1))
    (Arg.numberAt args (place + 2) (-1)) (Arg.numberAt args (place + 3) (-1))
    (lowByte (Arg.numberAt args (place + 4) 0))

def turn (resolution : Resolution) (fallback : Fallback) (args : List Arg) : DialAction → Turn :=
  let int (place : Nat) : Int32 := Arg.numberAt args place fallback.number
  let ticks (place : Nat) : Ticks := resolution.toTicks ⟨int place⟩
  fun
  | .set => .set (int 0)
  | .raise => .raise (int 0)
  | .lower => .lower (int 0)
  | .sweep =>
    .sweep
      { start := int 0, finish := int 1, startDelay := ticks 2, length := ticks 3,
        step := Arg.numberAt args 4 Sweep.standardStep }
  | .wave =>
    .wave
      { start := int 0, finish := int 1, startDelay := ticks 2, endDuration := ticks 3,
        period := int 4, step := int 5, delta := int 6, repeats := int 7 }

def operation (resolution : Resolution) (fallback : Fallback) (args : List Arg) :
    Action → Operation :=
  let int (place : Nat) : Int32 := Arg.numberAt args place fallback.number
  let byte (place : Nat) : UInt8 := lowByte (int place)
  let text (place : Nat) : String := Arg.textAt args place fallback.text
  fun
  | .channel => .selectChannel (byte 0)
  | .debug => .debug ((args[0]?.map Arg.display).getD fallback.text)
  | .assertPosition => .assertPosition (resolution.toTicks ⟨int 0⟩) (text 1)
  | .bankProgram => .send (Message.bankProgram (byte 0) (byte 1) (byte 2))
  | .bendSensitivity => .send (Message.bendSensitivity (byte 0))
  | .tempo => .turn .tempo (.set (int 0))
  | .bend => .turn .pitchBend (.set (int 0))
  | .dial how which => .turn which (turn resolution fallback args how)
  | .control controller => .send [controller.message (byte 0)]
  | .wideControl controller => .send (controller.messages (byte 0) (byte 1))
  | .metaText type => .primitive (.metaText type (text 0))
  | .beat => .primitive (.timeSignature (byte 0) (byte 1))
  | .assign setting => .assign setting (int 0)
  | .shift change => .shift change
  | .sign pitch accidental => .setSign pitch accidental
  | .note => .note (byte 0) (articulation args 1)
  | .play pitch accidental => .play pitch accidental (articulation args 0)
  | .rest => .move .advance (int 0)
  | .loopOpening => .loop .opening
  | .loopLeaving => .loop (.leaving ((List.range args.length).map int))
  | .loopClosing => .loop (.closing (int 0))
  | .gmSystemOn => .primitive .gmSystemOn
  | .xgReset => .primitive .xgReset

end Action

end MusicMacro
