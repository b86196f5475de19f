import MusicMacro.Dial
import MusicMacro.Json.Format
import MusicMacro.Macro.Table

/-! The written forms of arguments and of the table of the macros.  An argument is a bare number or
a bare text, so its JSON value alone tells which of the two it is. -/

namespace MusicMacro

instance : JsonFormat PitchClass := .ofNames PitchClass.all PitchClass.name

instance : JsonFormat Accidental := .ofNames Accidental.all Accidental.name

instance : JsonFormat Dial := .ofNames Dial.all Dial.name

instance : JsonFormat KeySignature :=
  .ofTuple (PitchClass.all.map fun pitch =>
    .of pitch.name (·.get pitch) fun offset signature => signature.set pitch offset) .natural

namespace Arg

def ofScalar? : Json.Scalar → Option Arg
  | .integer value => if Decimal.inInt32 value then some (.number (Int32.ofInt value)) else none
  | .text value => some (.text value)
  | _ => none

/-- Reads an argument.  A value of any other shape is read to its end before it is refused; with
the list around it, it may have 127 brackets open at once. -/
def reader : Json.Reader Arg
  | .openList :: tokens => other (.openList :: tokens)
  | .openObject :: tokens => other (.openObject :: tokens)
  | tokens =>
    Json.Reader.mapValue Json.Reader.scalar (fun value =>
      match ofScalar? value with
      | some arg => .ok arg
      | none => .error .noVariant) tokens
where
  other : Json.Reader Arg :=
    Json.Reader.mapValue (Json.Reader.passOver ⟨true, some 126⟩) fun _ => .error .noVariant

instance : JsonFormat Arg where
  write
    | .number value => .number value.toInt
    | .text value => .text value
  reader := reader

end Arg

namespace Action

def dialName : DialAction → String
  | .set => "SpectraSet"
  | .raise => "SpectraIncrease"
  | .lower => "SpectraDecrease"
  | .sweep => "SpectraOneShot"
  | .wave => "SpectraTriangle"

def controllerName : Controller → String
  | .dataEntryMsb => "DataEntryMsb"
  | .dataEntryLsb => "DataEntryLsb"
  | .sostenuto => "Sostenuto"
  | .softPedal => "SoftPedal"
  | .legato => "Legato"
  | .nrpnMsb => "NrpnMsb"
  | .nrpnLsb => "NrpnLsb"
  | .rpnMsb => "RpnMsb"
  | .rpnLsb => "RpnLsb"

def wideControllerName : WideController → String
  | .dataEntry => "DataEntry"
  | .nrpn => "Nrpn"
  | .rpn => "Rpn"

def settingName : Setting → String
  | .velocity => "Velocity"
  | .velocityStep => "VelocitySensitivity"
  | .octave => "Octave"
  | .transpose => "Transpose"
  | .defaultLength => "DefaultLength"
  | .keyDelay => "KeyDelay"
  | .gateRelative => "GateRelative"
  | .gateDenominator => "GateDenominator"
  | .gateAbsolute => "GateAbsolute"
  | .bendRange => "BendCentMode"

def shiftName : Shift → String
  | .louder => "IncreaseVelocity"
  | .softer => "DecreaseVelocity"
  | .octaveUp => "IncreaseOctave"
  | .octaveDown => "DecreaseOctave"

def writePitch (pitch : PitchClass) (accidental : Accidental) : Json :=
  .list [JsonFormat.write pitch, JsonFormat.write accidental]

/-- The JSON value of an action: its name, or an object from its name to what it is about. -/
def write : Action → Json
  | .channel => .text "Channel"
  | .debug => .text "Debug"
  | .assertPosition => .text "AssertStep"
  | .bankProgram => .text "ProgramWithBank"
  | .bendSensitivity => .text "PitchBendSensitivity"
  | .tempo => .text "Tempo"
  | .bend => .text "Bend"
  | .dial how which => .object [(dialName how, JsonFormat.write which)]
  | .control controller => .text (controllerName controller)
  | .wideControl controller => .text (wideControllerName controller)
  | .metaText type => .object [("MetaText", JsonFormat.write type)]
  | .beat => .text "Beat"
  | .assign setting => .text (settingName setting)
  | .shift change => .text (shiftName change)
  | .sign pitch accidental => .object [("KeySignature", writePitch pitch accidental)]
  | .note => .text "Note"
  | .play pitch accidental => .object [("Play", writePitch pitch accidental)]
  | .rest => .text "Rest"
  | .loopOpening => .text "BeginLoop"
  | .loopLeaving => .text "BreakLoop"
  | .loopClosing => .text "EndLoop"
  | .gmSystemOn => .text "GmSystemOn"
  | .xgReset => .text "XgReset"

end Action

namespace Macro

def write (entry : Macro) : Json :=
  .object
    [("name", .text entry.name), ("params", .list (entry.params.map fun kind => .text kind.name)),
      ("required", .number entry.required), ("op", entry.action.write)]

def listing : String := String.ofList ((Json.list (table.map write)).layOut 0)

end Macro

end MusicMacro
