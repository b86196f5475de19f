import MusicMacro.Text.Decimal
import MusicMacro.Text.Hex
import MusicMacro.Text.Quoted
import MusicMacro.Sink.Writer

/-! The textual form of a track and the sink that writes it.  Loops are marked by `[`, `:` and `]`;
everything else is an event with its bytes in hexadecimal, the first byte in uppercase and the
others in lowercase.  The form describes one track, so it does not name the channel. -/

namespace MusicMacro

namespace Primitive

def byteParts : List UInt8 → List (List Char)
  | [] => []
  | first :: rest =>
    ('#' :: Hex.upper first) :: rest.map fun byte => ',' :: ' ' :: '#' :: Hex.lower byte

def messageParts (bytes : List UInt8) : List (List Char) :=
  ["__MIDI \x7b".toList] ++ (if bytes.isEmpty then [] else [' '] :: byteParts bytes) ++
    [" \x7d ".toList]

def parts : Primitive → List (List Char)
  | .loopOpening _ => [['[']]
  | .loopLeaving _ targets =>
    [':' :: [','].intercalate (targets.map fun target => Decimal.ofInt target.toInt)]
  | .loopClosing _ repeats => [']' :: Decimal.ofInt repeats.toInt]
  | .message2 _ status data => messageParts [status, data]
  | .message3 _ status data1 data2 => messageParts [status, data1, data2]
  | .metaBytes type bytes =>
    ["__MIDI_META \x7b ".toList] ++ byteParts (type :: bytes) ++ [" \x7d ".toList]
  | .metaText type text =>
    ["__MIDI_META \x7b ".toList] ++ byteParts [type] ++
      [", ".toList, Quoted.token text.toList, " \x7d ".toList]
  | .sysex bytes offset length => messageParts (excerpt bytes offset length)

def render (primitive : Primitive) : List Char := primitive.parts.flatten

end Primitive

structure Sheet where
  events : Writer := {}
  diagnostics : Writer := {}
  log : Array Notice := #[]

namespace Sheet

/-- Writes the textual form of a primitive, up to the first part that does not fit. -/
def emit (primitive : Primitive) (sink : Sheet) : Except Refusal Unit × Sheet :=
  let (reply, events) := sink.events.printAll primitive.parts
  (reply, { sink with events })

def remark (remark : Remark) (sink : Sheet) : Sheet :=
  match remark with
  | .notice notice => { sink with log := sink.log.push notice }
  | .debug text =>
    match sink.diagnostics.print (text.toList ++ ['\n']) with
    | (.ok _, diagnostics) => { sink with diagnostics }
    | (.error _, diagnostics) =>
      { sink with diagnostics, log := sink.log.push (.diagnosticLost closed) }

instance : Sink Sheet where
  emit := emit
  remark := remark
  flush sink := sink.events.flush

end Sheet

end MusicMacro
