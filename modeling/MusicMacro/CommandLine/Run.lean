import MusicMacro.CommandLine.Options
import MusicMacro.Macro.Format
import MusicMacro.Sink.Live
import MusicMacro.Sink.Sheet
import MusicMacro.Track

/-! The program behind the command line: the commands run in order on one track, up to the first
that fails.  Written music goes out as it is made, while the messages for a port are shown only
when all commands have run. -/

namespace MusicMacro.CommandLine

structure Result where
  exitCode : UInt8
  output : ByteArray
  diagnostics : ByteArray

def usage : String :=
  "mmlengine - Music Macro Language runtime\n\n" ++
  "Usage: mmlengine [OPTIONS] [MACRO...]\n\n" ++
  "Options:\n" ++
  "  -c, --config PATH   Load engine configuration from JSON\n" ++
  "  -s, --sink KIND     Output sink: text (default) or live\n" ++
  "  -p, --port INDEX    MIDI output port for the live sink\n" ++
  "      --list-macros   Print the macro table as JSON\n" ++
  "      --list-ports    Print available MIDI output ports\n" ++
  "  -h, --help          Print this help message\n\n" ++
  "Each MACRO is a name followed by its arguments, e.g. \"n 64 48\".\n"

def Result.success (output : String) : Result := ⟨0, output.toUTF8, .empty⟩

def Result.failure (failure : Failure) : Result := ⟨1, .empty, failure.report.toUTF8⟩

/-- Runs commands in order up to the first that fails.  A blank one does nothing. -/
def playAll {σ : Type} [Sink σ] (track : Track σ) : List String → Option Failure × Track σ
  | [] => (none, track)
  | command :: rest =>
    match Invocation.ofLine? command with
    | none => playAll track rest
    | some invocation =>
      match track.invoke invocation with
      | (.ok _, track) => playAll track rest
      | (.error cause, track) => (some (.commandFailed command cause), track)

def messageLine (message : List UInt8) : List Char :=
  [' '].intercalate (message.map Hex.upper) ++ ['\n']

def playWritten (config : Config) (commands : List String) : Result :=
  let (failure, track) := playAll (Track.start config ({} : Sheet)) commands
  let written := track.sink.events.written
  let said := track.sink.diagnostics.written
  match failure with
  | none => ⟨0, written ++ "\n".toUTF8, said⟩
  | some failure => ⟨1, written, said ++ failure.report.toUTF8⟩

def playLive (config : Config) (commands : List String) : Result :=
  match playAll (Track.start config ({ port := {} } : Transmitter)) commands with
  | (some failure, _) => .failure failure
  | (none, track) =>
    .success (String.ofList (track.sink.port.sent.toList.flatMap messageLine))

def loadConfig (file : String → Except FileError ByteArray) (options : Options) :
    Except Failure Config :=
  match options.config with
  | none => .ok .standard
  | some path => (Config.load (file path)).mapError (.configNotLoaded path)

def runOptions (file : String → Except FileError ByteArray) (options : Options) : Result :=
  if options.listMacros then .success (Macro.listing ++ "\n")
  else if options.listPorts then .failure .noPorts
  else
    match loadConfig file options with
    | .error failure => .failure failure
    | .ok config =>
      match options.output, options.port with
      | .text, _ => playWritten config options.commands
      | .live, none => playLive config options.commands
      | .live, some _ => .failure .noPorts

/-- Runs the program with arguments, over files that are looked up by their path. -/
def run (file : String → Except FileError ByteArray) (arguments : List String) : Result :=
  match request {} arguments with
  | .error failure => .failure failure
  | .ok .help => ⟨0, .empty, usage.toUTF8⟩
  | .ok (.run options) => runOptions file options

end MusicMacro.CommandLine
