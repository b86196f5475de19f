import MusicMacro.CommandLine.Index
import MusicMacro.Config.Format
import MusicMacro.Macro.Invocation

/-! The options of the command line.  An argument that spells an option takes its value from the
next argument, whatever that spells; every other argument is a command.  Of an option that is
given twice the last value counts. -/

namespace MusicMacro.CommandLine

inductive Output where
  | text
  | live
  deriving DecidableEq, Repr

structure Options where
  config : Option String := none
  output : Output := .text
  port : Option Nat := none
  listMacros : Bool := false
  listPorts : Bool := false
  commands : List String := []
  deriving DecidableEq, Repr

inductive Failure where
  | missingConfig
  | missingOutput
  | unknownOutput (name : String)
  | missingPort
  | invalidPort (text : String) (cause : IndexError)
  | noPorts
  | configNotLoaded (path : String) (cause : LoadError)
  | commandFailed (command : String) (cause : CallError)
  deriving DecidableEq, Repr

namespace Failure

def message : Failure → String
  | .missingConfig => "--config requires a path argument"
  | .missingOutput => "--sink requires text or live"
  | .unknownOutput name => "unknown sink: " ++ name
  | .missingPort => "--port requires an index"
  | .invalidPort text _ => "invalid port index: " ++ text
  | .noPorts => "built without MIDI port support; rebuild with `--features midir`"
  | .configNotLoaded path _ => "failed to load config " ++ path
  | .commandFailed command _ => "failed to run `" ++ command ++ "`"

def cause? : Failure → Option String
  | .invalidPort _ cause => some cause.message
  | .configNotLoaded _ cause => some cause.message
  | .commandFailed _ cause => some cause.message
  | _ => none

/-- A text whose lines after the first are indented like the first. -/
def indent (text : List Char) : List Char :=
  text.flatMap fun c => if c = '\n' then "\n    ".toList else [c]

def report (failure : Failure) : String :=
  "Error: " ++ failure.message ++
    match failure.cause? with
    | none => "\n"
    | some cause => "\n\nCaused by:\n    " ++ String.ofList (indent cause.toList) ++ "\n"

end Failure

inductive Spelling where
  | config
  | output
  | port
  | listMacros
  | listPorts
  | help
  | command
  deriving DecidableEq, Repr

def spelling : String → Spelling
  | "--config" => .config
  | "-c" => .config
  | "--sink" => .output
  | "-s" => .output
  | "--port" => .port
  | "-p" => .port
  | "--list-macros" => .listMacros
  | "--list-ports" => .listPorts
  | "--help" => .help
  | "-h" => .help
  | _ => .command

def outputOf (name : String) : Except Failure Output :=
  match name with
  | "text" => .ok .text
  | "live" => .ok .live
  | other => .error (.unknownOutput other)

def portOf (text : String) : Except Failure Nat :=
  (readIndex text.toList).mapError (.invalidPort text)

inductive Request where
  | help
  | run (options : Options)
  deriving DecidableEq, Repr

/-- The request of the arguments that follow those of `options`.  Help is given as soon as it is
asked for, and the arguments behind it are not read. -/
def request (options : Options) : List String → Except Failure Request
  | [] => .ok (.run options)
  | argument :: rest =>
    match spelling argument, rest with
    | .command, rest => request { options with commands := options.commands ++ [argument] } rest
    | .listMacros, rest => request { options with listMacros := true } rest
    | .listPorts, rest => request { options with listPorts := true } rest
    | .help, _ => .ok .help
    | .config, [] => .error .missingConfig
    | .config, path :: rest => request { options with config := some path } rest
    | .output, [] => .error .missingOutput
    | .output, name :: rest =>
      match outputOf name with
      | .error failure => .error failure
      | .ok output => request { options with output } rest
    | .port, [] => .error .missingPort
    | .port, text :: rest =>
      match portOf text with
      | .error failure => .error failure
      | .ok port => request { options with port := some port } rest

end MusicMacro.CommandLine
