import MusicMacro.Macro.Invocation
import MusicMacro.Text.Blank

/-! Invocations as lines of text.  Blanks and commas separate the words of a line.  A word in double
quotes is text, with a backslash in front of a character that is meant as it is; any other word is
a number if it reads as one, and else text.  The first word is the name of the macro.  A quote that
is left open ends with the line. -/

namespace MusicMacro

inductive Word where
  | bare (text : List Char)
  | quoted (text : List Char)
  deriving DecidableEq, Repr

namespace Word

def text : Word → List Char
  | .bare text => text
  | .quoted text => text

def arg : Word → Arg
  | .bare text =>
    match Decimal.int32? text with
    | some value => .number value
    | none => .text (String.ofList text)
  | .quoted text => .text (String.ofList text)

end Word

namespace Line

def isSeparator (c : Char) : Bool := Text.isBlank c || c == ','

/-- Where the reading of a line stands.  The characters of an unfinished word are kept with the
last one first. -/
inductive Place where
  | between
  | bare (taken : List Char)
  | quoted (taken : List Char)
  | escaped (taken : List Char)
  deriving DecidableEq, Repr

def words : Place → List Char → List Word
  | .between, [] => []
  | .bare taken, [] => [.bare taken.reverse]
  | .quoted taken, [] => [.quoted taken.reverse]
  | .escaped taken, [] => [.quoted taken.reverse]
  | .between, c :: rest =>
    if isSeparator c then words .between rest
    else if c = '"' then words (.quoted []) rest
    else words (.bare [c]) rest
  | .bare taken, c :: rest =>
    if isSeparator c then .bare taken.reverse :: words .between rest
    else if c = '"' then .bare taken.reverse :: words (.quoted []) rest
    else words (.bare (c :: taken)) rest
  | .quoted taken, c :: rest =>
    if c = '"' then .quoted taken.reverse :: words .between rest
    else if c = '\\' then words (.escaped taken) rest
    else words (.quoted (c :: taken)) rest
  | .escaped taken, c :: rest => words (.quoted (c :: taken)) rest

end Line

def Invocation.ofLine? (line : String) : Option Invocation :=
  match Line.words .between line.toList with
  | [] => none
  | name :: args => some { name := String.ofList name.text, args := args.map Word.arg }

end MusicMacro
