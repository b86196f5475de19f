import MusicMacro.LowByte
import MusicMacro.Text.Decimal
import MusicMacro.Timeline

/-! The arguments of a macro, the kinds of argument that a parameter takes, and the reading of
arguments by their place. -/

namespace MusicMacro

inductive Arg where
  | number (value : Int32)
  | text (value : String)
  deriving DecidableEq, Repr

def Arg.display : Arg → String
  | .number value => Decimal.text value.toInt
  | .text value => value

inductive Parameter where
  | byte
  | int
  | length
  | text
  | any
  | variadic
  deriving DecidableEq, Repr

namespace Parameter

def takes : Parameter → Arg → Bool
  | .any, _ => true
  | .text, .text _ => true
  | .text, .number _ => false
  | _, .number _ => true
  | _, .text _ => false

def expected : Parameter → String
  | .text => "text"
  | .any => "a value"
  | _ => "a number"

def name : Parameter → String
  | .byte => "byte"
  | .int => "int"
  | .length => "length"
  | .text => "text"
  | .any => "any"
  | .variadic => "variadic"

end Parameter

/-- What is read where an argument is missing or of the other kind.  Arguments that were checked
are never read so, except where a macro leaves the choice to the caller. -/
structure Fallback where
  number : Int32 := 0
  text : String := ""

namespace Arg

def numberAt (args : List Arg) (place : Nat) (otherwise : Int32) : Int32 :=
  match args[place]? with
  | some (.number value) => value
  | _ => otherwise

def textAt (args : List Arg) (place : Nat) (otherwise : String) : String :=
  match args[place]? with
  | some (.text value) => value
  | _ => otherwise

end Arg

end MusicMacro
