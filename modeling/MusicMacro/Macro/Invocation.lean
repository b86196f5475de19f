import MusicMacro.Macro.Table

/-! Invocations of macros: a name and arguments, which are checked against the table before they
become an operation.  The name is checked first, then the number of the arguments, then each
argument from the left. -/

namespace MusicMacro

structure Invocation where
  name : String
  args : List Arg
  deriving DecidableEq, Repr

inductive CallError where
  | unknown (name : String)
  /-- There are too few or too many arguments.  Without a maximum there are too few. -/
  | argumentCount (name : String) (min : Nat) (max : Option Nat) (got : Nat)
  | misfit (name : String) (place : Nat) (kind : Parameter)
  | sink (cause : Refusal)
  deriving DecidableEq, Repr

def CallError.message : CallError → String
  | .unknown name => "unknown macro: " ++ name
  | .argumentCount name min max got =>
    "macro " ++ name ++ " expects " ++ Decimal.text min ++ "..=" ++
      (max.map fun most => Decimal.text most).getD "" ++ " arguments, got " ++ Decimal.text got
  | .misfit name place kind =>
    "macro " ++ name ++ ": argument " ++ Decimal.text place ++ " must be " ++ kind.expected
  | .sink cause => cause.message

def Macro.validate (entry : Macro) (args : List Arg) : Except CallError Unit :=
  if args.length < entry.required ∨ entry.arityLimit?.any (· < args.length) then
    .error (.argumentCount entry.name entry.required entry.arityLimit? args.length)
  else
    match entry.misfit? args with
    | some (_, place) => .error (.misfit entry.name place (entry.kindAt place))
    | none => .ok ()

namespace Invocation

/-- The operation that an invocation stands for on a timeline of the given resolution.  The
fallback is what the operation reads for arguments that are not there. -/
def operation (fallback : Fallback) (resolution : Resolution) (invocation : Invocation) :
    Except CallError Operation :=
  match Macro.lookup? invocation.name with
  | none => .error (.unknown invocation.name)
  | some entry =>
    (entry.validate invocation.args).map fun _ =>
      entry.action.operation resolution fallback invocation.args

end Invocation

end MusicMacro
