import MusicMacro.Text.Decimal

/-! The reasons why a path leads to no file. -/

namespace MusicMacro

inductive FileError where
  | notFound
  | permissionDenied
  | notDirectory
  | isDirectory
  | nameTooLong
  | other (reason : String) (number : Nat)
  deriving DecidableEq, Repr

namespace FileError

def number : FileError → Nat
  | .notFound => 2
  | .permissionDenied => 13
  | .notDirectory => 20
  | .isDirectory => 21
  | .nameTooLong => 36
  | .other _ number => number

def reason : FileError → String
  | .notFound => "No such file or directory"
  | .permissionDenied => "Permission denied"
  | .notDirectory => "Not a directory"
  | .isDirectory => "Is a directory"
  | .nameTooLong => "File name too long"
  | .other reason _ => reason

def message (error : FileError) : String :=
  error.reason ++ " (os error " ++ Decimal.text error.number ++ ")"

/-- The error of a number, under the given reason if it is none of the known ones. -/
def ofNumber (reason : String) (number : Nat) : FileError :=
  match [notFound, permissionDenied, notDirectory, isDirectory, nameTooLong].find? fun error =>
      error.number == number with
  | some error => error
  | none => .other reason number

end FileError

end MusicMacro
