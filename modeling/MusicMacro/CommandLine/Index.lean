/-! Port numbers on the command line: decimal digits after at most one plus sign, of a number that
fits into 64 bits.  The digits are read from the left, and the first fault counts. -/

namespace MusicMacro.CommandLine

inductive IndexError where
  | empty
  | invalidDigit
  | tooLarge
  deriving DecidableEq, Repr

def IndexError.message : IndexError → String
  | .empty => "cannot parse integer from empty string"
  | .invalidDigit => "invalid digit found in string"
  | .tooLarge => "number too large to fit in target type"

/-- The number that the digits write behind those of `taken`. -/
def readDigits (taken : Nat) : List Char → Except IndexError Nat
  | [] => .ok taken
  | c :: rest =>
    if !c.isDigit then .error .invalidDigit
    else
      let next := taken * 10 + (c.toNat - '0'.toNat)
      if next < 1 <<< 64 then readDigits next rest else .error .tooLarge

def readIndex : List Char → Except IndexError Nat
  | [] => .error .empty
  | ['+'] => .error .invalidDigit
  | '+' :: digits => readDigits 0 digits
  | digits => readDigits 0 digits

end MusicMacro.CommandLine
