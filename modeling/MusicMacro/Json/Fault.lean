import MusicMacro.Text.Decimal

/-! What can be wrong with a text that is read as JSON.  A text may break off, it may not be JSON,
or it may be JSON of another shape than the reader asks for. -/

namespace MusicMacro.Json

inductive Part where
  | value
  | list
  | object
  | text
  deriving DecidableEq, Repr

inductive FaultKind where
  | brokenOff
  | malformed
  | unfit
  deriving DecidableEq, Repr

inductive Fault where
  | endIn (part : Part)
  | expectedColon
  | expectedListEnd
  | expectedObjectEnd
  | expectedWord
  | expectedValue
  | invalidEscape
  | invalidNumber
  | numberTooLarge
  | controlCharacter
  | keyNotText
  | loneSurrogate
  | unpairedSurrogate
  | trailingCharacters
  | tooDeep
  | wrongType
  | outOfRange (value : Int)
  | wrongLength
  | repeatedField (name : String)
  | unknownVariant (name : String)
  | noVariant
  deriving DecidableEq, Repr

namespace Fault

def kind : Fault → FaultKind
  | .endIn _ => .brokenOff
  | .wrongType => .unfit
  | .outOfRange _ => .unfit
  | .wrongLength => .unfit
  | .repeatedField _ => .unfit
  | .unknownVariant _ => .unfit
  | .noVariant => .unfit
  | _ => .malformed

def message : Fault → String
  | .endIn .value => "EOF while parsing a value"
  | .endIn .list => "EOF while parsing a list"
  | .endIn .object => "EOF while parsing an object"
  | .endIn .text => "EOF while parsing a string"
  | .expectedColon => "expected `:`"
  | .expectedListEnd => "expected `,` or `]`"
  | .expectedObjectEnd => "expected `,` or `\x7d`"
  | .expectedWord => "expected ident"
  | .expectedValue => "expected value"
  | .invalidEscape => "invalid escape"
  | .invalidNumber => "invalid number"
  | .numberTooLarge => "number out of range"
  | .controlCharacter => "control character (\\u0000-\\u001F) found while parsing a string"
  | .keyNotText => "key must be a string"
  | .loneSurrogate => "lone leading surrogate in hex escape"
  | .unpairedSurrogate => "unexpected end of hex escape"
  | .trailingCharacters => "trailing characters"
  | .tooDeep => "recursion limit exceeded"
  | .wrongType => "invalid type"
  | .outOfRange value => "invalid value: integer `" ++ Decimal.text value ++ "`"
  | .wrongLength => "invalid length"
  | .repeatedField name => "duplicate field `" ++ name ++ "`"
  | .unknownVariant name => "unknown variant `" ++ name ++ "`"
  | .noVariant => "data did not match any variant"

end Fault

end MusicMacro.Json
