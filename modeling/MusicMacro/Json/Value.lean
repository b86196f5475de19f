import MusicMacro.Text.Decimal
import MusicMacro.Text.Hex

/-! JSON values and their two written forms: the compact one, without any blank, and the laid out
one, with a line for each member and an indentation of two blanks a level. -/

namespace MusicMacro

/-- A JSON value whose numbers are whole.  The members of an object keep their order. -/
inductive Json where
  | null
  | bool (value : Bool)
  | number (value : Int)
  | text (value : String)
  | list (items : List Json)
  | object (members : List (String × Json))
  deriving Repr

namespace Json

/-- A character as it stands in a written text.  Control characters have a short escape or one by
their number; everything that needs no escape stands for itself. -/
def escapeChar (c : Char) : List Char :=
  match c with
  | '"' => ['\\', '"']
  | '\\' => ['\\', '\\']
  | '\x08' => ['\\', 'b']
  | '\x0c' => ['\\', 'f']
  | '\n' => ['\\', 'n']
  | '\r' => ['\\', 'r']
  | '\t' => ['\\', 't']
  | other =>
    if other.toNat < 0x20 then ['\\', 'u', '0', '0'] ++ Hex.lower (UInt8.ofNat other.toNat)
    else [other]

def quote (text : String) : List Char := '"' :: (text.toList.flatMap escapeChar ++ ['"'])

def boolWord (value : Bool) : List Char := if value then "true".toList else "false".toList

mutual

def compact : Json → List Char
  | .null => "null".toList
  | .bool value => boolWord value
  | .number value => Decimal.ofInt value
  | .text value => quote value
  | .list items => '[' :: (compactItems items ++ [']'])
  | .object members => '\x7b' :: (compactMembers members ++ ['\x7d'])

def compactItems : List Json → List Char
  | [] => []
  | [item] => compact item
  | item :: rest => compact item ++ ',' :: compactItems rest

def compactMembers : List (String × Json) → List Char
  | [] => []
  | [(key, value)] => quote key ++ ':' :: compact value
  | (key, value) :: rest => quote key ++ ':' :: (compact value ++ ',' :: compactMembers rest)

end

def newLine (level : Nat) : List Char := '\n' :: List.replicate (2 * level) ' '

mutual

def layOut (level : Nat) : Json → List Char
  | .list [] => "[]".toList
  | .list items =>
    '[' :: (newLine (level + 1) ++ layOutItems (level + 1) items ++ newLine level ++ [']'])
  | .object [] => "\x7b\x7d".toList
  | .object members =>
    '\x7b' :: (newLine (level + 1) ++ layOutMembers (level + 1) members ++ newLine level ++
      ['\x7d'])
  | .null => "null".toList
  | .bool value => boolWord value
  | .number value => Decimal.ofInt value
  | .text value => quote value

def layOutItems (level : Nat) : List Json → List Char
  | [] => []
  | [item] => layOut level item
  | item :: rest => layOut level item ++ ',' :: (newLine level ++ layOutItems level rest)

def layOutMembers (level : Nat) : List (String × Json) → List Char
  | [] => []
  | [(key, value)] => quote key ++ ':' :: ' ' :: layOut level value
  | (key, value) :: rest =>
    quote key ++ ':' :: ' ' :: (layOut level value ++ ',' :: (newLine level ++
      layOutMembers level rest))

end

end Json

end MusicMacro
