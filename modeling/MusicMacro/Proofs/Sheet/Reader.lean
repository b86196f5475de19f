import Mathlib.Data.List.Basic
import MusicMacro.Sink.Sheet
import MusicMacro.Track.Operation

/-! Written music read back.  An entry is what the textual form tells of a primitive: the channel is
not written, and a message is written as its bytes, whichever call sent them.  The reader takes one
entry after the other from the front of the text and refuses whatever no entry starts with. -/

namespace MusicMacro

namespace Sheet

inductive Entry where
  | loop (mark : LoopMark)
  | message (bytes : List UInt8)
  | metaBytes (type : UInt8) (bytes : List UInt8)
  | metaText (type : UInt8) (text : String)
  deriving DecidableEq, Repr

end Sheet

def Primitive.entry : Primitive → Sheet.Entry
  | .loopOpening _ => .loop .opening
  | .loopLeaving _ targets => .loop (.leaving targets)
  | .loopClosing _ repeats => .loop (.closing repeats)
  | .message2 _ status data => .message [status, data]
  | .message3 _ status data1 data2 => .message [status, data1, data2]
  | .metaBytes type bytes => .metaBytes type bytes
  | .metaText type text => .metaText type text
  | .sysex bytes offset length => .message (excerpt bytes offset length)

def Sheet.Entry.render : Sheet.Entry → List Char
  | .loop mark => (mark.primitive 0).render
  | .message bytes => (Primitive.messageParts bytes).flatten
  | .metaBytes type bytes => (Primitive.metaBytes type bytes).render
  | .metaText type text => (Primitive.metaText type text).render

def Hex.byte? (high low : Char) : Option UInt8 := do
  let high ← value? high
  let low ← value? low
  return UInt8.ofNat (16 * high + low)

/-- Reads an escaped text up to the bare double quote that ends it.  The rest of the input is left
over. -/
def Quoted.read? : List Char → Option (List Char × List Char)
  | [] => none
  | '"' :: rest => some ([], rest)
  | '\\' :: c :: rest => (read? rest).map fun (text, left) => (c :: text, left)
  | c :: rest => (read? rest).map fun (text, left) => (c :: text, left)

namespace Sheet

def isNumeral (c : Char) : Bool := c.isDigit || c == '-'

def isListed (c : Char) : Bool := isNumeral c || c == ','

/-- The numbers of a list, where no text at all is the empty list. -/
def numbers? (word : List Char) : Option (List Int32) :=
  if word.isEmpty then some [] else (word.splitOn ',').mapM Decimal.int32?

def closing : List Char := " \x7d ".toList

def laterBytes? : List Char → Option (List UInt8 × List Char)
  | ',' :: ' ' :: '#' :: high :: low :: rest => do
    let byte ← Hex.byte? high low
    let (bytes, left) ← laterBytes? rest
    return (byte :: bytes, left)
  | rest => some ([], rest)

def message? : List Char → Option (Entry × List Char)
  | ' ' :: '#' :: high :: low :: rest => do
    let first ← Hex.byte? high low
    let (bytes, rest) ← laterBytes? rest
    let left ← rest.dropPrefix? closing
    return (.message (first :: bytes), left)
  | rest => do
    let left ← rest.dropPrefix? closing
    return (.message [], left)

def payload? (type : UInt8) : List Char → Option (Entry × List Char)
  | ',' :: ' ' :: '"' :: rest => do
    let (text, rest) ← Quoted.read? rest
    let left ← rest.dropPrefix? closing
    return (.metaText type (String.ofList text), left)
  | rest => do
    let (bytes, rest) ← laterBytes? rest
    let left ← rest.dropPrefix? closing
    return (.metaBytes type bytes, left)

def metaEvent? : List Char → Option (Entry × List Char)
  | ' ' :: '#' :: high :: low :: rest => do
    let type ← Hex.byte? high low
    payload? type rest
  | _ => none

def readOne? : List Char → Option (Entry × List Char)
  | '[' :: rest => some (.loop .opening, rest)
  | ':' :: rest => do
    let targets ← numbers? (rest.takeWhile isListed)
    return (.loop (.leaving targets), rest.dropWhile isListed)
  | ']' :: rest => do
    let repeats ← Decimal.int32? (rest.takeWhile isNumeral)
    return (.loop (.closing repeats), rest.dropWhile isNumeral)
  | text =>
    match text.dropPrefix? "__MIDI \x7b".toList with
    | some rest => message? rest
    | none => (text.dropPrefix? "__MIDI_META \x7b".toList).bind metaEvent?

/-- Reads all entries of a text. -/
def read? (text : List Char) : Option (List Entry) :=
  if text.isEmpty then some []
  else
    match readOne? text with
    | none => none
    | some (entry, left) =>
      if left.length < text.length then (read? left).map (entry :: ·) else none
termination_by text.length

def readBytes? (output : ByteArray) : Option (List Entry) :=
  (String.fromUTF8? output).bind fun text => read? text.toList

end Sheet

end MusicMacro
