import MusicMacro.Sink

/-! An output for bytes that may run out of room.  A write that does not fit leaves the part that
fits in the output and fails, and from then on there is no room. -/

namespace MusicMacro

structure Writer where
  written : ByteArray := .empty
  room : Option Nat := none

namespace Writer

/-- Writes as much as there is room for, and fails if that is not everything. -/
def write (writer : Writer) (bytes : ByteArray) : Except Refusal Unit × Writer :=
  match writer.room with
  | none => (.ok (), { writer with written := writer.written ++ bytes })
  | some room =>
    let rest := { written := writer.written ++ bytes.extract 0 room, room := some (room - bytes.size) }
    if bytes.size ≤ room then (.ok (), rest) else (.error (.io closed), rest)

def print (writer : Writer) (text : List Char) : Except Refusal Unit × Writer :=
  writer.write (String.ofList text).toUTF8

/-- Writes texts one after the other, up to the first that does not fit. -/
def printAll (writer : Writer) : List (List Char) → Except Refusal Unit × Writer
  | [] => (.ok (), writer)
  | text :: rest =>
    match writer.print text with
    | (.ok _, writer) => writer.printAll rest
    | (.error cause, writer) => (.error cause, writer)

/-- Fails once no room is left, even if nothing was lost. -/
def flush (writer : Writer) : Except Refusal Unit :=
  if writer.room = some 0 then .error (.io closed) else .ok ()

end Writer

end MusicMacro
