import MusicMacro.Json.Reader

/-! Types with a JSON form.  The fields of a record are described once, for writing and for
reading. -/

namespace MusicMacro

class JsonFormat (α : Type) where
  write : α → Json
  reader : Json.Reader α

namespace JsonFormat

def compact {α : Type} [JsonFormat α] (value : α) : String := String.ofList (write value).compact

def layOut {α : Type} [JsonFormat α] (value : α) : String := String.ofList ((write value).layOut 0)

def read (α : Type) [JsonFormat α] (text : String) : Except Json.ReadError α :=
  (reader : Json.Reader α).read text

instance : JsonFormat Int32 where
  write value := .number value.toInt
  reader := .int32

instance : JsonFormat UInt8 where
  write value := .number value.toNat
  reader := .byte

instance {α : Type} [JsonFormat α] : JsonFormat (List α) where
  write values := .list (values.map write)
  reader := .list reader

@[reducible] def ofNames {α : Type} (all : List α) (name : α → String) : JsonFormat α where
  write value := .text (name value)
  reader := .variant (all.map fun value => (name value, value))

@[reducible] def ofNumber {α : Type} (get : α → Int32) (make : Int32 → α) : JsonFormat α where
  write value := .number (get value).toInt
  reader := .mapValue .int32 fun value => .ok (make value)

def writeRecord {σ : Type} (fields : List (Json.Field σ)) (record : σ) : Json :=
  .object (fields.map fun field => (field.name, field.write record))

/-- The form of a record in which what is not given is taken from `start`. -/
@[reducible] def ofFields {σ : Type} (fields : List (Json.Field σ)) (start : σ) : JsonFormat σ where
  write := writeRecord fields
  reader := .record fields start

@[reducible] def ofTuple {σ : Type} (fields : List (Json.Field σ)) (start : σ) : JsonFormat σ where
  write record := .list (fields.map fun field => field.write record)
  reader := .tuple fields start

end JsonFormat

/-- The field of a name whose value one function takes out of a record and another puts in. -/
def Json.Field.of {σ α : Type} [JsonFormat α] (name : String) (get : σ → α) (put : α → σ → σ) :
    Json.Field σ where
  name := name
  write record := JsonFormat.write (get record)
  reader := .mapValue JsonFormat.reader fun value => .ok (put value)

end MusicMacro
