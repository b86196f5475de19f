import MusicMacro.Json.Passage
import MusicMacro.Json.Value

/-! Readers of JSON.  A reader takes the tokens of one value from the front of the tokens and stops
at the first fault, so of two faults the left one is found, whatever their kinds.  What a reader
leaves is shorter than what it was given. -/

namespace MusicMacro.Json

/-- A value that was read from tokens, and the tokens behind it. -/
structure Reading (α : Type) (tokens : List Token) where
  value : α
  rest : List Token
  shorter : rest.length < tokens.length

structure Failure where
  fault : Fault
  rest : List Token

abbrev Reader (α : Type) := (tokens : List Token) → Except Failure (Reading α tokens)

theorem Reading.shorter_of_cons {α : Type} {tokens rest : List Token} {token : Token}
    (reading : Reading α tokens) (h : reading.rest = token :: rest) :
    rest.length < tokens.length := by
  have hs := reading.shorter
  rw [h] at hs
  exact Nat.lt_of_succ_lt hs

def Reading.withValue {α β : Type} {tokens : List Token} (reading : Reading α tokens) (value : β) :
    Reading β tokens :=
  ⟨value, reading.rest, reading.shorter⟩

def Reading.within {α : Type} {fewer tokens : List Token} (reading : Reading α fewer)
    (h : fewer.length ≤ tokens.length) : Reading α tokens :=
  ⟨reading.value, reading.rest, Nat.lt_of_lt_of_le reading.shorter h⟩

/-- A field of a record: its name, how it is written, and how its value changes the record. -/
structure Field (σ : Type) where
  name : String
  write : σ → Json
  reader : Reader (σ → σ)

namespace Reader

def mapValue {α β : Type} (reader : Reader α) (f : α → Except Fault β) : Reader β := fun tokens =>
  match reader tokens with
  | .error failure => .error failure
  | .ok reading =>
    match f reading.value with
    | .error fault => .error ⟨fault, reading.rest⟩
    | .ok value => .ok (reading.withValue value)

def single {α : Type} (token : Token) (rest : List Token) (value : Except Fault α) :
    Except Failure (Reading α (token :: rest)) :=
  match value with
  | .ok value => .ok ⟨value, rest, Nat.lt_succ_self _⟩
  | .error fault => .error ⟨fault, rest⟩

/-- Reads a word, a number or a text.  Anything else that can start a value is of the wrong
type. -/
def scalar : Reader Scalar
  | [] => .error ⟨.endIn .value, []⟩
  | .bare reading flaw :: rest => single (.bare reading flaw) rest reading
  | .quoted reading flaw :: rest => single (.quoted reading flaw) rest (reading.map Scalar.text)
  | .openList :: rest => .error ⟨.wrongType, rest⟩
  | .openObject :: rest => .error ⟨.wrongType, rest⟩
  | _ :: rest => .error ⟨.expectedValue, rest⟩

/-- Finds whatever stands there to be of the wrong type, if it is a value at all. -/
def wrongType {α : Type} : Reader α := mapValue scalar fun _ => .error .wrongType

def integer (low high : Int) : Reader Int :=
  mapValue scalar fun
    | .integer value =>
      if low ≤ value ∧ value ≤ high then .ok value else .error (.outOfRange value)
    | _ => .error .wrongType

def int32 : Reader Int32 :=
  mapValue (integer (-2147483648) 2147483647) fun value => .ok (Int32.ofInt value)

def byte : Reader UInt8 := mapValue (integer 0 255) fun value => .ok (UInt8.ofNat value.toNat)

def null : Reader Unit :=
  mapValue scalar fun
    | .null => .ok ()
    | _ => .error .wrongType

def passOver (rule : Passage.Rule) : Reader Unit := fun tokens =>
  match h : rule.pass .value [] tokens with
  | .error (fault, rest) => .error ⟨fault, rest⟩
  | .ok rest => .ok ⟨(), rest, Passage.Rule.length_pass h⟩

def skip : Reader Unit := passOver ⟨false, none⟩

def behindColon {α : Type} (reader : Reader α) : Reader α
  | [] => .error ⟨.endIn .object, []⟩
  | .colon :: tokens => (reader tokens).map fun reading => reading.within (Nat.le_succ _)
  | _ :: rest => .error ⟨.expectedColon, rest⟩

/-! ### Lists -/

/-- Reads the items of a list up to its end, the next of which stands in front. -/
def items {α : Type} (item : Reader α) (tokens : List Token) :
    Except Failure (Reading (List α) tokens) := do
  let first ← item tokens
  match h : first.rest with
  | [] => .error ⟨.endIn .list, []⟩
  | .closeList :: rest => .ok ⟨[first.value], rest, first.shorter_of_cons h⟩
  | .comma :: rest =>
    have : rest.length < tokens.length := first.shorter_of_cons h
    let later ← items item rest
    .ok ((later.withValue (first.value :: later.value)).within (Nat.le_of_lt this))
  | _ :: rest => .error ⟨.expectedListEnd, rest⟩
termination_by tokens.length

def list {α : Type} (item : Reader α) : Reader (List α)
  | .openList :: .closeList :: rest =>
    .ok ⟨[], rest, Nat.lt_succ_of_lt (Nat.lt_succ_self _)⟩
  | .openList :: tokens => (items item tokens).map fun reading => reading.within (Nat.le_succ _)
  | tokens => wrongType tokens

/-! ### Records -/

/-- Reads what follows a key: the value of a field that was not given before, or any value if the
key names no field.  The names of the fields given so far come first. -/
def member {σ : Type} (fields : List (Field σ)) (given : List String) (key : String) :
    Reader (List String × (σ → σ)) := fun tokens =>
  match fields.find? fun field => field.name == key with
  | none => mapValue (behindColon skip) (fun _ => .ok (given, id)) tokens
  | some field =>
    if given.contains key then .error ⟨.repeatedField key, tokens⟩
    else mapValue (behindColon field.reader) (fun change => .ok (key :: given, change)) tokens

def key : Reader String
  | [] => .error ⟨.endIn .object, []⟩
  | .quoted reading flaw :: rest => single (.quoted reading flaw) rest reading
  | _ :: rest => .error ⟨.keyNotText, rest⟩

def members {σ : Type} (fields : List (Field σ)) (given : List String) (record : σ)
    (tokens : List Token) : Except Failure (Reading σ tokens) := do
  let name ← key tokens
  let found ← member fields given name.value name.rest
  match h : found.rest with
  | [] => .error ⟨.endIn .object, []⟩
  | .closeObject :: rest =>
    .ok ⟨found.value.2 record, rest, Nat.lt_trans (found.shorter_of_cons h) name.shorter⟩
  | .comma :: rest =>
    have : rest.length < tokens.length := Nat.lt_trans (found.shorter_of_cons h) name.shorter
    let later ← members fields found.value.1 (found.value.2 record) rest
    .ok (later.within (Nat.le_of_lt this))
  | _ :: rest => .error ⟨.expectedObjectEnd, rest⟩
termination_by tokens.length

/-- Reads the rest of a record that is written as a list of its fields in order, each behind a
comma.  A list that ends early leaves the other fields as they are, where that is allowed. -/
def laterFields {σ : Type} (mayEndEarly : Bool) : List (Field σ) → (record : σ) → Reader σ
  | _, _, [] => .error ⟨.endIn .list, []⟩
  | fields, record, .closeList :: rest =>
    if mayEndEarly || fields.isEmpty then .ok ⟨record, rest, Nat.lt_succ_self _⟩
    else .error ⟨.wrongLength, rest⟩
  | field :: fields, record, .comma :: tokens => do
    let change ← field.reader tokens
    let later ← laterFields mayEndEarly fields (change.value record) change.rest
    .ok (later.within (Nat.le_succ_of_le (Nat.le_of_lt change.shorter)))
  | [], _, _ :: rest => .error ⟨.trailingCharacters, rest⟩
  | _ :: _, _, _ :: rest => .error ⟨.expectedListEnd, rest⟩

def allFields {σ : Type} (mayEndEarly : Bool) (fields : List (Field σ)) (record : σ) :
    Reader σ := fun tokens =>
  match fields, tokens with
  | [], tokens => laterFields mayEndEarly [] record tokens
  | fields, .closeList :: rest => laterFields mayEndEarly fields record (.closeList :: rest)
  | field :: fields, tokens => do
    let change ← field.reader tokens
    let later ← laterFields mayEndEarly fields (change.value record) change.rest
    .ok (later.within (Nat.le_of_lt change.shorter))

def tuple {σ : Type} (fields : List (Field σ)) (start : σ) : Reader σ
  | .openList :: tokens =>
    (allFields false fields start tokens).map fun reading => reading.within (Nat.le_succ _)
  | tokens => wrongType tokens

/-- Reads a record, from its members by name in any order or from its fields in a list.  Fields
that are not given stay as they are in `start`. -/
def record {σ : Type} (fields : List (Field σ)) (start : σ) : Reader σ
  | .openObject :: .closeObject :: rest =>
    .ok ⟨start, rest, Nat.lt_succ_of_lt (Nat.lt_succ_self _)⟩
  | .openObject :: tokens =>
    (members fields [] start tokens).map fun reading => reading.within (Nat.le_succ _)
  | .openList :: tokens =>
    (allFields true fields start tokens).map fun reading => reading.within (Nat.le_succ _)
  | tokens => wrongType tokens

/-! ### Names -/

def variantOf {α : Type} (variants : List (String × α)) (name : String) : Except Fault α :=
  match variants.lookup name with
  | some variant => .ok variant
  | none => .error (.unknownVariant name)

def variantKey {α : Type} (variants : List (String × α)) : Reader α := fun tokens => do
  let name ← mapValue key (variantOf variants) tokens
  let value ← behindColon null name.rest
  match h : value.rest with
  | [] => .error ⟨.endIn .object, []⟩
  | .closeObject :: rest =>
    .ok ⟨name.value, rest, Nat.lt_trans (value.shorter_of_cons h) name.shorter⟩
  | _ :: rest => .error ⟨.expectedValue, rest⟩

/-- Reads one of some names, which stands alone or as the only key of an object whose value is
`null`. -/
def variant {α : Type} (variants : List (String × α)) : Reader α
  | [] => .error ⟨.endIn .value, []⟩
  | .quoted reading flaw :: rest =>
    single (.quoted reading flaw) rest (reading.bind (variantOf variants))
  | .openObject :: tokens =>
    (variantKey variants tokens).map fun reading => reading.within (Nat.le_succ _)
  | _ :: rest => .error ⟨.expectedValue, rest⟩

end Reader

/-! ### Whole texts -/

structure ReadError where
  fault : Fault
  line : Nat
  column : Nat
  deriving DecidableEq, Repr

namespace ReadError

def message (error : ReadError) : String :=
  error.fault.message ++ " at line " ++ Decimal.text error.line ++ " column " ++
    Decimal.text error.column

/-- A fault that was found before the last `left` tokens of a text. -/
def place (text : List Char) (fault : Fault) (left : Nat) : ReadError :=
  let behind := dropTokens ((tokens text).length - left) text
  let before :=
    match fault.kind with
    | .brokenOff => text
    | _ => text.take (text.length - behind.length)
  let lastLine := (before.reverse.takeWhile (· ≠ '\n')).reverse
  { fault, line := before.count '\n' + 1, column := (String.ofList lastLine).utf8ByteSize }

end ReadError

def Reader.read {α : Type} (reader : Reader α) (text : String) : Except ReadError α :=
  match reader (tokens text.toList) with
  | .error failure => .error (.place text.toList failure.fault failure.rest.length)
  | .ok ⟨value, [], _⟩ => .ok value
  | .ok ⟨_, _ :: rest, _⟩ => .error (.place text.toList .trailingCharacters rest.length)

end MusicMacro.Json
