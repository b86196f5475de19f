import MusicMacro.Json.Token

/-! Passing over a value of any shape.  The brackets that are open are kept as a list, the innermost
first, so nothing bounds how deep a value may be nested, unless a bound is asked for. -/

namespace MusicMacro.Json

inductive Frame where
  | list
  | object
  deriving DecidableEq, Repr

def Frame.part : Frame → Part
  | .list => .list
  | .object => .object

namespace Passage

inductive Expected where
  | value
  | itemOrEnd
  | key
  | keyOrEnd
  | colon
  | commaOrEnd
  deriving DecidableEq, Repr

/-- How a value is passed over: whether its words, numbers and texts must be readable, and how many
brackets may be open at once. -/
structure Rule where
  strict : Bool
  depth : Option Nat
  deriving DecidableEq, Repr

def behindValue : List Frame → Option (Expected × List Frame)
  | [] => none
  | frames => some (.commaOrEnd, frames)

def Rule.fault? {α : Type} (rule : Rule) (reading : Except Fault α) (flaw : Option Fault) :
    Option Fault :=
  match rule.strict, reading with
  | true, .error fault => some fault
  | _, _ => flaw

def orFault {α : Type} (fault : Option Fault) (next : α) : Except Fault α :=
  match fault with
  | some fault => .error fault
  | none => .ok next

def Rule.opening (rule : Rule) (expected : Expected) (frame : Frame) (frames : List Frame) :
    Except Fault (Option (Expected × List Frame)) :=
  if rule.depth.any (· ≤ frames.length) then .error .tooDeep
  else .ok (some (expected, frame :: frames))

def Rule.valueStep (rule : Rule) (frames : List Frame) :
    Token → Except Fault (Option (Expected × List Frame))
  | .bare reading flaw => orFault (rule.fault? reading flaw) (behindValue frames)
  | .quoted reading flaw => orFault (rule.fault? reading flaw) (behindValue frames)
  | .openList => rule.opening .itemOrEnd .list frames
  | .openObject => rule.opening .keyOrEnd .object frames
  | _ => .error .expectedValue

def Rule.keyStep (rule : Rule) (frames : List Frame) :
    Token → Except Fault (Option (Expected × List Frame))
  | .quoted reading flaw => orFault (rule.fault? reading flaw) (some (.colon, frames))
  | _ => .error .keyNotText

def Rule.step (rule : Rule) (expected : Expected) (frames : List Frame) (token : Token) :
    Except Fault (Option (Expected × List Frame)) :=
  match expected, token with
  | .value, token => rule.valueStep frames token
  | .itemOrEnd, .closeList => .ok (behindValue frames.tail)
  | .itemOrEnd, token => rule.valueStep frames token
  | .key, token => rule.keyStep frames token
  | .keyOrEnd, .closeObject => .ok (behindValue frames.tail)
  | .keyOrEnd, token => rule.keyStep frames token
  | .colon, .colon => .ok (some (.value, frames))
  | .colon, _ => .error .expectedColon
  | .commaOrEnd, token =>
    match frames.head?, token with
    | some .list, .comma => .ok (some (.value, frames))
    | some .list, .closeList => .ok (behindValue frames.tail)
    | some .object, .comma => .ok (some (.key, frames))
    | some .object, .closeObject => .ok (behindValue frames.tail)
    | some .object, _ => .error .expectedObjectEnd
    | _, _ => .error .expectedListEnd

def endFault (expected : Expected) (frames : List Frame) : Fault :=
  match expected with
  | .value => .endIn .value
  | .itemOrEnd => .endIn .list
  | .key => .endIn .object
  | .keyOrEnd => .endIn .object
  | .colon => .endIn .object
  | .commaOrEnd => .endIn ((frames.head?.map Frame.part).getD .value)

/-- Passes over the rest of a value, to what follows it.  A fault comes with the tokens that it was
found before. -/
def Rule.pass (rule : Rule) (expected : Expected) (frames : List Frame) :
    List Token → Except (Fault × List Token) (List Token)
  | [] => .error (endFault expected frames, [])
  | token :: rest =>
    match rule.step expected frames token with
    | .error fault => .error (fault, rest)
    | .ok none => .ok rest
    | .ok (some (expected, frames)) => rule.pass expected frames rest

theorem Rule.length_pass {rule : Rule} {expected : Expected} {frames : List Frame}
    {text rest : List Token} (h : rule.pass expected frames text = .ok rest) :
    rest.length < text.length := by
  induction text generalizing expected frames with
  | nil => cases h
  | cons token tail ih =>
    unfold Rule.pass at h
    split at h
    · cases h
    · cases h; exact Nat.lt_succ_self _
    · exact Nat.lt_succ_of_lt (ih h)

end Passage

end MusicMacro.Json
