import MusicMacro.Json.Number
import MusicMacro.Json.Text

/-! The tokens of a JSON text.  A token carries what is wrong with it in two ways: what a reader
finds that wants its value, and the flaw that even a reader finds that passes over it.  No token
follows a flaw.  Whether a token may stand where it stands is not decided here. -/

namespace MusicMacro.Json

inductive Scalar where
  | null
  | bool (value : Bool)
  | integer (value : Int)
  | float
  | text (value : String)
  deriving DecidableEq, Repr

inductive Token where
  | openList
  | closeList
  | openObject
  | closeObject
  | comma
  | colon
  | bare (reading : Except Fault Scalar) (flaw : Option Fault)
  | quoted (reading : Except Fault String) (flaw : Option Fault)
  | stray

namespace Token

def isSpace (c : Char) : Bool := c == ' ' || c == '\t' || c == '\n' || c == '\r'

def afterWord : (word text : List Char) → Except Fault (List Char)
  | [], text => .ok text
  | _ :: _, [] => .error (.endIn .value)
  | letter :: word, c :: text =>
    if c = letter then afterWord word text else .error .expectedWord

def ofWord (word : List Char) (scalar : Scalar) (text : List Char) : Token × List Char :=
  match afterWord word text with
  | .ok rest => (.bare (.ok scalar) none, rest)
  | .error fault => (.bare (.error fault) (some fault), [])

def ofNumber (text : List Char) : Token × List Char :=
  match Number.scan text with
  | .ok (written, rest) =>
    let reading := written.value.map fun
      | .integer value => Scalar.integer value
      | .float => Scalar.float
    (.bare reading none, rest)
  | .error fault => (.bare (.error fault) (some .invalidNumber), [])

def ofText (text : List Char) : Token × List Char :=
  let reading := (Text.read text).map fun (value, _) => String.ofList value
  match Text.pass text with
  | .ok rest => (.quoted reading none, rest)
  | .error fault => (.quoted reading (some fault), [])

def starting (c : Char) (rest : List Char) : Token × List Char :=
  match c with
  | '[' => (.openList, rest)
  | ']' => (.closeList, rest)
  | '\x7b' => (.openObject, rest)
  | '\x7d' => (.closeObject, rest)
  | ',' => (.comma, rest)
  | ':' => (.colon, rest)
  | '"' => ofText rest
  | 'n' => ofWord "ull".toList .null rest
  | 't' => ofWord "rue".toList (.bool true) rest
  | 'f' => ofWord "alse".toList (.bool false) rest
  | c => if c = '-' ∨ c.isDigit then ofNumber (c :: rest) else (.stray, rest)

def next? : List Char → Option (Token × List Char)
  | [] => none
  | c :: rest => if isSpace c then next? rest else some (starting c rest)

/-! ### A token takes at least one character -/

theorem length_afterWord {word text rest : List Char} (h : afterWord word text = .ok rest) :
    rest.length ≤ text.length := by
  fun_induction afterWord word text with
  | case1 => cases h; exact Nat.le_refl _
  | case2 => cases h
  | case3 _ _ _ ih => exact Nat.le_succ_of_le (ih h)
  | case4 => cases h

theorem length_ofWord (word : List Char) (scalar : Scalar) (text : List Char) :
    (ofWord word scalar text).2.length ≤ text.length := by
  unfold ofWord
  split
  · next h => exact length_afterWord h
  · exact Nat.zero_le _

theorem length_ofText (text : List Char) : (ofText text).2.length ≤ text.length := by
  unfold ofText
  simp only
  split
  · next h => exact Nat.le_of_lt (Text.length_pass h)
  · exact Nat.zero_le _

theorem length_ofNumber {text : List Char} (h : text ≠ []) :
    (ofNumber text).2.length < text.length := by
  unfold ofNumber
  split
  · next hs => exact Number.length_scan hs
  · exact List.length_pos_iff.mpr h

theorem length_starting (c : Char) (rest : List Char) :
    (starting c rest).2.length ≤ rest.length := by
  unfold starting
  split
  case h_7 => exact length_ofText rest
  case h_8 => exact length_ofWord _ _ rest
  case h_9 => exact length_ofWord _ _ rest
  case h_10 => exact length_ofWord _ _ rest
  case h_11 =>
    split
    · exact Nat.le_of_lt_succ (length_ofNumber (List.cons_ne_nil _ _))
    · exact Nat.le_refl _
  all_goals exact Nat.le_refl _

theorem length_next? {text rest : List Char} {token : Token} (h : next? text = some (token, rest)) :
    rest.length < text.length := by
  fun_induction next? text with
  | case1 => cases h
  | case2 c tail _ ih => exact Nat.lt_succ_of_lt (ih h)
  | case3 c tail _ =>
    have hle := length_starting c tail
    rw [Option.some.inj h] at hle
    exact Nat.lt_succ_of_le hle

end Token

def tokens (text : List Char) : List Token :=
  match h : Token.next? text with
  | none => []
  | some (token, rest) =>
    have : rest.length < text.length := Token.length_next? h
    token :: tokens rest
termination_by text.length

def dropTokens : (count : Nat) → (text : List Char) → List Char
  | 0, text => text
  | count + 1, text =>
    match Token.next? text with
    | none => []
    | some (_, rest) => dropTokens count rest

end MusicMacro.Json
