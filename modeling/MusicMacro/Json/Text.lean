import MusicMacro.Json.Fault
import MusicMacro.Text.Hex

/-! Texts in JSON, read from behind the opening quote.  A text whose value is wanted is read in
full; of one that is passed over only the form is looked at, and there the halves of a character
need not be paired. -/

namespace MusicMacro.Json.Text

def shortEscape? : Char → Option Char
  | '"' => some '"'
  | '\\' => some '\\'
  | '/' => some '/'
  | 'b' => some '\x08'
  | 'f' => some '\x0c'
  | 'n' => some '\n'
  | 'r' => some '\r'
  | 't' => some '\t'
  | _ => none

def hex4? (a b c d : Char) : Option Nat :=
  match Hex.value? a, Hex.value? b, Hex.value? c, Hex.value? d with
  | some a, some b, some c, some d => some (((a * 16 + b) * 16 + c) * 16 + d)
  | _, _, _, _ => none

/-- What is wrong where fewer than four characters are left for an escape by number: the text is
over if they are fewer than four bytes. -/
def shortHex (rest : List Char) : Fault :=
  if (String.ofList rest).utf8ByteSize < 4 then .endIn .text else .invalidEscape

def isLeading (n : Nat) : Bool := 0xD800 ≤ n && n < 0xDC00

def isTrailing (n : Nat) : Bool := 0xDC00 ≤ n && n < 0xE000

def pair (leading trailing : Nat) : Char :=
  Char.ofNat (0x10000 + (leading - 0xD800) * 0x400 + (trailing - 0xDC00))

def push (c : Char) (reading : Except Fault (List Char × List Char)) :
    Except Fault (List Char × List Char) :=
  reading.map fun (text, rest) => (c :: text, rest)

def read : List Char → Except Fault (List Char × List Char)
  | [] => .error (.endIn .text)
  | c :: rest =>
    if c = '"' then .ok ([], rest)
    else if c.toNat < 0x20 then .error .controlCharacter
    else if c ≠ '\\' then push c (read rest)
    else
      match rest with
      | [] => .error (.endIn .text)
      | 'u' :: h₁ :: h₂ :: h₃ :: h₄ :: rest =>
        match hex4? h₁ h₂ h₃ h₄ with
        | none => .error .invalidEscape
        | some n =>
          if isTrailing n then .error .loneSurrogate
          else if isLeading n then
            match rest with
            | [] => .error (.endIn .text)
            | ['\\'] => .error (.endIn .text)
            | '\\' :: 'u' :: l₁ :: l₂ :: l₃ :: l₄ :: rest =>
              match hex4? l₁ l₂ l₃ l₄ with
              | none => .error .invalidEscape
              | some m =>
                if isTrailing m then push (pair n m) (read rest) else .error .loneSurrogate
            | '\\' :: 'u' :: rest => .error (shortHex rest)
            | _ => .error .unpairedSurrogate
          else push (Char.ofNat n) (read rest)
      | 'u' :: rest => .error (shortHex rest)
      | e :: rest =>
        match shortEscape? e with
        | some c => push c (read rest)
        | none => .error .invalidEscape

def pass : List Char → Except Fault (List Char)
  | [] => .error (.endIn .text)
  | c :: rest =>
    if c = '"' then .ok rest
    else if c.toNat < 0x20 then .error .controlCharacter
    else if c ≠ '\\' then pass rest
    else
      match rest with
      | [] => .error (.endIn .text)
      | 'u' :: h₁ :: h₂ :: h₃ :: h₄ :: rest =>
        if (hex4? h₁ h₂ h₃ h₄).isSome then pass rest else .error .invalidEscape
      | 'u' :: rest => .error (shortHex rest)
      | e :: rest => if (shortEscape? e).isSome then pass rest else .error .invalidEscape

theorem length_pass {text rest : List Char} (h : pass text = .ok rest) :
    rest.length < text.length := by
  fun_induction pass text generalizing rest with
  | case1 => cases h
  | case2 => cases h; simp
  | case3 => cases h
  | case4 _ _ _ _ _ ih => have := ih h; simp; omega
  | case5 => cases h
  | case6 _ _ _ _ _ _ _ _ _ _ ih => have := ih h; simp; omega
  | case7 => cases h
  | case8 => cases h
  | case9 _ _ _ _ _ _ _ _ _ ih => have := ih h; simp; omega
  | case10 => cases h

end MusicMacro.Json.Text
