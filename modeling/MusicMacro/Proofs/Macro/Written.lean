import MusicMacro.Macro.Format
import MusicMacro.Proofs.Json.Reading

/-! The written arguments of a macro.  A number is written in decimal and a text in quotes, and
nothing else tells which of the two an argument is.  The reader tells them apart by this alone, so a
list of arguments reads back from its short form, whatever its texts hold. -/

namespace MusicMacro

namespace Json

/-- The items of a list stand one after the other with commas between them. -/
theorem compactItems_eq (items : List Json) :
    compactItems items = [','].intercalate (items.map compact) := by
  induction items with
  | nil => rfl
  | cons item items ih =>
    cases items with
    | nil => simp [compactItems, List.intercalate]
    | cons next items =>
      show item.compact ++ ',' :: compactItems (next :: items) = _
      rw [ih]
      simp [List.intercalate]

end Json

namespace Arg

/-- An argument as it is written in a list, without a word on its kind. -/
def jsonText : Arg → List Char
  | .number value => Decimal.ofInt value.toInt
  | .text value => Json.quote value

theorem compact_write (arg : Arg) : (JsonFormat.write arg).compact = arg.jsonText := by
  cases arg with
  | number value => rw [jsonText, ← Json.compact]; rfl
  | text value => rw [jsonText, ← Json.compact]; rfl

open Json.Reader

theorem reads_number (value : Int32) :
    reader.Reads (.number value) (Json.number value.toInt).toTokens := by
  have hlow := value.le_toInt
  have hhigh := value.toInt_lt
  have hrange : Decimal.inInt32 value.toInt = true := by
    simp [Decimal.inInt32]
    omega
  have hvalue : ofScalar? (.integer value.toInt) = some (.number value) := by
    rw [ofScalar?, if_pos hrange, Int32.ofInt_toInt]
  intro rest
  rw [Json.toTokens, Json.Token.ofInt_of_isWord (isWord_toInt value)]
  refine ⟨Nat.lt_succ_self _, ?_⟩
  simp [reader, mapValue, scalar, single, hvalue, Json.Reading.withValue]

theorem reads_text (value : String) : reader.Reads (.text value) (Json.text value).toTokens :=
  fun _ => ⟨_, rfl⟩

end Arg

open JsonFormat

instance : Lawful Arg where
  reads
    | .number value => Arg.reads_number value
    | .text value => Arg.reads_text value

namespace Arg

/-- A list of arguments is written as numbers and quoted texts between brackets, and reads back from
that as the same list: each number as a number and each text as a text. -/
theorem arguments_read_back (args : List Arg) :
    (compact args).toList = '[' :: ([','].intercalate (args.map jsonText) ++ [']']) ∧
      read (List Arg) (compact args) = .ok args := by
  refine ⟨?_, read_compact args⟩
  have hitems : (args.map write).map Json.compact = args.map jsonText := by
    rw [List.map_map]
    exact List.map_congr_left fun arg _ => arg.compact_write
  rw [JsonFormat.compact, String.toList_ofList, ← hitems, ← Json.compactItems_eq]
  rfl

example : compact [Arg.number (-5), .text "-5", .text "\"\\\n\x01", .text ""] =
    "[-5,\"-5\",\"\\\"\\\\\\n\\u0001\",\"\"]" := by cbv

end Arg

end MusicMacro
