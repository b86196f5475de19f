import MusicMacro.Config.Format
import MusicMacro.Macro.Format
import MusicMacro.Proofs.Json.Reading

/-! Configurations, their parts and key signatures read back from their written forms.  Reading
starts from standard values, so nothing that is written may be left to them. -/

namespace MusicMacro

namespace JsonFormat

open Json.Reader

theorem reads_ofNumber {α : Type} (get : α → Int32) {make : Int32 → α} {value : α}
    (h : make (get value) = value) :
    (ofNumber get make).reader.Reads value ((ofNumber get make).write value).toTokens :=
  (reads_int32 (get value)).mapValue (congrArg Except.ok h)

end JsonFormat

/-- A field is restored by putting in what was taken out. -/
theorem Json.Reader.Restores.of {σ α : Type} [JsonFormat α] [JsonFormat.Lawful α] {name : String}
    {get : σ → α} {put : α → σ → σ} {fields : List (Json.Field σ)} {record start : σ}
    (h : Restores record fields (put (get record) start)) :
    Restores record (.of name get put :: fields) start :=
  .cons ((JsonFormat.Lawful.reads (get record)).mapValue (f := fun value => .ok (put value)) rfl) h

open JsonFormat

instance : Lawful Length := ⟨fun _ => reads_ofNumber Length.denominator rfl⟩

instance : Lawful Resolution := ⟨fun _ => reads_ofNumber Resolution.wholeNote rfl⟩

instance : Lawful ChannelSetup where
  reads setup := Json.Reader.reads_record
    (.of (.of (.of (.of (.of (.of (.of (.of (.of (.of (.nil rfl))))))))))) (by decide)

instance : Lawful Config where
  reads config := Json.Reader.reads_record (.of (.of (.nil rfl))) (by decide)

instance : Lawful KeySignature where
  reads signature := Json.Reader.reads_tuple
    (.of (.of (.of (.of (.of (.of (.of (.nil (KeySignature.ext_get fun pitch => by
      cases pitch <;> simp [KeySignature.get_set])))))))))

/-- A laid out configuration reads back, and so do the short forms of its parts. -/
theorem configuration_reads_back :
    (∀ config : Config, read Config (layOut config) = .ok config) ∧
      (∀ setup : ChannelSetup, read ChannelSetup (compact setup) = .ok setup) ∧
      (∀ signature : KeySignature, read KeySignature (compact signature) = .ok signature) ∧
      (∀ length : Length, read Length (compact length) = .ok length) ∧
      ∀ resolution : Resolution, read Resolution (compact resolution) = .ok resolution :=
  ⟨read_layOut, read_compact, read_compact, read_compact, read_compact⟩

end MusicMacro
