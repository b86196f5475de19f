import MusicMacro.Proofs.Config.RoundTrip
import MusicMacro.Proofs.Json.Amending

/-! Configurations that name a part of their numbers.  Each number of a configuration has a key, by
itself or in the object for the channel.  The numbers that are named replace the standard ones, and
what else stands in the objects, and in which order, makes no difference.  A number that is out of
its range does not fit, so none is ever cut. -/

namespace MusicMacro

open Json.Reader JsonFormat

/-! ### Fields of numbers -/

theorem readsNumbers_int32 :
    ReadsNumbers (reader : Json.Reader Int32) Int32.ofInt (-2147483648) 2147483647 :=
  (readsNumbers_integer _ _).map Int32.ofInt

theorem readsNumbers_byte :
    ReadsNumbers (reader : Json.Reader UInt8) (fun n => UInt8.ofNat n.toNat) 0 255 :=
  (readsNumbers_integer _ _).map fun n => UInt8.ofNat n.toNat

theorem readsNumbers_length :
    ReadsNumbers (reader : Json.Reader Length) (fun n => ⟨Int32.ofInt n⟩) (-2147483648)
      2147483647 :=
  readsNumbers_int32.map Length.mk

section

variable {σ α : Type} [JsonFormat α] {fields : List (Json.Field σ)} {name : String} {get : σ → α}
  {put : α → σ → σ}

theorem exists_put_of_reads {change : σ → σ} {taken : List Json.Token}
    (h : Reads (Json.Field.of name get put).reader change taken) : ∃ value, change = put value := by
  obtain ⟨value, hvalue⟩ := Reads.exists_of_mapValue (f := fun value => .ok (put value)) h
  exact ⟨value, (Except.ok.inj hvalue).symm⟩

theorem holdsNumber_of {make : Int → α} {view : σ → Int} {low high : Int}
    (hfield : fieldOf? fields name = some (.of name get put))
    (hformat : ReadsNumbers (reader : Json.Reader α) make low high)
    (hview : ∀ n record, low ≤ n ∧ n ≤ high → view (put (make n) record) = n) :
    HoldsNumber fields name view low high :=
  ⟨_, _, hfield, hformat.map put, hview⟩

end

/-! ### Entries -/

/-- The numbers that the settings of a channel are made of. -/
inductive ChannelSetup.Entry where
  | number
  | velocity
  | velocityStep
  | octave
  | defaultLength
  | keyDelay
  | gateDenominator
  | gateRelative
  | gateAbsolute
  | transpose
  deriving DecidableEq, Repr

namespace ChannelSetup

namespace Entry

def key : Entry → String
  | .number => "channel"
  | .velocity => "velocity"
  | .velocityStep => "velocity_sensitivity"
  | .octave => "octave"
  | .defaultLength => "default_length"
  | .keyDelay => "key_delay"
  | .gateDenominator => "gate_denominator"
  | .gateRelative => "gate_relative"
  | .gateAbsolute => "gate_absolute"
  | .transpose => "transpose"

def low : Entry → Int
  | .number => 0
  | _ => -2147483648

def high : Entry → Int
  | .number => 255
  | _ => 2147483647

end Entry

def read (setup : ChannelSetup) : Entry → Int
  | .number => setup.number.toNat
  | .velocity => setup.velocity.toInt
  | .velocityStep => setup.velocityStep.toInt
  | .octave => setup.octave.toInt
  | .defaultLength => setup.defaultLength.denominator.toInt
  | .keyDelay => setup.keyDelay.toInt
  | .gateDenominator => setup.gate.denominator.toInt
  | .gateRelative => setup.gate.relative.toInt
  | .gateAbsolute => setup.gate.absolute.toInt
  | .transpose => setup.transpose.toInt

theorem holdsNumber (entry : Entry) :
    HoldsNumber fields entry.key (·.read entry) entry.low entry.high := by
  have hnumber : ∀ n : Int, -2147483648 ≤ n ∧ n ≤ 2147483647 → (Int32.ofInt n).toInt = n :=
    fun n h => Int32.toInt_ofInt_of_le h.1 (by omega)
  have hbyte : ∀ n : Int, 0 ≤ n ∧ n ≤ 255 → ((UInt8.ofNat n.toNat).toNat : Int) = n := by
    intro n h
    rw [UInt8.toNat_ofNat']
    omega
  cases entry with
  | number => exact holdsNumber_of rfl readsNumbers_byte fun n _ => hbyte n
  | defaultLength => exact holdsNumber_of rfl readsNumbers_length fun n _ => hnumber n
  | _ => exact holdsNumber_of rfl readsNumbers_int32 fun n _ => hnumber n

theorem changedBy (entry : Entry) : ChangedBy fields entry.key (·.read entry) := by
  intro field hfield hne change taken hread record
  simp only [fields, List.mem_cons, List.not_mem_nil, or_false] at hfield
  rcases hfield with rfl | rfl | rfl | rfl | rfl | rfl | rfl | rfl | rfl | rfl <;>
    obtain ⟨value, rfl⟩ := exists_put_of_reads hread <;>
    cases entry <;> first | rfl | exact absurd rfl hne

theorem exists_entry : ∀ field ∈ fields, ∃ entry : Entry, entry.key = field.name := by
  intro field hfield
  simp only [fields, List.mem_cons, List.not_mem_nil, or_false] at hfield
  rcases hfield with rfl | rfl | rfl | rfl | rfl | rfl | rfl | rfl | rfl | rfl
  · exact ⟨.number, rfl⟩
  · exact ⟨.velocity, rfl⟩
  · exact ⟨.velocityStep, rfl⟩
  · exact ⟨.octave, rfl⟩
  · exact ⟨.defaultLength, rfl⟩
  · exact ⟨.keyDelay, rfl⟩
  · exact ⟨.gateDenominator, rfl⟩
  · exact ⟨.gateRelative, rfl⟩
  · exact ⟨.gateAbsolute, rfl⟩
  · exact ⟨.transpose, rfl⟩

/-- The keys of the entries stand in front of numbers, each once at most.  What stands behind other
keys is left open. -/
def GivesNumbers (members : List (String × Json)) : Prop :=
  ∀ entry : Entry, Json.GivesNumber members entry.key

variable {members : List (String × Json)}

theorem exists_amends (h : GivesNumbers members) :
    ∃ result, Amends fields [] ({} : ChannelSetup) members result := by
  refine Json.Reader.exists_amends (fun field hfield => ?_)
    (fun key value field hmember hfield => ?_) _
  · obtain ⟨entry, hentry⟩ := exists_entry field hfield
    rw [← hentry, List.nil_append]
    exact (h entry).1
  · obtain ⟨hfield', rfl⟩ := fieldOf?_eq_some hfield
    obtain ⟨entry, hentry⟩ := exists_entry field hfield'
    rw [← hentry] at hfield hmember
    exact (holdsNumber entry).exists_answers (h entry) hfield hmember

/-- Members that do not fit have a number that is out of range. -/
theorem exists_out_of_range (h : GivesNumbers members)
    (hamends : Amends fields [] ({} : ChannelSetup) members none) :
    ∃ (entry : Entry) (n : Int), (entry.key, .number n) ∈ members ∧
      ¬(entry.low ≤ n ∧ n ≤ entry.high) := by
  obtain ⟨key, value, field, hmember, hfield, hrefuses⟩ := hamends.exists_refuses
  obtain ⟨hfield', rfl⟩ := fieldOf?_eq_some hfield
  obtain ⟨entry, hentry⟩ := exists_entry field hfield'
  rw [← hentry] at hfield hmember
  obtain ⟨n, hn, hrange⟩ := (holdsNumber entry).of_refuses (h entry) hfield hmember hrefuses
  exact ⟨entry, n, hn, hrange⟩

/-- The entries are all that there is to the settings of a channel. -/
theorem ext_read {setup other : ChannelSetup}
    (h : ∀ entry, setup.read entry = other.read entry) : setup = other := by
  obtain ⟨_, _, _, _, ⟨_⟩, _, ⟨_, _, _⟩, _⟩ := setup
  obtain ⟨_, _, _, _, ⟨_⟩, _, ⟨_, _, _⟩, _⟩ := other
  simp only [mk.injEq, Length.mk.injEq, Gate.mk.injEq]
  exact ⟨UInt8.toNat_inj.mp (Int.ofNat.inj (h .number)), Int32.toInt_inj.mp (h .velocity),
    Int32.toInt_inj.mp (h .velocityStep), Int32.toInt_inj.mp (h .octave),
    Int32.toInt_inj.mp (h .defaultLength), Int32.toInt_inj.mp (h .keyDelay),
    ⟨Int32.toInt_inj.mp (h .gateRelative), Int32.toInt_inj.mp (h .gateDenominator),
      Int32.toInt_inj.mp (h .gateAbsolute)⟩, Int32.toInt_inj.mp (h .transpose)⟩

end ChannelSetup

/-- The numbers that a configuration is made of. -/
inductive Config.Entry where
  | wholeNote
  | channel (entry : ChannelSetup.Entry)
  deriving DecidableEq, Repr

namespace Config

namespace Entry

def low : Entry → Int
  | .wholeNote => -2147483648
  | .channel entry => entry.low

def high : Entry → Int
  | .wholeNote => 2147483647
  | .channel entry => entry.high

/-- The members name a number for an entry: those of the object itself, or those of the object that
stands behind its key for the channel. -/
def Names (members : List (String × Json)) : Entry → Int → Prop
  | .wholeNote, n => ("base_count", .number n) ∈ members
  | .channel entry, n => ∃ inner, ("channel", .object inner) ∈ members ∧
      (entry.key, .number n) ∈ inner

def InRange (entry : Entry) (n : Int) : Prop := entry.low ≤ n ∧ n ≤ entry.high

end Entry

def read (config : Config) : Entry → Int
  | .wholeNote => config.wholeNote.toInt
  | .channel entry => config.channel.read entry

/-- The keys of a configuration stand in front of a number and of an object of numbers, each once at
most.  What stands behind other keys is left open. -/
structure GivesNumbers (members : List (String × Json)) : Prop where
  wholeNote : Json.GivesNumber members "base_count"
  once : (members.map Prod.fst).count "channel" ≤ 1
  channel : ∀ value, ("channel", value) ∈ members →
    ∃ inner, value = .object inner ∧ ChannelSetup.GivesNumbers inner

theorem ext_read {config other : Config} (h : ∀ entry, config.read entry = other.read entry) :
    config = other := by
  obtain ⟨_, _⟩ := config
  obtain ⟨_, _⟩ := other
  simp only [mk.injEq]
  exact ⟨Int32.toInt_inj.mp (h .wholeNote), ChannelSetup.ext_read fun entry => h (.channel entry)⟩

theorem holdsNumber_wholeNote :
    HoldsNumber fields "base_count" (·.wholeNote.toInt) (-2147483648) 2147483647 :=
  holdsNumber_of rfl readsNumbers_int32 fun _ _ h => Int32.toInt_ofInt_of_le h.1 (by omega)

theorem changedBy_wholeNote : ChangedBy fields "base_count" (·.wholeNote.toInt) := by
  intro field hfield hne change taken hread record
  simp only [fields, List.mem_cons, List.not_mem_nil, or_false] at hfield
  rcases hfield with rfl | rfl
  · exact absurd rfl hne
  · obtain ⟨value, rfl⟩ := exists_put_of_reads hread
    rfl

theorem changedBy_channel : ChangedBy fields "channel" Config.channel := by
  intro field hfield hne change taken hread record
  simp only [fields, List.mem_cons, List.not_mem_nil, or_false] at hfield
  rcases hfield with rfl | rfl
  · obtain ⟨value, rfl⟩ := exists_put_of_reads hread
    rfl
  · exact absurd rfl hne

def withChannel (setup : ChannelSetup) (config : Config) : Config :=
  { config with channel := setup }

/-- The field of the channel. -/
def channelField : Json.Field Config := .of "channel" Config.channel withChannel

theorem fieldOf?_channel : fieldOf? fields "channel" = some channelField := rfl

/-- The settings of a channel are read as their members amend the standard ones. -/
theorem answers_channelField {inner : List (String × Json)} {result : Option ChannelSetup}
    (h : Amends ChannelSetup.fields [] {} inner result) :
    Answers channelField.reader (Json.object inner).toTokens (result.map withChannel) :=
  h.answers_record.map withChannel

variable {members : List (String × Json)}

theorem exists_amends (h : GivesNumbers members) :
    ∃ result, Amends fields [] standard members result := by
  refine Json.Reader.exists_amends (fun field hfield => ?_)
    (fun key value field hmember hfield => ?_) _
  · simp only [fields, List.mem_cons, List.not_mem_nil, or_false] at hfield
    rcases hfield with rfl | rfl
    · exact h.wholeNote.1
    · exact h.once
  · have hname := fieldOf?_eq_some hfield
    simp only [fields, List.mem_cons, List.not_mem_nil, or_false] at hname
    obtain ⟨rfl | rfl, rfl⟩ := hname
    · exact holdsNumber_wholeNote.exists_answers h.wholeNote hfield hmember
    · obtain ⟨inner, rfl, hinner⟩ := h.channel value hmember
      obtain ⟨result, hresult⟩ := ChannelSetup.exists_amends hinner
      exact ⟨_, answers_channelField hresult⟩

/-- Members that do not fit name a number that is out of range. -/
theorem exists_out_of_range (h : GivesNumbers members)
    (hamends : Amends fields [] standard members none) :
    ∃ (entry : Entry) (n : Int), entry.Names members n ∧ ¬entry.InRange n := by
  obtain ⟨key, value, field, hmember, hfield, hrefuses⟩ := hamends.exists_refuses
  have hname := fieldOf?_eq_some hfield
  simp only [fields, List.mem_cons, List.not_mem_nil, or_false] at hname
  obtain ⟨rfl | rfl, rfl⟩ := hname
  · obtain ⟨n, hn, hrange⟩ :=
      holdsNumber_wholeNote.of_refuses h.wholeNote hfield hmember hrefuses
    exact ⟨.wholeNote, n, hn, hrange⟩
  · obtain ⟨inner, rfl, hinner⟩ := h.channel value hmember
    obtain ⟨result, hresult⟩ := ChannelSetup.exists_amends hinner
    have hanswers := answers_channelField hresult
    cases result with
    | some setup => exact absurd hrefuses (Reads.not_refuses hanswers)
    | none =>
      obtain ⟨entry, n, hn, hrange⟩ := ChannelSetup.exists_out_of_range hinner hresult
      exact ⟨.channel entry, n, ⟨inner, hmember, hn⟩, hrange⟩

/-- The channel is read from the object behind its key, which may as well be an empty one if it is
not there. -/
theorem channel_of_amends (h : GivesNumbers members) {config : Config}
    (hamends : Amends fields [] standard members (some config)) :
    ∃ inner, ChannelSetup.GivesNumbers inner ∧
      Amends ChannelSetup.fields [] {} inner (some config.channel) ∧
      ∀ entry n, (Entry.channel entry).Names members n ↔ (entry.key, .number n) ∈ inner := by
  have hleft := hamends.view_eq changedBy_channel fieldOf?_channel List.not_mem_nil
  cases hlookup : members.lookup "channel" with
  | none =>
    rw [hlookup] at hleft
    have hstandard : config.channel = {} := hleft
    refine ⟨[], fun entry => ⟨Nat.zero_le _, nofun⟩, ?_, fun entry n => ⟨?_, nofun⟩⟩
    · rw [hstandard]
      exact .nil
    · rintro ⟨inner, hmember, -⟩
      cases hlookup.symm.trans (Json.lookup_of_mem h.once hmember)
  | some value =>
    rw [hlookup] at hleft
    obtain ⟨change, before, hread, hchange⟩ := hleft
    have hmember := Json.mem_of_lookup hlookup
    obtain ⟨inner, rfl, hinner⟩ := h.channel value hmember
    obtain ⟨result, hresult⟩ := ChannelSetup.exists_amends hinner
    have hanswers := answers_channelField hresult
    cases result with
    | none => exact absurd hanswers hread.not_refuses
    | some setup =>
      obtain rfl : change = withChannel setup := hread.unique hanswers
      have hsetup : config.channel = setup := hchange
      refine ⟨inner, hinner, hsetup ▸ hresult, fun entry n => ⟨?_, fun hn => ⟨inner, hmember, hn⟩⟩⟩
      rintro ⟨other, hother, hn⟩
      cases (Json.lookup_of_mem h.once hother).symm.trans hlookup
      exact hn

/-- A configuration that was read has the numbers that are named, and otherwise the standard
ones. -/
theorem read_of_amends (h : GivesNumbers members) {config : Config}
    (hamends : Amends fields [] standard members (some config)) (entry : Entry) :
    (∀ n, entry.Names members n → entry.InRange n ∧ config.read entry = n) ∧
      ((∀ n, ¬entry.Names members n) → config.read entry = standard.read entry) := by
  cases entry with
  | wholeNote =>
    exact ⟨fun n => hamends.view_of_mem changedBy_wholeNote holdsNumber_wholeNote h.wholeNote,
      hamends.view_of_notMem changedBy_wholeNote holdsNumber_wholeNote h.wholeNote⟩
  | channel entry =>
    obtain ⟨inner, hinner, hchannel, hnames⟩ := channel_of_amends h hamends
    have hchanged := ChannelSetup.changedBy entry
    have hholds := ChannelSetup.holdsNumber entry
    simp only [hnames]
    exact ⟨fun n => hchannel.view_of_mem hchanged hholds (hinner entry),
      hchannel.view_of_notMem hchanged hholds (hinner entry)⟩

theorem read_eq (h : GivesNumbers members) {text : String}
    (htext : (Json.object members).SpelledBy text) :
    (∃ config, JsonFormat.read Config text = .ok config ∧
      Amends fields [] standard members (some config)) ∨
    (∃ error, JsonFormat.read Config text = .error error ∧ error.fault.kind = .unfit) ∧
      Amends fields [] standard members none := by
  obtain ⟨result, hresult⟩ := exists_amends h
  have hread := hresult.answers_record.read htext
  cases result with
  | some config => exact .inl ⟨config, hread, hresult⟩
  | none => exact .inr ⟨hread, hresult⟩

/-- Texts that name the same numbers are read as the same, or both as unfit. -/
theorem mapError_read_congr (h : GivesNumbers members) {text : String}
    (htext : (Json.object members).SpelledBy text) {others : List (String × Json)}
    (hothers : GivesNumbers others) {other : String} (hother : (Json.object others).SpelledBy other)
    (hsame : ∀ (entry : Entry) (n : Int), entry.Names members n ↔ entry.Names others n) :
    (JsonFormat.read Config text).mapError (·.fault.kind) =
      (JsonFormat.read Config other).mapError (·.fault.kind) := by
  rcases read_eq h htext with ⟨config, hread, hamends⟩ | ⟨⟨error, hread, hkind⟩, hamends⟩ <;>
    rcases read_eq hothers hother with
      ⟨config', hread', hamends'⟩ | ⟨⟨error', hread', hkind'⟩, hamends'⟩
  · have hconfig : config = config' := ext_read fun entry => by
      obtain ⟨hnamed, hleft⟩ := read_of_amends h hamends entry
      obtain ⟨hnamed', hleft'⟩ := read_of_amends hothers hamends' entry
      simp only [← hsame] at hnamed' hleft'
      by_cases hn : ∃ n, entry.Names members n
      · obtain ⟨n, hn⟩ := hn
        rw [(hnamed n hn).2, (hnamed' n hn).2]
      · rw [hleft fun n h => hn ⟨n, h⟩, hleft' fun n h => hn ⟨n, h⟩]
    rw [hread, hread', hconfig]
  · obtain ⟨entry, n, hn, hout⟩ := exists_out_of_range hothers hamends'
    exact absurd ((read_of_amends h hamends entry).1 n ((hsame entry n).mpr hn)).1 hout
  · obtain ⟨entry, n, hn, hout⟩ := exists_out_of_range h hamends
    exact absurd ((read_of_amends hothers hamends' entry).1 n ((hsame entry n).mp hn)).1 hout
  · simp only [hread, hread', Except.mapError, hkind, hkind']

/-- A configuration that names a part of its numbers changes exactly those.  The members of the
object, and those of the object for the channel in it, may stand in any order among others of any
key and value, with any blanks between them.  If all the numbers that are named are in range, they
replace the standard ones, and nothing else is changed; if one is not, the text does not fit.  Texts
that name the same numbers are read the same, whatever else their members are. -/
theorem partial_object_amends (h : GivesNumbers members) {text : String}
    (htext : (Json.object members).SpelledBy text) :
    let outcome := JsonFormat.read Config text
    ((∀ (entry : Entry) (n : Int), entry.Names members n → entry.InRange n) →
      ∃ config, outcome = .ok config ∧ ∀ entry : Entry,
        (∀ n, entry.Names members n → config.read entry = n) ∧
        ((∀ n, ¬entry.Names members n) → config.read entry = standard.read entry)) ∧
    ((∃ (entry : Entry) (n : Int), entry.Names members n ∧ ¬entry.InRange n) →
      ∃ error, outcome = .error error ∧ error.fault.kind = .unfit) ∧
    ∀ (others : List (String × Json)) (other : String), GivesNumbers others →
      (Json.object others).SpelledBy other →
      (∀ (entry : Entry) (n : Int), entry.Names others n ↔ entry.Names members n) →
        (JsonFormat.read Config other).mapError (·.fault.kind) =
          outcome.mapError (·.fault.kind) := by
  intro outcome
  refine ⟨fun hrange => ?_, fun hrange => ?_, fun others other hothers hother hsame => ?_⟩
  · rcases read_eq h htext with ⟨config, hread, hamends⟩ | ⟨-, hamends⟩
    · refine ⟨config, hread, fun entry => ?_⟩
      obtain ⟨hnamed, hleft⟩ := read_of_amends h hamends entry
      exact ⟨fun n hn => (hnamed n hn).2, hleft⟩
    · obtain ⟨entry, n, hn, hout⟩ := exists_out_of_range h hamends
      exact absurd (hrange entry n hn) hout
  · rcases read_eq h htext with ⟨config, hread, hamends⟩ | ⟨herror, -⟩
    · obtain ⟨entry, n, hn, hout⟩ := hrange
      exact absurd ((read_of_amends h hamends entry).1 n hn).1 hout
    · exact herror
  · exact mapError_read_congr hothers hother h htext hsame

/-- The greatest number of a channel among members of no meaning, and the first one beyond it. -/
theorem partial_object_amends_channel :
    let members (n : Int) : List (String × Json) :=
      [("é", .list [.null, .object [("", .number (10 ^ 30))]]),
        ("channel", .object [("Octave", .bool true), ("channel", .number n)]), ("é", .text "")]
    let text (n : Int) : String := String.ofList ((Json.object (members n)).layOut 0)
    (∃ config, JsonFormat.read Config (text 255) = .ok config ∧
      config.read (.channel .number) = 255 ∧ config.read (.channel .octave) = 4) ∧
    ∃ error, JsonFormat.read Config (text 256) = .error error ∧ error.fault.kind = .unfit := by
  intro members text
  have hgives : ∀ n, Json.Number.IsWord n → GivesNumbers (members n) := by
    intro n hword
    refine ⟨⟨show List.count "base_count" ["é", "channel", "é"] ≤ 1 by decide, by simp [members]⟩,
      show List.count "channel" ["é", "channel", "é"] ≤ 1 by decide, fun value hvalue => ?_⟩
    obtain rfl : value = .object [("Octave", .bool true), ("channel", .number n)] := by
      simpa [members] using hvalue
    refine ⟨_, rfl, fun entry => ⟨?_, fun value hvalue => ?_⟩⟩
    · show List.count entry.key ["Octave", "channel"] ≤ 1
      cases entry <;> decide
    · simp only [List.mem_cons, Prod.mk.injEq, List.not_mem_nil, or_false] at hvalue
      rcases hvalue with ⟨hkey, -⟩ | ⟨-, rfl⟩
      · cases entry <;> exact absurd hkey (by decide)
      · exact ⟨n, rfl, hword⟩
  have hspelled : ∀ n, (Json.object (members n)).SpelledBy (text n) := fun n =>
    ⟨[], _, [], by simp [text], Json.isGap_nil, Json.spells_layOut 0 _, Json.isGap_nil⟩
  have hnames : ∀ (n m : Int) (entry : Entry),
      entry.Names (members n) m ↔ entry = .channel .number ∧ m = n := by
    intro n m entry
    cases entry with
    | wholeNote => simp [Entry.Names, members]
    | channel entry => cases entry <;> simp [Entry.Names, ChannelSetup.Entry.key, members]
  have hgreatest := hgives 255 ⟨by decide, by decide⟩
  have hbeyond := hgives 256 ⟨by decide, by decide⟩
  obtain ⟨hfits, -, -⟩ := partial_object_amends hgreatest (hspelled 255)
  obtain ⟨-, hrefused, -⟩ := partial_object_amends hbeyond (hspelled 256)
  obtain ⟨config, hread, hvalues⟩ := hfits fun entry n hn => by
    obtain ⟨rfl, rfl⟩ := (hnames 255 n entry).mp hn
    exact ⟨by decide, by decide⟩
  have hnamed : ∀ n, (Entry.channel .number).Names (members n) n :=
    fun n => (hnames n n _).mpr ⟨rfl, rfl⟩
  refine ⟨⟨config, hread, ?_, ?_⟩, hrefused ⟨.channel .number, 256, hnamed 256, ?_⟩⟩
  · exact (hvalues (.channel .number)).1 255 (hnamed 255)
  · refine (hvalues (.channel .octave)).2 fun n hn => ?_
    exact absurd ((hnames _ _ _).mp hn).1 (by decide)
  · rintro ⟨-, hhigh⟩
    exact absurd hhigh (by decide)

end Config

end MusicMacro
