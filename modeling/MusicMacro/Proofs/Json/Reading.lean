import MusicMacro.Json.Format
import MusicMacro.Proofs.Json.Spelling

/-! What readers make of the tokens of a written value.  A format is lawful if its reader takes a
value from the tokens of that value in front of any others.  Numbers are lawful, lists are if their
items are, records are if their fields are, as objects and as tuples, and a value of a lawful format
reads back from any text that spells it. -/

namespace MusicMacro

namespace Json.Reader

/-- The reader takes the value from the front of the tokens and leaves the rest.  The type of what
a reader gives depends on its tokens; in this form equal tokens can be exchanged. -/
def Takes {α : Type} (reader : Reader α) (tokens : List Token) (value : α) (rest : List Token) :
    Prop :=
  ∃ shorter, reader tokens = .ok ⟨value, rest, shorter⟩

/-- The reader takes the value from the given tokens, whatever follows them. -/
def Reads {α : Type} (reader : Reader α) (value : α) (taken : List Token) : Prop :=
  ∀ rest, Takes reader (taken ++ rest) value rest

theorem Takes.read {α : Type} {reader : Reader α} {value : α} {text : String}
    (h : Takes reader (tokens text.toList) value []) : reader.read text = .ok value := by
  obtain ⟨_, hread⟩ := h
  rw [Reader.read, hread]

theorem Reads.mapValue {α β : Type} {reader : Reader α} {value : α} {taken : List Token}
    {f : α → Except Fault β} {result : β} (h : Reads reader value taken)
    (hf : f value = .ok result) : Reads (mapValue reader f) result taken := by
  intro rest
  obtain ⟨shorter, hread⟩ := h rest
  refine ⟨shorter, ?_⟩
  rw [Reader.mapValue, hread]
  simp only [hf]
  rfl

theorem reads_number {n : Int} (h : Number.IsWord n) :
    Reads scalar (.integer n) (Json.number n).toTokens := fun rest => by
  rw [toTokens, Token.ofInt_of_isWord h]
  exact ⟨_, rfl⟩

theorem reads_integer {low high n : Int} (hword : Number.IsWord n) (hlow : low ≤ n)
    (hhigh : n ≤ high) : Reads (integer low high) n (Json.number n).toTokens :=
  (reads_number hword).mapValue (if_pos ⟨hlow, hhigh⟩)

theorem isWord_toInt (value : Int32) : Number.IsWord value.toInt := by
  have hlow := value.le_toInt
  have hhigh := value.toInt_lt
  exact ⟨by omega, by omega⟩

theorem reads_int32 (value : Int32) : Reads int32 value (Json.number value.toInt).toTokens := by
  have hlow := value.le_toInt
  have hhigh := value.toInt_lt
  refine (reads_integer (isWord_toInt value) (by omega) (by omega)).mapValue ?_
  rw [Int32.ofInt_toInt]

theorem reads_byte (value : UInt8) : Reads byte value (Json.number value.toNat).toTokens := by
  have hhigh := value.toNat_lt
  have hword : Number.IsWord (value.toNat : Int) := ⟨by omega, by omega⟩
  refine (reads_integer hword (by omega) (by omega)).mapValue ?_
  rw [Int.toNat_natCast, UInt8.ofNat_toNat]

theorem reads_key (name : String) : Reads key name [.quoted (.ok name) none] := fun _ => ⟨_, rfl⟩

theorem Reads.behindColon {α : Type} {reader : Reader α} {value : α} {taken : List Token}
    (h : Reads reader value taken) : Reads (behindColon reader) value (.colon :: taken) := by
  intro rest
  obtain ⟨shorter, hread⟩ := h rest
  refine ⟨Nat.lt_succ_of_lt shorter, ?_⟩
  show (reader (taken ++ rest)).map _ = _
  rw [hread]
  rfl

/-! ### Lists -/

section

variable {α : Type} {item : Reader α} {value : α} {values : List α} {tokens next rest : List Token}

/-- The last item of a list. -/
theorem items_last (hitem : Takes item tokens value (.closeList :: rest)) :
    Takes (items item) tokens [value] rest := by
  obtain ⟨shorter, hread⟩ := hitem
  refine ⟨Nat.lt_of_succ_lt shorter, ?_⟩
  rw [items, hread]
  simp only [bind, Except.bind]

/-- An item with others behind it. -/
theorem items_next (hitem : Takes item tokens value (.comma :: next))
    (hnext : Takes (items item) next values rest) :
    Takes (items item) tokens (value :: values) rest := by
  obtain ⟨shorter, hread⟩ := hitem
  obtain ⟨hrest, hnext⟩ := hnext
  refine ⟨Nat.lt_trans hrest (Nat.lt_of_succ_lt shorter), ?_⟩
  rw [items, hread]
  simp only [bind, Except.bind, hnext]
  rfl

theorem takes_list {token : Token} (htoken : token ≠ .closeList)
    (h : Takes (items item) (token :: tokens) values rest) :
    Takes (list item) (.openList :: token :: tokens) values rest := by
  obtain ⟨shorter, hread⟩ := h
  refine ⟨Nat.lt_succ_of_lt shorter, ?_⟩
  rw [list]
  · rw [hread]
    rfl
  · rintro _ ⟨⟩
    exact htoken rfl

end

theorem exists_toTokens (json : Json) :
    ∃ token more, json.toTokens = token :: more ∧ token ≠ .closeList := by
  cases json with
  | number value =>
    obtain ⟨reading, flaw, htoken⟩ := Token.exists_ofInt value
    exact ⟨_, _, rfl, by simp [htoken]⟩
  | _ => exact ⟨_, _, rfl, by simp⟩

theorem itemTokens_eq (item : Json) (items : List Json) :
    itemTokens (item :: items) =
      item.toTokens ++ items.flatMap fun later => .comma :: later.toTokens := by
  induction items generalizing item with
  | nil => simp [itemTokens]
  | cons next items ih => rw [itemTokens_cons item (List.cons_ne_nil _ _), ih]; rfl

section

variable {α : Type} {item : Reader α} {write : α → Json}

theorem reads_items (hitem : ∀ value, Reads item value (write value).toTokens) (value : α)
    (values : List α) :
    Reads (items item) (value :: values)
      (itemTokens ((value :: values).map write) ++ [.closeList]) := by
  induction values generalizing value with
  | nil =>
    intro rest
    simpa [itemTokens] using items_last (hitem value (.closeList :: rest))
  | cons next values ih =>
    intro rest
    simpa [itemTokens] using items_next (hitem value (.comma :: _)) (ih next rest)

/-- A list is read from its items, if each of them is read from its own tokens. -/
theorem reads_list (hitem : ∀ value, Reads item value (write value).toTokens) (values : List α) :
    Reads (list item) values (Json.list (values.map write)).toTokens := by
  intro rest
  cases values with
  | nil => exact ⟨_, rfl⟩
  | cons value values =>
    obtain ⟨token, more, htokens, htoken⟩ := exists_toTokens (write value)
    have htakes := reads_items hitem value values rest
    rw [List.map_cons, itemTokens_eq, htokens] at htakes
    rw [toTokens, List.map_cons, itemTokens_eq, htokens]
    exact takes_list htoken htakes

end

/-! ### Records -/

/-- Reading the fields of a record one by one restores it from another record. -/
inductive Restores {σ : Type} (record : σ) : List (Field σ) → σ → Prop where
  | nil {start : σ} : start = record → Restores record [] start
  | cons {field : Field σ} {fields : List (Field σ)} {start : σ} {change : σ → σ} :
      Reads field.reader change (field.write record).toTokens →
      Restores record fields (change start) → Restores record (field :: fields) start

theorem reads_member {σ : Type} {fields : List (Field σ)} {field : Field σ} {given : List String}
    {change : σ → σ} {taken : List Token}
    (hfind : fields.find? (fun other => other.name == field.name) = some field)
    (hnew : field.name ∉ given) (hread : Reads field.reader change taken) :
    Reads (member fields given field.name) (field.name :: given, change) (.colon :: taken) := by
  intro rest
  obtain ⟨shorter, hmember⟩ := (hread.behindColon.mapValue
    (f := fun change => .ok (field.name :: given, change)) rfl) rest
  refine ⟨shorter, ?_⟩
  rw [member, hfind]
  simp only [List.contains_eq_mem, hnew, decide_false, Bool.false_eq_true, if_false]
  exact hmember

section

variable {σ : Type} {fields : List (Field σ)} {given later : List String} {record target : σ}
  {name : String} {change : σ → σ} {tokens behind next rest : List Token}

/-- The last member of an object. -/
theorem members_last (hkey : Takes key tokens name behind)
    (hmember : Takes (member fields given name) behind (later, change) (.closeObject :: rest)) :
    Takes (members fields given record) tokens (change record) rest := by
  obtain ⟨hbehind, hkey⟩ := hkey
  obtain ⟨hrest, hmember⟩ := hmember
  refine ⟨Nat.lt_trans (Nat.lt_of_succ_lt hrest) hbehind, ?_⟩
  rw [members, hkey]
  simp only [bind, Except.bind, hmember]

/-- A member with others behind it. -/
theorem members_next (hkey : Takes key tokens name behind)
    (hmember : Takes (member fields given name) behind (later, change) (.comma :: next))
    (hnext : Takes (members fields later (change record)) next target rest) :
    Takes (members fields given record) tokens target rest := by
  obtain ⟨hbehind, hkey⟩ := hkey
  obtain ⟨hshorter, hmember⟩ := hmember
  obtain ⟨hrest, hnext⟩ := hnext
  refine ⟨Nat.lt_trans hrest (Nat.lt_trans (Nat.lt_of_succ_lt hshorter) hbehind), ?_⟩
  rw [members, hkey]
  simp only [bind, Except.bind, hmember, hnext]
  rfl

end

section

variable {σ : Type} {fields : List (Field σ)} {record start : σ}

theorem find?_name (h : (fields.map Field.name).Nodup) {field : Field σ} (hmem : field ∈ fields) :
    fields.find? (fun other => other.name == field.name) = some field := by
  induction fields with
  | nil => cases hmem
  | cons first fields ih =>
    rw [List.map_cons, List.nodup_cons] at h
    rcases List.mem_cons.mp hmem with rfl | hmem
    · exact List.find?_cons_of_pos (by simp)
    · have hne : first.name ≠ field.name := fun heq =>
        h.1 (heq ▸ List.mem_map_of_mem hmem)
      rw [List.find?_cons_of_neg (by simpa using hne), ih h.2 hmem]

theorem reads_members {later : List (Field σ)} {given : List String}
    (hrestores : Restores record later start) (hne : later ≠ [])
    (hfind : ∀ field ∈ later, fields.find? (fun other => other.name == field.name) = some field)
    (hnodup : (later.map Field.name).Nodup) (hnew : ∀ field ∈ later, field.name ∉ given) :
    Reads (members fields given start) record
      (memberTokens (later.map fun field => (field.name, field.write record)) ++
        [.closeObject]) := by
  -- The fields that are left get fewer, while keys are looked up among all of them.
  induction hrestores generalizing given with
  | nil => exact absurd rfl hne
  | @cons field later start change hread hrestores ih =>
    rw [List.map_cons, List.nodup_cons] at hnodup
    have hkey := reads_key field.name
    have hmember := reads_member (hfind field List.mem_cons_self)
      (hnew field List.mem_cons_self) hread
    intro rest
    cases later with
    | nil =>
      obtain ⟨rfl⟩ := hrestores
      simpa [memberTokens] using members_last (hkey _) (hmember (.closeObject :: rest))
    | cons next later =>
      have hlater := @ih (field.name :: given) (List.cons_ne_nil _ _)
        (fun other hother => hfind other (List.mem_cons_of_mem field hother)) hnodup.2
        fun other hother hgiven => by
          rcases List.mem_cons.mp hgiven with hname | hgiven
          · exact hnodup.1 (hname ▸ List.mem_map_of_mem hother)
          · exact hnew other (List.mem_cons_of_mem field hother) hgiven
      simpa [memberTokens] using members_next (hkey _) (hmember (.comma :: _)) (hlater rest)

theorem takes_record {token : Token} {tokens rest : List Token}
    (h : Takes (members fields [] start) (token :: tokens) record rest)
    (htoken : token ≠ .closeObject) :
    Takes (Reader.record fields start) (.openObject :: token :: tokens) record rest := by
  obtain ⟨shorter, hread⟩ := h
  refine ⟨Nat.lt_succ_of_lt shorter, ?_⟩
  rw [Reader.record]
  · rw [hread]
    rfl
  · rintro _ ⟨⟩
    exact htoken rfl

theorem exists_memberTokens (key : String) (value : Json) (members : List (String × Json)) :
    ∃ more, memberTokens ((key, value) :: members) =
      .quoted (.ok key) none :: .colon :: (value.toTokens ++ more) := by
  cases members with
  | nil => exact ⟨[], by rw [List.append_nil]; rfl⟩
  | cons next members => exact ⟨_, rfl⟩

/-- A record is restored from its members, whatever it is restored from. -/
theorem reads_record (hrestores : Restores record fields start)
    (hnodup : (fields.map Field.name).Nodup) :
    Reads (Reader.record fields start) record (JsonFormat.writeRecord fields record).toTokens := by
  intro rest
  cases fields with
  | nil =>
    obtain ⟨rfl⟩ := hrestores
    exact ⟨_, rfl⟩
  | cons field fields =>
    have hmembers := reads_members hrestores (List.cons_ne_nil _ _)
      (fun _ hother => find?_name hnodup hother) hnodup fun _ _ => List.not_mem_nil
    obtain ⟨more, hmore⟩ := exists_memberTokens field.name (field.write record)
      (fields.map fun field => (field.name, field.write record))
    have htakes := hmembers rest
    rw [List.map_cons, hmore] at htakes
    rw [JsonFormat.writeRecord, toTokens, List.map_cons, hmore]
    exact takes_record htakes (by simp)

/-! ### Tuples -/

theorem takes_laterFields {field : Field σ} {change : σ → σ} {tokens behind rest : List Token}
    {mayEndEarly : Bool} (hchange : Takes field.reader tokens change behind)
    (hlater : Takes (laterFields mayEndEarly fields (change start)) behind record rest) :
    Takes (laterFields mayEndEarly (field :: fields) start) (.comma :: tokens) record rest := by
  obtain ⟨hbehind, hchange⟩ := hchange
  obtain ⟨hrest, hlater⟩ := hlater
  refine ⟨Nat.lt_succ_of_lt (Nat.lt_trans hrest hbehind), ?_⟩
  rw [laterFields]
  simp only [bind, Except.bind, hchange, hlater]
  rfl

theorem takes_allFields {field : Field σ} {change : σ → σ} {token : Token}
    {tokens behind rest : List Token} {mayEndEarly : Bool} (htoken : token ≠ .closeList)
    (hchange : Takes field.reader (token :: tokens) change behind)
    (hlater : Takes (laterFields mayEndEarly fields (change start)) behind record rest) :
    Takes (allFields mayEndEarly (field :: fields) start) (token :: tokens) record rest := by
  obtain ⟨hbehind, hchange⟩ := hchange
  obtain ⟨hrest, hlater⟩ := hlater
  refine ⟨Nat.lt_trans hrest hbehind, ?_⟩
  rw [allFields]
  · simp only [bind, Except.bind, hchange, hlater]
    rfl
  · rintro _ ⟨⟩
    exact htoken rfl

theorem reads_laterFields (hrestores : Restores record fields start) (mayEndEarly : Bool) :
    Reads (laterFields mayEndEarly fields start) record
      ((fields.flatMap fun field => .comma :: (field.write record).toTokens) ++ [.closeList]) := by
  induction hrestores with
  | nil htarget =>
    subst htarget
    exact fun rest => ⟨Nat.lt_succ_self _, if_pos (Bool.or_true _)⟩
  | @cons field fields start change hread _ ih =>
    intro rest
    simpa using takes_laterFields (hread _) (ih rest)

theorem reads_allFields (hrestores : Restores record fields start) (mayEndEarly : Bool) :
    Reads (allFields mayEndEarly fields start) record
      (itemTokens (fields.map fun field => field.write record) ++ [.closeList]) := by
  intro rest
  cases hrestores with
  | nil htarget =>
    subst htarget
    exact ⟨Nat.lt_succ_self _, if_pos (Bool.or_true _)⟩
  | @cons field fields _ change hread hlater =>
    obtain ⟨token, more, htokens, htoken⟩ := exists_toTokens (field.write record)
    rw [htokens] at hread
    have htakes := takes_allFields htoken (hread _) (reads_laterFields hlater mayEndEarly rest)
    rw [List.map_cons, itemTokens_eq, htokens]
    simpa [List.flatMap_map] using htakes

/-- A record is restored from the list of its fields. -/
theorem reads_tuple (hrestores : Restores record fields start) :
    Reads (tuple fields start) record
      (Json.list (fields.map fun field => field.write record)).toTokens := by
  intro rest
  obtain ⟨shorter, hread⟩ := reads_allFields hrestores false rest
  rw [toTokens, List.cons_append]
  refine ⟨Nat.lt_succ_of_lt shorter, ?_⟩
  rw [tuple, hread]
  rfl

end

end Json.Reader

namespace JsonFormat

/-- A format whose reader takes every value from the tokens of its written form. -/
class Lawful (α : Type) [JsonFormat α] : Prop where
  reads (value : α) : (reader : Json.Reader α).Reads value (write value).toTokens

instance : Lawful Int32 := ⟨Json.Reader.reads_int32⟩

instance : Lawful UInt8 := ⟨Json.Reader.reads_byte⟩

instance {α : Type} [JsonFormat α] [Lawful α] : Lawful (List α) where
  reads values := Json.Reader.reads_list Lawful.reads values

/-- A value reads back from any text that spells it. -/
theorem read_of_spells {α : Type} [JsonFormat α] [Lawful α] {value : α} {text : List Char}
    (h : (write value).Spells text) : read α (String.ofList text) = .ok value := by
  have hnone : Json.tokens [] = [] := Json.tokens_of_next?_none rfl
  have htokens := Json.tokens_of_spells h Json.endsNumber_nil
  rw [List.append_nil, hnone] at htokens
  have htakes := Lawful.reads value []
  rw [← htokens] at htakes
  exact Json.Reader.Takes.read (by rwa [String.toList_ofList])

theorem read_compact {α : Type} [JsonFormat α] [Lawful α] (value : α) :
    read α (compact value) = .ok value :=
  read_of_spells (Json.spells_compact _)

theorem read_layOut {α : Type} [JsonFormat α] [Lawful α] (value : α) :
    read α (layOut value) = .ok value :=
  read_of_spells (Json.spells_layOut 0 _)

end JsonFormat

end MusicMacro
