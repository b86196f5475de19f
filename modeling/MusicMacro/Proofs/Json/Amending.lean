import MusicMacro.Proofs.Json.Passage

/-! Records that are read from any members.  The members are taken in order: one that names a field
changes the record, one that names none is passed over, and the first value that does not fit its
field ends the reading.  What is left of a field is so what the one member with its name makes of
it, or what the record started with. -/

namespace MusicMacro.Json

/-! ### Values that do not fit -/

namespace Reader

section

variable {α β : Type} {reader : Reader α} {value other : α} {taken : List Token}

/-- The reader finds a value in the tokens that does not fit. -/
def Rejects (reader : Reader α) (tokens : List Token) : Prop :=
  ∃ failure, reader tokens = .error failure ∧ failure.fault.kind = .unfit

/-- The reader finds that the given tokens do not fit, whatever follows them. -/
def Refuses (reader : Reader α) (taken : List Token) : Prop :=
  ∀ rest, Rejects reader (taken ++ rest)

theorem Reads.unique (h : Reads reader value taken) (hother : Reads reader other taken) :
    value = other := by
  obtain ⟨_, hread⟩ := h []
  obtain ⟨_, hread'⟩ := hother []
  exact congrArg Reading.value (Except.ok.inj (hread.symm.trans hread'))

theorem Reads.not_refuses (h : Reads reader value taken) : ¬Refuses reader taken := by
  intro hrefuses
  obtain ⟨_, hread⟩ := h []
  obtain ⟨failure, hfailure, -⟩ := hrefuses []
  cases hread.symm.trans hfailure

theorem Reads.exists_of_mapValue {f : α → Except Fault β} {result : β}
    (h : Reads (Reader.mapValue reader f) result taken) : ∃ value, f value = .ok result := by
  obtain ⟨_, hread⟩ := h []
  rw [Reader.mapValue] at hread
  split at hread
  · cases hread
  · next reading _ =>
    split at hread
    · cases hread
    · next made hmade =>
      have hvalue : made = result := congrArg Reading.value (Except.ok.inj hread)
      exact ⟨reading.value, hmade.trans (congrArg Except.ok hvalue)⟩

theorem Refuses.mapValue (h : Refuses reader taken) (f : α → Except Fault β) :
    Refuses (mapValue reader f) taken := by
  intro rest
  obtain ⟨failure, hread, hkind⟩ := h rest
  refine ⟨failure, ?_, hkind⟩
  rw [Reader.mapValue, hread]

theorem Reads.refuses_mapValue {f : α → Except Fault β} {fault : Fault}
    (h : Reads reader value taken) (hf : f value = .error fault) (hkind : fault.kind = .unfit) :
    Refuses (Reader.mapValue reader f) taken := by
  intro rest
  obtain ⟨shorter, hread⟩ := h rest
  refine ⟨⟨fault, rest⟩, ?_, hkind⟩
  rw [Reader.mapValue, hread]
  simp only [hf]

theorem Refuses.behindColon (h : Refuses reader taken) :
    Refuses (behindColon reader) (.colon :: taken) := by
  intro rest
  obtain ⟨failure, hread, hkind⟩ := h rest
  refine ⟨failure, ?_, hkind⟩
  show (reader (taken ++ rest)).map _ = _
  rw [hread]
  rfl

/-- What a reader makes of tokens that are as they should be: a value, or nothing if they do not
fit. -/
def Answers (reader : Reader α) (taken : List Token) : Option α → Prop
  | some value => Reads reader value taken
  | none => Refuses reader taken

end

theorem Answers.map {α β : Type} {reader : Reader α} {taken : List Token} {result : Option α}
    (h : Answers reader taken result) (f : α → β) :
    Answers (mapValue reader fun value => .ok (f value)) taken (result.map f) := by
  cases result with
  | some value => exact Reads.mapValue h rfl
  | none => exact Refuses.mapValue h _

/-- A number, if it is in the range. -/
def within? (low high n : Int) : Option Int := if low ≤ n ∧ n ≤ high then some n else none

/-- The reader makes its values of the numbers in a range, and finds that no other number of 64 bits
fits. -/
def ReadsNumbers {α : Type} (reader : Reader α) (make : Int → α) (low high : Int) : Prop :=
  ∀ n, Number.IsWord n → Answers reader (Json.number n).toTokens ((within? low high n).map make)

theorem readsNumbers_integer (low high : Int) : ReadsNumbers (integer low high) id low high := by
  intro n hword
  have hscalar : Reads scalar (.integer n) (Json.number n).toTokens := by
    intro rest
    rw [toTokens, Token.ofInt_of_isWord hword]
    exact ⟨_, rfl⟩
  rw [within?]
  split
  · next hrange => exact hscalar.mapValue (if_pos hrange)
  · next hrange => exact hscalar.refuses_mapValue (if_neg hrange) rfl

theorem ReadsNumbers.map {α β : Type} {reader : Reader α} {make : Int → α} {low high : Int}
    (h : ReadsNumbers reader make low high) (f : α → β) :
    ReadsNumbers (mapValue reader fun value => .ok (f value)) (f ∘ make) low high := by
  intro n hword
  rw [← Option.map_map]
  exact (h n hword).map f

/-! ### Members -/

variable {σ : Type} {fields : List (Field σ)} {given later : List String}
  {members : List (String × Json)} {record start : σ} {result : Option σ} {key : String}
  {value : Json} {field : Field σ} {change : σ → σ}

def fieldOf? (fields : List (Field σ)) (key : String) : Option (Field σ) :=
  fields.find? fun field => field.name == key

theorem fieldOf?_eq_some (h : fieldOf? fields key = some field) :
    field ∈ fields ∧ field.name = key := by
  have hname := List.find?_some h
  exact ⟨List.mem_of_find?_eq_some h, eq_of_beq hname⟩

/-- What comes of a record by the members of an object, in order.  The names of the fields given so
far come first, and the result is missing if a value does not fit. -/
inductive Amends (fields : List (Field σ)) :
    List String → σ → List (String × Json) → Option σ → Prop where
  | nil {given : List String} {record : σ} : Amends fields given record [] (some record)
  | unknown {given : List String} {record : σ} {key : String} {value : Json}
    {members : List (String × Json)} {result : Option σ} (hfield : fieldOf? fields key = none)
    (h : Amends fields given record members result) :
    Amends fields given record ((key, value) :: members) result
  | known {given : List String} {record : σ} {key : String} {value : Json}
    {members : List (String × Json)} {result : Option σ} {field : Field σ} {change : σ → σ}
    (hfield : fieldOf? fields key = some field) (hnew : key ∉ given)
    (hread : Reads field.reader change value.toTokens)
    (h : Amends fields (key :: given) (change record) members result) :
    Amends fields given record ((key, value) :: members) result
  | refused {given : List String} {record : σ} {key : String} {value : Json}
    {members : List (String × Json)} {field : Field σ} (hfield : fieldOf? fields key = some field)
    (hnew : key ∉ given) (hread : Refuses field.reader value.toTokens) :
    Amends fields given record ((key, value) :: members) none

/-- A member that names no field is passed over, whatever its value is. -/
theorem reads_member_unknown (hfield : fieldOf? fields key = none) (value : Json) :
    Reads (member fields given key) (given, id) (.colon :: value.toTokens) := by
  intro rest
  obtain ⟨shorter, hread⟩ := ((reads_skip value).behindColon.mapValue
    (f := fun _ => .ok (given, (id : σ → σ))) rfl) rest
  refine ⟨shorter, ?_⟩
  rw [fieldOf?] at hfield
  rw [member, hfield]
  exact hread

theorem refuses_member (hfield : fieldOf? fields key = some field) (hnew : key ∉ given)
    (h : Refuses field.reader value.toTokens) :
    Refuses (member fields given key) (.colon :: value.toTokens) := by
  intro rest
  obtain ⟨failure, hread, hkind⟩ :=
    (h.behindColon.mapValue fun change => .ok (key :: given, change)) rest
  refine ⟨failure, ?_, hkind⟩
  rw [fieldOf?] at hfield
  rw [member, hfield]
  simp only [List.contains_eq_mem, hnew, decide_false, Bool.false_eq_true, if_false]
  exact hread

section

variable {name : String} {tokens behind next : List Token}

theorem members_rejects (hkey : Takes Reader.key tokens name behind)
    (hmember : Rejects (member fields given name) behind) :
    Rejects (Reader.members fields given record) tokens := by
  obtain ⟨_, hkey⟩ := hkey
  obtain ⟨failure, hmember, hkind⟩ := hmember
  refine ⟨failure, ?_, hkind⟩
  rw [Reader.members, hkey]
  simp only [bind, Except.bind, hmember]

theorem members_next_rejects (hkey : Takes Reader.key tokens name behind)
    (hmember : Takes (member fields given name) behind (later, change) (.comma :: next))
    (hnext : Rejects (Reader.members fields later (change record)) next) :
    Rejects (Reader.members fields given record) tokens := by
  obtain ⟨_, hkey⟩ := hkey
  obtain ⟨_, hmember⟩ := hmember
  obtain ⟨failure, hnext, hkind⟩ := hnext
  refine ⟨failure, ?_, hkind⟩
  rw [Reader.members, hkey]
  simp only [bind, Except.bind, hmember, hnext]

end

theorem refuses_members (h : Refuses (member fields given key) (.colon :: value.toTokens)) :
    Refuses (Reader.members fields given record)
      (memberTokens ((key, value) :: members) ++ [.closeObject]) := by
  intro rest
  obtain ⟨more, htokens⟩ := exists_memberTokens key value members
  rw [htokens]
  simpa using members_rejects (reads_key key _) (h (more ++ .closeObject :: rest))

/-- A member that is read leaves the rest to the members behind it. -/
theorem answers_members_cons
    (hmember : Reads (member fields given key) (later, change) (.colon :: value.toTokens))
    (hlast : members = [] → result = some (change record))
    (hnext : members ≠ [] → Answers (Reader.members fields later (change record))
      (memberTokens members ++ [.closeObject]) result) :
    Answers (Reader.members fields given record)
      (memberTokens ((key, value) :: members) ++ [.closeObject]) result := by
  have hkey := reads_key key
  cases members with
  | nil =>
    rw [hlast rfl]
    intro rest
    simpa [memberTokens] using members_last (hkey _) (hmember (.closeObject :: rest))
  | cons next members =>
    have hnext := hnext (List.cons_ne_nil _ _)
    rw [memberTokens_cons key value (List.cons_ne_nil _ _)]
    cases result with
    | some target =>
      intro rest
      simpa using members_next (hkey _) (hmember (.comma :: _)) (hnext rest)
    | none =>
      intro rest
      simpa using members_next_rejects (hkey _) (hmember (.comma :: _)) (hnext rest)

theorem Amends.eq_some_of_nil (h : Amends fields given record [] result) :
    result = some record := by
  cases h
  rfl

theorem Amends.answers_members (h : Amends fields given record members result)
    (hne : members ≠ []) :
    Answers (Reader.members fields given record) (memberTokens members ++ [.closeObject])
      result := by
  induction h with
  | nil => exact absurd rfl hne
  | unknown hfield h ih =>
    exact answers_members_cons (reads_member_unknown hfield _)
      (fun hnil => Amends.eq_some_of_nil (hnil ▸ h)) ih
  | known hfield hnew hread h ih =>
    obtain ⟨-, rfl⟩ := fieldOf?_eq_some hfield
    exact answers_members_cons (reads_member hfield hnew hread)
      (fun hnil => Amends.eq_some_of_nil (hnil ▸ h)) ih
  | refused hfield hnew hread => exact refuses_members (refuses_member hfield hnew hread)

theorem record_rejects {token : Token} {tokens : List Token}
    (h : Rejects (Reader.members fields [] start) (token :: tokens))
    (htoken : token ≠ .closeObject) :
    Rejects (Reader.record fields start) (.openObject :: token :: tokens) := by
  obtain ⟨failure, hread, hkind⟩ := h
  refine ⟨failure, ?_, hkind⟩
  rw [Reader.record]
  · rw [hread]
    rfl
  · rintro _ ⟨⟩
    exact htoken rfl

/-- A record is read from an object as its members amend it. -/
theorem Amends.answers_record (h : Amends fields [] start members result) :
    Answers (Reader.record fields start) (Json.object members).toTokens result := by
  cases members with
  | nil =>
    rw [h.eq_some_of_nil]
    exact fun rest => ⟨_, rfl⟩
  | cons member members =>
    obtain ⟨key, value⟩ := member
    have hmembers := h.answers_members (List.cons_ne_nil _ _)
    obtain ⟨more, htokens⟩ := exists_memberTokens key value members
    rw [htokens] at hmembers
    rw [toTokens, htokens]
    cases result with
    | some target => exact fun rest => takes_record (hmembers rest) (by simp)
    | none =>
      exact fun rest => record_rejects (hmembers rest) (by simp)

theorem exists_amends
    (honce : ∀ field ∈ fields, (given ++ members.map Prod.fst).count field.name ≤ 1)
    (hanswers : ∀ key value field, (key, value) ∈ members → fieldOf? fields key = some field →
      ∃ answer, Answers field.reader value.toTokens answer) (record : σ) :
    ∃ result, Amends fields given record members result := by
  induction members generalizing given record with
  | nil => exact ⟨_, .nil⟩
  | cons member members ih =>
    obtain ⟨key, value⟩ := member
    have hlater := fun key value field hmember =>
      hanswers key value field (List.mem_cons_of_mem _ hmember)
    cases hfield : fieldOf? fields key with
    | none =>
      have hcount : ∀ field ∈ fields, (given ++ members.map Prod.fst).count field.name ≤ 1 := by
        intro field hmem
        have honce := honce field hmem
        simp only [List.map_cons, List.count_append, List.count_cons] at honce ⊢
        omega
      obtain ⟨result, hresult⟩ := ih hcount hlater record
      exact ⟨result, .unknown hfield hresult⟩
    | some field =>
      obtain ⟨hmem, rfl⟩ := fieldOf?_eq_some hfield
      have hnew : field.name ∉ given := by
        have honce := honce field hmem
        simp only [List.map_cons, List.count_append, List.count_cons_self] at honce
        exact List.count_eq_zero.mp (by omega)
      obtain ⟨answer, hanswer⟩ := hanswers _ value field List.mem_cons_self hfield
      cases answer with
      | none => exact ⟨none, .refused hfield hnew hanswer⟩
      | some change =>
        have hcount : ∀ other ∈ fields,
            (field.name :: given ++ members.map Prod.fst).count other.name ≤ 1 := by
          intro other hother
          have honce := honce other hother
          simp only [List.map_cons, List.count_append, List.count_cons] at honce ⊢
          omega
        obtain ⟨result, hresult⟩ := ih hcount hlater (change record)
        exact ⟨result, .known hfield hnew hanswer hresult⟩

theorem Amends.exists_refuses (h : Amends fields given record members none) :
    ∃ key value field, (key, value) ∈ members ∧ fieldOf? fields key = some field ∧
      Refuses field.reader value.toTokens := by
  generalize hresult : none = result at h
  induction h with
  | nil => cases hresult
  | unknown _ _ ih | known _ _ _ _ ih =>
    obtain ⟨key, value, field, hmember, hfield, hrefuses⟩ := ih hresult
    exact ⟨key, value, field, List.mem_cons_of_mem _ hmember, hfield, hrefuses⟩
  | refused hfield _ hrefuses => exact ⟨_, _, _, List.mem_cons_self, hfield, hrefuses⟩

/-! ### What is left of a field -/

section

variable {τ : Type} {view : σ → τ} {name : String} {target : σ}

/-- No field but the one of the name changes what is viewed of a record. -/
def ChangedBy (fields : List (Field σ)) (name : String) (view : σ → τ) : Prop :=
  ∀ field ∈ fields, field.name ≠ name → ∀ change taken, Reads field.reader change taken →
    ∀ record, view (change record) = view record

/-- A field that was given before is not given again. -/
theorem Amends.view_of_given (hview : ChangedBy fields name view) (hgiven : name ∈ given)
    (h : Amends fields given record members (some target)) : view target = view record := by
  generalize hresult : some target = result at h
  induction h with
  | nil =>
    cases hresult
    rfl
  | unknown _ _ ih => exact ih hgiven hresult
  | @known given record key value members result other change hother hnew hread h ih =>
    obtain ⟨hmem, rfl⟩ := fieldOf?_eq_some hother
    have hne : other.name ≠ name := by
      rintro rfl
      exact hnew hgiven
    exact (ih (List.mem_cons_of_mem _ hgiven) hresult).trans (hview _ hmem hne _ _ hread _)
  | refused => cases hresult

/-- The member of a field says what is left of it, and without one it is left as it was. -/
theorem Amends.view_eq (hview : ChangedBy fields name view)
    (hfield : fieldOf? fields name = some field)
    (h : Amends fields given record members (some target)) (hnew : name ∉ given) :
    match members.lookup name with
    | none => view target = view record
    | some value => ∃ change before, Reads field.reader change value.toTokens ∧
        view target = view (change before) := by
  generalize hresult : some target = result at h
  induction h with
  | nil =>
    cases hresult
    rfl
  | @unknown given record key value members result hother h ih =>
    have hne : (name == key) = false := by
      rw [beq_eq_false_iff_ne]
      rintro rfl
      cases hother.symm.trans hfield
    rw [List.lookup_cons, hne]
    exact ih hnew hresult
  | @known given record key value members result other change hother _ hread h ih =>
    obtain ⟨hmem, hname⟩ := fieldOf?_eq_some hother
    by_cases hkey : name = key
    · subst hkey
      obtain rfl : other = field := Option.some.inj (hother.symm.trans hfield)
      rw [List.lookup_cons, beq_self_eq_true]
      subst hresult
      exact ⟨change, record, hread, h.view_of_given hview List.mem_cons_self⟩
    · have hkept := hview other hmem (hname ▸ Ne.symm hkey) change _ hread record
      have hlater := ih (by simp [hkey, hnew]) hresult
      rw [hkept] at hlater
      rw [List.lookup_cons, beq_eq_false_iff_ne.mpr hkey]
      exact hlater
  | refused => cases hresult

end

end Reader

/-! ### Members that are numbers -/

/-- The key stands in front of a whole number of 64 bits, if it is there, and it is there only
once. -/
def GivesNumber (members : List (String × Json)) (key : String) : Prop :=
  (members.map Prod.fst).count key ≤ 1 ∧
    ∀ value, (key, value) ∈ members → ∃ n, value = .number n ∧ Number.IsWord n

theorem mem_of_lookup {members : List (String × Json)} {key : String} {value : Json}
    (h : members.lookup key = some value) : (key, value) ∈ members := by
  obtain ⟨before, after, rfl, -⟩ := List.lookup_eq_some_iff.mp h
  simp

theorem lookup_of_mem {members : List (String × Json)} {key : String} {value : Json}
    (honce : (members.map Prod.fst).count key ≤ 1) (h : (key, value) ∈ members) :
    members.lookup key = some value := by
  obtain ⟨before, after, rfl⟩ := List.append_of_mem h
  refine List.lookup_eq_some_iff.mpr ⟨before, after, rfl, fun member hmember => ?_⟩
  simp only [List.map_append, List.map_cons, List.count_append, List.count_cons_self] at honce
  have hcount : (before.map Prod.fst).count key = 0 := by omega
  have hne : key ≠ member.1 := by
    rintro rfl
    exact List.count_eq_zero.mp hcount (List.mem_map_of_mem hmember)
  simpa using hne

namespace Reader

section

variable {σ : Type} {fields : List (Field σ)} {members : List (String × Json)} {name : String}
  {view : σ → Int} {low high : Int} {field : Field σ} {value : Json}

/-- The field of the name reads the numbers of a range, and what is viewed is then the number. -/
def HoldsNumber (fields : List (Field σ)) (name : String) (view : σ → Int) (low high : Int) :
    Prop :=
  ∃ field make, fieldOf? fields name = some field ∧ ReadsNumbers field.reader make low high ∧
    ∀ n record, low ≤ n ∧ n ≤ high → view (make n record) = n

theorem HoldsNumber.exists_answers (h : HoldsNumber fields name view low high)
    (hgives : GivesNumber members name) (hfield : fieldOf? fields name = some field)
    (hmember : (name, value) ∈ members) :
    ∃ answer, Answers field.reader value.toTokens answer := by
  obtain ⟨other, make, hother, hreads, -⟩ := h
  obtain rfl : other = field := Option.some.inj (hother.symm.trans hfield)
  obtain ⟨n, rfl, hword⟩ := hgives.2 value hmember
  exact ⟨_, hreads n hword⟩

/-- A number that its field refuses is out of range. -/
theorem HoldsNumber.of_refuses (h : HoldsNumber fields name view low high)
    (hgives : GivesNumber members name) (hfield : fieldOf? fields name = some field)
    (hmember : (name, value) ∈ members) (hrefuses : Refuses field.reader value.toTokens) :
    ∃ n, (name, .number n) ∈ members ∧ ¬(low ≤ n ∧ n ≤ high) := by
  obtain ⟨other, make, hother, hreads, -⟩ := h
  obtain rfl : other = field := Option.some.inj (hother.symm.trans hfield)
  obtain ⟨n, rfl, hword⟩ := hgives.2 value hmember
  refine ⟨n, hmember, fun hrange => ?_⟩
  have hread := hreads n hword
  rw [within?, if_pos hrange] at hread
  exact Reads.not_refuses hread hrefuses

/-- Where the members could be read, the number of a field is in its range and is what is left of
it. -/
theorem Amends.view_of_mem {start target : σ} (hview : ChangedBy fields name view)
    (hholds : HoldsNumber fields name view low high) (hgives : GivesNumber members name)
    (h : Amends fields [] start members (some target)) {n : Int}
    (hmember : (name, .number n) ∈ members) : (low ≤ n ∧ n ≤ high) ∧ view target = n := by
  obtain ⟨field, make, hfield, hreads, hnumber⟩ := hholds
  have hleft := h.view_eq hview hfield List.not_mem_nil
  rw [lookup_of_mem hgives.1 hmember] at hleft
  obtain ⟨change, before, hread, hchange⟩ := hleft
  obtain ⟨m, heq, hword⟩ := hgives.2 _ hmember
  obtain rfl : n = m := Json.number.inj heq
  have hanswers := hreads n hword
  rw [within?] at hanswers
  by_cases hrange : low ≤ n ∧ n ≤ high
  · rw [if_pos hrange] at hanswers
    obtain rfl : change = make n := hread.unique hanswers
    exact ⟨hrange, hchange.trans (hnumber n before hrange)⟩
  · rw [if_neg hrange] at hanswers
    exact absurd hanswers hread.not_refuses

/-- A field without a member is left as it was. -/
theorem Amends.view_of_notMem {start target : σ} (hview : ChangedBy fields name view)
    (hholds : HoldsNumber fields name view low high) (hgives : GivesNumber members name)
    (h : Amends fields [] start members (some target))
    (hmember : ∀ n, (name, .number n) ∉ members) : view target = view start := by
  obtain ⟨field, -, hfield, -, -⟩ := hholds
  have hleft := h.view_eq hview hfield List.not_mem_nil
  cases hlookup : members.lookup name with
  | none =>
    rw [hlookup] at hleft
    exact hleft
  | some value =>
    have hfound := mem_of_lookup hlookup
    obtain ⟨n, rfl, -⟩ := hgives.2 value hfound
    exact absurd hfound (hmember n)

end

end Reader

/-! ### Whole texts -/

/-- The text is the value, with blanks around it and in it. -/
def SpelledBy (json : Json) (text : String) : Prop :=
  ∃ before spelled after, text.toList = before ++ spelled ++ after ∧ IsGap before ∧
    Spells json spelled ∧ IsGap after

theorem SpelledBy.tokens_eq {json : Json} {text : String} (h : json.SpelledBy text) :
    tokens text.toList = json.toTokens := by
  obtain ⟨before, spelled, after, htext, hbefore, hspelled, hafter⟩ := h
  have hnone : tokens [] = [] := tokens_of_next?_none rfl
  have hbehind : tokens after = [] := by
    rw [← List.append_nil after, tokens_gap_append hafter, hnone]
  have hends : EndsNumber after := by
    rw [← List.append_nil after]
    exact endsNumber_gap_append hafter endsNumber_nil
  rw [htext, List.append_assoc, tokens_gap_append hbefore, tokens_of_spells hspelled hends, hbehind,
    List.append_nil]

/-- What a reader makes of a whole text is what it makes of the tokens of its value. -/
theorem Reader.Answers.read {α : Type} {reader : Reader α} {json : Json} {result : Option α}
    {text : String} (htext : json.SpelledBy text) (h : Answers reader json.toTokens result) :
    match result with
    | some value => reader.read text = .ok value
    | none => ∃ error, reader.read text = .error error ∧ error.fault.kind = .unfit := by
  rw [← htext.tokens_eq] at h
  cases result with
  | some value =>
    have htakes := h []
    rw [List.append_nil] at htakes
    exact htakes.read
  | none =>
    have hrejects := h []
    rw [List.append_nil] at hrejects
    obtain ⟨failure, hread, hkind⟩ := hrejects
    refine ⟨.place text.toList failure.fault failure.rest.length, ?_, hkind⟩
    rw [Reader.read, hread]

end MusicMacro.Json
