import Mathlib.Order.Bounds.Basic
import MusicMacro.Proofs.Macro.FailedCall
import MusicMacro.Sink.Live

/-! What is checked when a macro is called, and in which order: its name, the number of its
arguments, and each argument from the left.  Each complaint is made exactly when there is cause for
it and for none before it, and a misfit is reported at the first place that has one.  A call that
passes can fail by a refusal alone. -/

namespace MusicMacro

/-- The arguments that fit a parameter.  Text and numbers are kept apart, but for the parameter that
takes anything. -/
inductive Parameter.Fits : Parameter → Arg → Prop where
  | any (arg : Arg) : Fits .any arg
  | text (value : String) : Fits .text (.text value)
  | number {kind : Parameter} (h : kind ≠ .text) (value : Int32) : Fits kind (.number value)

theorem Parameter.takes_iff {kind : Parameter} {arg : Arg} : kind.takes arg ↔ kind.Fits arg := by
  constructor
  · intro h
    cases arg with
    | number value =>
      refine .number ?_ value
      rintro rfl
      cases h
    | text value =>
      cases kind with
      | any => exact .any _
      | text => exact .text value
      | _ => cases h
  · rintro (_ | _ | ⟨hkind, value⟩)
    · rfl
    · rfl
    · cases kind with
      | text => exact absurd rfl hkind
      | _ => rfl

namespace Macro

/-! ### One entry of the table -/

/-- The last parameter takes all arguments that follow it. -/
def Variadic (entry : Macro) : Prop := entry.params.getLast? = some .variadic

/-- There are fewer arguments than must be given, or more than there are parameters to take them. -/
def Miscounts (entry : Macro) (args : List Arg) : Prop :=
  args.length < entry.required ∨ ¬entry.Variadic ∧ entry.params.length < args.length

/-- The parameter that the argument at a place is for. -/
inductive ParamAt (entry : Macro) : Nat → Parameter → Prop where
  | own {place : Nat} {kind : Parameter} (h : entry.params[place]? = some kind) :
    ParamAt entry place kind
  | beyond {place : Nat} (hlast : entry.Variadic) (h : entry.params.length ≤ place) :
    ParamAt entry place .variadic

/-- There is an argument at the place, and it does not fit its parameter. -/
def Misfits (entry : Macro) (args : List Arg) (place : Nat) : Prop :=
  ∃ arg kind, args[place]? = some arg ∧ entry.ParamAt place kind ∧ ¬kind.Fits arg

/-- What comes of the checks of an entry. -/
inductive Checked (entry : Macro) (args : List Arg) : Except CallError Unit → Prop where
  | miscounted (h : entry.Miscounts args) :
    Checked entry args
      (.error (.argumentCount entry.name entry.required entry.arityLimit? args.length))
  | misfit {place : Nat} {kind : Parameter} (hcount : ¬entry.Miscounts args)
    (hplace : IsLeast {place | entry.Misfits args place} place) (hkind : entry.ParamAt place kind) :
    Checked entry args (.error (.misfit entry.name place kind))
  | passed (hcount : ¬entry.Miscounts args) (h : ∀ place, ¬entry.Misfits args place) :
    Checked entry args (.ok ())

variable {entry : Macro} {args : List Arg}

theorem miscounts_iff :
    args.length < entry.required ∨ entry.arityLimit?.any (· < args.length) ↔
      entry.Miscounts args := by
  rw [Miscounts, Variadic, arityLimit?]
  split <;> simp_all

theorem ParamAt.kindAt_eq {place : Nat} {kind : Parameter} (h : entry.ParamAt place kind) :
    entry.kindAt place = kind := by
  cases h with
  | own h => simp [kindAt, h]
  | beyond hlast h =>
    have hnone : entry.params[place]? = none := List.getElem?_eq_none h
    have hlast : entry.params.getLast? = some .variadic := hlast
    simp [kindAt, hnone, hlast]

theorem paramAt_kindAt (hcount : ¬entry.Miscounts args) {place : Nat} (h : place < args.length) :
    entry.ParamAt place (entry.kindAt place) := by
  have hparam : ∃ kind, entry.ParamAt place kind := by
    by_cases hplace : place < entry.params.length
    · exact ⟨_, .own (List.getElem?_eq_getElem hplace)⟩
    · have hlast : entry.Variadic :=
        Classical.byContradiction fun hlast => hcount (.inr ⟨hlast, by omega⟩)
      exact ⟨_, .beyond hlast (by omega)⟩
  obtain ⟨kind, hkind⟩ := hparam
  rwa [hkind.kindAt_eq]

theorem misfits_iff (hcount : ¬entry.Miscounts args) {place : Nat} :
    entry.Misfits args place ↔
      ∃ h : place < args.length, (entry.kindAt place).takes args[place] = false := by
  constructor
  · rintro ⟨arg, kind, harg, hkind, hfits⟩
    obtain ⟨hplace, rfl⟩ := List.getElem?_eq_some_iff.mp harg
    rw [← Parameter.takes_iff, ← hkind.kindAt_eq, Bool.not_eq_true] at hfits
    exact ⟨hplace, hfits⟩
  · rintro ⟨hplace, htakes⟩
    refine ⟨_, _, List.getElem?_eq_getElem hplace, paramAt_kindAt hcount hplace, ?_⟩
    rw [← Parameter.takes_iff, htakes]
    exact Bool.false_ne_true

/-- The search stops at the first misfit: all places before it hold arguments that fit. -/
theorem misfit?_eq_some (hcount : ¬entry.Miscounts args) {arg : Arg} {place : Nat}
    (h : entry.misfit? args = some (arg, place)) :
    IsLeast {place | entry.Misfits args place} place := by
  obtain ⟨htakes, i, hi, hfound, hearlier⟩ := List.find?_eq_some_iff_getElem.mp h
  rw [List.getElem_zipIdx, Nat.zero_add] at hfound
  cases hfound
  rw [List.length_zipIdx] at hi
  refine ⟨(misfits_iff hcount).mpr ⟨hi, by simpa using htakes⟩, fun other hother => ?_⟩
  obtain ⟨hplace, hother⟩ := (misfits_iff hcount).mp hother
  refine Nat.le_of_not_lt fun hlt => ?_
  have htaken := hearlier other hlt
  rw [List.getElem_zipIdx, Nat.zero_add] at htaken
  simp [hother] at htaken

theorem misfit?_eq_none (hcount : ¬entry.Miscounts args) (h : entry.misfit? args = none)
    (place : Nat) : ¬entry.Misfits args place := by
  rw [misfits_iff hcount]
  rintro ⟨hplace, htakes⟩
  have hmem : (args[place], place) ∈ args.zipIdx :=
    List.mk_mem_zipIdx_iff_getElem?.mpr (List.getElem?_eq_getElem hplace)
  have htaken := List.find?_eq_none.mp h _ hmem
  simp [htakes] at htaken

theorem validate_checked (entry : Macro) (args : List Arg) :
    entry.Checked args (entry.validate args) := by
  rw [validate]
  split
  · rename_i hcount
    exact .miscounted (miscounts_iff.mp hcount)
  · rename_i hcount
    rw [miscounts_iff] at hcount
    cases hmisfit : entry.misfit? args with
    | none => exact .passed hcount (misfit?_eq_none hcount hmisfit)
    | some found =>
      obtain ⟨arg, place⟩ := found
      have hleast := misfit?_eq_some hcount hmisfit
      obtain ⟨hplace, -⟩ := (misfits_iff hcount).mp hleast.1
      exact .misfit hcount hleast (paramAt_kindAt hcount hplace)

theorem validate_eq_argumentCount_iff {name : String} {min got : Nat} {max : Option Nat} :
    entry.validate args = .error (.argumentCount name min max got) ↔
      entry.Miscounts args ∧ name = entry.name ∧ min = entry.required ∧
        max = entry.arityLimit? ∧ got = args.length := by
  have hchecked := entry.validate_checked args
  generalize entry.validate args = outcome at hchecked ⊢
  cases hchecked with
  | miscounted h =>
    constructor
    · intro heq
      cases heq
      exact ⟨h, rfl, rfl, rfl, rfl⟩
    · rintro ⟨-, rfl, rfl, rfl, rfl⟩
      rfl
  | misfit hcount => exact ⟨nofun, fun h => absurd h.1 hcount⟩
  | passed hcount => exact ⟨nofun, fun h => absurd h.1 hcount⟩

theorem validate_eq_misfit_iff {name : String} {place : Nat} {kind : Parameter} :
    entry.validate args = .error (.misfit name place kind) ↔
      ¬entry.Miscounts args ∧ name = entry.name ∧
        IsLeast {place | entry.Misfits args place} place ∧ entry.ParamAt place kind := by
  have hchecked := entry.validate_checked args
  generalize entry.validate args = outcome at hchecked ⊢
  cases hchecked with
  | miscounted h => exact ⟨nofun, fun hmisfit => absurd h hmisfit.1⟩
  | misfit hcount hplace hkind =>
    constructor
    · intro heq
      cases heq
      exact ⟨hcount, rfl, hplace, hkind⟩
    · rintro ⟨-, rfl, hplace', hkind'⟩
      obtain rfl := hplace.unique hplace'
      rw [← hkind.kindAt_eq, ← hkind'.kindAt_eq]
  | passed hcount h => exact ⟨nofun, fun hmisfit => absurd hmisfit.2.2.1.1 (h place)⟩

/-- An argument that does not fit is reported, unless their number is. -/
theorem exists_validate_eq_misfit_iff :
    (∃ name place kind, entry.validate args = .error (.misfit name place kind)) ↔
      ¬entry.Miscounts args ∧ ∃ place, entry.Misfits args place := by
  constructor
  · rintro ⟨name, place, kind, h⟩
    obtain ⟨hcount, -, hplace, -⟩ := validate_eq_misfit_iff.mp h
    exact ⟨hcount, place, hplace.1⟩
  · rintro ⟨hcount, other, hother⟩
    have hchecked := entry.validate_checked args
    generalize entry.validate args = outcome at hchecked ⊢
    cases hchecked with
    | miscounted h => exact absurd h hcount
    | misfit _ hplace hkind => exact ⟨_, _, _, rfl⟩
    | passed _ h => exact absurd hother (h other)

theorem validate_of_fits (hcount : ¬entry.Miscounts args)
    (h : ∀ place, ¬entry.Misfits args place) : entry.validate args = .ok () := by
  have hchecked := entry.validate_checked args
  generalize entry.validate args = outcome at hchecked ⊢
  cases hchecked with
  | miscounted hcount' => exact absurd hcount' hcount
  | misfit _ hplace _ => exact absurd hplace.1 (h _)
  | passed _ _ => rfl

/-- An entry is found under its name, for no two have the same. -/
theorem lookup?_name : ∀ entry ∈ table, lookup? entry.name = some entry := by
  decide +kernel

end Macro

/-! ### Calls -/

namespace Track

variable {σ : Type} [Sink σ] (track : Track σ) {invocation : Invocation}

theorem invoke_unlisted (h : ∀ entry ∈ Macro.table, entry.name ≠ invocation.name) :
    (track.invoke invocation).1 = .error (.unknown invocation.name) := by
  have hnone : Macro.lookup? invocation.name = none :=
    List.find?_eq_none.mpr fun entry hentry => by simpa using h entry hentry
  rw [invoke, Invocation.operation, hnone]

section Listed

variable {entry : Macro} (hentry : entry ∈ Macro.table) (hname : entry.name = invocation.name)
include hentry hname

/-- A call of an entry says what the checks of the entry say.  If they pass, it can be refused. -/
theorem invoke_listed :
    match entry.validate invocation.args with
    | .error cause => (track.invoke invocation).1 = .error cause
    | .ok _ =>
      (track.invoke invocation).1 = .ok () ∨
        ∃ refusal, (track.invoke invocation).1 = .error (.sink refusal) := by
  have hlookup := Macro.lookup?_name entry hentry
  rw [hname] at hlookup
  rw [invoke, Invocation.operation, hlookup]
  dsimp only
  cases entry.validate invocation.args with
  | error cause => rfl
  | ok _ =>
    dsimp only [Except.map]
    cases (track.perform
      (entry.action.operation track.performer.resolution {} invocation.args)).1 with
    | ok answer => exact .inl rfl
    | error refusal => exact .inr ⟨refusal, rfl⟩

theorem invoke_listed_error_iff {cause : CallError} (hcause : ∀ refusal, cause ≠ .sink refusal) :
    (track.invoke invocation).1 = .error cause ↔
      entry.validate invocation.args = .error cause := by
  have hreply := track.invoke_listed hentry hname
  cases hvalid : entry.validate invocation.args with
  | error cause' =>
    rw [hvalid] at hreply
    rw [show (track.invoke invocation).1 = .error cause' from hreply]
  | ok _ =>
    rw [hvalid] at hreply
    rcases hreply with hreply | ⟨refusal, hreply⟩
    · simp [hreply]
    · simp [hreply, (hcause refusal).symm]

end Listed

/-- The checks of a call are exact, and they are made in order.  A name is unknown exactly when no
entry has it.  For an entry that has it, the number of the arguments is reported exactly when there
are too few of them or, without a variadic parameter, too many; and if neither is the case, a misfit
is reported exactly when there is one, at the first place of all, with the parameter there.  What
passes all checks can fail by a refusal alone. -/
theorem invoke_checks (invocation : Invocation) :
    let reply := (track.invoke invocation).1
    let args := invocation.args
    (∀ name, reply = .error (.unknown name) ↔
      name = invocation.name ∧ ∀ entry ∈ Macro.table, entry.name ≠ invocation.name) ∧
    ∀ entry ∈ Macro.table, entry.name = invocation.name →
      (∀ name min max got, reply = .error (.argumentCount name min max got) ↔
        entry.Miscounts args ∧ name = entry.name ∧ min = entry.required ∧
          max = entry.arityLimit? ∧ got = args.length) ∧
      (∀ name place kind, reply = .error (.misfit name place kind) ↔
        ¬entry.Miscounts args ∧ name = entry.name ∧
          IsLeast {place | entry.Misfits args place} place ∧ entry.ParamAt place kind) ∧
      ((∃ name place kind, reply = .error (.misfit name place kind)) ↔
        ¬entry.Miscounts args ∧ ∃ place, entry.Misfits args place) ∧
      (¬entry.Miscounts args → (∀ place, ¬entry.Misfits args place) →
        reply = .ok () ∨ ∃ refusal, reply = .error (.sink refusal)) := by
  intro reply args
  refine ⟨fun name => ?_, fun entry hentry hname => ⟨?_, ?_, ?_, ?_⟩⟩
  · constructor
    · intro hunknown
      have hunlisted : ∀ entry ∈ Macro.table, entry.name ≠ invocation.name := by
        intro entry hentry hname
        have hvalid : entry.validate args = .error (.unknown name) :=
          Iff.mp (track.invoke_listed_error_iff hentry hname nofun) hunknown
        have hchecked := entry.validate_checked args
        rw [hvalid] at hchecked
        cases hchecked
      have hreply : reply = _ := track.invoke_unlisted hunlisted
      rw [hreply] at hunknown
      cases hunknown
      exact ⟨rfl, hunlisted⟩
    · rintro ⟨rfl, hunlisted⟩
      exact track.invoke_unlisted hunlisted
  · intro name min max got
    rw [← Macro.validate_eq_argumentCount_iff]
    exact track.invoke_listed_error_iff hentry hname nofun
  · intro name place kind
    rw [← Macro.validate_eq_misfit_iff]
    exact track.invoke_listed_error_iff hentry hname nofun
  · rw [← Macro.exists_validate_eq_misfit_iff]
    refine exists_congr fun name => exists_congr fun place => exists_congr fun kind => ?_
    exact track.invoke_listed_error_iff hentry hname nofun
  · intro hcount hfits
    have hreply := track.invoke_listed hentry hname
    rw [Macro.validate_of_fits hcount hfits] at hreply
    exact hreply

/-- A variadic macro reports the first text among its numbers, far behind its only parameter. -/
theorem invoke_checks_beyond :
    let track := Track.start Config.standard ({ port := {} } : Transmitter)
    (track.invoke ⟨":", [.number 1, .number 2, .text "c", .text "d"]⟩).1 =
      .error (.misfit ":" 2 .variadic) := by
  intro track
  let entry : Macro := ⟨":", [.variadic], 0, .loopLeaving⟩
  let args : List Arg := [.number 1, .number 2, .text "c", .text "d"]
  have hentry : entry ∈ Macro.table := by decide +kernel
  have hcount : ¬entry.Miscounts args := by
    rintro (hfew | ⟨hlast, -⟩)
    · cases hfew
    · exact hlast rfl
  have hkind : entry.ParamAt 2 .variadic := .beyond rfl (by decide)
  have hplace : IsLeast {place | entry.Misfits args place} 2 := by
    refine ⟨⟨.text "c", .variadic, rfl, hkind, nofun⟩, fun other hother => ?_⟩
    obtain ⟨_, htakes⟩ := (Macro.misfits_iff hcount).mp hother
    rcases other with _ | _ | place
    · cases htakes
    · cases htakes
    · exact Nat.le_add_left 2 place
  obtain ⟨-, hmisfit, -⟩ := (track.invoke_checks ⟨":", args⟩).2 entry hentry rfl
  exact (hmisfit ":" 2 .variadic).mpr ⟨hcount, rfl, hplace, hkind⟩

end Track

end MusicMacro
