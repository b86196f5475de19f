import MusicMacro.Proofs.Macro.Signature
import MusicMacro.Proofs.Track.Calls

/-! The operations of the macros by the values of their parameters.  A call whose arguments pass the
checks gives all of its parameters their values, so what an operation reads is there: nothing that a
call leaves open reaches the operation in any other way than as a standard value. -/

namespace MusicMacro

namespace Parameter

variable {params : List Parameter} {required : Nat} {standards : List Value} {args : List Arg}
  {values : List Value}

theorem Filled.byte (h : Filled (.byte :: params) (required + 1) standards args values) :
    ∃ number rest more, args = .number number :: rest ∧
      values = .byte (lowByte number) :: more ∧ Filled params required standards rest more := by
  obtain ⟨_, rest, _, more, rfl, rfl, hgives, hmore⟩ := filled_given_iff.mp h
  obtain ⟨number, rfl, rfl⟩ := gives_byte_iff.mp hgives
  exact ⟨number, rest, more, rfl, rfl, hmore⟩

theorem Filled.int (h : Filled (.int :: params) (required + 1) standards args values) :
    ∃ number rest more, args = .number number :: rest ∧ values = .number number :: more ∧
      Filled params required standards rest more := by
  obtain ⟨_, rest, _, more, rfl, rfl, ⟨⟩, hmore⟩ := filled_given_iff.mp h
  exact ⟨_, rest, more, rfl, rfl, hmore⟩

theorem Filled.length (h : Filled (.length :: params) (required + 1) standards args values) :
    ∃ number rest more, args = .number number :: rest ∧ values = .length ⟨number⟩ :: more ∧
      Filled params required standards rest more := by
  obtain ⟨_, rest, _, more, rfl, rfl, ⟨⟩, hmore⟩ := filled_given_iff.mp h
  exact ⟨_, rest, more, rfl, rfl, hmore⟩

theorem Filled.text (h : Filled (.text :: params) (required + 1) standards args values) :
    ∃ text rest more, args = .text text :: rest ∧ values = .text text :: more ∧
      Filled params required standards rest more := by
  obtain ⟨_, rest, _, more, rfl, rfl, ⟨⟩, hmore⟩ := filled_given_iff.mp h
  exact ⟨_, rest, more, rfl, rfl, hmore⟩

theorem Filled.any (h : Filled (.any :: params) (required + 1) standards args values) :
    ∃ arg rest more, args = arg :: rest ∧ values = .text arg.display :: more ∧
      Filled params required standards rest more := by
  obtain ⟨arg, rest, _, more, rfl, rfl, ⟨⟩, hmore⟩ := filled_given_iff.mp h
  exact ⟨arg, rest, more, rfl, rfl, hmore⟩

theorem filled_byte (h : Filled [.byte] 1 [] args values) :
    ∃ number, args = [.number number] ∧ values = [.byte (lowByte number)] := by
  obtain ⟨number, _, _, rfl, rfl, hend⟩ := h.byte
  obtain ⟨rfl, rfl⟩ := filled_nil_iff.mp hend
  exact ⟨number, rfl, rfl⟩

end Parameter

namespace Action

open Parameter

variable {action : Action} {resolution : Resolution} {fallback : Fallback} {args : List Arg}
  {values : List Value}

/-- Only the macros that leave a loop have a variadic parameter. -/
theorem getLast?_params (h : action ≠ .loopLeaving) : action.params.getLast? ≠ some .variadic := by
  cases action with
  | loopLeaving => exact absurd rfl h
  | dial how which => cases how <;> nofun
  | assign which => cases which <;> nofun
  | _ => nofun

theorem length_params (h : action ≠ .loopLeaving) :
    action.params.length = action.required + action.standards.length := by
  cases action with
  | loopLeaving => exact absurd rfl h
  | dial how which => cases how <;> rfl
  | assign which => cases which <;> rfl
  | _ => rfl

end Action

namespace Macro

variable {entry : Macro} {args : List Arg}

theorem fits_of_validate (hvalid : entry.validate args = .ok ()) :
    ¬entry.Miscounts args ∧ ∀ (place : Nat) (kind : Parameter) (arg : Arg),
      entry.ParamAt place kind → args[place]? = some arg → kind.Fits arg := by
  have hchecked := entry.validate_checked args
  rw [hvalid] at hchecked
  cases hchecked with
  | passed hcount hfits =>
    refine ⟨hcount, fun place kind arg hkind harg => ?_⟩
    by_contra hmisfit
    exact hfits place ⟨arg, kind, harg, hkind, hmisfit⟩

/-- Arguments that pass the checks of an entry give all its parameters their values. -/
theorem exists_filled (hentry : entry ∈ table) (hvalid : entry.validate args = .ok ()) :
    ∃ values, Parameter.Filled entry.action.params entry.action.required entry.action.standards
      args values := by
  obtain ⟨hcount, hfits⟩ := fits_of_validate hvalid
  obtain ⟨hparams, hrequired⟩ := table_params entry hentry
  -- A variadic parameter takes all arguments; otherwise each argument has a parameter of its own.
  by_cases haction : entry.action = .loopLeaving
  · rw [haction] at hparams ⊢
    refine Parameter.exists_filled_rest fun place arg harg => hfits place _ arg ?_ harg
    have hlast : entry.Variadic := congrArg List.getLast? hparams
    cases place with
    | zero => exact .own (by rw [hparams]; rfl)
    | succ place => exact .beyond hlast (by simp [hparams, Action.params])
  · have hlast : ¬entry.Variadic := by
      rw [Variadic, hparams]
      exact Action.getLast?_params haction
    rw [Miscounts, hparams, hrequired] at hcount
    refine Parameter.exists_filled (Action.length_params haction) (by omega) ?_ ?_
    · by_contra hmany
      exact hcount (.inr ⟨hlast, by omega⟩)
    · intro place kind arg hkind harg
      exact hfits place kind arg (.own (by rwa [hparams])) harg

end Macro

namespace Track

variable {σ : Type} [Sink σ]

variable (track : Track σ)

end Track

end MusicMacro
