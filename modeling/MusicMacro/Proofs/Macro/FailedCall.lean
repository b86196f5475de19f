import MusicMacro.Proofs.Track.Frame

/-! Macros that fail.  A macro that is not well called does nothing at all.  One that is refused by
the sink leaves the track where it was, with the dial that its name addresses as the only thing
that may have changed. -/

namespace MusicMacro

/-- The names of the macros that address a dial: the name of its command alone or with a suffix,
and a long name for the tempo and for the bend. -/
def Dial.macroNames (dial : Dial) : List String :=
  ["", "+", "-", "_", "t"].map (dial.commandName ++ ·) ++
    match dial with
    | .tempo => ["TEMPO"]
    | .pitchBend => ["BEND"]
    | _ => []

def Dial.ofMacroName? (name : String) : Option Dial :=
  Dial.all.find? fun dial => dial.macroNames.contains name

namespace Action

def dial? : Action → Option Dial
  | .tempo => some .tempo
  | .bend => some .pitchBend
  | .dial _ which => some which
  | _ => none

theorem operation_dial? (resolution : Resolution) (fallback : Fallback) (args : List Arg)
    (action : Action) : (action.operation resolution fallback args).dial? = action.dial? := by
  cases action <;> rfl

end Action

theorem Macro.table_dial? :
    ∀ entry ∈ table, entry.action.dial? = Dial.ofMacroName? entry.name := by
  decide +kernel

theorem Macro.lookup?_eq_some {name : String} {entry : Macro} (h : lookup? name = some entry) :
    entry ∈ table ∧ entry.name = name := by
  have hfound := List.find?_some h
  exact ⟨List.mem_of_find?_eq_some h, eq_of_beq hfound⟩

theorem Macro.lookup?_dial? {name : String} {entry : Macro} (h : lookup? name = some entry) :
    entry.action.dial? = Dial.ofMacroName? name := by
  obtain ⟨hmem, rfl⟩ := lookup?_eq_some h
  exact Macro.table_dial? entry hmem

namespace Invocation

theorem operation_eq_ok {fallback : Fallback} {resolution : Resolution} {invocation : Invocation}
    {operation : Operation} (h : invocation.operation fallback resolution = .ok operation) :
    ∃ entry, Macro.lookup? invocation.name = some entry ∧
      entry.validate invocation.args = .ok () ∧
      operation = entry.action.operation resolution fallback invocation.args := by
  rw [Invocation.operation] at h
  split at h
  case h_1 => cases h
  case h_2 entry hentry =>
    cases hvalid : entry.validate invocation.args with
    | error cause => rw [hvalid] at h; cases h
    | ok _ =>
      rw [hvalid] at h
      cases h
      exact ⟨entry, hentry, hvalid, rfl⟩

theorem operation_ok_dial? {fallback : Fallback} {resolution : Resolution} {invocation : Invocation}
    {operation : Operation} (h : invocation.operation fallback resolution = .ok operation) :
    operation.dial? = Dial.ofMacroName? invocation.name := by
  obtain ⟨entry, hentry, -, rfl⟩ := operation_eq_ok h
  rw [Action.operation_dial?, Macro.lookup?_dial? hentry]

theorem operation_error_ne_sink {fallback : Fallback} {resolution : Resolution}
    {invocation : Invocation} {refusal : Refusal} :
    invocation.operation fallback resolution ≠ .error (.sink refusal) := by
  intro h
  rw [Invocation.operation] at h
  split at h
  case h_1 => cases h
  case h_2 entry hentry =>
    rw [Macro.validate] at h
    split at h
    · cases h
    · split at h <;> cases h

end Invocation

namespace Track

variable {σ : Type} [Sink σ]

/-- A failed macro leaves the track in place.  Without a refusal nothing has happened, to the sink
or to the performer.  After a refusal the performer is as it was, but for the value of the dial that
the name of the macro addresses. -/
theorem invoke_failed_in_place (track : Track σ) (invocation : Invocation) :
    match track.invoke invocation with
    | (.ok _, _) => True
    | (.error (.sink _), after) =>
      Performer.Frame (Dial.ofMacroName? invocation.name) track.performer after.performer
    | (.error _, after) => after = track := by
  rw [invoke]
  cases hoperation : invocation.operation {} track.performer.resolution with
  | error cause =>
    cases cause with
    | sink refusal => exact absurd hoperation Invocation.operation_error_ne_sink
    | unknown name => exact rfl
    | argumentCount name min max got => exact rfl
    | misfit name place kind => exact rfl
  | ok operation =>
    cases hrun : track.perform operation with
    | mk reply after =>
      simp only [hrun]
      cases reply with
      | ok answer => exact True.intro
      | error refusal =>
        have hframe := perform_error_frame hrun
        rw [Invocation.operation_ok_dial? hoperation] at hframe
        exact hframe

end Track

end MusicMacro
