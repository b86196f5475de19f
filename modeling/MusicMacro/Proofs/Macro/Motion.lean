import MusicMacro.Proofs.Macro.FailedCall
import MusicMacro.Proofs.Track.Travel

/-! How macros move a track.  The name of a macro says whether it plays a note, rests, or moves a
dial along the timeline, and the numbers among its arguments say how far.  All others stand still. -/

namespace MusicMacro

/-- The number that stands at a place among arguments. -/
def Arg.number? (args : List Arg) (place : Nat) : Option Int :=
  match args[place]? with
  | some (.number value) => some value.toInt
  | _ => none

inductive Motion where
  | still
  | rest
  /-- A note whose step stands at a place among the arguments. -/
  | note (place : Nat)
  | sweep
  | wave
  deriving DecidableEq, Repr

namespace Motion

/-- The macros that play a pitch: its letter, alone or with a sign. -/
def pitchNames : List String :=
  ["c", "d", "e", "f", "g", "a", "b"].flatMap fun letter => ["", "-", "=", "+"].map (letter ++ ·)

def dialNames : List String := ["t", "B", "E", "M", "V", "P", "H", "RSD", "CSD", "DSD"]

def ofName (name : String) : Motion :=
  if name = "r" then .rest
  else if name = "n" then .note 1
  else if name ∈ pitchNames then .note 0
  else if name ∈ dialNames.map (· ++ "_") then .sweep
  else if name ∈ dialNames.map (· ++ "t") then .wave
  else .still

/-- The ticks that a macro takes, if it is carried out.  The waits of curves and the length of a
sweep are given as note lengths, and a sweep without a step has one of four ticks. -/
def ticks (performer : Performer) (args : List Arg) : Motion → Int :=
  let number (place : Nat) (otherwise : Int) : Int := (Arg.number? args place).getD otherwise
  let length (place : Nat) : Int := performer.lengthTicks (number place 0)
  fun
  | .still => 0
  | .rest => number 0 0
  | .note place => performer.noteTicks (Arg.number? args place)
  | .sweep => sweepTicks performer.position.toInt (length 2) (length 3) (number 4 4)
  | .wave =>
    waveTicks performer.position.toInt (length 2) (length 3) (number 4 0) (number 5 0) (number 7 0)

end Motion

def Invocation.ticks (performer : Performer) (invocation : Invocation) : Int :=
  (Motion.ofName invocation.name).ticks performer invocation.args

/-! ### The macros of the table -/

theorem Arg.toInt_numberAt (args : List Arg) (place : Nat) (otherwise : Int32) :
    (numberAt args place otherwise).toInt = (number? args place).getD otherwise.toInt := by
  rcases h : args[place]? with _ | _ | _ <;> simp only [numberAt, number?, h] <;> rfl

def Action.motion : Action → Motion
  | .rest => .rest
  | .note => .note 1
  | .play .. => .note 0
  | .dial .sweep _ => .sweep
  | .dial .wave _ => .wave
  | _ => .still

theorem Macro.table_motion :
    ∀ entry ∈ table, Motion.ofName entry.name = entry.action.motion := by
  decide +kernel

namespace Action

variable (performer : Performer) (args : List Arg)

theorem noteTicks_nonneg? (value : Int32) :
    performer.noteTicks ((nonneg? value).map Int32.toInt) =
      performer.noteTicks (some value.toInt) := by
  have hsign : (0 ≤ value) ↔ 0 ≤ value.toInt := Int32.le_iff_toInt_le
  rw [nonneg?]
  by_cases hvalue : 0 ≤ value
  · rw [if_pos hvalue]
    rfl
  · rw [if_neg hvalue]
    exact (if_neg (mt hsign.mpr hvalue)).symm

theorem noteTicks_articulation (place : Nat) :
    performer.noteTicks ((articulation args place).step.map Int32.toInt) =
      performer.noteTicks (Arg.number? args place) := by
  have hstep : (articulation args place).step = nonneg? (Arg.numberAt args place (-1)) := rfl
  rw [hstep, noteTicks_nonneg?, Arg.toInt_numberAt]
  -- A step that is missing reads as a negative one, and neither is a step.
  cases Arg.number? args place <;> rfl

/-- The operation of an action other than the rest travels as the name of its macro says. -/
theorem travel_operation {action : Action} (h : action ≠ .rest) (taken : Bool) :
    (action.operation performer.resolution {} args).travel performer taken =
      .ifTaken taken (action.motion.ticks performer args) := by
  have hstill : Travel.moved 0 = .ifTaken taken 0 := by cases taken <;> rfl
  cases action with
  | rest => exact absurd rfl h
  | note => exact congrArg (Travel.ifTaken taken) (noteTicks_articulation performer args 1)
  | play pitch accidental =>
    exact congrArg (Travel.ifTaken taken) (noteTicks_articulation performer args 0)
  | dial how which =>
    cases how with
    | sweep =>
      refine congrArg (Travel.ifTaken taken) ?_
      simp only [performer.toInt_toTicks, Arg.toInt_numberAt]
      rfl
    | wave =>
      refine congrArg (Travel.ifTaken taken) ?_
      simp only [performer.toInt_toTicks, Arg.toInt_numberAt]
      rfl
    | _ => exact hstill
  | _ => exact hstill

theorem plan_travel (action : Action) :
    ((action.operation performer.resolution {} args).plan performer).Ends
      (fun left => left.position =
        (Travel.ifTaken false (action.motion.ticks performer args)).apply performer.position)
      fun left => left.position =
        (Travel.ifTaken true (action.motion.ticks performer args)).apply performer.position := by
  by_cases hrest : action = .rest
  · -- A rest hands nothing over, so it is never refused.
    subst hrest
    show (performer.move .advance (Arg.numberAt args 0 0)).position = _
    have hticks : Motion.rest.ticks performer args = (Arg.numberAt args 0 0).toInt :=
      (Arg.toInt_numberAt args 0 0).symm
    rw [Action.motion, hticks]
    exact (Move.advance.apply_travel _ performer.position).symm
  · have hends := Operation.plan_travel performer (action.operation performer.resolution {} args)
    rwa [travel_operation performer args hrest, travel_operation performer args hrest] at hends

end Action

/-- A macro that is well called travels by its name and its arguments. -/
theorem Invocation.plan_travel {performer : Performer} {invocation : Invocation}
    {operation : Operation} (h : invocation.operation {} performer.resolution = .ok operation) :
    (operation.plan performer).Ends
      (fun left => left.position =
        (Travel.ifTaken false (invocation.ticks performer)).apply performer.position)
      fun left => left.position =
        (Travel.ifTaken true (invocation.ticks performer)).apply performer.position := by
  obtain ⟨entry, hentry, -, rfl⟩ := operation_eq_ok h
  obtain ⟨hlisted, hname⟩ := Macro.lookup?_eq_some hentry
  rw [ticks, ← hname, Macro.table_motion entry hlisted]
  exact entry.action.plan_travel performer invocation.args

end MusicMacro
