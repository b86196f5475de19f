import Mathlib.Data.List.Forall2
import MusicMacro.Track

/-! What a command comes to.  On a timeline of a given resolution a command is an operation, or the
flush of the sink, or nothing at all, and this does not depend on the sink.  A run is the steps of
its commands one after the other. -/

namespace MusicMacro

inductive Task where
  | idle (outcome : Outcome)
  /-- An operation.  The flag tells whether its answer is told. -/
  | operation (operation : Operation) (told : Bool)
  | flush

def Invocation.task (resolution : Resolution) (invocation : Invocation) : Task :=
  match invocation.operation {} resolution with
  | .error cause => .idle (.failed cause)
  | .ok wanted => .operation wanted false

def Command.task (resolution : Resolution) : Command → Task
  | .operation wanted => .operation wanted true
  | .invoke invocation => invocation.task resolution
  | .line text =>
    match Invocation.ofLine? text with
    | none => .idle .blank
    | some invocation => invocation.task resolution
  | .flush => .flush

def Outcome.ofReply (told : Bool) : Except Refusal Answer → Outcome
  | .ok answer => .answered (if told then answer else .done)
  | .error cause => .failed (.sink cause)

theorem Invocation.task_ne_flush (resolution : Resolution) (invocation : Invocation) :
    invocation.task resolution ≠ .flush := by
  rw [task]
  split <;> simp

theorem Command.eq_flush_of_task {resolution : Resolution} {command : Command}
    (h : command.task resolution = .flush) : command = .flush := by
  cases command with
  | operation operation => cases h
  | invoke invocation => exact absurd h (invocation.task_ne_flush resolution)
  | line text =>
    rw [task] at h
    split at h
    · cases h
    · exact absurd h (Invocation.task_ne_flush resolution _)
  | flush => rfl

namespace Track

variable {σ : Type} [Sink σ]

def handle (track : Track σ) : Task → Outcome × Track σ
  | .idle outcome => (outcome, track)
  | .operation operation told =>
    (.ofReply told (track.perform operation).1, (track.perform operation).2)
  | .flush =>
    match Sink.flush track.sink with
    | .ok _ => (.answered .done, track)
    | .error cause => (.failed (.sink cause), track)

theorem invoked_eq_handle (track : Track σ) (invocation : Invocation) :
    step.invoked (track.invoke invocation) =
      track.handle (invocation.task track.performer.resolution) := by
  rw [invoke, Invocation.task]
  cases invocation.operation {} track.performer.resolution with
  | error cause => rfl
  | ok operation =>
    simp only [handle]
    cases track.perform operation with
    | mk reply after =>
      cases reply with
      | ok answer => rfl
      | error cause => rfl

theorem step_eq_handle (track : Track σ) (command : Command) :
    track.step command = track.handle (command.task track.performer.resolution) := by
  cases command with
  | operation operation =>
    rw [step, Command.task, handle]
    cases track.perform operation with
    | mk reply after => cases reply <;> rfl
  | invoke invocation => exact invoked_eq_handle track invocation
  | line text =>
    rw [step, Command.task]
    cases Invocation.ofLine? text with
    | none => rfl
    | some invocation => exact invoked_eq_handle track invocation
  | flush => rfl

/-! ### Runs -/

theorem step_invoke (track : Track σ) (invocation : Invocation) :
    (track.step (.invoke invocation)).2 = (track.invoke invocation).2 := by
  rw [step]
  cases track.invoke invocation with
  | mk reply after => cases reply <;> rfl

@[simp] theorem run_nil (track : Track σ) : track.run [] = ([], track) := rfl

theorem run_cons (track : Track σ) (command : Command) (commands : List Command) :
    track.run (command :: commands) =
      ((track.step command).1 :: ((track.step command).2.run commands).1,
        ((track.step command).2.run commands).2) := rfl

theorem run_append (track : Track σ) (commands more : List Command) :
    (track.run (commands ++ more)).2 = ((track.run commands).2.run more).2 := by
  induction commands generalizing track with
  | nil => rfl
  | cons command commands ih => simp [run_cons, ih]

/-- The track before the command at place `i` of a run, and what comes of that command. -/
theorem run_getElem (track : Track σ) {commands : List Command} {i : Nat}
    (hi : i < commands.length) :
    (track.run (commands.take (i + 1))).2 =
        ((track.run (commands.take i)).2.step commands[i]).2 ∧
      (track.run commands).1[i]? =
        some ((track.run (commands.take i)).2.step commands[i]).1 := by
  induction commands generalizing track i with
  | nil => simp at hi
  | cons command commands ih =>
    cases i with
    | zero => simp [run_cons]
    | succ i =>
      obtain ⟨hafter, houtcome⟩ := ih (track.step command).2 (i := i) (by simpa using hi)
      simp [run_cons, hafter, houtcome]

/-- What every command keeps is kept by a run. -/
theorem run_invariant {P : Track σ → Prop} {commands : List Command}
    (hstep : ∀ track, ∀ command ∈ commands, P track → P (track.step command).2)
    {track : Track σ} (h : P track) : P (track.run commands).2 := by
  induction commands generalizing track with
  | nil => exact h
  | cons command commands ih =>
    have hlater := fun track next hnext => hstep track next (List.mem_cons_of_mem command hnext)
    exact ih hlater (hstep track command List.mem_cons_self h)

/-- A relation of two tracks that every command keeps is kept by a run, and what it entails for the
outcomes of one command holds of all outcomes of the run. -/
theorem run_forall₂ {τ : Type} [Sink τ] {R : Track σ → Track τ → Prop}
    {Q : Outcome → Outcome → Prop} {commands : List Command}
    (hstep : ∀ track other, ∀ command ∈ commands, R track other →
      Q (track.step command).1 (other.step command).1 ∧
        R (track.step command).2 (other.step command).2)
    {track : Track σ} {other : Track τ} (h : R track other) :
    List.Forall₂ Q (track.run commands).1 (other.run commands).1 ∧
      R (track.run commands).2 (other.run commands).2 := by
  induction commands generalizing track other with
  | nil => exact ⟨.nil, h⟩
  | cons command commands ih =>
    obtain ⟨houtcome, hafter⟩ := hstep track other command List.mem_cons_self h
    obtain ⟨houtcomes, hend⟩ := ih (fun track other next hnext =>
      hstep track other next (List.mem_cons_of_mem command hnext)) hafter
    rw [run_cons, run_cons]
    exact ⟨.cons houtcome houtcomes, hend⟩

theorem run_related {τ : Type} [Sink τ] {R : Track σ → Track τ → Prop} {commands : List Command}
    (hstep : ∀ track other, ∀ command ∈ commands, R track other →
      R (track.step command).2 (other.step command).2)
    {track : Track σ} {other : Track τ} (h : R track other) :
    R (track.run commands).2 (other.run commands).2 :=
  (run_forall₂ (Q := fun _ _ => True) (fun track other command hcommand hrelated =>
    ⟨trivial, hstep track other command hcommand hrelated⟩) h).2

end Track

end MusicMacro
