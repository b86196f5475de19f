import MusicMacro.Proofs.Macro.FailedCall
import MusicMacro.Proofs.Sink.Metered
import MusicMacro.Proofs.Track.Bisimulation

/-! Diagnostics never touch the music.  A sink keeps its music apart from its diagnostics, so an
output for diagnostics that breaks changes nothing but what is read there, and the commands that
only report can be left out of a run.  They are told by their names alone: a macro that reports
does so or, not well called, does nothing. -/

namespace MusicMacro

/-! ### Music and diagnostics of a sink -/

/-- A sink whose music is apart from its diagnostics: no remark touches the music, and the replies
of the sink and what becomes of the music follow from the music alone. -/
class Musical (σ : Type) [Sink σ] (μ : outParam Type) where
  music : σ → μ
  music_remark (remark : Remark) (sink : σ) : music (Sink.remark remark sink) = music sink
  emit_congr (primitive : Primitive) {sink other : σ} (h : music sink = music other) :
    (Sink.emit primitive sink).1 = (Sink.emit primitive other).1 ∧
      music (Sink.emit primitive sink).2 = music (Sink.emit primitive other).2
  flush_congr {sink other : σ} (h : music sink = music other) :
    Sink.flush sink = Sink.flush other

instance : Musical Sheet Writer where
  music := Sheet.events
  music_remark := Sheet.remark_events
  emit_congr primitive {sink other} h := by
    rw [Sheet.emit_eq, Sheet.emit_eq, h]
    exact ⟨rfl, rfl⟩
  flush_congr h := congrArg Writer.flush h

instance : Musical Transmitter Port where
  music := Live.port
  music_remark remark sink := by cases remark <;> rfl
  emit_congr primitive {sink other} h := by
    cases hmessage : primitive.liveMessage? with
    | none =>
      rw [Live.emit_silent hmessage, Live.emit_silent hmessage]
      exact ⟨rfl, h⟩
    | some message =>
      rw [Live.emit_message hmessage, Live.emit_message hmessage, h]
      exact ⟨rfl, rfl⟩
  flush_congr _ := rfl

/-! ### Commands that only report -/

def Operation.isDiagnostic : Operation → Bool
  | .debug _ => true
  | .assertPosition _ _ => true
  | _ => false

def Invocation.isDiagnostic (invocation : Invocation) : Bool :=
  ["DEBUG", "ASSERT_STEP"].contains invocation.name

/-- Whether a command is a diagnostic operation or calls a diagnostic macro, well or not. -/
def Command.isDiagnostic : Command → Bool
  | .operation wanted => wanted.isDiagnostic
  | .invoke called => called.isDiagnostic
  | .line text => (Invocation.ofLine? text).any Invocation.isDiagnostic
  | .flush => false

/-- The commands that do more than report. -/
def Command.musical (commands : List Command) : List Command :=
  commands.filter fun command => !command.isDiagnostic

theorem Macro.table_isDiagnostic (resolution : Resolution) (fallback : Fallback) (args : List Arg) :
    ∀ entry ∈ table, ["DEBUG", "ASSERT_STEP"].contains entry.name →
      (entry.action.operation resolution fallback args).isDiagnostic := by
  have htable : ∀ entry ∈ table, ["DEBUG", "ASSERT_STEP"].contains entry.name →
      entry.action = .debug ∨ entry.action = .assertPosition := by
    decide +kernel
  intro entry hentry hname
  rcases htable entry hentry hname with haction | haction <;> rw [haction] <;> rfl

theorem Invocation.operation_isDiagnostic {fallback : Fallback} {resolution : Resolution}
    {invocation : Invocation} {operation : Operation} (hname : invocation.isDiagnostic)
    (h : invocation.operation fallback resolution = .ok operation) : operation.isDiagnostic := by
  obtain ⟨entry, hentry, -, rfl⟩ := operation_eq_ok h
  obtain ⟨hmem, heq⟩ := Macro.lookup?_eq_some hentry
  exact Macro.table_isDiagnostic resolution fallback invocation.args entry hmem (heq ▸ hname)

/-- A task that leaves the track as it is, or only reports on it. -/
inductive Task.Diagnostic : Task → Prop
  | idle (outcome : Outcome) : Diagnostic (.idle outcome)
  | operation {operation : Operation} (told : Bool) (h : operation.isDiagnostic) :
    Diagnostic (.operation operation told)

theorem Invocation.task_diagnostic {invocation : Invocation} (h : invocation.isDiagnostic)
    (resolution : Resolution) : (invocation.task resolution).Diagnostic := by
  rw [task]
  cases hoperation : invocation.operation {} resolution with
  | error cause => exact .idle _
  | ok operation => exact .operation false (operation_isDiagnostic h hoperation)

theorem Command.task_diagnostic {command : Command} (h : command.isDiagnostic)
    (resolution : Resolution) : (command.task resolution).Diagnostic := by
  cases command with
  | operation operation => exact .operation true h
  | invoke invocation => exact Invocation.task_diagnostic h resolution
  | line text =>
    rw [isDiagnostic] at h
    rw [task]
    cases hline : Invocation.ofLine? text with
    | none => exact .idle _
    | some invocation =>
      rw [hline] at h
      exact Invocation.task_diagnostic h resolution
  | flush => cases h

/-! ### Plans and steps -/

section Musical

variable {σ μ : Type} [Sink σ] [Musical σ μ]

open Musical

theorem Musical.bisimulation :
    Sink.Bisimulation fun sink other : σ => music sink = music other where
  emit primitive _ _ h := emit_congr primitive h
  remark said sink other h := by rw [music_remark, music_remark, h]
  flush h := flush_congr h

theorem Operation.carryOut_diagnostic {operation : Operation} (h : operation.isDiagnostic)
    (performer : Performer) (sink : σ) :
    ((operation.plan performer).carryOut sink).2.1 = performer ∧
      music ((operation.plan performer).carryOut sink).2.2 = music sink := by
  cases operation with
  | debug text => exact ⟨rfl, music_remark _ sink⟩
  | assertPosition expected label =>
    show ((Plan.assertPosition performer expected label).carryOut sink).2.1 = performer ∧
      music ((Plan.assertPosition performer expected label).carryOut sink).2.2 = music sink
    rw [Plan.assertPosition]
    split
    · exact ⟨rfl, rfl⟩
    · refine ⟨rfl, ?_⟩
      show music (Sink.remark _ (Sink.remark _ sink)) = music sink
      rw [music_remark, music_remark]
  | _ => cases h

namespace Track

/-- Two tracks that differ in their diagnostics at most. -/
structure SameMusic (track other : Track σ) : Prop where
  performer : track.performer = other.performer
  music : music track.sink = music other.sink

variable {track other : Track σ}

theorem SameMusic.refl (track : Track σ) : SameMusic track track := ⟨rfl, rfl⟩

theorem SameMusic.trans {third : Track σ} (h1 : SameMusic track other)
    (h2 : SameMusic other third) : SameMusic track third :=
  ⟨h1.performer.trans h2.performer, h1.music.trans h2.music⟩

theorem SameMusic.step (h : SameMusic track other) (command : Command) :
    (track.step command).1 = (other.step command).1 ∧
      SameMusic (track.step command).2 (other.step command).2 := by
  obtain ⟨houtcome, hafter⟩ := Musical.bisimulation.step ⟨h.performer, h.music⟩ command
  exact ⟨houtcome, hafter.performer, hafter.sink⟩

theorem step_diagnostic {command : Command} (h : command.isDiagnostic) (track : Track σ) :
    SameMusic (track.step command).2 track := by
  rw [step_eq_handle]
  have htask := Command.task_diagnostic h track.performer.resolution
  revert htask
  generalize command.task track.performer.resolution = task
  rintro (outcome | ⟨told, hoperation⟩)
  · exact SameMusic.refl track
  · obtain ⟨hleft, hmusic⟩ := Operation.carryOut_diagnostic hoperation track.performer track.sink
    exact ⟨hleft, hmusic⟩

/-! ### Runs -/

theorem SameMusic.run (h : SameMusic track other) (commands : List Command) :
    (track.run commands).1 = (other.run commands).1 ∧
      SameMusic (track.run commands).2 (other.run commands).2 := by
  obtain ⟨houtcomes, hend⟩ := Musical.bisimulation.run ⟨h.performer, h.music⟩ commands
  exact ⟨houtcomes, hend.performer, hend.sink⟩

/-- The outcomes of a run that belong to commands that do more than report. -/
def musicalOutcomes (track : Track σ) (commands : List Command) : List Outcome :=
  ((commands.zip (track.run commands).1).filter fun (command, _) => !command.isDiagnostic).map
    Prod.snd

theorem SameMusic.run_musical (h : SameMusic track other) (commands : List Command) :
    (other.run (Command.musical commands)).1 = track.musicalOutcomes commands ∧
      SameMusic (track.run commands).2 (other.run (Command.musical commands)).2 := by
  induction commands generalizing track other with
  | nil => exact ⟨rfl, h⟩
  | cons command commands ih =>
    cases hdiagnostic : command.isDiagnostic with
    | true =>
      obtain ⟨houtcomes, hend⟩ := ih ((step_diagnostic hdiagnostic track).trans h)
      have hdrop : Command.musical (command :: commands) = Command.musical commands := by
        simp [Command.musical, hdiagnostic]
      rw [hdrop, houtcomes]
      refine ⟨?_, hend⟩
      simp [musicalOutcomes, run_cons, hdiagnostic]
    | false =>
      obtain ⟨houtcome, hafter⟩ := h.step command
      obtain ⟨houtcomes, hend⟩ := ih hafter
      have hkeep : Command.musical (command :: commands) =
          command :: Command.musical commands := by
        simp [Command.musical, hdiagnostic]
      rw [hkeep, run_cons, run_cons, houtcomes, ← houtcome]
      refine ⟨?_, hend⟩
      simp [musicalOutcomes, run_cons, hdiagnostic]

/-- Two runs of the same commands that differ in their diagnostics at most: every outcome is the
same, and so are the performer and the music after each command. -/
structure SameRun (track other : Track σ) (commands : List Command) : Prop where
  outcomes : (track.run commands).1 = (other.run commands).1
  tracks : ∀ i, SameMusic (track.run (commands.take i)).2 (other.run (commands.take i)).2

/-- A run from which the diagnostic commands can be left out: the other commands keep their
outcomes, and what a number of commands leads to is what those that remain of them lead to. -/
structure Separable (track : Track σ) (commands : List Command) : Prop where
  outcomes : (track.run (Command.musical commands)).1 = track.musicalOutcomes commands
  tracks : ∀ i, SameMusic (track.run (commands.take i)).2
    (track.run (Command.musical (commands.take i))).2

theorem SameMusic.sameRun (h : SameMusic track other) (commands : List Command) :
    SameRun track other commands :=
  ⟨(h.run commands).1, fun i => (h.run (commands.take i)).2⟩

theorem separable (track : Track σ) (commands : List Command) : Separable track commands :=
  ⟨((SameMusic.refl track).run_musical commands).1,
    fun i => ((SameMusic.refl track).run_musical (commands.take i)).2⟩

end Track

end Musical

/-- Diagnostics never touch the music.  Written music with another output for its diagnostics, which
may break at any byte, takes the same course; and on written music and on a live port the
diagnostic commands can be left out of any run. -/
theorem Track.music_ignores_diagnostics (sheet : Track Sheet) (diagnostics : Writer)
    (live : Track Transmitter) (commands : List Command) :
    SameRun sheet { sheet with sink.diagnostics := diagnostics } commands ∧
      Separable sheet commands ∧ Separable live commands := by
  have hsame : SameMusic sheet { sheet with sink.diagnostics := diagnostics } := ⟨rfl, rfl⟩
  exact ⟨hsame.sameRun commands, separable sheet commands, separable live commands⟩

end MusicMacro
