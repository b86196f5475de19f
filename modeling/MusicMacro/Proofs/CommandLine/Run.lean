import MusicMacro.CommandLine.Run
import MusicMacro.Proofs.CommandLine.Arguments
import MusicMacro.Proofs.Config.RoundTrip
import MusicMacro.Proofs.Track.Position

/-! The program behind the command line is a run of its commands as lines, up to the first that
fails.  Written music is what that run has written, whether a command failed or not, while the
messages for a port are shown only if none did. -/

namespace MusicMacro

/-! ### Runs up to a failure -/

namespace Track

variable {σ : Type} [Sink σ]

def fails (track : Track σ) (commands : List Command) : Bool :=
  (track.run commands).1.any fun outcome => !outcome.taken

/-- The commands up to the first that fails, and that one as well. -/
def upToFailure (track : Track σ) (commands : List Command) : List Command :=
  commands.take ((track.run commands).1.findIdx (fun outcome => !outcome.taken) + 1)

/-- The track after the first command that fails, or else after all of them. -/
def runToFailure (track : Track σ) (commands : List Command) : Track σ :=
  (track.run (track.upToFailure commands)).2

theorem fails_cons (track : Track σ) (command : Command) (commands : List Command) :
    track.fails (command :: commands) =
      (!(track.step command).1.taken || (track.step command).2.fails commands) := rfl

theorem runToFailure_cons_of_failed {track : Track σ} {command : Command}
    (h : (track.step command).1.taken = false) (commands : List Command) :
    track.runToFailure (command :: commands) = (track.step command).2 := by
  rw [runToFailure, upToFailure, run_cons, List.findIdx_cons, h]
  rfl

theorem runToFailure_cons_of_taken {track : Track σ} {command : Command}
    (h : (track.step command).1.taken = true) (commands : List Command) :
    track.runToFailure (command :: commands) =
      (track.step command).2.runToFailure commands := by
  rw [runToFailure, upToFailure, run_cons, List.findIdx_cons, h]
  rfl

end Track

namespace CommandLine

variable {σ : Type} [Sink σ]

theorem playAll_cons (track : Track σ) (command : String) (commands : List String) :
    playAll track (command :: commands) =
      match track.step (.line command) with
      | (.failed cause, after) => (some (.commandFailed command cause), after)
      | (_, after) => playAll after commands := by
  rw [playAll, Track.step]
  cases Invocation.ofLine? command with
  | none => rfl
  | some invocation =>
    cases h : track.invoke invocation with
    | mk reply after => cases reply <;> simp [Track.step.invoked, h]

theorem playAll_cons_of_taken {track : Track σ} {command : String}
    (h : (track.step (.line command)).1.taken = true) (commands : List String) :
    playAll track (command :: commands) = playAll (track.step (.line command)).2 commands := by
  rw [playAll_cons]
  split
  · next hfailed =>
    rw [hfailed] at h
    cases h
  · next hafter => rw [hafter]

theorem playAll_cons_of_failed {track : Track σ} {command : String}
    (h : (track.step (.line command)).1.taken = false) :
    ∃ failure, ∀ commands, playAll track (command :: commands) =
      (some failure, (track.step (.line command)).2) := by
  cases hstep : track.step (.line command) with
  | mk outcome after =>
    rw [hstep] at h
    cases outcome with
    | failed cause =>
      exact ⟨.commandFailed command cause, fun commands => by rw [playAll_cons, hstep]⟩
    | blank => cases h
    | answered answer => cases h

/-- Playing commands is running them as lines up to the first that fails, and a failure is told if
there is one. -/
theorem playAll_eq (track : Track σ) (commands : List String) :
    (playAll track commands).1.isSome = track.fails (commands.map Command.line) ∧
      (playAll track commands).2 = track.runToFailure (commands.map Command.line) := by
  induction commands generalizing track with
  | nil => exact ⟨rfl, rfl⟩
  | cons command commands ih =>
    rw [List.map_cons, Track.fails_cons]
    cases htaken : (track.step (.line command)).1.taken with
    | true =>
      rw [playAll_cons_of_taken htaken, Track.runToFailure_cons_of_taken htaken]
      exact ih (track.step (.line command)).2
    | false =>
      obtain ⟨failure, hplay⟩ := playAll_cons_of_failed htaken
      rw [hplay, Track.runToFailure_cons_of_failed htaken]
      exact ⟨rfl, rfl⟩

/-- What follows a command that fails is not played. -/
theorem playAll_append {track : Track σ} {commands : List String}
    (h : (playAll track commands).1.isSome = true) (more : List String) :
    playAll track (commands ++ more) = playAll track commands := by
  induction commands generalizing track with
  | nil => cases h
  | cons command commands ih =>
    rw [List.cons_append]
    cases htaken : (track.step (.line command)).1.taken with
    | true =>
      rw [playAll_cons_of_taken htaken] at h ⊢
      rw [playAll_cons_of_taken htaken, ih h]
    | false =>
      obtain ⟨failure, hplay⟩ := playAll_cons_of_failed htaken
      rw [hplay, hplay]

/-! ### What is shown -/

def hexDigit (n : Nat) : Char := "0123456789ABCDEF".toList.getD n '?'

/-- The bytes of a message on a line of their own, with two digits each and blanks between them. -/
def hexLine (message : List UInt8) : List Char :=
  [' '].intercalate (message.map fun byte =>
    [hexDigit (byte.toNat / 16), hexDigit (byte.toNat % 16)]) ++ ['\n']

theorem toUpper_digitChar : ∀ n < 16, (Nat.digitChar n).toUpper = hexDigit n := by decide

theorem messageLine_eq (message : List UInt8) : messageLine message = hexLine message := by
  have hdigits : ∀ byte : UInt8,
      Hex.upper byte = [hexDigit (byte.toNat / 16), hexDigit (byte.toNat % 16)] := fun byte => by
    have hlt := byte.toNat_lt
    rw [Hex.upper, Hex.lower, List.map_cons, List.map_cons, List.map_nil,
      toUpper_digitChar _ (by omega), toUpper_digitChar _ (by omega)]
  rw [messageLine, hexLine, List.map_congr_left fun byte _ => hdigits byte]

/-- Whether a run of the commands on a track of the configuration fails. -/
def fails (config : Config) (commands : List Command) : Output → Bool
  | .text => (Track.start config ({} : Sheet)).fails commands
  | .live => (Track.start config ({ port := {} } : Transmitter)).fails commands

/-- What is shown of the run up to the first failure.  Written music stays, and ends with a new
line if nothing failed; of a live run that failed nothing is shown. -/
def shown (config : Config) (commands : List Command) : Output → ByteArray
  | .text =>
    ((Track.start config ({} : Sheet)).runToFailure commands).sink.events.written ++
      if fails config commands .text then .empty else "\n".toUTF8
  | .live =>
    if fails config commands .live then .empty
    else
      Text.utf8 (((Track.start config ({ port := {} } : Transmitter)).runToFailure
        commands).sink.port.sent.toList.flatMap hexLine)

def play (config : Config) (commands : List String) : Output → Result
  | .text => playWritten config commands
  | .live => playLive config commands

theorem play_eq (config : Config) (commands : List String) (output : Output) :
    (play config commands output).output = shown config (commands.map Command.line) output ∧
      (play config commands output).exitCode =
        if fails config (commands.map Command.line) output then 1 else 0 := by
  cases output with
  | text =>
    obtain ⟨hfails, hend⟩ := playAll_eq (Track.start config ({} : Sheet)) commands
    rw [play, playWritten, shown, fails, ← hfails, ← hend]
    cases playAll (Track.start config ({} : Sheet)) commands with
    | mk failure track =>
      cases failure with
      | none => exact ⟨rfl, rfl⟩
      | some failure => exact ⟨ByteArray.append_empty.symm, rfl⟩
  | live =>
    obtain ⟨hfails, hend⟩ := playAll_eq (Track.start config ({ port := {} } : Transmitter)) commands
    rw [play, playLive, shown, fails, ← hfails, ← hend, ← funext messageLine_eq]
    cases playAll (Track.start config ({ port := {} } : Transmitter)) commands with
    | mk failure track => cases failure <;> exact ⟨rfl, rfl⟩

theorem play_append {config : Config} {commands : List String} {output : Output}
    (h : fails config (commands.map Command.line) output = true) (more : List String) :
    play config (commands ++ more) output = play config commands output := by
  cases output with
  | text =>
    rw [fails, ← (playAll_eq _ _).1] at h
    rw [play, play, playWritten, playWritten, playAll_append h]
  | live =>
    rw [fails, ← (playAll_eq _ _).1] at h
    rw [play, play, playLive, playLive, playAll_append h]

/-! ### Arguments -/

theorem load_layOut (config : Config) :
    Config.load (.ok (JsonFormat.layOut config).toUTF8) = .ok config := by
  have htext :
      String.fromUTF8? (JsonFormat.layOut config).toUTF8 = some (JsonFormat.layOut config) :=
    dif_pos (JsonFormat.layOut config).isValidUTF8
  rw [Config.load, htext]
  simp only [JsonFormat.read_layOut]
  rfl

section

variable {file : String → Except FileError ByteArray} {path : String} {config : Config}
  {output : Output} {commands arguments : List String}

theorem run_of_asks (hfile : file path = .ok (JsonFormat.layOut config).toUTF8)
    (hcommands : ∀ command ∈ commands, command ∉ optionNames)
    (h : Asks path output commands arguments) :
    run file arguments = play config commands output := by
  rw [run, request_of_asks hcommands h]
  simp only [runOptions, loadConfig, hfile, load_layOut]
  cases output <;> rfl

/-- The arguments name a file with a laid out configuration, an output, and commands.  Then the
program shows the run of the commands on a track of that configuration, up to the first that fails.
It ends with success if none does, and what follows one that does has no effect. -/
theorem run_plays_commands (hfile : file path = .ok (JsonFormat.layOut config).toUTF8)
    (hcommands : ∀ command ∈ commands, command ∉ optionNames)
    (h : Asks path output commands arguments) :
    (run file arguments).output = shown config (commands.map Command.line) output ∧
      (run file arguments).exitCode =
        (if fails config (commands.map Command.line) output then 1 else 0) ∧
      (fails config (commands.map Command.line) output = true →
        ∀ more : List String, (∀ command ∈ more, command ∉ optionNames) →
          run file (arguments ++ more) = run file arguments) := by
  obtain ⟨houtput, hcode⟩ := play_eq config commands output
  refine ⟨?_, ?_, fun hfails more hmore => ?_⟩
  · rw [run_of_asks hfile hcommands h, houtput]
  · rw [run_of_asks hfile hcommands h, hcode]
  · have hall : ∀ command ∈ commands ++ more, command ∉ optionNames :=
      List.forall_mem_append.mpr ⟨hcommands, hmore⟩
    rw [run_of_asks hfile hall (h.append more), run_of_asks hfile hcommands h,
      play_append hfails more]

end

/-- A configuration of which nothing is left to the standard. -/
def oddConfig : Config where
  wholeNote := -480
  channel :=
    { number := 255, velocity := -5, velocityStep := 2147483647, octave := -2147483648,
      defaultLength := ⟨0⟩, keyDelay := -1, gate := ⟨7, 0, 3⟩, transpose := 12 }

/-- A call that sounds, a blank line, a call that fails, and a call behind it, with the options
among them. -/
theorem run_plays_commands_third_fails :
    let file : String → Except FileError ByteArray := fun _ =>
      .ok (JsonFormat.layOut oddConfig).toUTF8
    let commands := ["n 60 48", "  ", "n", "n 61 48"]
    let arguments := ["n 60 48", "-c", "--sink", "  ", "n", "-s", "live", "n 61 48"]
    (∀ command ∈ commands, command ∉ optionNames) ∧ Asks "--sink" .live commands arguments ∧
      fails oddConfig (commands.map Command.line) .live = true ∧
      (run file arguments).output = .empty ∧ (run file arguments).exitCode = 1 ∧
      run file (arguments ++ ["n 62 48"]) = run file arguments := by
  intro file commands arguments
  have hcommands : ∀ command ∈ commands, command ∉ optionNames := by decide
  have hconfig : ["-c", "--sink"] ∈ configOptions "--sink" := by decide
  have hsink : ["-s", "live"] ∈ outputOptions .live := by decide
  have hasks : Asks "--sink" .live commands arguments :=
    .configFirst ["n 60 48"] ["  ", "n"] ["n 61 48"] hconfig hsink
  have hfails : fails oddConfig (commands.map Command.line) .live = true := by decide +kernel
  have hfile : file "--sink" = .ok (JsonFormat.layOut oddConfig).toUTF8 := rfl
  obtain ⟨houtput, hcode, hmore⟩ := run_plays_commands hfile hcommands hasks
  refine ⟨hcommands, hasks, hfails, ?_, ?_, hmore hfails ["n 62 48"] (by decide)⟩
  · rw [houtput, shown, hfails, if_pos rfl]
  · rw [hcode, hfails, if_pos rfl]

end CommandLine

end MusicMacro
