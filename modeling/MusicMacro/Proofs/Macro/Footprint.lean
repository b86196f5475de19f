import MusicMacro.Proofs.Macro.FailedCall
import MusicMacro.Proofs.Track.Step
import MusicMacro.Sink.Live

/-! The parts of a track that a macro writes.  What a performer knows is divided into parts, and for
each part there is a list of the macros that may change it.  Every other macro leaves the part as it
is, whether it is carried out, refused on the way or not well called, and so does every run of
others. -/

namespace MusicMacro

/-- The parts of what a performer knows. -/
inductive Part where
  | resolution
  | position
  | channel
  | setting (setting : Setting)
  | alteration (pitch : PitchClass)
  | dial (dial : Dial)
  deriving DecidableEq, Repr

def Channel.setting (channel : Channel) : Setting → Int32
  | .velocity => channel.velocity
  | .velocityStep => channel.velocityStep
  | .octave => channel.octave
  | .transpose => channel.transpose
  | .defaultLength => channel.defaultLength.denominator
  | .keyDelay => channel.keyDelay
  | .gateRelative => channel.gate.relative
  | .gateDenominator => channel.gate.denominator
  | .gateAbsolute => channel.gate.absolute
  | .bendRange => channel.bendRange

def Performer.read (performer : Performer) : Part → Int
  | .resolution => performer.resolution.wholeNote.toInt
  | .position => performer.position.toInt
  | .channel => performer.channel.number.toNat
  | .setting which => (performer.channel.setting which).toInt
  | .alteration pitch => (performer.channel.keySignature.get pitch).toInt
  | .dial which => (performer.dials.get which).toInt

/-! ### The macros of a part -/

def Setting.writers : Setting → List String
  | .velocity => ["v", ")", "("]
  | .velocityStep => []
  | .octave => ["o", ">", "<"]
  | .transpose => ["K"]
  | .defaultLength => ["l"]
  | .keyDelay => ["TIMING"]
  | .gateRelative => ["Q"]
  | .gateDenominator => ["GATE_DENOM"]
  | .gateAbsolute => ["q"]
  | .bendRange => ["BEND_CENT_MODE"]

/-- The macros that play a pitch class. -/
def PitchClass.players (pitch : PitchClass) : List String :=
  ["", "-", "=", "+"].map (pitch.letter.toString ++ ·)

/-- The macros that move a dial along the timeline. -/
def Dial.sweepers (dial : Dial) : List String :=
  ["_", "t"].map (dial.commandName ++ ·)

/-- The names of the macros that may change a part. -/
def Part.writers : Part → List String
  | .resolution => []
  | .position =>
    ["n", "r"] ++ PitchClass.all.flatMap PitchClass.players ++ Dial.all.flatMap Dial.sweepers
  | .channel => ["CH"]
  | .setting which => which.writers
  | .alteration pitch => ["-", "=", "+"].map ("K" ++ pitch.letter.toString ++ ·)
  | .dial which => which.macroNames

/-! ### The parts are all there is -/

theorem Channel.ext_setting {channel other : Channel} (hnumber : channel.number = other.number)
    (hsetting : ∀ which, channel.setting which = other.setting which)
    (hsignature : channel.keySignature = other.keySignature) : channel = other := by
  have hparts : ∀ channel : Channel, channel =
      { number := channel.number, velocity := channel.setting .velocity,
        velocityStep := channel.setting .velocityStep, octave := channel.setting .octave,
        defaultLength := ⟨channel.setting .defaultLength⟩, keyDelay := channel.setting .keyDelay,
        gate := ⟨channel.setting .gateRelative, channel.setting .gateDenominator,
          channel.setting .gateAbsolute⟩,
        transpose := channel.setting .transpose, keySignature := channel.keySignature,
        bendRange := channel.setting .bendRange } := fun _ => rfl
  rw [hparts channel, hparts other, hnumber, hsignature]
  simp only [hsetting]

theorem Performer.ext_read {performer other : Performer}
    (h : ∀ part, performer.read part = other.read part) : performer = other := by
  have hresolution : performer.resolution = other.resolution :=
    congrArg Resolution.mk (Int32.toInt_inj.mp (h .resolution))
  have hposition : performer.position = other.position := Int32.toInt_inj.mp (h .position)
  have hchannel : performer.channel = other.channel :=
    Channel.ext_setting (UInt8.toNat_inj.mp (Int.ofNat.inj (h .channel)))
      (fun which => Int32.toInt_inj.mp (h (.setting which)))
      (KeySignature.ext_get fun pitch => Int32.toInt_inj.mp (h (.alteration pitch)))
  have hdials : performer.dials = other.dials :=
    Dials.ext_get fun which => Int32.toInt_inj.mp (h (.dial which))
  obtain ⟨_, _, _, _⟩ := performer
  cases hresolution
  cases hposition
  cases hchannel
  cases hdials
  rfl

/-! ### What operations write -/

def Shift.setting : Shift → Setting
  | .louder => .velocity
  | .softer => .velocity
  | .octaveUp => .octave
  | .octaveDown => .octave

def Turn.moves : Turn → Bool
  | .sweep _ => true
  | .wave _ => true
  | _ => false

/-- The parts that an operation may write. -/
def Operation.parts : Operation → List Part
  | .move .. | .moveLength .. | .note .. | .play .. => [.position]
  | .setChannel _ | .selectChannel _ => [.channel]
  | .assign which _ => [.setting which]
  | .shift change => [.setting change.setting]
  | .clearKeySignature => PitchClass.all.map .alteration
  | .setAlteration pitch _ | .setSign pitch _ => [.alteration pitch]
  | .turn which how => .dial which :: if how.moves then [.position] else []
  | _ => []

theorem Channel.setting_assign (channel : Channel) (which other : Setting) (value : Int32) :
    (channel.assign which value).setting other =
      if other = which then value else channel.setting other := by
  cases which <;> cases other <;> rfl

theorem Channel.shift_eq_assign (channel : Channel) (change : Shift) :
    ∃ value, channel.shift change = channel.assign change.setting value := by
  cases change <;> exact ⟨_, rfl⟩

namespace Performer

variable (performer : Performer) {part : Part}

theorem read_position (h : part ≠ .position) (position : Ticks) :
    ({ performer with position } : Performer).read part = performer.read part := by
  cases part with
  | position => exact absurd rfl h
  | _ => rfl

theorem read_number (h : part ≠ .channel) (number : UInt8) :
    ({ performer with channel.number := number } : Performer).read part = performer.read part := by
  cases part with
  | channel => exact absurd rfl h
  | setting which => cases which <;> rfl
  | _ => rfl

theorem read_assign {which : Setting} (h : part ≠ .setting which) (value : Int32) :
    ({ performer with channel := performer.channel.assign which value } : Performer).read part =
      performer.read part := by
  cases part with
  | setting other =>
    have hne : other ≠ which := fun heq => h (heq ▸ rfl)
    simp only [read, Channel.setting_assign, if_neg hne]
  | channel | alteration => cases which <;> rfl
  | _ => rfl

theorem read_signature {signature : KeySignature}
    (h : ∀ pitch, part = .alteration pitch →
      signature.get pitch = performer.channel.keySignature.get pitch) :
    ({ performer with channel.keySignature := signature } : Performer).read part =
      performer.read part := by
  cases part with
  | alteration pitch => exact congrArg Int32.toInt (h pitch rfl)
  | setting which => cases which <;> rfl
  | _ => rfl

theorem read_alteration {pitch : PitchClass} (h : part ≠ .alteration pitch) (offset : Int32) :
    ({ performer with
        channel.keySignature := performer.channel.keySignature.set pitch offset } : Performer).read
          part = performer.read part := by
  refine performer.read_signature fun other hother => ?_
  have hne : other ≠ pitch := fun heq => h (heq ▸ hother)
  rw [KeySignature.get_set, if_neg hne]

theorem read_setDial {which : Dial} (h : part ≠ .dial which) (value : Int32) :
    (performer.setDial which value).read part = performer.read part := by
  cases part with
  | dial other =>
    have hne : other ≠ which := fun heq => h (heq ▸ rfl)
    show ((performer.dials.set which value).get other).toInt = _
    rw [Dials.get_set, if_neg hne]
    rfl
  | _ => rfl

end Performer

namespace Plan

/-- A plan keeps a part if it is as it was wherever the plan may end. -/
def Keeps (part : Part) (performer : Performer) (plan : Plan) : Prop :=
  plan.Ends (fun left => left.read part = performer.read part)
    fun left => left.read part = performer.read part

variable {part : Part} {performer : Performer}

theorem sendAll_keeps {left : Performer} (h : left.read part = performer.read part)
    (primitives : List Primitive) : (sendAll left primitives).Keeps part performer :=
  Ends.sendAll h h primitives

theorem note_keeps (h : part ≠ .position) (key : UInt8) (options : Articulation) :
    (note performer key options).Keeps part performer :=
  ⟨performer.read_position h _, performer.read_position h _, performer.read_position h _⟩

theorem followCurve_keeps {which : Dial} (hdial : part ≠ .dial which) (hposition : part ≠ .position)
    (origin : Ticks) (curve : Curve) {left : Performer}
    (h : left.read part = performer.read part) :
    (followCurve which origin curve left).Keeps part performer := by
  induction curve generalizing left with
  | stop position => exact (left.read_position hposition position).trans h
  | point position value next ih =>
    have hthere : (({ left with position } : Performer).setDial which value).read part =
        performer.read part :=
      (Performer.read_setDial _ hdial value).trans ((left.read_position hposition position).trans h)
    exact ⟨(Performer.read_position _ hposition _).trans hthere, ih () hthere⟩

theorem turn_keeps {which : Dial} {how : Turn} (hdial : part ≠ .dial which)
    (hposition : how.moves = true → part ≠ .position) :
    (turn performer which how).Keeps part performer := by
  have hset : ∀ value, (turn.setTo performer which value).Keeps part performer :=
    fun value => sendAll_keeps (performer.read_setDial hdial value) _
  cases how with
  | set value => exact hset value
  | raise delta => exact hset _
  | lower delta => exact hset _
  | sweep course => exact followCurve_keeps hdial (hposition rfl) _ _ rfl
  | wave course => exact followCurve_keeps hdial (hposition rfl) _ _ rfl

end Plan

/-- An operation keeps every part that it may not write. -/
theorem Operation.plan_keeps (performer : Performer) {operation : Operation} {part : Part}
    (h : part ∉ operation.parts) : (operation.plan performer).Keeps part performer := by
  cases operation with
  | move how ticks => exact performer.read_position (List.ne_of_not_mem_cons h) _
  | moveLength how length => exact performer.read_position (List.ne_of_not_mem_cons h) _
  | setChannel number => exact performer.read_number (List.ne_of_not_mem_cons h) _
  | selectChannel number => exact performer.read_number (List.ne_of_not_mem_cons h) _
  | assign which value => exact performer.read_assign (List.ne_of_not_mem_cons h) value
  | shift change =>
    obtain ⟨value, hvalue⟩ := performer.channel.shift_eq_assign change
    show ({ performer with channel := performer.channel.shift change } : Performer).read part = _
    rw [hvalue]
    exact performer.read_assign (List.ne_of_not_mem_cons h) value
  | clearKeySignature =>
    refine performer.read_signature fun pitch hpitch => absurd ?_ h
    rw [hpitch]
    exact List.mem_map_of_mem (by cases pitch <;> decide)
  | setAlteration pitch offset =>
    exact performer.read_alteration (List.ne_of_not_mem_cons h) offset
  | setSign pitch accidental =>
    show ({ performer with channel := performer.channel.sign pitch accidental } : Performer).read
      part = _
    rw [Channel.sign]
    cases accidental.fixed? with
    | none => rfl
    | some offset => exact performer.read_alteration (List.ne_of_not_mem_cons h) offset
  | note key options => exact Plan.note_keeps (List.ne_of_not_mem_cons h) key options
  | play pitch accidental options => exact Plan.note_keeps (List.ne_of_not_mem_cons h) _ options
  | send messages => exact Plan.sendAll_keeps rfl _
  | loop mark => exact Plan.sendAll_keeps rfl _
  | primitive primitive => exact Plan.sendAll_keeps rfl _
  | turn which how =>
    have hposition : how.moves = true → part ≠ .position := by
      intro hmoves hpart
      apply h
      show part ∈ Part.dial which :: if how.moves then [.position] else []
      rw [if_pos hmoves, hpart]
      exact List.mem_cons_of_mem _ List.mem_cons_self
    exact Plan.turn_keeps (List.ne_of_not_mem_cons h) hposition
  | assertPosition expected label =>
    show (Plan.assertPosition performer expected label).Keeps part performer
    rw [Plan.assertPosition]
    split <;> exact rfl
  | query | debug => exact rfl

/-! ### What macros write -/

def DialAction.moves : DialAction → Bool
  | .sweep => true
  | .wave => true
  | _ => false

/-- The parts that the operation of an action may write, whatever its arguments are. -/
def Action.parts : Action → List Part
  | .channel => [.channel]
  | .tempo => [.dial .tempo]
  | .bend => [.dial .pitchBend]
  | .dial how which => .dial which :: if how.moves then [.position] else []
  | .assign which => [.setting which]
  | .shift change => [.setting change.setting]
  | .sign pitch _ => [.alteration pitch]
  | .note | .play .. | .rest => [.position]
  | _ => []

theorem Action.operation_parts (resolution : Resolution) (fallback : Fallback) (args : List Arg)
    (action : Action) : (action.operation resolution fallback args).parts = action.parts := by
  cases action with
  | dial how which => cases how <;> rfl
  | _ => rfl

/-- The table has no macro that writes a part but is not among the writers of the part. -/
theorem Macro.table_parts :
    ∀ entry ∈ table, ∀ part ∈ entry.action.parts, entry.name ∈ part.writers := by
  decide +kernel

namespace Track

variable {σ : Type} [Sink σ]

theorem perform_keeps (track : Track σ) {operation : Operation} {part : Part}
    (h : part ∉ operation.parts) :
    (track.perform operation).2.performer.read part = track.performer.read part :=
  (Operation.plan_keeps track.performer h).left track.sink

/-- A macro keeps each part whose writers it is not among, whatever comes of it. -/
theorem invoke_keeps (track : Track σ) {invocation : Invocation} {part : Part}
    (h : invocation.name ∉ part.writers) :
    (track.invoke invocation).2.performer.read part = track.performer.read part := by
  rw [invoke]
  cases hoperation : invocation.operation {} track.performer.resolution with
  | error cause => rfl
  | ok operation =>
    obtain ⟨entry, hentry, -, rfl⟩ := Invocation.operation_eq_ok hoperation
    obtain ⟨hlisted, hname⟩ := Macro.lookup?_eq_some hentry
    have hparts : part ∉ entry.action.parts :=
      fun hpart => h (hname ▸ Macro.table_parts entry hlisted part hpart)
    rw [← Action.operation_parts track.performer.resolution {} invocation.args] at hparts
    exact track.perform_keeps hparts

/-- Each macro writes only its own parts of the track.  A run of macros that are not among the
writers of a part leaves it as it is, whatever comes of each, and a run of macros that write nothing
leaves all as it is. -/
theorem run_writes_own_parts (track : Track σ) (invocations : List Invocation) :
    let after := (track.run (invocations.map .invoke)).2.performer
    (∀ part : Part, (∀ invocation ∈ invocations, invocation.name ∉ part.writers) →
      after.read part = track.performer.read part) ∧
    ((∀ invocation ∈ invocations, ∀ part : Part, invocation.name ∉ part.writers) →
      after = track.performer) := by
  intro after
  have hkeeps : ∀ part : Part, (∀ invocation ∈ invocations, invocation.name ∉ part.writers) →
      after.read part = track.performer.read part := by
    intro part h
    refine run_invariant (P := fun later =>
      later.performer.read part = track.performer.read part)
      (fun later command hcommand hlater => ?_) rfl
    obtain ⟨invocation, hinvocation, rfl⟩ := List.mem_map.mp hcommand
    rw [step_invoke, later.invoke_keeps (h invocation hinvocation), hlater]
  exact ⟨hkeeps, fun h => Performer.ext_read fun part =>
    hkeeps part fun invocation hinvocation => h invocation hinvocation part⟩

/-- Neither notes nor sweeps nor key signatures touch the octave, on a port that closes after two
messages. -/
theorem run_writes_own_parts_octave :
    let track := Track.start Config.standard ({ port := { room := some 2 } } : Transmitter)
    let invocations : List Invocation :=
      [⟨"Kc+", []⟩, ⟨"c", [.number 24]⟩, ⟨"v", [.text "loud"]⟩,
        ⟨"B_", [.number 0, .number 100, .number 0, .number 4]⟩, ⟨"K", [.number 12]⟩]
    (∀ invocation ∈ invocations, invocation.name ∉ (Part.setting .octave).writers) ∧
      (track.run (invocations.map .invoke)).2.performer.read (.setting .octave) =
        track.performer.read (.setting .octave) := by
  intro track invocations
  have hothers : ∀ invocation ∈ invocations, invocation.name ∉ (Part.setting .octave).writers := by
    decide
  exact ⟨hothers, (track.run_writes_own_parts invocations).1 _ hothers⟩

end Track

end MusicMacro
