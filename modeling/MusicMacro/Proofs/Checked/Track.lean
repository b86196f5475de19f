import MusicMacro.Proofs.Checked.Value
import MusicMacro.Proofs.Macro.FailedCall
import MusicMacro.Proofs.Track.Handed
import MusicMacro.Proofs.Track.Note
import MusicMacro.Proofs.Track.Views

/-! Tracks in checked steps.  A run is carried out a second time with every step of its arithmetic
checked, from the arguments of its macros to the windows that the sinks cut out.  It is never
refused, whatever the track is like and whatever it is asked, and comes to the same end.  A plan in
checked steps is given only if no step of it is refused, up to its end, so no sink that stops it
earlier meets one either. -/

namespace MusicMacro

/-! ### Plans -/

/-- The step of a note.  The default length is converted only if no step is given. -/
def Performer.noteStep? (performer : Performer) (options : Articulation) : Option Ticks :=
  match Articulation.counted options.step with
  | some step => some step
  | none => performer.resolution.toTicks? performer.channel.defaultLength

theorem Performer.noteStep?_eq (performer : Performer) (options : Articulation) :
    performer.noteStep? options = some (performer.noteStep options) := by
  rw [noteStep?, noteStep, Articulation.nonnegOr_eq]
  cases Articulation.counted options.step with
  | none => exact performer.resolution.toTicks?_eq _
  | some step => rfl

namespace Plan

def note? (performer : Performer) (key : UInt8) (options : Articulation) : Option Plan := do
  let step ← performer.noteStep? options
  let gate ← performer.channel.gate.sounding? (nonnegOr options.gate step)
  let channel := performer.channel.number
  let onset := performer.move .advance (performer.noteDelay options)
  let release := onset.move .advance gate
  return .emit ((Message.noteOn key (lowByte (performer.noteVelocity options))).primitive channel)
    (onset.move .jump performer.position) fun _ =>
      .emit ((Message.noteOff key options.offVelocity).primitive channel)
        (release.move .jump performer.position) fun _ =>
          .done .done
            ((release.move .advance (step - gate)).move .rewind (performer.noteDelay options))

theorem note?_eq (performer : Performer) (key : UInt8) (options : Articulation) :
    note? performer key options = some (note performer key options) := by
  simp only [note?, Performer.noteStep?_eq, Gate.sounding?_eq, Option.bind_eq_bind,
    Option.bind_some]
  rfl

/-- Keeps a value in a dial and sends it. -/
def setTo? (performer : Performer) (dial : Dial) (value : Int32) : Option Plan := do
  let dials ← performer.dials.set? dial value
  let primitive ← dial.primitive? performer.channel value
  return sendAll { performer with dials } [primitive]

def followCurve? (dial : Dial) (origin : Ticks) : Curve → Performer → Option Plan
  | .stop position, performer => some (.done .done { performer with position })
  | .point position value next, performer => do
    let dials ← performer.dials.set? dial value
    let there := { performer with position, dials }
    let primitive ← dial.primitive? performer.channel value
    let rest ← followCurve? dial origin (next ()) there
    return .emit primitive (there.move .advance (-(position - origin))) fun _ => rest

def turn? (performer : Performer) (dial : Dial) : Turn → Option Plan
  | .set value => setTo? performer dial value
  | .raise delta => do
    let value ← performer.dials.get? dial
    setTo? performer dial (value + delta)
  | .lower delta => do
    let value ← performer.dials.get? dial
    setTo? performer dial (value - delta)
  | .sweep course => do
    let curve ← course.curve? performer.position
    followCurve? dial performer.position curve performer
  | .wave course => do
    let curve ← course.curve? performer.position
    followCurve? dial performer.position curve performer

theorem setTo?_eq (performer : Performer) (dial : Dial) (value : Int32) :
    setTo? performer dial value = some (turn.setTo performer dial value) := by
  simp only [setTo?, Dials.set?_eq, Dial.primitive?_eq, Option.bind_eq_bind, Option.bind_some]
  rfl

theorem followCurve?_eq (dial : Dial) (origin : Ticks) (curve : Curve) (performer : Performer) :
    followCurve? dial origin curve performer = some (followCurve dial origin curve performer) := by
  induction curve generalizing performer with
  | stop position => rfl
  | point position value next ih =>
    simp only [followCurve?, Dials.set?_eq, Dial.primitive?_eq, ih, Option.bind_eq_bind,
      Option.bind_some]
    rfl

theorem turn?_eq (performer : Performer) (dial : Dial) (how : Turn) :
    turn? performer dial how = some (turn performer dial how) := by
  cases how with
  | set value => exact setTo?_eq performer dial value
  | raise delta =>
    rw [turn?, Dials.get?_eq]
    exact setTo?_eq performer dial _
  | lower delta =>
    rw [turn?, Dials.get?_eq]
    exact setTo?_eq performer dial _
  | sweep course =>
    rw [turn?, Sweep.curve?_eq]
    exact followCurve?_eq dial performer.position _ performer
  | wave course =>
    rw [turn?, Wave.curve?_eq]
    exact followCurve?_eq dial performer.position _ performer

end Plan

def Performer.ask? (performer : Performer) : Query → Option Int32
  | .defaultTicks => performer.resolution.toTicks? performer.channel.defaultLength
  | .gate basis => performer.channel.gate.sounding? basis
  | .dial dial => performer.dials.get? dial
  | question => some (performer.ask question)

theorem Performer.ask?_eq (performer : Performer) (question : Query) :
    performer.ask? question = some (performer.ask question) := by
  cases question with
  | defaultTicks => exact performer.resolution.toTicks?_eq _
  | gate basis => exact performer.channel.gate.sounding?_eq basis
  | dial dial => exact performer.dials.get?_eq dial
  | _ => rfl

/-- The plan of an operation.  What is not listed moves by ticks, assigns a setting or hands a
primitive over, and wraps where it adds. -/
def Operation.plan? (performer : Performer) : Operation → Option Plan
  | .query question => do return .done (.number (← performer.ask? question)) performer
  | .moveLength how length => do
    return .become (performer.move how (← performer.resolution.toTicks? length))
  | .setAlteration pitch offset => do
    let keySignature ← performer.channel.keySignature.set? pitch offset
    return .become { performer with channel.keySignature := keySignature }
  | .setSign pitch accidental => do
    let channel ← performer.channel.sign? pitch accidental
    return .become { performer with channel }
  | .note key options => Plan.note? performer key options
  | .play pitch accidental options => do
    let key ← performer.channel.key? pitch accidental
    Plan.note? performer (lowByte key) options
  | .send messages => do
    let primitives ← messages.mapM fun message => message.primitive? performer.channel.number
    return .sendAll performer primitives
  | .turn dial how => Plan.turn? performer dial how
  | operation => some (operation.plan performer)

theorem Operation.plan?_eq (performer : Performer) (operation : Operation) :
    operation.plan? performer = some (operation.plan performer) := by
  cases operation with
  | query question => simp [plan?, plan, Performer.ask?_eq]
  | moveLength how length => simp [plan?, plan, Resolution.toTicks?_eq]
  | setAlteration pitch offset => simp [plan?, plan, KeySignature.set?_eq]
  | setSign pitch accidental => simp [plan?, plan, Channel.sign?_eq]
  | note key options => exact Plan.note?_eq performer key options
  | play pitch accidental options =>
    simp only [plan?, Channel.key?_eq, Option.bind_eq_bind, Option.bind_some, Plan.note?_eq]
    rfl
  | send messages =>
    have hmessages : (messages.mapM fun message =>
        message.primitive? performer.channel.number) =
          some (messages.map fun message => message.primitive performer.channel.number) := by
      simp only [Message.primitive?_eq]
      exact List.mapM_pure
    simp only [plan?, hmessages, Option.bind_eq_bind, Option.bind_some]
    rfl
  | turn dial how => exact Plan.turn?_eq performer dial how
  | _ => rfl

/-! ### Sinks -/

/-- A sink that checks the bounds of the windows that it cuts out. -/
class CheckedSink (σ : Type) [Sink σ] where
  emit? : Primitive → σ → Option (Except Refusal Unit × σ)
  emit?_eq {primitive : Primitive} (h : primitive.Storable) (sink : σ) :
    emit? primitive sink = some (Sink.emit primitive sink)

instance : CheckedSink Sheet where
  emit? primitive sink :=
    match primitive with
    | .sysex bytes offset length => do
      let window ← Primitive.excerpt? bytes offset length
      let (reply, events) := sink.events.printAll (Primitive.messageParts window)
      return (reply, { sink with events })
    | primitive => some (Sink.emit primitive sink)
  emit?_eq {primitive} h sink := by
    cases primitive with
    | sysex bytes offset length =>
      simp only [Primitive.excerpt?_eq h, Option.bind_eq_bind, Option.bind_some]
      rfl
    | _ => rfl

instance : CheckedSink Transmitter where
  emit? primitive sink :=
    match primitive with
    | .sysex bytes offset length => do
      let window ← Primitive.excerpt? bytes offset length
      let (reply, port) := sink.port.send window
      return (reply, { port, log := sink.log.push (.transmit (isLiveMessage window)) })
    | primitive => some (Sink.emit primitive sink)
  emit?_eq {primitive} h sink := by
    cases primitive with
    | sysex bytes offset length =>
      simp only [Primitive.excerpt?_eq h, Option.bind_eq_bind, Option.bind_some]
      rfl
    | _ => rfl

section Sink

variable {σ : Type} [Sink σ] [CheckedSink σ]

def Plan.carryOut? : Plan → σ → Option (Except Refusal Answer × Performer × σ)
  | .done answer performer, sink => some (.ok answer, performer, sink)
  | .remark said next, sink => (next ()).carryOut? (Sink.remark said sink)
  | .emit primitive refused next, sink => do
    match ← CheckedSink.emit? primitive sink with
    | (.ok _, sink) => (next ()).carryOut? sink
    | (.error cause, sink) => some (.error cause, refused, sink)

theorem Plan.carryOut?_eq {plan : Plan} (h : plan.Calls Primitive.Storable) (sink : σ) :
    plan.carryOut? sink = some (plan.carryOut sink) := by
  induction plan generalizing sink with
  | done answer performer => rfl
  | remark said next ih => exact ih () h _
  | emit primitive refused next ih =>
    simp only [carryOut?, carryOut, CheckedSink.emit?_eq h.1, Option.bind_eq_bind,
      Option.bind_some]
    cases Sink.emit primitive sink with
    | mk reply sink =>
      cases reply with
      | ok _ => exact ih () h.2 sink
      | error cause => rfl

end Sink

/-! ### Commands -/

namespace Action

/-- The operation of an action.  Only those that take lengths convert them. -/
def operation? (resolution : Resolution) (fallback : Fallback) (args : List Arg) :
    Action → Option Operation :=
  let int (place : Nat) : Int32 := Arg.numberAt args place fallback.number
  let ticks? (place : Nat) : Option Ticks := resolution.toTicks? ⟨int place⟩
  fun
  | .assertPosition => do
    let expected ← ticks? 0
    return .assertPosition expected (Arg.textAt args 1 fallback.text)
  | .dial .sweep which => do
    let startDelay ← ticks? 2
    let length ← ticks? 3
    return .turn which (.sweep
      { start := int 0, finish := int 1, startDelay, length,
        step := Arg.numberAt args 4 Sweep.standardStep })
  | .dial .wave which => do
    let startDelay ← ticks? 2
    let endDuration ← ticks? 3
    return .turn which (.wave
      { start := int 0, finish := int 1, startDelay, endDuration, period := int 4, step := int 5,
        delta := int 6, repeats := int 7 })
  | action => some (action.operation resolution fallback args)

theorem operation?_eq (resolution : Resolution) (fallback : Fallback) (args : List Arg)
    (action : Action) :
    action.operation? resolution fallback args =
      some (action.operation resolution fallback args) := by
  cases action with
  | assertPosition => simp [operation?, operation, Resolution.toTicks?_eq]
  | dial how which => cases how <;> simp [operation?, operation, turn, Resolution.toTicks?_eq]
  | _ => rfl

end Action

def Invocation.operation? (resolution : Resolution) (invocation : Invocation) :
    Option (Except CallError Operation) :=
  match Macro.lookup? invocation.name with
  | none => some (.error (.unknown invocation.name))
  | some entry =>
    match entry.validate invocation.args with
    | .error cause => some (.error cause)
    | .ok _ => (entry.action.operation? resolution {} invocation.args).map .ok

theorem Invocation.operation?_eq (resolution : Resolution) (invocation : Invocation) :
    invocation.operation? resolution = some (invocation.operation {} resolution) := by
  rw [operation?, operation]
  cases Macro.lookup? invocation.name with
  | none => rfl
  | some entry =>
    cases hvalid : entry.validate invocation.args with
    | error cause => simp only [hvalid]; rfl
    | ok _ => simp only [hvalid, Action.operation?_eq]; rfl

def Invocation.task? (resolution : Resolution) (invocation : Invocation) : Option Task := do
  match ← invocation.operation? resolution with
  | .error cause => return .idle (.failed cause)
  | .ok wanted => return .operation wanted false

def Command.task? (resolution : Resolution) : Command → Option Task
  | .operation wanted => some (.operation wanted true)
  | .invoke invocation => invocation.task? resolution
  | .line text =>
    match Invocation.ofLine? text with
    | none => some (.idle .blank)
    | some invocation => invocation.task? resolution
  | .flush => some .flush

theorem Invocation.task?_eq (resolution : Resolution) (invocation : Invocation) :
    invocation.task? resolution = some (invocation.task resolution) := by
  rw [task?, operation?_eq, task]
  cases invocation.operation {} resolution <;> rfl

theorem Command.task?_eq (resolution : Resolution) (command : Command) :
    command.task? resolution = some (command.task resolution) := by
  cases command with
  | operation wanted => rfl
  | invoke invocation => exact invocation.task?_eq resolution
  | line text =>
    rw [task?, task]
    cases Invocation.ofLine? text with
    | none => rfl
    | some invocation => exact invocation.task?_eq resolution
  | flush => rfl

/-! ### The size of what is handed over -/

def Operation.Storable : Operation → Prop
  | .primitive given => given.Storable
  | _ => True

/-- Whether the number of the bytes that a command hands over fits into 64 bits. -/
def Command.Storable : Command → Prop
  | .operation wanted => wanted.Storable
  | _ => True

theorem Message.primitive_storable (channel : UInt8) (message : Message) :
    (message.primitive channel).Storable := by
  cases message <;> trivial

/-- What an operation hands over fits, if what it was given does. -/
theorem Operation.plan_storable {operation : Operation} (h : operation.Storable)
    (performer : Performer) : (operation.plan performer).Calls Primitive.Storable := by
  refine (operation.plan_hands performer).mono fun primitive hhands => ?_
  cases hhands with
  | message _ => exact Message.primitive_storable _ _
  | @mark mark _ => cases mark <;> trivial
  | tempo => trivial
  | given hgiven =>
    subst hgiven
    exact h

theorem Action.operation_storable (resolution : Resolution) (fallback : Fallback)
    (args : List Arg) (action : Action) :
    (action.operation resolution fallback args).Storable := by
  cases action with
  | gmSystemOn => exact (by decide : Primitive.gmSystemOn.Storable)
  | xgReset => exact (by decide : Primitive.xgReset.Storable)
  | _ => exact True.intro

theorem Invocation.task_storable {resolution : Resolution} {invocation : Invocation}
    {operation : Operation} {told : Bool}
    (h : invocation.task resolution = .operation operation told) : operation.Storable := by
  rw [task] at h
  cases hwanted : invocation.operation {} resolution with
  | error cause => rw [hwanted] at h; cases h
  | ok wanted =>
    obtain ⟨entry, -, -, rfl⟩ := operation_eq_ok hwanted
    rw [hwanted] at h
    cases h
    exact Action.operation_storable resolution {} invocation.args entry.action

theorem Command.task_storable {resolution : Resolution} {command : Command} (h : command.Storable)
    {operation : Operation} {told : Bool}
    (htask : command.task resolution = .operation operation told) : operation.Storable := by
  cases command with
  | operation wanted => cases htask; exact h
  | invoke invocation => exact Invocation.task_storable htask
  | line text =>
    rw [task] at htask
    cases hline : Invocation.ofLine? text with
    | none => rw [hline] at htask; cases htask
    | some invocation => rw [hline] at htask; exact Invocation.task_storable htask
  | flush => cases htask

/-! ### Runs -/

namespace Track

variable {σ : Type} [Sink σ] [CheckedSink σ]

def handle? (track : Track σ) : Task → Option (Outcome × Track σ)
  | .operation operation told => do
    let plan ← operation.plan? track.performer
    let (reply, performer, sink) ← plan.carryOut? track.sink
    return (.ofReply told reply, { performer, sink })
  | task => some (track.handle task)

def step? (track : Track σ) (command : Command) : Option (Outcome × Track σ) := do
  track.handle? (← command.task? track.performer.resolution)

/-- A run in checked steps. -/
def run? (track : Track σ) : List Command → Option (List Outcome × Track σ)
  | [] => some ([], track)
  | command :: rest => do
    let (outcome, track) ← track.step? command
    let (outcomes, track) ← track.run? rest
    return (outcome :: outcomes, track)

theorem step?_eq (track : Track σ) {command : Command} (h : command.Storable) :
    track.step? command = some (track.step command) := by
  rw [step?, Command.task?_eq, step_eq_handle]
  cases htask : command.task track.performer.resolution with
  | operation operation told =>
    have hstorable := Operation.plan_storable (Command.task_storable h htask) track.performer
    simp only [handle?, Operation.plan?_eq, Plan.carryOut?_eq hstorable, Option.bind_eq_bind,
      Option.bind_some]
    rfl
  | _ => rfl

theorem run?_eq (track : Track σ) {commands : List Command}
    (h : ∀ command ∈ commands, command.Storable) :
    track.run? commands = some (track.run commands) := by
  induction commands generalizing track with
  | nil => rfl
  | cons command commands ih =>
    have hrest := ih (track.step command).2 fun next hnext =>
      h next (List.mem_cons_of_mem command hnext)
    simp only [run?, step?_eq track (h command List.mem_cons_self), hrest, Option.bind_eq_bind,
      Option.bind_some]
    rfl

/-- No input brings a step of arithmetic out of range.  Every operation, on any performer, has the
plan that it has in checked steps, and so it hands the same primitives to any sink; and every run,
from any track on written music or on a live port, comes in checked steps to the end that it comes
to, if the numbers of the bytes that it is given fit into 64 bits. -/
theorem run_arithmetic_in_range :
    (∀ (performer : Performer) (operation : Operation),
      operation.plan? performer = some (operation.plan performer)) ∧
    ∀ commands : List Command, (∀ command ∈ commands, command.Storable) →
      (∀ track : Track Sheet, track.run? commands = some (track.run commands)) ∧
      ∀ track : Track Transmitter, track.run? commands = some (track.run commands) :=
  ⟨Operation.plan?_eq, fun _ h => ⟨fun track => track.run?_eq h, fun track => track.run?_eq h⟩⟩

/-- Commands at the ends of the ranges: a gate of the least number over minus one, a sweep of the
whole range and of no length, and a window that starts and ends at the greatest number. -/
def extremes : List Command :=
  [.operation (.assign .gateRelative (-2147483648)), .operation (.assign .gateDenominator (-1)),
    .operation (.note 60 { gate := some 2147483647 }),
    .line "B_ 2147483647 -2147483648 0 1 1", .line "V_ 0 1 0 -1 0",
    .operation (.primitive (.sysex [0xF0, 0xF7] 18446744073709551615 18446744073709551615))]

theorem run_arithmetic_in_range_extremes :
    (∀ command ∈ extremes, command.Storable) ∧
      (Track.start Config.standard ({} : Sheet)).run? extremes =
        some ((Track.start Config.standard ({} : Sheet)).run extremes) := by
  have h : ∀ command ∈ extremes, command.Storable := by
    simp [extremes, Command.Storable, Operation.Storable, Primitive.Storable]
  exact ⟨h, (run_arithmetic_in_range.2 extremes h).1 _⟩

end Track

end MusicMacro
