import MusicMacro.Proofs.Sink.Metered
import MusicMacro.Proofs.Track.Calls
import MusicMacro.Proofs.Track.Position

/-! Timing depends on nothing but timing.  Two performers with the same resolution, position and
default length may differ in every other setting and in their dials: whatever they are asked to do,
they hand out primitives of the same outline, report the same, and come to the same position.  Gates
and delays cancel out of every note, and a curve does not look at the dial that it turns. -/

namespace MusicMacro

/-! ### What is the same and what may differ -/

/-- A primitive with its channel and its data bytes wiped out.  The number of a controller is not
data, and neither are the texts and the exclusive messages, which no performer makes up. -/
def Primitive.outline : Primitive → Primitive
  | .loopOpening _ => .loopOpening 0
  | .loopLeaving _ targets => .loopLeaving 0 targets
  | .loopClosing _ repeats => .loopClosing 0 repeats
  | .message2 _ status _ => .message2 0 status 0
  | .message3 _ status data _ => .message3 0 status (if status = 0xB0 then data else 0) 0
  | .metaBytes type bytes => .metaBytes type (bytes.map fun _ => 0)
  | .metaText type text => .metaText type text
  | .sysex bytes offset length => .sysex bytes offset length

/-- Answers that are equal, or numbers: the answer to a question may be another one. -/
inductive Answer.Alike : Answer → Answer → Prop
  | refl (answer : Answer) : Alike answer answer
  | number (value other : Int32) : Alike (.number value) (.number other)

inductive Outcome.Alike : Outcome → Outcome → Prop
  | refl (outcome : Outcome) : Alike outcome outcome
  | number (value other : Int32) : Alike (.answered (.number value)) (.answered (.number other))

namespace Channel

variable (channel : Channel)

theorem defaultLength_assign (setting : Setting) (value : Int32) :
    (channel.assign setting value).defaultLength =
      if setting = .defaultLength then ⟨value⟩ else channel.defaultLength := by
  cases setting <;> rfl

theorem defaultLength_shift (change : Shift) :
    (channel.shift change).defaultLength = channel.defaultLength := by
  cases change <;> rfl

theorem defaultLength_sign (pitch : PitchClass) (accidental : Accidental) :
    (channel.sign pitch accidental).defaultLength = channel.defaultLength := by
  cases accidental <;> rfl

end Channel

namespace Performer

/-- Performers that agree on what timing depends on. -/
structure SameTiming (left right : Performer) : Prop where
  resolution : left.resolution = right.resolution
  position : left.position = right.position
  defaultLength : left.channel.defaultLength = right.channel.defaultLength

variable {left right : Performer}

theorem SameTiming.noteStep (h : left.SameTiming right) (options : Articulation) :
    left.noteStep options = right.noteStep options := by
  rw [Performer.noteStep, Performer.noteStep, defaultTicks, defaultTicks, h.resolution,
    h.defaultLength]

theorem SameTiming.move (h : left.SameTiming right) (how : Move) (ticks : Ticks) :
    (left.move how ticks).SameTiming (right.move how ticks) := by
  refine ⟨h.resolution, ?_, h.defaultLength⟩
  show how.apply ticks left.position = how.apply ticks right.position
  rw [h.position]

theorem SameTiming.afterNote (h : left.SameTiming right) (options : Articulation) :
    (left.afterNote options).SameTiming (right.afterNote options) := by
  refine ⟨h.resolution, ?_, h.defaultLength⟩
  rw [position_afterNote, position_afterNote, h.position, h.noteStep]

/-- Only the default length of a channel counts. -/
theorem SameTiming.rechannel (h : left.SameTiming right) {channel other : Channel}
    (hlength : channel.defaultLength = other.defaultLength) :
    SameTiming { left with channel } { right with channel := other } :=
  ⟨h.resolution, h.position, hlength⟩

end Performer

/-! ### Outlines -/

theorem Message.outline_primitive (channel other : UInt8) (message : Message) :
    (message.primitive channel).outline = (message.primitive other).outline := by
  cases message <;> rfl

theorem LoopMark.outline_primitive (channel other : UInt8) (mark : LoopMark) :
    (mark.primitive channel).outline = (mark.primitive other).outline := by
  cases mark <;> rfl

/-- A dial sends the same message for every value, but for the data in it. -/
theorem Dial.outline_primitive (dial : Dial) (channel other : Channel) (value value' : Int32) :
    (dial.primitive channel value).outline = (dial.primitive other value').outline := by
  cases dial <;> rfl

/-! ### Plans -/

/-- Plans that do the same, but for the data of what they hand out.  What a refusal would leave does
not count, since nothing is refused. -/
inductive Plan.Alike : Plan → Plan → Prop
  | done {answer answer' : Answer} {left right : Performer} (hanswer : answer.Alike answer')
    (h : left.SameTiming right) : Alike (.done answer left) (.done answer' right)
  | emit {primitive primitive' : Primitive} {refused refused' : Performer}
    {next next' : Unit → Plan} (houtline : primitive.outline = primitive'.outline)
    (hnext : Alike (next ()) (next' ())) :
    Alike (.emit primitive refused next) (.emit primitive' refused' next')
  | remark {next next' : Unit → Plan} (said : Remark) (hnext : Alike (next ()) (next' ())) :
    Alike (.remark said next) (.remark said next')

namespace Plan

variable {left right : Performer}

theorem become_alike (h : left.SameTiming right) : (become left).Alike (become right) :=
  .done (.refl _) h

theorem sendAll_alike (h : left.SameTiming right) {primitives others : List Primitive}
    (houtlines : primitives.map Primitive.outline = others.map Primitive.outline) :
    (sendAll left primitives).Alike (sendAll right others) := by
  induction primitives generalizing others with
  | nil =>
    obtain rfl : others = [] := by simpa using houtlines.symm
    exact become_alike h
  | cons primitive primitives ih =>
    cases others with
    | nil => simp at houtlines
    | cons other others =>
      obtain ⟨houtline, hrest⟩ := List.cons.inj houtlines
      exact .emit houtline (ih hrest)

theorem sendOne_alike (h : left.SameTiming right) {primitive other : Primitive}
    (houtline : primitive.outline = other.outline) :
    (sendAll left [primitive]).Alike (sendAll right [other]) :=
  .emit houtline (become_alike h)

theorem note_alike (h : left.SameTiming right) (key key' : UInt8) (options : Articulation) :
    (note left key options).Alike (note right key' options) := by
  apply Alike.emit
  · rfl
  apply Alike.emit
  · rfl
  exact .done (.refl _) (h.afterNote options)

theorem followCurve_alike (h : left.SameTiming right) (dial : Dial) (origin : Ticks)
    (curve : Curve) : (followCurve dial origin curve left).Alike
      (followCurve dial origin curve right) := by
  induction curve generalizing left right with
  | stop position => exact .done (.refl _) ⟨h.resolution, rfl, h.defaultLength⟩
  | point position value next ih =>
    exact .emit (dial.outline_primitive left.channel right.channel value value)
      (ih () ⟨h.resolution, rfl, h.defaultLength⟩)

theorem turn_alike (h : left.SameTiming right) (dial : Dial) (how : Turn) :
    (turn left dial how).Alike (turn right dial how) := by
  have hset : ∀ value value' : Int32,
      (turn.setTo left dial value).Alike (turn.setTo right dial value') := by
    intro value value'
    have hturned : (left.setDial dial value).SameTiming (right.setDial dial value') :=
      ⟨h.resolution, h.position, h.defaultLength⟩
    exact sendOne_alike hturned
      (dial.outline_primitive left.channel right.channel value value')
  have hcurve : ∀ curve : Ticks → Curve, (turn.along left dial (curve left.position)).Alike
      (turn.along right dial (curve right.position)) := by
    intro curve
    rw [turn.along, turn.along, h.position]
    exact followCurve_alike h dial right.position (curve right.position)
  cases how with
  | set value => exact hset value value
  | raise delta => exact hset _ _
  | lower delta => exact hset _ _
  | sweep course => exact hcurve course.curve
  | wave course => exact hcurve course.curve

theorem assertPosition_alike (h : left.SameTiming right) (expected : Ticks) (label : String) :
    (assertPosition left expected label).Alike (assertPosition right expected label) := by
  rw [assertPosition, assertPosition, h.position]
  split
  · exact .done (.refl _) h
  · exact .remark _ (.remark _ (.done (.refl _) h))

end Plan

theorem Operation.plan_alike {left right : Performer} (h : left.SameTiming right)
    (operation : Operation) : (operation.plan left).Alike (operation.plan right) := by
  cases operation with
  | query question => exact .done (.number _ _) h
  | move how ticks => exact Plan.become_alike (h.move how ticks)
  | moveLength how length =>
    rw [plan, plan, h.resolution]
    exact Plan.become_alike (h.move how _)
  | setChannel number => exact Plan.become_alike (h.rechannel h.defaultLength)
  | selectChannel number => exact Plan.become_alike (h.rechannel h.defaultLength)
  | assign setting value =>
    apply Plan.become_alike
    apply h.rechannel
    rw [Channel.defaultLength_assign, Channel.defaultLength_assign, h.defaultLength]
  | shift change =>
    apply Plan.become_alike
    apply h.rechannel
    rw [Channel.defaultLength_shift, Channel.defaultLength_shift, h.defaultLength]
  | clearKeySignature => exact Plan.become_alike (h.rechannel h.defaultLength)
  | setAlteration pitch offset => exact Plan.become_alike (h.rechannel h.defaultLength)
  | setSign pitch accidental =>
    apply Plan.become_alike
    apply h.rechannel
    rw [Channel.defaultLength_sign, Channel.defaultLength_sign, h.defaultLength]
  | note key options => exact Plan.note_alike h key key options
  | play pitch accidental options => exact Plan.note_alike h _ _ options
  | send messages =>
    apply Plan.sendAll_alike h
    rw [List.map_map, List.map_map]
    apply List.map_congr_left
    intro message _
    exact message.outline_primitive left.channel.number right.channel.number
  | loop mark =>
    exact Plan.sendOne_alike h (mark.outline_primitive left.channel.number right.channel.number)
  | primitive primitive => exact Plan.sendOne_alike h rfl
  | turn dial how => exact Plan.turn_alike h dial how
  | debug text => exact .remark _ (.done (.refl _) h)
  | assertPosition expected label => exact Plan.assertPosition_alike h expected label

/-! ### Written music -/

/-- Written music of two runs, without a bound: the diagnostics are the same, and so are the
outlines of all that was handed out. -/
structure Tapped.InTime (sink other : Tapped Sheet) : Prop where
  unbounded : sink.sink.events.room = none
  unbounded' : other.sink.events.room = none
  diagnostics : sink.sink.diagnostics = other.sink.diagnostics
  log : sink.sink.log = other.sink.log
  outlines : sink.calls.map Primitive.outline = other.calls.map Primitive.outline

namespace Tapped

variable {sink other : Tapped Sheet}

theorem emit_unbounded (h : sink.sink.events.room = none) (primitive : Primitive) :
    (Sink.emit primitive sink).1 = .ok () ∧
      (Sink.emit primitive sink).2.sink.events.room = none ∧
      (Sink.emit primitive sink).2.sink.diagnostics = sink.sink.diagnostics ∧
      (Sink.emit primitive sink).2.sink.log = sink.sink.log ∧
      (Sink.emit primitive sink).2.calls = sink.calls ++ [primitive] := by
  have hroom : Metered.room sink.sink = none := h
  obtain ⟨hreply, -, hroom'⟩ := Metered.emit_of_room_none primitive hroom
  have hemit := Sheet.emit_eq primitive sink.sink
  refine ⟨hreply, hroom', ?_, ?_, rfl⟩
  · show (Sink.emit primitive sink.sink).2.diagnostics = sink.sink.diagnostics
    rw [hemit]
  · show (Sink.emit primitive sink.sink).2.log = sink.sink.log
    rw [hemit]

theorem InTime.emit (h : sink.InTime other) {primitive primitive' : Primitive}
    (houtline : primitive.outline = primitive'.outline) :
    (Sink.emit primitive sink).1 = .ok () ∧ (Sink.emit primitive' other).1 = .ok () ∧
      (Sink.emit primitive sink).2.InTime (Sink.emit primitive' other).2 := by
  obtain ⟨hreply, hroom, hdiagnostics, hlog, hcalls⟩ := emit_unbounded h.unbounded primitive
  obtain ⟨hreply', hroom', hdiagnostics', hlog', hcalls'⟩ :=
    emit_unbounded h.unbounded' primitive'
  refine ⟨hreply, hreply', hroom, hroom', ?_, ?_, ?_⟩
  · rw [hdiagnostics, hdiagnostics', h.diagnostics]
  · rw [hlog, hlog', h.log]
  · rw [hcalls, hcalls', List.map_append, List.map_append, h.outlines]
    exact congrArg (other.calls.map Primitive.outline ++ [·]) houtline

theorem InTime.remark (h : sink.InTime other) (said : Remark) :
    (Sink.remark said sink).InTime (Sink.remark said other) := by
  have hsame : (Sink.remark said sink.sink).diagnostics =
        (Sink.remark said other.sink).diagnostics ∧
      (Sink.remark said sink.sink).log = (Sink.remark said other.sink).log := by
    show (Sheet.remark said sink.sink).diagnostics = (Sheet.remark said other.sink).diagnostics ∧
      (Sheet.remark said sink.sink).log = (Sheet.remark said other.sink).log
    cases said with
    | notice notice => exact ⟨h.diagnostics, congrArg (·.push notice) h.log⟩
    | debug text =>
      rw [Sheet.remark, Sheet.remark, h.diagnostics]
      split
      · exact ⟨rfl, h.log⟩
      · exact ⟨rfl, congrArg (·.push (.diagnosticLost closed)) h.log⟩
  refine ⟨?_, ?_, hsame.1, hsame.2, h.outlines⟩
  · show (Sink.remark said sink.sink).events.room = none
    rw [Sheet.remark_events, h.unbounded]
  · show (Sink.remark said other.sink).events.room = none
    rw [Sheet.remark_events, h.unbounded']

end Tapped

/-- Plans that do the same come to the same end in written music, but for the data. -/
theorem Plan.Alike.carryOut {plan plan' : Plan} (hplan : plan.Alike plan')
    {sink other : Tapped Sheet} (h : sink.InTime other) :
    (∃ answer answer', (plan.carryOut sink).1 = .ok answer ∧
        (plan'.carryOut other).1 = .ok answer' ∧ answer.Alike answer') ∧
      (plan.carryOut sink).2.1.SameTiming (plan'.carryOut other).2.1 ∧
      (plan.carryOut sink).2.2.InTime (plan'.carryOut other).2.2 := by
  induction hplan generalizing sink other with
  | done hanswer htiming => exact ⟨⟨_, _, rfl, rfl, hanswer⟩, htiming, h⟩
  | emit houtline hnext ih =>
    rename_i primitive primitive' refused refused' next next'
    obtain ⟨hreply, hreply', hafter⟩ := h.emit houtline
    rw [Plan.carryOut, Plan.carryOut]
    cases hemit : Sink.emit primitive sink with
    | mk reply after =>
      cases hemit' : Sink.emit primitive' other with
      | mk reply' after' =>
        rw [hemit] at hreply hafter
        rw [hemit'] at hreply' hafter
        simp only at hreply hreply' hafter
        subst hreply hreply'
        exact ih hafter
  | remark said hnext ih => exact ih (h.remark said)

/-! ### Tracks -/

namespace Track

structure InTime (track other : Track (Tapped Sheet)) : Prop where
  performer : track.performer.SameTiming other.performer
  sink : track.sink.InTime other.sink

theorem InTime.step {track other : Track (Tapped Sheet)} (h : track.InTime other)
    (command : Command) :
    (track.step command).1.Alike (other.step command).1 ∧
      (track.step command).2.InTime (other.step command).2 := by
  rw [step_eq_handle, step_eq_handle, h.performer.resolution]
  cases command.task other.performer.resolution with
  | idle outcome => exact ⟨.refl outcome, h⟩
  | operation operation told =>
    obtain ⟨⟨answer, answer', hreply, hreply', halike⟩, htiming, hsink⟩ :=
      (operation.plan_alike h.performer).carryOut h.sink
    refine ⟨?_, htiming, hsink⟩
    show (Outcome.ofReply told ((operation.plan track.performer).carryOut track.sink).1).Alike
      (Outcome.ofReply told ((operation.plan other.performer).carryOut other.sink).1)
    rw [hreply, hreply']
    cases told with
    | false => exact .refl _
    | true =>
      cases halike with
      | refl => exact .refl _
      | number value value' => exact .number value value'
  | flush =>
    have hflush : Sink.flush track.sink = .ok () := Sheet.flush_of_room_none h.sink.unbounded
    have hflush' : Sink.flush other.sink = .ok () := Sheet.flush_of_room_none h.sink.unbounded'
    rw [handle, handle, hflush, hflush']
    exact ⟨.refl _, h⟩

theorem InTime.run {track other : Track (Tapped Sheet)} (h : track.InTime other)
    (commands : List Command) :
    List.Forall₂ Outcome.Alike (track.run commands).1 (other.run commands).1 ∧
      (track.run commands).2.InTime (other.run commands).2 :=
  run_forall₂ (fun _ _ command _ htime => htime.step command) h

/-- Two runs of the same commands in written music that take the same time: after each command they
stand at the same position and have reported the same, their outcomes are alike, and they hand out
primitives of the same outlines. -/
structure SamePace (track other : Track Sheet) (commands : List Command) : Prop where
  outcomes : List.Forall₂ Outcome.Alike (track.run commands).1 (other.run commands).1
  performers : ∀ i, (track.run (commands.take i)).2.performer.SameTiming
    (other.run (commands.take i)).2.performer
  diagnostics : ∀ i, (track.run (commands.take i)).2.sink.diagnostics =
    (other.run (commands.take i)).2.sink.diagnostics
  log : ∀ i, (track.run (commands.take i)).2.sink.log =
    (other.run (commands.take i)).2.sink.log
  outlines : ∀ i, (track.calls (commands.take i)).map Primitive.outline =
    (other.calls (commands.take i)).map Primitive.outline

theorem samePace_of_inTime {track other : Track Sheet} (h : track.tap.InTime other.tap)
    (commands : List Command) : SamePace track other commands := by
  have htake : ∀ i, (track.tap.run (commands.take i)).2.InTime
      (other.tap.run (commands.take i)).2 := fun i => (h.run (commands.take i)).2
  refine ⟨?_, fun i => ?_, fun i => ?_, fun i => ?_, fun i => (htake i).sink.outlines⟩
  · rw [← (run_tap track commands).1, ← (run_tap other commands).1]
    exact (h.run commands).1
  · rw [← (run_tap track (commands.take i)).2, ← (run_tap other (commands.take i)).2]
    exact (htake i).performer
  · rw [← (run_tap track (commands.take i)).2, ← (run_tap other (commands.take i)).2]
    exact (htake i).sink.diagnostics
  · rw [← (run_tap track (commands.take i)).2, ← (run_tap other (commands.take i)).2]
    exact (htake i).sink.log

/-- Timing depends on nothing but timing: performers that agree on the resolution, the position and
the default length keep pace through any commands, whatever else they differ in. -/
theorem run_keeps_pace {left right : Performer} (h : left.SameTiming right) (diagnostics : Writer)
    (commands : List Command) :
    SamePace { performer := left, sink := { diagnostics } }
      { performer := right, sink := { diagnostics } } commands := by
  have htime : InTime (tap { performer := left, sink := ({ diagnostics } : Sheet) })
      (tap { performer := right, sink := ({ diagnostics } : Sheet) }) :=
    ⟨h, rfl, rfl, rfl, rfl, rfl⟩
  exact samePace_of_inTime htime commands

/-- A performer with other settings than the standard ones and a bend that is set. -/
def oddPerformer : Performer :=
  { Performer.start Config.standard with
    channel.gate := { relative := -3, denominator := 7, absolute := 1000 }
    channel.keyDelay := 500
    channel.number := 9
    dials := Dials.zero.set .pitchBend 77 }

theorem run_keeps_pace_oddPerformer :
    (Performer.start Config.standard).SameTiming oddPerformer ∧
      SamePace { performer := Performer.start Config.standard, sink := {} }
        { performer := oddPerformer, sink := {} }
        [.operation (.note 60 {}), .line "B+ 3", .line "ASSERT_STEP 2, here"] := by
  have h : (Performer.start Config.standard).SameTiming oddPerformer := ⟨rfl, rfl, rfl⟩
  exact ⟨h, run_keeps_pace h {} _⟩

end Track

end MusicMacro
