import MusicMacro.Proofs.Curve.Target
import MusicMacro.Proofs.Dial.Event
import MusicMacro.Proofs.Track.Calls
import MusicMacro.Proofs.Track.Frame
import MusicMacro.Sink.Live

/-! Dials that follow a curve.  A dial of a track is a target of curves, and a turn drives it step
by step.  What a recorder logs of the same drive is what the track hands to its sink, by the events
of the dial, up to the first that is refused.  If none is, the track stands where the recorder stands,
with the value that the recorder holds.  Where one is refused the two part: the track has kept its
value, which no recorder would have. -/

namespace MusicMacro

/-- The turn of a dial along a course. -/
def Course.turn : Course → Turn
  | .sweep course => .sweep course
  | .wave course => .wave course

theorem Operation.plan_turn (performer : Performer) (dial : Dial) (course : Course) :
    (Operation.turn dial course.turn).plan performer =
      Plan.followCurve dial performer.position (course.curve performer.position) performer := by
  cases course <;> rfl

/-! ### Primitives in order -/

namespace Sink

variable {σ : Type} [Sink σ]

/-- Hands over primitives up to the first that is refused, and counts those that are taken. -/
def emitInOrder : List Primitive → σ → Nat × Except Refusal Unit × σ
  | [], sink => (0, .ok (), sink)
  | primitive :: rest, sink =>
    match Sink.emit primitive sink with
    | (.ok _, sink) =>
      match emitInOrder rest sink with
      | (taken, reply, sink) => (taken + 1, reply, sink)
    | (.error cause, sink) => (0, .error cause, sink)

/-- Either all primitives are taken, or there is one that follows those that are. -/
theorem taken_emitInOrder (primitives : List Primitive) (sink : σ) :
    let (taken, reply, _) := emitInOrder primitives sink
    taken = primitives.length ∧ reply = .ok () ∨
      taken < primitives.length ∧ ∃ cause, reply = .error cause := by
  induction primitives generalizing sink with
  | nil => exact .inl ⟨rfl, rfl⟩
  | cons primitive primitives ih =>
    rw [emitInOrder]
    cases Sink.emit primitive sink with
    | mk reply sink =>
      cases reply with
      | error cause => exact .inr ⟨Nat.zero_lt_succ _, cause, rfl⟩
      | ok _ =>
        rcases ih sink with ⟨hall, htaken⟩ | ⟨hsome, hrefused⟩
        · exact .inl ⟨congrArg (· + 1) hall, htaken⟩
        · exact .inr ⟨Nat.succ_lt_succ hsome, hrefused⟩

/-- A tap lists what is taken, and what is refused after it. -/
theorem emitInOrder_tapped (primitives : List Primitive) (tapped : Tapped σ) :
    emitInOrder primitives tapped =
      let (taken, reply, sink) := emitInOrder primitives tapped.sink
      (taken, reply, { sink, calls := tapped.calls ++ primitives.take (taken + 1) }) := by
  induction primitives generalizing tapped with
  | nil => simp [emitInOrder]
  | cons primitive primitives ih =>
    rw [emitInOrder, emitInOrder]
    cases hemit : Sink.emit primitive tapped.sink with
    | mk reply sink =>
      have htap : Sink.emit primitive tapped =
          (reply, { sink, calls := tapped.calls ++ [primitive] }) := by
        simp only [Sink.emit] at hemit ⊢
        rw [hemit]
      rw [htap]
      cases reply with
      | error cause => rfl
      | ok _ => simp only [ih, List.take_succ_cons, List.append_assoc, List.singleton_append]

end Sink

/-! ### The course of a turn -/

theorem Curve.lastValue_cons (value later : Int32) (position : Ticks)
    (log : List (Ticks × Int32)) :
    lastValue value ((position, later) :: log) = lastValue later log := by
  rw [lastValue, lastValue, List.getLast?_cons]
  cases log.getLast? <;> rfl

/-- The last of the first entries of a log is the one that they go up to. -/
theorem Curve.lastValue_take {log : List (Ticks × Int32)} {taken : Nat} (h : taken < log.length)
    (value : Int32) : lastValue value (log.take (taken + 1)) = log[taken].2 := by
  rw [lastValue, List.take_succ_eq_append_getElem h, List.getLast?_concat]
  rfl

namespace Performer

/-- The performer at a position, with the dial at the last value of a log. -/
def turned (performer : Performer) (dial : Dial) (log : List (Ticks × Int32))
    (position : Ticks) : Performer :=
  { performer.setDial dial (Curve.lastValue (performer.dials.get dial) log) with position }

theorem turned_nil (performer : Performer) (dial : Dial) (position : Ticks) :
    performer.turned dial [] position = { performer with position } := by
  rw [turned, setDial, Curve.lastValue, List.getLast?_nil, Option.map_none, Option.getD_none,
    Dials.set_get]

theorem turned_cons (performer : Performer) (dial : Dial) (there : Ticks) (value : Int32)
    (log : List (Ticks × Int32)) (position : Ticks) :
    performer.turned dial ((there, value) :: log) position =
      ({ performer with position := there }.setDial dial value).turned dial log position := by
  simp only [turned, setDial, Curve.lastValue_cons, Dials.get_set, Dials.set_set, if_true]

variable {σ : Type}

/-- A curve that started at `origin`, once its points are handed over in order: the performer goes
on to the finish if they are all taken, and goes back to the origin if one is refused, and the dial
has the last value that was handed over. -/
def afterCurve (performer : Performer) (dial : Dial) (origin : Ticks) (curve : Curve) :
    Nat × Except Refusal Unit × σ → Except Refusal Answer × Performer × σ
  | (_, .ok _, sink) => (.ok .done, performer.turned dial curve.points curve.finish, sink)
  | (taken, .error cause, sink) =>
    (.error cause, performer.turned dial (curve.points.take (taken + 1)) origin, sink)

/-- One point that is taken before the others. -/
theorem afterCurve_point (performer : Performer) (dial : Dial) (origin there : Ticks)
    (value : Int32) (next : Unit → Curve) (handed : Nat × Except Refusal Unit × σ) :
    ({ performer with position := there }.setDial dial value).afterCurve dial origin (next ())
        handed =
      performer.afterCurve dial origin (.point there value next) (handed.1 + 1, handed.2) := by
  obtain ⟨taken, reply, sink⟩ := handed
  cases reply <;>
    simp only [afterCurve, Curve.points, Curve.finish, List.take_succ_cons, turned_cons]

theorem afterCurve_frame (performer : Performer) (dial : Dial) (origin : Ticks) (curve : Curve)
    (handed : Nat × Except Refusal Unit × σ) :
    let left := (performer.afterCurve dial origin curve handed).2.1
    left.channel = performer.channel ∧
      ∀ other, other ≠ dial → left.dials.get other = performer.dials.get other := by
  have hturned : ∀ log position other, other ≠ dial →
      (performer.turned dial log position).dials.get other = performer.dials.get other := by
    intro log position other hother
    show (performer.dials.set dial _).get other = _
    rw [Dials.get_set, if_neg hother]
  obtain ⟨taken, reply, sink⟩ := handed
  cases reply with
  | ok _ => exact ⟨rfl, hturned _ _⟩
  | error cause => exact ⟨rfl, hturned _ _⟩

theorem afterCurve_sink (performer : Performer) (dial : Dial) (origin : Ticks) (curve : Curve)
    (handed : Nat × Except Refusal Unit × σ) :
    (performer.afterCurve dial origin curve handed).2.2 = handed.2.2 := by
  obtain ⟨taken, reply, sink⟩ := handed
  cases reply <;> rfl

end Performer

theorem Plan.carryOut_followCurve {σ : Type} [Sink σ] (dial : Dial) (origin : Ticks) (curve : Curve)
    (performer : Performer) (sink : σ) :
    (followCurve dial origin curve performer).carryOut sink =
      performer.afterCurve dial origin curve
        (Sink.emitInOrder
          (curve.points.map fun entry => dial.primitive performer.channel entry.2) sink) := by
  -- The channel stays the same on the way, and with it the form of the primitives.
  generalize hchannel : performer.channel = channel
  induction curve generalizing performer sink with
  | stop position =>
    rw [Curve.points, List.map_nil, Sink.emitInOrder, Performer.afterCurve, Curve.points,
      Performer.turned_nil]
    rfl
  | point position value next ih =>
    let there := { performer with position }.setDial dial value
    have hback : there.move .advance (-(position - origin)) = there.turned dial [] origin := by
      rw [Performer.turned_nil]
      exact there.move_back origin
    subst hchannel
    rw [followCurve, carryOut, hback, ← Performer.turned_cons, Curve.points, List.map_cons,
      Sink.emitInOrder]
    cases Sink.emit (dial.primitive performer.channel value) sink with
    | mk reply sink =>
      cases reply with
      | error cause => rfl
      | ok _ =>
        exact (ih () there sink rfl).trans
          (performer.afterCurve_point dial origin position value next _)

/-! ### The dial as a target -/

/-- A dial of a track, by its knob. -/
structure Knob (σ : Type) where
  dial : Dial
  track : Track σ

namespace Knob

variable {σ : Type} [Sink σ]

instance : Target (Knob σ) where
  position knob := knob.track.performer.position
  value knob := knob.track.performer.dials.get knob.dial
  advance ticks knob :=
    { knob with
      track := { knob.track with performer := knob.track.performer.move .advance ticks } }
  setValue value knob :=
    let (reply, track) := knob.track.perform (.turn knob.dial (.set value))
    (reply.map fun _ => (), { knob with track })

/-- The knob after a plan of its track. -/
def carryOut (knob : Knob σ) (plan : Plan) : Except Refusal Unit × Knob σ :=
  let (reply, performer, sink) := plan.carryOut knob.track.sink
  (reply.map fun _ => (), { knob with track := { performer, sink } })

/-- The value is kept, whether the sink takes it or not. -/
theorem setValue_eq (knob : Knob σ) (value : Int32) :
    Target.setValue value knob =
      let (reply, sink) :=
        Sink.emit (knob.dial.primitive knob.track.performer.channel value) knob.track.sink
      (reply, { knob with
        track := { performer := knob.track.performer.setDial knob.dial value, sink } }) := by
  change knob.carryOut (.sendAll (knob.track.performer.setDial knob.dial value)
    [knob.dial.primitive knob.track.performer.channel value]) = _
  rw [carryOut, Plan.sendAll, Plan.carryOut]
  cases Sink.emit (knob.dial.primitive knob.track.performer.channel value) knob.track.sink with
  | mk reply sink => cases reply <;> rfl

/-- The first point of a curve is a value that is set. -/
theorem carryOut_point (knob : Knob σ) (origin : Ticks) (value : Int32) (rest : Unit → Curve) :
    knob.carryOut (.followCurve knob.dial origin (.point (Target.position knob) value rest)
        knob.track.performer) =
      match Target.setValue value knob with
      | (.ok _, after) => after.carryOut (.followCurve after.dial origin (rest ())
          after.track.performer)
      | (.error cause, after) => Target.settle origin (.error cause, after) := by
  rw [setValue_eq, carryOut, Plan.followCurve, Plan.carryOut]
  cases Sink.emit (knob.dial.primitive knob.track.performer.channel value) knob.track.sink with
  | mk reply sink => cases reply <;> rfl

theorem tracing (origin : Ticks) :
    Target.Tracing origin (fun _ : Knob σ => True) fun knob curve ended =>
      knob.carryOut (.followCurve knob.dial origin curve knob.track.performer) = ended where
  advanced ticks knob _ := ⟨trivial, rfl, rfl⟩
  set {next knob after} _ hset := by
    rw [setValue_eq] at hset
    obtain ⟨-, rfl⟩ := Prod.mk.inj hset
    refine ⟨trivial, rfl, ?_⟩
    show (knob.track.performer.dials.set knob.dial next).get knob.dial = next
    rw [Dials.get_set, if_pos rfl]
  stop _ := rfl
  taken {next knob after rest ended} _ hset hrest := by
    rw [carryOut_point, hset]
    exact hrest
  refused {next knob after cause} rest _ hset := by
    rw [carryOut_point, hset]
  moved {ticks knob curve ended} _ hmeets := by
    cases curve <;> exact hmeets

end Knob

namespace Track

variable {σ : Type} [Sink σ]

/-- To turn a dial along a course is to drive its knob. -/
theorem drive_knob (track : Track σ) (dial : Dial) (course : Course) :
    let turned := track.perform (.turn dial course.turn)
    course.drive (Knob.mk dial track) = (turned.1.map fun _ => (), Knob.mk dial turned.2) := by
  have horigin : Target.position (Knob.mk dial track) = track.performer.position := rfl
  have hdrive := (Knob.tracing track.performer.position).meets_course course trivial horigin
  rw [perform, Operation.plan_turn]
  exact hdrive.symm

theorem perform_turn (track : Track σ) (dial : Dial) (course : Course) :
    let channel := track.performer.channel
    let curve := course.curve track.performer.position
    track.perform (.turn dial course.turn) =
      let (reply, performer, sink) :=
        track.performer.afterCurve dial track.performer.position curve
          (Sink.emitInOrder
            (curve.points.map fun entry =>
              dial.event channel.number channel.bendRange.toInt entry.2.toInt)
            track.sink)
      (reply, { performer, sink }) := by
  intro channel curve
  simp only [perform, Operation.plan_turn, Plan.carryOut_followCurve, Dial.primitive_eq_event]
  rfl

theorem calls_turn (track : Track σ) (dial : Dial) (course : Course) :
    let channel := track.performer.channel
    let primitives := (course.curve track.performer.position).points.map fun entry =>
      dial.event channel.number channel.bendRange.toInt entry.2.toInt
    track.calls [.operation (.turn dial course.turn)] =
      primitives.take ((Sink.emitInOrder primitives track.sink).1 + 1) := by
  intro channel primitives
  rw [calls_operation, perform_turn]
  refine (congrArg Tapped.calls (Performer.afterCurve_sink _ dial _ _ _)).trans ?_
  rw [Sink.emitInOrder_tapped]
  rfl

/-- A dial that is turned along a course, seen beside a recorder without a limit that starts at the
same position and with the same value.  The two are driven in the same way.  The values that the
recorder logs are handed over in order, each by the event of the dial on the channel of the track
and under its bend range, up to the first that is refused.  If they are all taken, the track stands
where the recorder does and has its value.  If one is refused, the track stands where it stood and
has the very value that was refused.  The channel and the other dials do not change. -/
theorem turn_beside_recorder (track : Track σ) (dial : Dial) (course : Course) :
    let performer := track.performer
    let channel := performer.channel
    let start : Recorder := { position := performer.position, value := performer.dials.get dial }
    let curve := course.curve performer.position
    let followed := start.follow curve
    let recorder := followed.2
    let log := recorder.log.toList
    let primitives := log.map fun entry =>
      dial.event channel.number channel.bendRange.toInt entry.2.toInt
    let handed := Sink.emitInOrder primitives track.sink
    let turned := track.perform (.turn dial course.turn)
    course.drive start = followed ∧ followed.1 = .ok () ∧
      course.drive (Knob.mk dial track) = (turned.1.map fun _ => (), Knob.mk dial turned.2) ∧
      track.calls [.operation (.turn dial course.turn)] =
        primitives.take (handed.1 + 1) ∧
      (match handed with
      | (taken, .ok _, sink) =>
        taken = primitives.length ∧
          turned = (.ok .done,
            { performer :=
                { performer.setDial dial recorder.value with position := recorder.position },
              sink })
      | (taken, .error cause, sink) =>
        ∃ entry, log[taken]? = some entry ∧
          turned = (.error cause, { performer := performer.setDial dial entry.2, sink })) ∧
      turned.2.performer.channel = channel ∧
      ∀ other, other ≠ dial → turned.2.performer.dials.get other = performer.dials.get other := by
  intro performer channel start curve
  have hfollow : start.follow curve =
      (.ok (), { start.logged curve.points with position := curve.finish }) := by
    rw [Recorder.follow_eq_record rfl, Recorder.record_of_fits rfl]
  have hdrive : course.drive start = start.follow curve := by
    obtain ⟨hreply, hkept⟩ := Target.recorder_records.drive_course (rfl : start = start) rfl course
    rw [Recorder.follow_eq_record rfl]
    exact Prod.ext hreply hkept
  rw [hdrive, hfollow]
  intro followed recorder log primitives handed turned
  have hturned : turned =
      let (reply, performer, sink) := performer.afterCurve dial performer.position curve handed
      (reply, { performer, sink }) := track.perform_turn dial course
  refine ⟨rfl, rfl, track.drive_knob dial course, track.calls_turn dial course, ?_, ?_⟩
  · have hcount : handed.1 = _ ∧ handed.2.1 = _ ∨ handed.1 < _ ∧ ∃ cause, handed.2.1 = _ :=
      Sink.taken_emitInOrder primitives track.sink
    clear_value handed
    obtain ⟨taken, reply, sink⟩ := handed
    obtain ⟨hall, rfl⟩ | ⟨hsome, cause, rfl⟩ := hcount
    · exact ⟨hall, hturned⟩
    · have hplace : taken < log.length := by
        rwa [List.length_map] at hsome
      have hvalue : Curve.lastValue (performer.dials.get dial) (curve.points.take (taken + 1)) =
          log[taken].2 := Curve.lastValue_take hplace _
      refine ⟨log[taken], List.getElem?_eq_getElem hplace, hturned.trans ?_⟩
      rw [Performer.afterCurve, Performer.turned, hvalue]
      rfl
  · rw [hturned]
    exact performer.afterCurve_frame dial performer.position curve handed

/-- On the sixth channel, with bends in cents under a range of three semitones: a wave of bends on a
port that takes two messages, so that the third bend is refused and kept, and a sweep of the tempo
in written music, which takes it all. -/
theorem turn_beside_recorder_bends :
    let performer :=
      { Performer.start Config.standard with
        position := 10, channel.number := 5, channel.bendRange := 3 }
    let live : Track Transmitter := { performer, sink.port.room := some 2 }
    let sheet : Track Sheet := { performer, sink := {} }
    let bends : Operation := .turn .pitchBend (.wave (Wave.mk 0 0 2 4 8 4 150 1))
    let tempos : Operation := .turn .tempo (.sweep (Sweep.mk 500000 70000 2 4 4))
    let delays : Operation := .turn .delaySend (.sweep (Sweep.mk 300 (-1) 0 0 0))
    live.calls [.operation bends] =
        [.message3 5 0xE0 0 0, .message3 5 0xE0 42 21, .message3 5 0xE0 0 64] ∧
      (live.perform bends).1 = .error (.port closed) ∧
      (live.perform bends).2.performer = performer.setDial .pitchBend 300 ∧
      sheet.calls [.operation tempos] =
        [.metaBytes 0x51 [0x07, 0xA1, 0x20], .metaBytes 0x51 [0x01, 0x11, 0x70],
          .metaBytes 0x51 [0x01, 0x11, 0x70]] ∧
      (sheet.perform tempos).1 = .ok .done ∧
      (sheet.perform tempos).2.performer =
        { performer.setDial .tempo 70000 with position := 26 } ∧
      sheet.calls [.operation delays] = [.message3 5 0xB0 0x5E 44, .message3 5 0xB0 0x5E 255] := by
  intro performer live sheet bends tempos delays
  obtain ⟨-, -, -, hbends, ⟨entry, hentry, hbent⟩, -⟩ :=
    live.turn_beside_recorder .pitchBend (.wave (Wave.mk 0 0 2 4 8 4 150 1))
  have hthird : (20, 300) = entry := Option.some.inj (.trans (by decide +kernel) hentry)
  subst hthird
  obtain ⟨-, -, -, htempos, ⟨-, hslowed⟩, -⟩ :=
    sheet.turn_beside_recorder .tempo (.sweep (Sweep.mk 500000 70000 2 4 4))
  obtain ⟨-, -, -, hdelays, -⟩ :=
    sheet.turn_beside_recorder .delaySend (.sweep (Sweep.mk 300 (-1) 0 0 0))
  refine ⟨hbends.trans (by decide +kernel), congrArg Prod.fst hbent,
    congrArg (fun reply => reply.2.performer) hbent, htempos.trans (by decide +kernel),
    congrArg Prod.fst hslowed,
    (congrArg (fun reply => reply.2.performer) hslowed).trans (by decide +kernel),
    hdelays.trans (by decide +kernel)⟩

end Track

end MusicMacro
