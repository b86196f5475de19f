import MusicMacro.Proofs.Sink.Metered
import MusicMacro.Track.Plan

/-! What comes of a plan.  Under fixed replies a plan hands out a list of primitives and comes to a
result, and a metered sink without a bound carries it out in just this way.  `Ends` says of every
performer that a plan can leave behind what holds of it, on any sink. -/

namespace MusicMacro.Plan

/-- The primitives that a plan hands out under fixed replies, the refused one included. -/
def calls (reply : Primitive → Except Refusal Unit) : Plan → List Primitive
  | .done _ _ => []
  | .remark _ next => (next ()).calls reply
  | .emit primitive _ next =>
    match reply primitive with
    | .ok _ => primitive :: (next ()).calls reply
    | .error _ => [primitive]

def result (reply : Primitive → Except Refusal Unit) : Plan → Except Refusal Answer × Performer
  | .done answer performer => (.ok answer, performer)
  | .remark _ next => (next ()).result reply
  | .emit primitive refused next =>
    match reply primitive with
    | .ok _ => (next ()).result reply
    | .error cause => (.error cause, refused)

section Metered

variable {σ β : Type} [Sink σ] [Metered σ β]

open Metered

/-- A metered sink without a bound gives its fixed replies and puts out every chunk. -/
theorem carryOut_of_room_none (plan : Plan) {sink : σ} (h : room sink = none) :
    (plan.carryOut sink).1 = (plan.result (reply σ)).1 ∧
      (plan.carryOut sink).2.1 = (plan.result (reply σ)).2 ∧
      output (plan.carryOut sink).2.2 =
        output sink ++ (plan.calls (reply σ)).flatMap (chunk σ) ∧
      room (plan.carryOut sink).2.2 = none := by
  induction plan generalizing sink with
  | done answer performer => simp [carryOut, result, calls, h]
  | remark said next ih =>
    have hfree : room (Sink.remark said sink) = none := by rw [room_remark, h]
    obtain ⟨hreply, hleft, houtput, hroom⟩ := ih () hfree
    rw [output_remark] at houtput
    exact ⟨hreply, hleft, houtput, hroom⟩
  | emit primitive refused next ih =>
    obtain ⟨hfirst, hput, hfree⟩ := emit_of_room_none primitive h
    cases hemit : Sink.emit primitive sink with
    | mk answer after =>
      rw [hemit] at hfirst hput hfree
      simp only at hfirst hput hfree
      cases hreply : reply σ primitive with
      | ok _ =>
        obtain ⟨hrest, hleft, houtput, hroom⟩ := ih () hfree
        rw [hput] at houtput
        simp [carryOut, hemit, hfirst, hreply, result, calls, hrest, hleft, houtput, hroom]
      | error cause =>
        simp [carryOut, hemit, hfirst, hreply, result, calls, hput, hfree]

end Metered

def Calls (P : Primitive → Prop) : Plan → Prop
  | .done _ _ => True
  | .remark _ next => (next ()).Calls P
  | .emit primitive _ next => P primitive ∧ (next ()).Calls P

theorem Calls.mono {P Q : Primitive → Prop} {plan : Plan} (h : plan.Calls P)
    (hPQ : ∀ primitive, P primitive → Q primitive) : plan.Calls Q := by
  induction plan with
  | done answer performer => trivial
  | remark said next ih => exact ih () h
  | emit primitive refused next ih => exact ⟨hPQ primitive h.1, ih () h.2⟩

theorem Calls.sendAll {P : Primitive → Prop} {performer : Performer} {primitives : List Primitive}
    (h : ∀ primitive ∈ primitives, P primitive) : (sendAll performer primitives).Calls P := by
  induction primitives with
  | nil => trivial
  | cons primitive primitives ih =>
    exact ⟨h primitive List.mem_cons_self,
      ih fun other hother => h other (List.mem_cons_of_mem primitive hother)⟩

theorem Calls.sendOne {P : Primitive → Prop} {primitive : Primitive} (performer : Performer)
    (h : P primitive) : (Plan.sendAll performer [primitive]).Calls P :=
  ⟨h, trivial⟩

/-- A dial that follows a curve sends its values on one channel. -/
theorem Calls.followCurve {P : Primitive → Prop} {dial : Dial} (origin : Ticks) (curve : Curve)
    {performer : Performer} (h : ∀ value, P (dial.primitive performer.channel value)) :
    (followCurve dial origin curve performer).Calls P := by
  induction curve generalizing performer with
  | stop position => trivial
  | point position value next ih => exact ⟨h value, ih () h⟩

theorem Calls.congr {reply other : Primitive → Except Refusal Unit} {plan : Plan}
    (h : plan.Calls fun primitive => reply primitive = other primitive) :
    plan.calls reply = plan.calls other ∧ plan.result reply = plan.result other := by
  induction plan with
  | done answer performer => exact ⟨rfl, rfl⟩
  | remark said next ih => exact ih () h
  | emit primitive refused next ih =>
    obtain ⟨hcalls, hresult⟩ := ih () h.2
    have hfirst : reply primitive = other primitive := h.1
    rw [calls, calls, result, result, hfirst, hcalls, hresult]
    exact ⟨rfl, rfl⟩

theorem Calls.of_mem_calls {P : Primitive → Prop} {reply : Primitive → Except Refusal Unit}
    {plan : Plan} (h : plan.Calls P) : ∀ primitive ∈ plan.calls reply, P primitive := by
  induction plan with
  | done answer performer => intro primitive hmem; cases hmem
  | remark said next ih => exact ih () h
  | emit first refused next ih =>
    intro primitive hmem
    rw [calls] at hmem
    split at hmem
    · rcases List.mem_cons.mp hmem with rfl | hmem
      · exact h.1
      · exact ih () h.2 primitive hmem
    · obtain rfl := List.mem_singleton.mp hmem
      exact h.1

/-- What holds of the performer that a plan leaves behind, where it is refused and where it is
carried out to the end. -/
def Ends (refused finished : Performer → Prop) : Plan → Prop
  | .done _ performer => finished performer
  | .remark _ next => (next ()).Ends refused finished
  | .emit _ left next => refused left ∧ (next ()).Ends refused finished

theorem Ends.mono {P P' Q Q' : Performer → Prop} {plan : Plan} (h : plan.Ends P Q)
    (hP : ∀ performer, P performer → P' performer) (hQ : ∀ performer, Q performer → Q' performer) :
    plan.Ends P' Q' := by
  induction plan with
  | done answer performer => exact hQ performer h
  | remark said next ih => exact ih () h
  | emit primitive refused next ih => exact ⟨hP refused h.1, ih () h.2⟩

theorem Ends.sendAll {P Q : Performer → Prop} {performer : Performer} (hP : P performer)
    (hQ : Q performer) (primitives : List Primitive) : (sendAll performer primitives).Ends P Q := by
  induction primitives with
  | nil => exact hQ
  | cons primitive primitives ih => exact ⟨hP, ih⟩

section Sink

variable {σ : Type} [Sink σ] {P Q : Performer → Prop} {plan : Plan}

theorem Ends.of_error (h : plan.Ends P Q) {sink after : σ} {cause : Refusal} {left : Performer}
    (hrun : plan.carryOut sink = (.error cause, left, after)) : P left := by
  induction plan generalizing sink with
  | done answer performer => cases hrun
  | remark said next ih => exact ih () h hrun
  | emit primitive refused next ih =>
    rw [carryOut] at hrun
    split at hrun
    · exact ih () h.2 hrun
    · cases hrun
      exact h.1

theorem Ends.of_ok (h : plan.Ends P Q) {sink after : σ} {answer : Answer} {left : Performer}
    (hrun : plan.carryOut sink = (.ok answer, left, after)) : Q left := by
  induction plan generalizing sink with
  | done answer performer => cases hrun; exact h
  | remark said next ih => exact ih () h hrun
  | emit primitive refused next ih =>
    rw [carryOut] at hrun
    split at hrun
    · exact ih () h.2 hrun
    · cases hrun

theorem Ends.left (h : plan.Ends P P) (sink : σ) : P (plan.carryOut sink).2.1 := by
  cases hrun : plan.carryOut sink with
  | mk reply rest =>
    cases reply with
    | ok answer => exact h.of_ok hrun
    | error cause => exact h.of_error hrun

end Sink

end MusicMacro.Plan
