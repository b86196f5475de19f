import Mathlib.Algebra.Ring.Int.Defs
import MusicMacro.Proofs.Curve.Finish
import MusicMacro.Proofs.Track.Frame

/-! What operations do to the position.  An operation either places the position or moves it by a
number of ticks, which may be zero.  A note moves it by its step, however it sounds, a curve by the
ticks it takes and the position it started from, and whatever is refused moves it by nothing.  The
ticks are counted without bounds, but for the quotients, which are those of words. -/

namespace MusicMacro

/-! ### Travels -/

/-- What a command does to the position. -/
inductive Travel where
  | placed (position : Ticks)
  | moved (ticks : Int)
  deriving DecidableEq, Repr

namespace Travel

def place? : Travel → Option Ticks
  | .placed position => some position
  | .moved _ => none

def ticks : Travel → Int
  | .placed _ => 0
  | .moved ticks => ticks

/-- The position after a travel.  Ticks wrap. -/
def apply : Travel → Ticks → Ticks
  | .placed place, _ => place
  | .moved ticks, position => Int32.ofInt (position.toInt + ticks)

/-- A travel that takes place only if the sink takes what goes with it. -/
def ifTaken (taken : Bool) (ticks : Int) : Travel := .moved (if taken then ticks else 0)

/-- The last place that was set, or else the start. -/
def lastPlace (start : Ticks) (travels : List Travel) : Ticks :=
  (travels.reverse.findSome? place?).getD start

/-- The ticks of each travel after the last place that was set, the last ones first. -/
def ticksSince (travels : List Travel) : List Int :=
  (travels.reverse.takeWhile fun travel => travel.place?.isNone).map ticks

theorem apply_moved (ticks : Int) (position : Ticks) :
    (moved ticks).apply position = position + Int32.ofInt ticks := by
  rw [apply, Int32.ofInt_add, Int32.ofInt_toInt]

theorem apply_moved_zero (position : Ticks) : (moved 0).apply position = position := by
  simp [apply_moved]

theorem apply_ifTaken_false (ticks : Int) (position : Ticks) :
    (ifTaken false ticks).apply position = position :=
  apply_moved_zero position

theorem apply_ifTaken_true (ticks : Int) (position : Ticks) :
    (ifTaken true ticks).apply position = position + Int32.ofInt ticks :=
  apply_moved ticks position

/-- One travel more: a place starts the account anew, and ticks are added to it. -/
theorem ofInt_account_concat (start : Ticks) (travels : List Travel) (travel : Travel) :
    Int32.ofInt ((lastPlace start (travels ++ [travel])).toInt +
        (ticksSince (travels ++ [travel])).sum) =
      travel.apply (Int32.ofInt ((lastPlace start travels).toInt + (ticksSince travels).sum)) := by
  cases travel with
  | placed position => simp [lastPlace, ticksSince, List.findSome?_cons, place?, apply]
  | moved ticks =>
    have hplace : lastPlace start (travels ++ [moved ticks]) = lastPlace start travels := by
      simp [lastPlace, List.findSome?_cons, place?]
    have hsince : (ticksSince (travels ++ [moved ticks])).sum =
        ticks + (ticksSince travels).sum := by
      simp [ticksSince, place?, Travel.ticks]
    rw [hplace, hsince, apply_moved, ← Int32.ofInt_add]
    congr 1
    omega

end Travel

/-! ### Ticks -/

/-- The truncated quotient as a word, or zero where nothing can be divided. -/
def wordQuotient (whole part : Int) : Int :=
  if part = 0 then 0 else (whole.tdiv part).bmod Int32.size

theorem toInt_quotientOrZero_eq (whole part : Int32) :
    (quotientOrZero whole part).toInt = wordQuotient whole.toInt part.toInt := by
  have hzero : part = 0 ↔ part.toInt = 0 := Int32.toInt_inj.symm
  rw [quotientOrZero, wordQuotient]
  by_cases hpart : part = 0
  · rw [if_pos hpart, if_pos (hzero.mp hpart)]
    rfl
  · rw [if_neg hpart, if_neg (mt hzero.mpr hpart)]
    exact Int32.toInt_div whole part

/-- The ticks of a sweep that starts at `position`: the wait, as many steps as fit into the length,
and the position itself. -/
def sweepTicks (position delay length step : Int) : Int :=
  delay + max 0 (wordQuotient length step) * step + position

/-- The ticks of a wave that starts at `position`: the wait, the steps up and down of every round,
the last wait, and the position itself. -/
def waveTicks (position delay wait period step repeats : Int) : Int :=
  delay + 2 * max 0 (wordQuotient period step) * max 0 repeats * step + wait + position

namespace Performer

/-- The ticks of a note length, given by its denominator: that share of the whole note. -/
def lengthTicks (performer : Performer) (denominator : Int) : Int :=
  wordQuotient performer.resolution.wholeNote.toInt denominator

/-- The ticks of a note: the step that is given, unless it is negative, or else the default
length. -/
def noteTicks (performer : Performer) (given : Option Int) : Int :=
  let standard := performer.lengthTicks performer.channel.defaultLength.denominator.toInt
  match given with
  | some step => if 0 ≤ step then step else standard
  | none => standard

theorem toInt_toTicks (performer : Performer) (length : Length) :
    (performer.resolution.toTicks length).toInt =
      performer.lengthTicks length.denominator.toInt :=
  toInt_quotientOrZero_eq _ _

theorem toInt_noteStep (performer : Performer) (options : Articulation) :
    (performer.noteStep options).toInt = performer.noteTicks (options.step.map Int32.toInt) := by
  have hstandard := performer.toInt_toTicks performer.channel.defaultLength
  rw [noteStep]
  cases options.step with
  | none => exact hstandard
  | some step =>
    have hsign : (0 ≤ step) ↔ 0 ≤ step.toInt := Int32.le_iff_toInt_le
    rw [nonnegOr, Option.map_some, noteTicks, apply_ite Int32.toInt]
    simp only [hsign]
    rw [← hstandard]
    rfl

end Performer

/-! ### The travels of operations -/

def Move.travel (ticks : Int) : Move → Travel
  | .advance => .moved ticks
  | .jump => .placed (Int32.ofInt ticks)
  | .rewind => .moved (-ticks)

/-- What an operation does to the position of a performer, where the sink takes it or refuses it. -/
def Operation.travel (performer : Performer) (taken : Bool) : Operation → Travel
  | .move how ticks => how.travel ticks.toInt
  | .moveLength how length => how.travel (performer.lengthTicks length.denominator.toInt)
  | .note _ options => .ifTaken taken (performer.noteTicks (options.step.map Int32.toInt))
  | .play _ _ options => .ifTaken taken (performer.noteTicks (options.step.map Int32.toInt))
  | .turn _ (.sweep course) =>
    .ifTaken taken (sweepTicks performer.position.toInt course.startDelay.toInt
      course.length.toInt course.step.toInt)
  | .turn _ (.wave course) =>
    .ifTaken taken (waveTicks performer.position.toInt course.startDelay.toInt
      course.endDuration.toInt course.period.toInt course.step.toInt course.repeats.toInt)
  | _ => .moved 0

theorem Move.apply_travel (how : Move) (ticks position : Ticks) :
    (how.travel ticks.toInt).apply position = how.apply ticks position := by
  cases how with
  | advance => simp [travel, Travel.apply_moved, apply]
  | jump => exact Int32.ofInt_toInt ticks
  | rewind =>
    rw [travel, Travel.apply_moved, Int32.ofInt_neg, Int32.ofInt_toInt, apply]
    grind

theorem Sweep.finish_eq (sweep : Sweep) (position : Ticks) :
    (sweep.curve position).finish =
      position + Int32.ofInt (sweepTicks position.toInt sweep.startDelay.toInt
        sweep.length.toInt sweep.step.toInt) := by
  simp only [finish_curve, sweepTicks, ← toInt_quotientOrZero_eq, Int32.ofInt_add,
    Int32.ofInt_mul, Int32.ofInt_toInt, ofNat_toNatClampNeg, steps]

theorem Wave.finish_eq (wave : Wave) (position : Ticks) :
    (wave.curve position).finish =
      position + Int32.ofInt (waveTicks position.toInt wave.startDelay.toInt
        wave.endDuration.toInt wave.period.toInt wave.step.toInt wave.repeats.toInt) := by
  have htwo : Int32.ofInt 2 = 2 := rfl
  simp only [finish_curve, waveTicks, ← toInt_quotientOrZero_eq, Int32.ofInt_add,
    Int32.ofInt_mul, Int32.ofInt_toInt, ofNat_toNatClampNeg, halfSteps, htwo]

/-- The moves of a note cancel but for its step, whatever the delay and the gate are. -/
theorem Performer.position_afterNote (performer : Performer) (options : Articulation) :
    (performer.afterNote options).position = performer.position + performer.noteStep options := by
  show performer.position + performer.noteDelay options + performer.noteGate options +
      (performer.noteStep options - performer.noteGate options) - performer.noteDelay options = _
  grind

namespace Plan

theorem note_travel (performer : Performer) (key : UInt8) (options : Articulation) :
    let ticks := performer.noteTicks (options.step.map Int32.toInt)
    (note performer key options).Ends
      (fun left => left.position = (Travel.ifTaken false ticks).apply performer.position)
      fun left => left.position = (Travel.ifTaken true ticks).apply performer.position := by
  intro ticks
  have hstep : Int32.ofInt ticks = performer.noteStep options := by
    rw [← Int32.ofInt_toInt (performer.noteStep options), performer.toInt_noteStep]
  rw [Travel.apply_ifTaken_false, Travel.apply_ifTaken_true, hstep]
  exact ⟨rfl, rfl, performer.position_afterNote options⟩

/-- Primitives that are sent take no time, whatever was turned before. -/
theorem sendAll_travel {performer left : Performer} (h : left.position = performer.position)
    (primitives : List Primitive) :
    (sendAll left primitives).Ends
      (fun left => left.position = (Travel.moved 0).apply performer.position)
      fun left => left.position = (Travel.moved 0).apply performer.position := by
  rw [Travel.apply_moved_zero]
  exact Ends.sendAll h h primitives

/-- A curve ends at its finish, and a refused one goes back to where it started. -/
theorem followCurve_travel (dial : Dial) (origin : Ticks) (curve : Curve) (performer : Performer) :
    (followCurve dial origin curve performer).Ends (fun left => left.position = origin)
      fun left => left.position = curve.finish := by
  induction curve generalizing performer with
  | stop position => exact rfl
  | point position value next ih =>
    have hback := Performer.move_back ({ performer with position }.setDial dial value) origin
    exact ⟨congrArg Performer.position hback, ih () _⟩

end Plan

/-- An operation that is taken, or refused, leaves the position where its travel leads. -/
theorem Operation.plan_travel (performer : Performer) (operation : Operation) :
    (operation.plan performer).Ends
      (fun left => left.position = (operation.travel performer false).apply performer.position)
      fun left => left.position = (operation.travel performer true).apply performer.position := by
  have hstays : performer.position = (Travel.moved 0).apply performer.position :=
    (Travel.apply_moved_zero _).symm
  cases operation with
  | move how ticks => exact (how.apply_travel ticks performer.position).symm
  | moveLength how length =>
    rw [travel, travel, ← performer.toInt_toTicks]
    exact (how.apply_travel _ performer.position).symm
  | note key options => exact Plan.note_travel performer key options
  | play pitch accidental options => exact Plan.note_travel performer _ options
  | send messages => exact Plan.sendAll_travel rfl _
  | loop mark => exact Plan.sendAll_travel rfl _
  | primitive primitive => exact Plan.sendAll_travel rfl _
  | turn dial how =>
    have hset : ∀ value, (Plan.turn.setTo performer dial value).Ends
        (fun left => left.position = (Travel.moved 0).apply performer.position)
        fun left => left.position = (Travel.moved 0).apply performer.position := by
      intro value
      have hturned : (performer.setDial dial value).position = performer.position := rfl
      exact Plan.sendAll_travel hturned _
    cases how with
    | set value => exact hset value
    | raise delta => exact hset _
    | lower delta => exact hset _
    | sweep course =>
      rw [travel, travel, Travel.apply_ifTaken_false, Travel.apply_ifTaken_true,
        ← course.finish_eq]
      exact Plan.followCurve_travel dial performer.position _ performer
    | wave course =>
      rw [travel, travel, Travel.apply_ifTaken_false, Travel.apply_ifTaken_true,
        ← course.finish_eq]
      exact Plan.followCurve_travel dial performer.position _ performer
  | assertPosition expected label =>
    show (Plan.assertPosition performer expected label).Ends _ _
    rw [Plan.assertPosition]
    split <;> exact hstays
  | _ => exact hstays

end MusicMacro
