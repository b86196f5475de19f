import Mathlib.Data.List.Forall2
import MusicMacro.Proofs.Macro.Validation

/-! The arguments of a macro and the values that its operation works with.  Each parameter makes a
value of the argument in its place, parameters that may be left out have a standard value, and the
operation of a macro is told by the values alone. -/

namespace MusicMacro

/-! ### Values of parameters -/

/-- What a parameter makes of an argument. -/
inductive Value where
  | byte (value : UInt8)
  | number (value : Int32)
  | length (value : Length)
  | text (value : String)
  deriving DecidableEq, Repr

namespace Parameter

/-- The value that a parameter makes of an argument.  A byte is a number modulo 256, a length is
given by its denominator, and a parameter that takes anything takes it as it is displayed. -/
inductive Gives : Parameter → Arg → Value → Prop
  | byte {number : Int32} {byte : UInt8} (h : (byte.toNat : Int) = number.toInt % 256) :
    Gives .byte (.number number) (.byte byte)
  | int (number : Int32) : Gives .int (.number number) (.number number)
  | length (denominator : Int32) : Gives .length (.number denominator) (.length ⟨denominator⟩)
  | text (text : String) : Gives .text (.text text) (.text text)
  | any (arg : Arg) : Gives .any arg (.text arg.display)
  | variadic (number : Int32) : Gives .variadic (.number number) (.number number)

/-- Parameters with their arguments and values, one by one.  The first ones are required; the others
have standard values, which count where the arguments end.  A variadic parameter stands alone and
takes all arguments. -/
inductive Filled : List Parameter → Nat → List Value → List Arg → List Value → Prop
  | nil : Filled [] 0 [] [] []
  | given {kind : Parameter} {params : List Parameter} {required : Nat} {standards : List Value}
    {arg : Arg} {args : List Arg} {value : Value} {values : List Value}
    (hgives : kind.Gives arg value) (h : Filled params required standards args values) :
    Filled (kind :: params) (required + 1) standards (arg :: args) (value :: values)
  | chosen {kind : Parameter} {params : List Parameter} {standard : Value} {standards : List Value}
    {arg : Arg} {args : List Arg} {value : Value} {values : List Value}
    (hgives : kind.Gives arg value) (h : Filled params 0 standards args values) :
    Filled (kind :: params) 0 (standard :: standards) (arg :: args) (value :: values)
  | leftOut {kind : Parameter} {params : List Parameter} {standard : Value}
    {standards values : List Value} (h : Filled params 0 standards [] values) :
    Filled (kind :: params) 0 (standard :: standards) [] (standard :: values)
  | rest {args : List Arg} {values : List Value} (h : List.Forall₂ (Gives .variadic) args values) :
    Filled [.variadic] 0 [] args values

theorem gives_byte_iff {arg : Arg} {value : Value} :
    Gives .byte arg value ↔ ∃ number, arg = .number number ∧ value = .byte (lowByte number) := by
  constructor
  · rintro ⟨h⟩
    rename_i number byte
    have hbyte : byte = lowByte number := by
      apply UInt8.toNat_inj.mp
      have hlow := toNat_lowByte number
      omega
    exact ⟨number, rfl, congrArg Value.byte hbyte⟩
  · rintro ⟨number, rfl, rfl⟩
    exact .byte (toNat_lowByte number)

theorem filled_nil_iff {args : List Arg} {values : List Value} :
    Filled [] 0 [] args values ↔ args = [] ∧ values = [] := by
  constructor
  · rintro ⟨⟩
    exact ⟨rfl, rfl⟩
  · rintro ⟨rfl, rfl⟩
    exact .nil

theorem filled_given_iff {kind : Parameter} {params : List Parameter} {required : Nat}
    {standards : List Value} {args : List Arg} {values : List Value} :
    Filled (kind :: params) (required + 1) standards args values ↔
      ∃ arg rest value more, args = arg :: rest ∧ values = value :: more ∧ kind.Gives arg value ∧
        Filled params required standards rest more := by
  constructor
  · intro h
    cases h with
    | given hgives h => exact ⟨_, _, _, _, rfl, rfl, hgives, h⟩
  · rintro ⟨arg, rest, value, more, rfl, rfl, hgives, h⟩
    exact .given hgives h

theorem Fits.exists_gives {kind : Parameter} {arg : Arg} (h : kind.Fits arg) :
    ∃ value, kind.Gives arg value := by
  cases h with
  | any arg => exact ⟨_, .any arg⟩
  | text text => exact ⟨_, .text text⟩
  | number hkind number =>
    cases kind with
    | byte => exact ⟨_, gives_byte_iff.mpr ⟨number, rfl, rfl⟩⟩
    | int => exact ⟨_, .int number⟩
    | length => exact ⟨_, .length number⟩
    | text => exact absurd rfl hkind
    | any => exact ⟨_, .any _⟩
    | variadic => exact ⟨_, .variadic number⟩

theorem Gives.unique {kind : Parameter} {arg : Arg} {value other : Value}
    (h : kind.Gives arg value) (hother : kind.Gives arg other) : value = other := by
  cases h with
  | byte h =>
    obtain ⟨_, heq, rfl⟩ := gives_byte_iff.mp hother
    obtain ⟨_, heq', hvalue⟩ := gives_byte_iff.mp (.byte h)
    cases heq
    cases heq'
    exact hvalue
  | int | length | text | any | variadic =>
    cases hother
    rfl

theorem Filled.unique {params : List Parameter} {required : Nat} {standards : List Value}
    {args : List Arg} {values others : List Value}
    (h : Filled params required standards args values)
    (hothers : Filled params required standards args others) : others = values := by
  induction h generalizing others with
  | nil => exact (filled_nil_iff.mp hothers).2
  | given hgives _ ih =>
    cases hothers with
    | given hgives' h' => rw [hgives'.unique hgives, ih h']
  | chosen hgives _ ih =>
    cases hothers with
    | chosen hgives' h' => rw [hgives'.unique hgives, ih h']
  | leftOut _ ih =>
    cases hothers with
    | leftOut h' => rw [ih h']
  | rest h =>
    cases hothers with
    | rest h' => exact List.right_unique_forall₂' (fun _ _ _ h h' => h.unique h') h' h

/-- Arguments that fit fill the parameters, if there are enough of them and not too many. -/
theorem exists_filled {params : List Parameter} {required : Nat} {standards : List Value}
    {args : List Arg} (hlength : params.length = required + standards.length)
    (hmin : required ≤ args.length) (hmax : args.length ≤ params.length)
    (hfits : ∀ (place : Nat) (kind : Parameter) (arg : Arg), params[place]? = some kind →
      args[place]? = some arg → kind.Fits arg) :
    ∃ values, Filled params required standards args values := by
  induction params generalizing required standards args with
  | nil =>
    obtain rfl : required = 0 := by simp at hlength; omega
    obtain rfl : standards = [] := by simpa using hlength.symm
    obtain rfl : args = [] := by simpa using hmax
    exact ⟨[], .nil⟩
  | cons kind params ih =>
    cases args with
    | nil =>
      obtain rfl : required = 0 := by simpa using hmin
      cases standards with
      | nil => simp at hlength
      | cons standard standards =>
        have hmore : ∃ values, Filled params 0 standards [] values :=
          ih (by simpa using hlength) (Nat.le_refl 0) (Nat.zero_le _) (by simp)
        obtain ⟨values, h⟩ := hmore
        exact ⟨_, .leftOut h⟩
    | cons arg args =>
      obtain ⟨value, hgives⟩ := (hfits 0 kind arg rfl rfl).exists_gives
      have hlater : ∀ (place : Nat) (kind : Parameter) (arg : Arg), params[place]? = some kind →
          args[place]? = some arg → kind.Fits arg :=
        fun place kind arg hkind harg => hfits (place + 1) kind arg hkind harg
      cases required with
      | zero =>
        cases standards with
        | nil => simp at hlength
        | cons standard standards =>
          have hmore : ∃ values, Filled params 0 standards args values :=
            ih (by simpa using hlength) (Nat.zero_le _) (by simpa using hmax) hlater
          obtain ⟨values, h⟩ := hmore
          exact ⟨_, .chosen hgives h⟩
      | succ required =>
        have hmore : ∃ values, Filled params required standards args values :=
          ih (by simp at hlength; omega) (by simpa using hmin) (by simpa using hmax) hlater
        obtain ⟨values, h⟩ := hmore
        exact ⟨_, .given hgives h⟩

theorem exists_filled_rest {args : List Arg}
    (hfits : ∀ (place : Nat) (arg : Arg), args[place]? = some arg → Parameter.variadic.Fits arg) :
    ∃ values, Filled [.variadic] 0 [] args values := by
  have hgives : ∃ values, List.Forall₂ (Gives .variadic) args values := by
    induction args with
    | nil => exact ⟨[], .nil⟩
    | cons arg args ih =>
      obtain ⟨value, hvalue⟩ := (hfits 0 arg rfl).exists_gives
      obtain ⟨values, hvalues⟩ := ih fun place arg harg => hfits (place + 1) arg harg
      exact ⟨value :: values, .cons hvalue hvalues⟩
  obtain ⟨values, hvalues⟩ := hgives
  exact ⟨values, .rest hvalues⟩

end Parameter

/-! ### Operations by values -/

namespace Action

/-- The values that the last parameters of an action have if they are left out. -/
def standards : Action → List Value
  | .dial .sweep _ => [.number 4]
  | .note | .play .. => [.number (-1), .number (-1), .number (-1), .number (-1), .byte 0]
  | _ => []

/-- The operation that an action asks for, told by the values of its parameters.  Only the macro of
the default length keeps a length as a denominator; all others turn lengths into ticks. -/
inductive Asks (resolution : Resolution) : Action → List Value → Operation → Prop
  | channel (number : UInt8) : Asks resolution .channel [.byte number] (.selectChannel number)
  | debug (text : String) : Asks resolution .debug [.text text] (.debug text)
  | assertPosition (length : Length) (label : String) :
    Asks resolution .assertPosition [.length length, .text label]
      (.assertPosition (resolution.toTicks length) label)
  | bankProgram (program msb lsb : UInt8) :
    Asks resolution .bankProgram [.byte program, .byte msb, .byte lsb]
      (.send (Message.bankProgram program msb lsb))
  | bendSensitivity (semitones : UInt8) :
    Asks resolution .bendSensitivity [.byte semitones] (.send (Message.bendSensitivity semitones))
  | tempo (value : Int32) : Asks resolution .tempo [.number value] (.turn .tempo (.set value))
  | bend (value : Int32) : Asks resolution .bend [.number value] (.turn .pitchBend (.set value))
  | set (dial : Dial) (value : Int32) :
    Asks resolution (.dial .set dial) [.number value] (.turn dial (.set value))
  | raise (dial : Dial) (delta : Int32) :
    Asks resolution (.dial .raise dial) [.number delta] (.turn dial (.raise delta))
  | lower (dial : Dial) (delta : Int32) :
    Asks resolution (.dial .lower dial) [.number delta] (.turn dial (.lower delta))
  | sweep (dial : Dial) (start finish : Int32) (delay span : Length) (step : Int32) :
    Asks resolution (.dial .sweep dial)
      [.number start, .number finish, .length delay, .length span, .number step]
      (.turn dial (.sweep
        { start, finish, startDelay := resolution.toTicks delay,
          length := resolution.toTicks span, step }))
  | wave (dial : Dial) (start finish : Int32) (delay duration : Length)
    (period step delta repeats : Int32) :
    Asks resolution (.dial .wave dial)
      [.number start, .number finish, .length delay, .length duration, .number period,
        .number step, .number delta, .number repeats]
      (.turn dial (.wave
        { start, finish, startDelay := resolution.toTicks delay,
          endDuration := resolution.toTicks duration, period, step, delta, repeats }))
  | control (controller : Controller) (value : UInt8) :
    Asks resolution (.control controller) [.byte value] (.send [controller.message value])
  | wideControl (controller : WideController) (msb lsb : UInt8) :
    Asks resolution (.wideControl controller) [.byte msb, .byte lsb]
      (.send (controller.messages msb lsb))
  | metaText (type : UInt8) (text : String) :
    Asks resolution (.metaText type) [.text text] (.primitive (.metaText type text))
  | beat (numerator denominator : UInt8) :
    Asks resolution .beat [.byte numerator, .byte denominator]
      (.primitive (.timeSignature numerator denominator))
  | assign (setting : Setting) (value : Int32) :
    Asks resolution (.assign setting) [.number value] (.assign setting value)
  | defaultLength (length : Length) :
    Asks resolution (.assign .defaultLength) [.length length]
      (.assign .defaultLength length.denominator)
  | shift (change : Shift) : Asks resolution (.shift change) [] (.shift change)
  | sign (pitch : PitchClass) (accidental : Accidental) :
    Asks resolution (.sign pitch accidental) [] (.setSign pitch accidental)
  | note (key : UInt8) (step gate velocity delay : Int32) (offVelocity : UInt8) :
    Asks resolution .note
      [.byte key, .number step, .number gate, .number velocity, .number delay, .byte offVelocity]
      (.note key (.ofNumbers step gate velocity delay offVelocity))
  | play (pitch : PitchClass) (accidental : Accidental) (step gate velocity delay : Int32)
    (offVelocity : UInt8) :
    Asks resolution (.play pitch accidental)
      [.number step, .number gate, .number velocity, .number delay, .byte offVelocity]
      (.play pitch accidental (.ofNumbers step gate velocity delay offVelocity))
  | rest (ticks : Ticks) : Asks resolution .rest [.number ticks] (.move .advance ticks)
  | loopOpening : Asks resolution .loopOpening [] (.loop .opening)
  | loopLeaving {values : List Value} (targets : List Int32) (h : values = targets.map .number) :
    Asks resolution .loopLeaving values (.loop (.leaving targets))
  | loopClosing (repeats : Int32) :
    Asks resolution .loopClosing [.number repeats] (.loop (.closing repeats))
  | gmSystemOn : Asks resolution .gmSystemOn [] (.primitive .gmSystemOn)
  | xgReset : Asks resolution .xgReset [] (.primitive .xgReset)

theorem Asks.unique {resolution : Resolution} {action : Action} {values : List Value}
    {operation other : Operation} (h : action.Asks resolution values operation)
    (hother : action.Asks resolution values other) : other = operation := by
  cases h with
  | loopLeaving targets h =>
    cases hother with
    | loopLeaving targets' h' =>
      have htargets : targets'.map Value.number = targets.map Value.number := h'.symm.trans h
      rw [List.map_injective_iff.mpr (fun _ _ => Value.number.inj) htargets]
  | _ =>
    cases hother
    rfl

/-- The parameters of an action. -/
def params : Action → List Parameter
  | .channel | .bendSensitivity | .control _ => [.byte]
  | .debug => [.any]
  | .assertPosition => [.length, .text]
  | .bankProgram => [.byte, .byte, .byte]
  | .dial .sweep _ => [.int, .int, .length, .length, .int]
  | .dial .wave _ => [.int, .int, .length, .length, .int, .int, .int, .int]
  | .wideControl _ | .beat => [.byte, .byte]
  | .metaText _ => [.text]
  | .assign .defaultLength => [.length]
  | .tempo | .bend | .dial .. | .assign _ | .rest | .loopClosing => [.int]
  | .shift _ | .sign .. | .loopOpening | .gmSystemOn | .xgReset => []
  | .note => [.byte, .int, .int, .int, .int, .byte]
  | .play .. => [.int, .int, .int, .int, .byte]
  | .loopLeaving => [.variadic]

/-- The number of the parameters that must be given: all that have no standard value.  A variadic
parameter may have no argument. -/
def required : Action → Nat
  | .loopLeaving => 0
  | action => action.params.length - action.standards.length

end Action

theorem Macro.table_params : ∀ entry ∈ table,
    entry.params = entry.action.params ∧ entry.required = entry.action.required := by
  decide +kernel

end MusicMacro
