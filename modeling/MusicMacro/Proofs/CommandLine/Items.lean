import Mathlib.Data.List.Induction
import MusicMacro.CommandLine.Run
import MusicMacro.Proofs.CommandLine.Arguments
import MusicMacro.Proofs.Json.Spelling
import MusicMacro.Proofs.Macro.Grammar

/-! Arguments as a sequence of items: commands, flags, and options with their values.  Each item
changes the options in a way of its own, so a run depends only on the commands in their order, the
last value of each option and the flags that occur, wherever the items stand.  What follows an
option that takes a value is that value, even if it spells an option. -/

namespace MusicMacro.CommandLine

/-! ### Port numbers -/

/-- Digits behind at most one plus sign, and the number of 64 bits that they write. -/
inductive WritesIndex : List Char → Nat → Prop where
  | bare {digits : List Char} {index : Nat} (h : Decimal.Digits digits index)
    (hlt : index < 2 ^ 64) : WritesIndex digits index
  | plus {digits : List Char} {index : Nat} (h : Decimal.Digits digits index)
    (hlt : index < 2 ^ 64) : WritesIndex ('+' :: digits) index

theorem readDigits_eq_ok_iff {digits : List Char} {taken index : Nat} (htaken : taken < 2 ^ 64) :
    readDigits taken digits = .ok index ↔
      (∀ c ∈ digits, c.isDigit = true) ∧ index = Nat.ofDigitChars 10 digits taken ∧
        index < 2 ^ 64 := by
  induction digits generalizing taken with
  | nil =>
    rw [readDigits, Nat.ofDigitChars_nil, Except.ok.injEq]
    constructor
    · rintro rfl
      exact ⟨List.forall_mem_nil _, rfl, htaken⟩
    · rintro ⟨-, rfl, -⟩
      rfl
  | cons c digits ih =>
    rw [readDigits, Nat.ofDigitChars_cons, Nat.mul_comm 10]
    cases hdigit : c.isDigit with
    | false => simp [hdigit]
    | true =>
      simp only [Bool.not_true, Bool.false_eq_true, if_false, List.forall_mem_cons, hdigit,
        true_and]
      split
      · rename_i hnext
        exact ih hnext
      · rename_i hnext
        -- More digits only make the number greater.
        have hgrows := Json.Number.le_ofDigitChars digits (taken * 10 + (c.toNat - '0'.toNat))
        constructor
        · intro h
          cases h
        · rintro ⟨-, rfl, hlt⟩
          exact absurd (Nat.lt_of_le_of_lt hgrows hlt) hnext

theorem readIndex_eq_ok_iff {text : List Char} {index : Nat} :
    readIndex text = .ok index ↔ WritesIndex text index := by
  have hdigits {digits : List Char} (hne : digits ≠ []) :
      readDigits 0 digits = .ok index ↔ Decimal.Digits digits index ∧ index < 2 ^ 64 := by
    rw [readDigits_eq_ok_iff (by decide)]
    exact ⟨fun ⟨hall, hvalue, hlt⟩ => ⟨⟨hne, hall, hvalue⟩, hlt⟩,
      fun ⟨⟨_, hall, hvalue⟩, hlt⟩ => ⟨hall, hvalue, hlt⟩⟩
  constructor
  · intro h
    rw [readIndex.eq_def] at h
    split at h
    · cases h
    · cases h
    · rename_i digits hplus
      have hne : digits ≠ [] := by
        rintro rfl
        exact hplus rfl
      obtain ⟨hwritten, hlt⟩ := (hdigits hne).mp h
      exact .plus hwritten hlt
    · rename_i hne _ _
      obtain ⟨hwritten, hlt⟩ := (hdigits hne).mp h
      exact .bare hwritten hlt
  · rintro (⟨hwritten, hlt⟩ | ⟨hwritten, hlt⟩)
    · rw [readIndex.eq_def]
      split
      · exact absurd rfl hwritten.ne_nil
      · exact absurd hwritten (Decimal.Digits.head_ne (by decide))
      · exact absurd hwritten (Decimal.Digits.head_ne (by decide))
      · exact (hdigits hwritten.ne_nil).mpr ⟨hwritten, hlt⟩
    · rw [readIndex]
      · exact (hdigits hwritten.ne_nil).mpr ⟨hwritten, hlt⟩
      · exact hwritten.ne_nil

/-! ### Items -/

/-- The options that an argument may spell. -/
def Spelling.names : Spelling → List String
  | .config => ["--config", "-c"]
  | .output => ["--sink", "-s"]
  | .port => ["--port", "-p"]
  | .listMacros => ["--list-macros"]
  | .listPorts => ["--list-ports"]
  | .help => ["--help", "-h"]
  | .command => []

theorem spelling_of_mem_names {spelled : Spelling} :
    ∀ name ∈ spelled.names, spelling name = spelled := by
  cases spelled <;> decide

/-- What the arguments name one after the other. -/
inductive Item where
  | command (text : String)
  | listMacros
  | listPorts
  | config (path : String)
  | output (kind : Output)
  | port (index : Nat)
  deriving DecidableEq

namespace Item

/-- The arguments that an item is written as. -/
inductive Spells : Item → List String → Prop where
  | command {text : String} (h : text ∉ optionNames) : Spells (.command text) [text]
  | listMacros : Spells .listMacros ["--list-macros"]
  | listPorts : Spells .listPorts ["--list-ports"]
  | config {name : String} (hname : name ∈ Spelling.config.names) (path : String) :
    Spells (.config path) [name, path]
  | text {name : String} (hname : name ∈ Spelling.output.names) :
    Spells (.output .text) [name, "text"]
  | live {name : String} (hname : name ∈ Spelling.output.names) :
    Spells (.output .live) [name, "live"]
  | port {name number : String} {index : Nat} (hname : name ∈ Spelling.port.names)
    (hnumber : WritesIndex number.toList index) : Spells (.port index) [name, number]

def command? : Item → Option String
  | .command text => some text
  | _ => none

def config? : Item → Option String
  | .config path => some path
  | _ => none

def output? : Item → Option Output
  | .output kind => some kind
  | _ => none

def port? : Item → Option Nat
  | .port index => some index
  | _ => none

/-- The options after an item more. -/
def set (options : Options) : Item → Options
  | .command text => { options with commands := options.commands ++ [text] }
  | .listMacros => { options with listMacros := true }
  | .listPorts => { options with listPorts := true }
  | .config path => { options with config := some path }
  | .output kind => { options with output := kind }
  | .port index => { options with port := some index }

/-- The second item says again what the first says, or says otherwise. -/
inductive Overrides : Item → Item → Prop where
  | listMacros : Overrides .listMacros .listMacros
  | listPorts : Overrides .listPorts .listPorts
  | config (before after : String) : Overrides (.config before) (.config after)
  | output (before after : Output) : Overrides (.output before) (.output after)
  | port (before after : Nat) : Overrides (.port before) (.port after)

end Item

/-- The arguments are the items, one behind the other. -/
inductive Spells : List Item → List String → Prop where
  | nil : Spells [] []
  | cons {item : Item} {items : List Item} {spelled arguments : List String}
    (h : item.Spells spelled) (hrest : Spells items arguments) :
    Spells (item :: items) (spelled ++ arguments)

theorem Spells.append {first second : List Item} {arguments rest : List String}
    (hfirst : Spells first arguments) (hsecond : Spells second rest) :
    Spells (first ++ second) (arguments ++ rest) := by
  induction hfirst with
  | nil => exact hsecond
  | cons h _ ih =>
    rw [List.append_assoc]
    exact .cons h ih

theorem Item.Spells.spells {item : Item} {spelled : List String} (h : item.Spells spelled) :
    CommandLine.Spells [item] spelled := by
  have hone := CommandLine.Spells.cons h .nil
  rwa [List.append_nil] at hone

theorem spells_commands {commands : List String}
    (h : ∀ command ∈ commands, command ∉ optionNames) :
    Spells (commands.map .command) commands := by
  induction commands with
  | nil => exact .nil
  | cons command commands ih =>
    exact .cons (.command (h command List.mem_cons_self))
      (ih fun later hmem => h later (List.mem_cons_of_mem command hmem))

/-- The last of the values that are read off items. -/
def last {α : Type} (read : Item → Option α) (items : List Item) : Option α :=
  (items.filterMap read).getLast?

theorem last_append {α : Type} (read : Item → Option α) (items more : List Item) :
    last read (items ++ more) = (last read more).or (last read items) := by
  rw [last, List.filterMap_append, List.getLast?_append, last, last]

theorem last_singleton {α : Type} (read : Item → Option α) (item : Item) :
    last read [item] = read item := by
  rw [last, List.filterMap_cons]
  cases read item <;> rfl

/-- The options that the items ask for: the commands in order, the last value of each option and
the flags that occur. -/
def asked (items : List Item) : Options where
  config := last Item.config? items
  output := (last Item.output? items).getD .text
  port := last Item.port? items
  listMacros := decide (.listMacros ∈ items)
  listPorts := decide (.listPorts ∈ items)
  commands := items.filterMap Item.command?

theorem asked_concat (items : List Item) (item : Item) :
    asked (items ++ [item]) = item.set (asked items) := by
  cases item <;>
    simp [asked, last_append, last_singleton, Item.set, Item.command?, Item.config?, Item.output?,
      Item.port?]

theorem foldl_set (items : List Item) : items.foldl Item.set {} = asked items := by
  induction items using List.reverseRecOn with
  | nil => rfl
  | append_singleton items item ih => rw [List.foldl_concat, ih, asked_concat]

/-! ### Reading items -/

theorem outputOf_eq_unknown {value : String} (htext : value ≠ "text") (hlive : value ≠ "live") :
    outputOf value = .error (.unknownOutput value) := by
  unfold outputOf
  split
  · exact absurd rfl htext
  · exact absurd rfl hlive
  · rfl

theorem portOf_eq_ok_iff {value : String} {index : Nat} :
    portOf value = .ok index ↔ WritesIndex value.toList index := by
  rw [portOf, ← readIndex_eq_ok_iff]
  cases readIndex value.toList <;> simp [Except.mapError]

theorem portOf_eq_invalid {value : String} (h : ∀ index, ¬WritesIndex value.toList index) :
    ∃ cause, portOf value = .error (.invalidPort value cause) := by
  rw [portOf]
  cases hread : readIndex value.toList with
  | error cause => exact ⟨cause, rfl⟩
  | ok index => exact absurd (readIndex_eq_ok_iff.mp hread) (h index)

section

variable {name value : String} (options : Options) (rest : List String)

theorem request_config_cons (hname : name ∈ Spelling.config.names) (value : String) :
    request options (name :: value :: rest) =
      request { options with config := some value } rest := by
  rw [request.eq_def]
  simp only [spelling_of_mem_names name hname]

theorem request_output_of_ok (hname : name ∈ Spelling.output.names) {output : Output}
    (h : outputOf value = .ok output) :
    request options (name :: value :: rest) = request { options with output } rest := by
  rw [request.eq_def]
  simp only [spelling_of_mem_names name hname, h]

theorem request_output_of_error (hname : name ∈ Spelling.output.names) {failure : Failure}
    (h : outputOf value = .error failure) :
    request options (name :: value :: rest) = .error failure := by
  rw [request.eq_def]
  simp only [spelling_of_mem_names name hname, h]

theorem request_port_of_ok (hname : name ∈ Spelling.port.names) {index : Nat}
    (h : portOf value = .ok index) :
    request options (name :: value :: rest) =
      request { options with port := some index } rest := by
  rw [request.eq_def]
  simp only [spelling_of_mem_names name hname, h]

theorem request_port_of_error (hname : name ∈ Spelling.port.names) {failure : Failure}
    (h : portOf value = .error failure) :
    request options (name :: value :: rest) = .error failure := by
  rw [request.eq_def]
  simp only [spelling_of_mem_names name hname, h]

end

theorem request_item {item : Item} {spelled : List String} (h : item.Spells spelled)
    (options : Options) (rest : List String) :
    request options (spelled ++ rest) = request (item.set options) rest := by
  cases h with
  | command h => exact request_commands (List.forall_mem_singleton.mpr h) options rest
  | listMacros => exact request.eq_def _ _
  | listPorts => exact request.eq_def _ _
  | config hname path => exact request_config_cons options rest hname path
  | text hname => exact request_output_of_ok options rest hname rfl
  | live hname => exact request_output_of_ok options rest hname rfl
  | port hname hnumber =>
    exact request_port_of_ok options rest hname (portOf_eq_ok_iff.mpr hnumber)

theorem request_items {items : List Item} {arguments : List String} (h : Spells items arguments)
    (options : Options) (rest : List String) :
    request options (arguments ++ rest) = request (items.foldl Item.set options) rest := by
  induction h generalizing options with
  | nil => rfl
  | cons hitem _ ih => rw [List.append_assoc, request_item hitem, ih, List.foldl_cons]

theorem request_spelled {items : List Item} {arguments : List String} (h : Spells items arguments)
    (rest : List String) : request {} (arguments ++ rest) = request (asked items) rest := by
  rw [request_items h, foldl_set]

/-! ### What a run depends on -/

/-- The same commands in the same order, the same last value of each option, and the same flags. -/
structure Alike (items others : List Item) : Prop where
  commands : items.filterMap Item.command? = others.filterMap Item.command?
  config : last Item.config? items = last Item.config? others
  output : last Item.output? items = last Item.output? others
  port : last Item.port? items = last Item.port? others
  listMacros : .listMacros ∈ items ↔ .listMacros ∈ others
  listPorts : .listPorts ∈ items ↔ .listPorts ∈ others

theorem Alike.asked_eq {items others : List Item} (h : Alike items others) :
    asked items = asked others := by
  simp only [asked, h.commands, h.config, h.output, h.port, h.listMacros, h.listPorts]

/-- An option may as well stand behind commands that follow it. -/
theorem alike_moved {option : Item} (h : option.command? = none) (first later : List Item)
    (commands : List String) :
    Alike (first ++ [option] ++ commands.map .command ++ later)
      (first ++ commands.map .command ++ [option] ++ later) := by
  have hlast {α : Type} {read : Item → Option α} (hread : ∀ text, read (.command text) = none) :
      last read (first ++ [option] ++ commands.map .command ++ later) =
        last read (first ++ commands.map .command ++ [option] ++ later) := by
    have hnone : last read (commands.map .command) = none := by
      rw [last, List.filterMap_eq_nil_iff.mpr (by simpa using fun text _ => hread text)]
      rfl
    simp only [last_append, hnone, Option.none_or]
  have hcommands : [option].filterMap Item.command? = [] := by
    rw [List.filterMap_cons, h, List.filterMap_nil]
  refine ⟨?_, hlast fun _ => rfl, hlast fun _ => rfl, hlast fun _ => rfl, ?_, ?_⟩
  · simp only [List.filterMap_append, hcommands, List.append_nil]
  · grind
  · grind

/-- An option that is overridden later may as well be left out. -/
theorem alike_dropped {before after : Item} (h : before.Overrides after)
    (first middle later : List Item) :
    Alike (first ++ [before] ++ middle ++ [after] ++ later)
      (first ++ middle ++ [after] ++ later) := by
  have hlast {α : Type} {read : Item → Option α}
      (hread : (read after).isSome ∨ read before = none) :
      last read (first ++ [before] ++ middle ++ [after] ++ later) =
        last read (first ++ middle ++ [after] ++ later) := by
    simp only [last_append, last_singleton]
    rcases hread with hread | hread
    · obtain ⟨value, hvalue⟩ := Option.isSome_iff_exists.mp hread
      simp only [hvalue, Option.some_or]
    · simp only [hread, Option.none_or]
  refine ⟨?_, hlast ?_, hlast ?_, hlast ?_, ?_, ?_⟩ <;> cases h
  all_goals simp [List.filterMap_cons, Item.command?, Item.config?, Item.output?, Item.port?]

section

variable (file : String → Except FileError ByteArray) {items : List Item}
  {arguments : List String} (h : Spells items arguments)
include h

theorem run_spelled : run file arguments = runOptions file (asked items) := by
  have hread := request_spelled h []
  rw [List.append_nil, request] at hread
  rw [run, hread]

theorem run_spelled_of_alike {others : List Item} {otherwise : List String}
    (hothers : Spells others otherwise) (halike : Alike items others) :
    run file arguments = run file otherwise := by
  rw [run_spelled file h, run_spelled file hothers, halike.asked_eq]

theorem run_of_request_error {rest : List String} {failure : Failure}
    (hfails : ∀ options, request options rest = .error failure) :
    run file (arguments ++ rest) = .failure failure := by
  rw [run, request_spelled h, hfails]

end

/-- Arguments that items spell, over any files.  What they are run as depends only on the commands
in order, the last value of each option, and the flags that occur, so an option may be moved past
commands, and one that is overridden may be dropped.  Behind the name of an option that takes a
value, the next argument is that value and nothing else: any text is the path of a configuration,
and one that names no output or writes no port number fails as such, whatever it spells. -/
theorem run_reads_items (file : String → Except FileError ByteArray) {items : List Item}
    {arguments : List String} (h : Spells items arguments) :
    run file arguments = runOptions file (asked items) ∧
      (∀ others otherwise, Spells others otherwise → Alike items others →
        run file arguments = run file otherwise) ∧
      (∀ (option : Item) spelled commands later rest, option.Spells spelled →
        option.command? = none → (∀ command ∈ commands, command ∉ optionNames) →
        Spells later rest →
        run file (arguments ++ spelled ++ commands ++ rest) =
          run file (arguments ++ commands ++ spelled ++ rest)) ∧
      (∀ (before after : Item) spelled middle between again later rest, before.Spells spelled →
        Spells middle between → after.Spells again → before.Overrides after →
        Spells later rest →
        run file (arguments ++ spelled ++ between ++ again ++ rest) =
          run file (arguments ++ between ++ again ++ rest)) ∧
      ∀ name value,
        (name ∈ Spelling.config.names → ∀ later rest, Spells later rest →
          run file (arguments ++ name :: value :: rest) =
            runOptions file (asked (items ++ .config value :: later))) ∧
        (name ∈ Spelling.output.names → value ≠ "text" → value ≠ "live" → ∀ rest,
          run file (arguments ++ name :: value :: rest) = .failure (.unknownOutput value)) ∧
        (name ∈ Spelling.port.names → (∀ index, ¬WritesIndex value.toList index) → ∃ cause, ∀ rest,
          run file (arguments ++ name :: value :: rest) =
            .failure (.invalidPort value cause)) := by
  refine ⟨run_spelled file h, fun _ _ => run_spelled_of_alike file h, ?_, ?_, ?_⟩
  · intro option spelled commands later rest hoption hnone hcommands hrest
    have hfront := (h.append hoption.spells).append (spells_commands hcommands)
    have hbehind := (h.append (spells_commands hcommands)).append hoption.spells
    exact run_spelled_of_alike file (hfront.append hrest) (hbehind.append hrest)
      (alike_moved hnone items later commands)
  · intro before after spelled middle between again later rest hbefore hmiddle hafter hover hrest
    have hkept := ((h.append hbefore.spells).append hmiddle).append hafter.spells
    have hdropped := (h.append hmiddle).append hafter.spells
    exact run_spelled_of_alike file (hkept.append hrest) (hdropped.append hrest)
      (alike_dropped hover items middle later)
  · intro name value
    refine ⟨fun hname later rest hrest => ?_, fun hname htext hlive rest => ?_,
      fun hname hport => ?_⟩
    · exact run_spelled file (h.append (.cons (.config hname value) hrest))
    · exact run_of_request_error file h fun options =>
        request_output_of_error options rest hname (outputOf_eq_unknown htext hlive)
    · obtain ⟨cause, hcause⟩ := portOf_eq_invalid hport
      exact ⟨cause, fun rest => run_of_request_error file h fun options =>
        request_port_of_error options rest hname hcause⟩

/-- An option as a value, options among the commands, and repeats of which the last counts. -/
theorem run_reads_items_scattered :
    let file : String → Except FileError ByteArray := fun path =>
      if path = "b.json" then .ok (JsonFormat.layOut Config.standard).toUTF8
      else .error .notFound
    let arguments := ["-c", "--sink", "n 60 48", "--port", "+007", "-s", "live", "", "--sink",
      "text", "--config", "b.json"]
    let otherwise := ["n 60 48", "-s", "text", "", "-p", "7", "-c", "b.json"]
    let items : List Item := [.config "--sink", .command "n 60 48", .port 7, .output .live,
      .command "", .output .text, .config "b.json"]
    let others : List Item := [.command "n 60 48", .output .text, .command "", .port 7,
      .config "b.json"]
    Spells items arguments ∧ Spells others otherwise ∧ Alike items others ∧
      run file arguments = run file otherwise := by
  intro file arguments otherwise items others
  have hplus : WritesIndex "+007".toList 7 := readIndex_eq_ok_iff.mp (by decide)
  have hbare : WritesIndex "7".toList 7 := readIndex_eq_ok_iff.mp (by decide)
  have hitems : Spells items arguments :=
    .cons (.config (by decide) "--sink") <| .cons (.command (by decide)) <|
      .cons (.port (by decide) hplus) <| .cons (.live (by decide)) <|
      .cons (.command (by decide)) <| .cons (.text (by decide)) <|
      .cons (.config (by decide) "b.json") .nil
  have hothers : Spells others otherwise :=
    .cons (.command (by decide)) <| .cons (.text (by decide)) <| .cons (.command (by decide)) <|
      .cons (.port (by decide) hbare) <| .cons (.config (by decide) "b.json") .nil
  have halike : Alike items others := by constructor <;> decide
  exact ⟨hitems, hothers, halike,
    (run_reads_items file hitems).2.1 others otherwise hothers halike⟩

end MusicMacro.CommandLine
