import MusicMacro.CommandLine.Options

/-! Arguments that ask for commands.  The options that name a configuration and an output may stand
anywhere among the commands, and the request is the same. -/

namespace MusicMacro.CommandLine

def optionNames : List String :=
  ["--config", "-c", "--sink", "-s", "--port", "-p", "--list-macros", "--list-ports", "--help",
    "-h"]

theorem spelling_of_notMem {argument : String} (h : argument ∉ optionNames) :
    spelling argument = .command := by
  unfold spelling
  split
  case h_11 => rfl
  all_goals exact absurd h (by decide)

/-- The ways to name a configuration. -/
def configOptions (path : String) : List (List String) := [["--config", path], ["-c", path]]

/-- The ways to choose an output.  Written music needs no option. -/
def outputOptions : Output → List (List String)
  | .text => [[], ["--sink", "text"], ["-s", "text"]]
  | .live => [["--sink", "live"], ["-s", "live"]]

/-- The arguments ask for the commands, with the configuration that a path leads to and the given
output. -/
inductive Asks (path : String) (output : Output) : List String → List String → Prop where
  | configFirst {config sink : List String} (first second third : List String) :
      config ∈ configOptions path → sink ∈ outputOptions output →
      Asks path output (first ++ second ++ third) (first ++ config ++ second ++ sink ++ third)
  | outputFirst {config sink : List String} (first second third : List String) :
      config ∈ configOptions path → sink ∈ outputOptions output →
      Asks path output (first ++ second ++ third) (first ++ sink ++ second ++ config ++ third)

theorem Asks.append {path : String} {output : Output} {commands arguments : List String}
    (h : Asks path output commands arguments) (more : List String) :
    Asks path output (commands ++ more) (arguments ++ more) := by
  cases h with
  | configFirst first second third hconfig hsink =>
    have happend := Asks.configFirst first second (third ++ more) hconfig hsink
    rwa [← List.append_assoc, ← List.append_assoc] at happend
  | outputFirst first second third hconfig hsink =>
    have happend := Asks.outputFirst first second (third ++ more) hconfig hsink
    rwa [← List.append_assoc, ← List.append_assoc] at happend

theorem request_commands {commands : List String} (h : ∀ command ∈ commands, command ∉ optionNames)
    (options : Options) (rest : List String) :
    request options (commands ++ rest) =
      request { options with commands := options.commands ++ commands } rest := by
  induction commands generalizing options with
  | nil => rw [List.nil_append, List.append_nil]
  | cons command commands ih =>
    have hspelling := spelling_of_notMem (h command List.mem_cons_self)
    have hlater : ∀ later ∈ commands, later ∉ optionNames := fun later hmem =>
      h later (List.mem_cons_of_mem command hmem)
    rw [List.cons_append, request, ih hlater, List.append_assoc, List.singleton_append]
    exact hspelling

theorem request_config {path : String} {config : List String} (h : config ∈ configOptions path)
    (options : Options) (rest : List String) :
    request options (config ++ rest) = request { options with config := some path } rest := by
  simp only [configOptions, List.mem_cons, List.not_mem_nil, or_false] at h
  rcases h with rfl | rfl <;> rfl

theorem request_output {output : Output} {sink : List String} (h : sink ∈ outputOptions output)
    (options : Options) (hstart : options.output = .text) (rest : List String) :
    request options (sink ++ rest) = request { options with output } rest := by
  cases output <;> simp only [outputOptions, List.mem_cons, List.not_mem_nil, or_false] at h
  · rcases h with rfl | rfl | rfl
    · rw [← hstart, List.nil_append]
    · rfl
    · rfl
  · rcases h with rfl | rfl <;> rfl

/-- Wherever the options stand, the request is for the commands in order. -/
theorem request_of_asks {path : String} {output : Output} {commands arguments : List String}
    (hcommands : ∀ command ∈ commands, command ∉ optionNames)
    (h : Asks path output commands arguments) :
    request {} arguments = .ok (.run { config := some path, output, commands }) := by
  cases h with
  | configFirst first second third hconfig hsink =>
    simp only [List.forall_mem_append] at hcommands
    obtain ⟨⟨hfirst, hsecond⟩, hthird⟩ := hcommands
    rw [← List.append_nil third]
    simp only [List.append_assoc]
    rw [request_commands hfirst, request_config hconfig, request_commands hsecond,
      request_output hsink _ rfl, request_commands hthird]
    simp [request]
  | outputFirst first second third hconfig hsink =>
    simp only [List.forall_mem_append] at hcommands
    obtain ⟨⟨hfirst, hsecond⟩, hthird⟩ := hcommands
    rw [← List.append_nil third]
    simp only [List.append_assoc]
    rw [request_commands hfirst, request_output hsink _ rfl, request_commands hsecond,
      request_config hconfig, request_commands hthird]
    simp [request]

end MusicMacro.CommandLine
