import TestBench.CommandLine.Rule
import TestBench.Text.Column
/-
  The help, made from the rules.

  It says what the command is for and how it is called; commands, arguments and options follow, each
  in a column of its own.
-/
namespace TestBench.CommandLine

/-- An option as it is written. -/
def OptionRule.signature (o : OptionRule) : String :=
  let letter := match o.letter? with
    | some c => s!"-{c}, "
    | none => "    "
  let value := match o.value? with
    | some (_, name) => s!" <{name}>"
    | none => ""
  s!"{letter}--{o.long}{value}"

/-- Lines of two columns. -/
def columns (rows : List (String × String)) : List String :=
  let width := (rows.map (·.1.length)).foldl max 0
  rows.map fun (first, second) => s!"  {Text.padRight width first}  {second}"

namespace Level

def usage : Level → String
  | top => "Usage: stepwise [OPTIONS] <COMMAND>"
  | level => s!"Usage: stepwise {level.name} [OPTIONS]" ++ if level.takesPath then " [PATH]" else ""

def commandRows : List (String × String) :=
  commands.map (fun c => (c.name, c.about))
    ++ [(helpCommand, "Print this message or the help of the given subcommand(s)")]

/-- The help of a level. -/
def help (level : Level) : String :=
  let commandPart := if level = top then ["", "Commands:"] ++ columns commandRows else []
  let pathPart :=
    if level.takesPath then
      ["", "Arguments:",
        s!"  [PATH]  Suite directory, file or glob pattern [default: {standardPath}]"]
    else []
  let optionPart := ["", "Options:"] ++ columns (level.options.map fun o => (o.signature, o.about))
  String.intercalate "\n" ([level.about, "", level.usage] ++ commandPart ++ pathPart ++ optionPart)

end Level

/-- The help of the command that explains commands. -/
def helpOfHelp : String :=
  String.intercalate "\n"
    ["Print this message or the help of the given subcommand(s)", "",
      "Usage: stepwise help [COMMAND]...", "", "Arguments:",
      "  [COMMAND]...  Print help for the subcommand(s)"]

end TestBench.CommandLine
