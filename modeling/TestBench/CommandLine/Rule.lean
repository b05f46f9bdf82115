/-
  What the command line may hold.

  1. Options are the same for the reader and for the help: each has a long name, perhaps a letter, a
     name for its value if it takes one, and may stand several times or once (`OptionRule`).
  2. Some options belong to every command; the others to one (`Level.options`).
-/
namespace TestBench.CommandLine

/-- What an option sets. -/
inductive OptionKey where
  | logLevel
  | config
  | alias
  | parallel
  | details
  | format
  | output
  | timeout
  | delayFirstRetry
  | help
  | version
  deriving Repr, DecidableEq, Inhabited

/-- What the text of a value has to be. -/
inductive ValueKind where
  | text
  | number
  deriving Repr, DecidableEq, Inhabited

structure OptionRule where
  key : OptionKey
  letter? : Option Char
  long : String
  /-- The kind and the name of the value, for an option that takes one. -/
  value? : Option (ValueKind × String)
  isRepeatable : Bool
  about : String
  deriving Repr, DecidableEq, Inhabited

/-- The commands, and the place in front of them. -/
inductive Level where
  | top
  | run
  | list
  | schema
  deriving Repr, DecidableEq, Inhabited

def logLevelOption : OptionRule :=
  ⟨.logLevel, none, "log-level", some (.text, "LOG_LEVEL"), false,
    "Log level (trace, debug, info, warn, error)"⟩

def configOption : OptionRule :=
  ⟨.config, some 'c', "config", some (.text, "CONFIG"), false,
    "Configuration file, instead of the standard locations"⟩

def helpOption : OptionRule := ⟨.help, some 'h', "help", none, false, "Print help"⟩

def versionOption : OptionRule := ⟨.version, some 'V', "version", none, false, "Print version"⟩

def aliasOption : OptionRule :=
  ⟨.alias, some 'a', "alias", some (.text, "NAME:VALUE"), true, "Alias as name:value, repeatable"⟩

def parallelOption : OptionRule :=
  ⟨.parallel, some 'p', "parallel", some (.number, "PARALLEL"), false, "Suites executing at once"⟩

def detailsOption : OptionRule :=
  ⟨.details, some 'd', "details", some (.text, "DETAILS"), false, "Progress detail (low, medium, high)"⟩

def formatOption : OptionRule :=
  ⟨.format, some 'f', "format", some (.text, "FORMAT"), false,
    "Report format (table, json, json-pretty, yaml, csv)"⟩

def outputOption : OptionRule :=
  ⟨.output, some 'o', "output", some (.text, "OUTPUT"), false,
    "Also write the report to this file, format taken from the extension"⟩

def timeoutOption : OptionRule :=
  ⟨.timeout, none, "timeout", some (.number, "TIMEOUT"), false,
    "Default per-attempt timeout in seconds"⟩

def delayOption : OptionRule :=
  ⟨.delayFirstRetry, none, "delay-first-retry", none, false,
    "Wait the step delay before the first retry too"⟩

namespace Level

/-- The options of a level, in the order of the help. -/
def options : Level → List OptionRule
  | top => [logLevelOption, configOption, helpOption, versionOption]
  | run =>
    [aliasOption, logLevelOption, configOption, parallelOption, detailsOption, formatOption,
      outputOption, timeoutOption, delayOption, helpOption]
  | list => [logLevelOption, configOption, helpOption]
  | schema => [logLevelOption, configOption, helpOption]

/-- Whether a level takes a path. -/
def takesPath : Level → Bool
  | run => true
  | list => true
  | _ => false

def name : Level → String
  | top => "stepwise"
  | run => "run"
  | list => "list"
  | schema => "schema"

def about : Level → String
  | top => "Run YAML test suites made of executor steps and assertions"
  | run => "Run the suites found at a path"
  | list => "List discovered suites with their case and step counts"
  | schema => "Print the JSON schema of the suite file format"

def commands : List Level := [run, list, schema]

/-- The command of a name. -/
def ofName? (name : String) : Option Level := commands.find? (·.name == name)

end Level

/-- The command that explains commands. -/
def helpCommand : String := "help"

/-- The path that is taken if none is given. -/
def standardPath : String := "."

def versionText : String := "stepwise 0.1.0"

end TestBench.CommandLine
