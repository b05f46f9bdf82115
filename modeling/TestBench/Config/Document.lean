import TestBench.Config.Basic
import TestBench.Decode.Suite
import TestBench.Files.Lookup
import TestBench.Json.Reader
/-
  Configuration files.

  1. A configuration document may leave out any field.  It is YAML if the path says so by its
     extension, and JSON otherwise.
  2. A file is looked for in a few standard places, the first of which that is a file counts.  A tilde
     in front of a slash stands for the home directory.
-/
namespace TestBench

variable {σ : Type}

/-! ## Documents -/

def configFields (format : Format σ) : List (Field σ Config) :=
  [{ name := "parallel"
     read := fun v c => (format.word "usize" v).map fun parallel => { c with parallel } },
   { name := "details"
     read := fun v c => (format.text v).map fun details => { c with details } },
   { name := "default_timeout_secs"
     read := fun v c => (format.word "u64" v).map fun n => { c with defaultTimeoutSecs := n } },
   { name := "delay_first_retry"
     read := fun v c => (format.truth v).map fun b => { c with delayFirstRetry := b } },
   { name := "aliases"
     read := fun v c => (decodeList format format.text v).map fun aliases => { c with aliases } },
   { name := "format"
     read := fun v c => (format.text v).map fun format => { c with format } },
   { name := "log_level"
     read := fun v c => (format.text v).map fun logLevel => { c with logLevel } }]

/-- Decodes a configuration document. -/
def decodeConfig (format : Format σ) (source : σ) : Except Refusal Config :=
  decodeRecord format "AppConfig" (configFields format) Config.standard source

def Config.ofYaml (text : String) : Except Refusal Config :=
  decodeYamlText (decodeConfig Yaml.Node.format) text

def Config.ofJson (text : String) : Except Refusal Config :=
  match Json.parse? text with
  | some j => decodeConfig Json.format j
  | none => .error .unreadable

/-! ## Files -/

/-- Why there is no configuration. -/
inductive ConfigError where
  | unreadable (path : String)
  | notYaml (path : String)
  | notJson (path : String)
  | invalid (fault : ConfigFault)
  deriving Repr, DecidableEq, Inhabited

def ConfigError.message : ConfigError → String
  | unreadable path => s!"Failed to read config file: {path}"
  | notYaml path => s!"Failed to parse YAML config: {path}"
  | notJson path => s!"Failed to parse JSON config: {path}"
  | invalid fault => fault.message

def isYamlPath (path : String) : Bool :=
  Path.extension? path == some "yaml" || Path.extension? path == some "yml"

namespace Config

/-- The configuration itself, unless something is wrong with it. -/
def checked (c : Config) : Except ConfigError Config :=
  match c.fault? with
  | some fault => .error (.invalid fault)
  | none => .ok c

/-- The configuration in a file. -/
def load (files : Files) (path : String) : Except ConfigError Config := do
  match files.readText path with
  | .error _ => .error (.unreadable path)
  | .ok text =>
    let c ←
      if isYamlPath path then (Config.ofYaml text).mapError fun _ => ConfigError.notYaml path
      else (Config.ofJson text).mapError fun _ => ConfigError.notJson path
    c.checked

/-- Where a configuration file is looked for. -/
def standardPaths : List String :=
  ["./stepwise.yml", "./stepwise.yaml", "./.stepwise.yml", "~/.config/stepwise/config.yml"]

/-- The path with the home directory in the place of a tilde. -/
def expandHome (home? : Option String) (path : String) : String :=
  match path.toList, home? with
  | '~' :: '/' :: rest, some home => Path.join home (String.ofList rest)
  | _, _ => path

/-- The first standard place with a file. -/
def find? (files : Files) (home? : Option String) : Option String :=
  (standardPaths.map (expandHome home?)).find? files.isFile

/-- The configuration in the first standard place with a file, the standard one if there is none. -/
def loadStandard (files : Files) (home? : Option String) : Except ConfigError Config :=
  match find? files home? with
  | some path => load files path
  | none => .ok standard

end Config
end TestBench
