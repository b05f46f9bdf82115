import TestBench.Config.Basic
import TestBench.Text.Blank
import TestBench.Text.Whole
/-
  Environment variables that override a configuration.

  A variable that is not set, or whose number cannot be read, changes nothing.  Aliases are added
  behind those of the configuration; everything else replaces what is there.
-/
namespace TestBench

open TestBench.Text

/-- The values of environment variables by name. -/
abbrev Variables := List (String × String)

/-- The home directory: the one that a variable names, or else that of the account. -/
def Variables.home? (environment : Variables) (account? : Option String) : Option String :=
  match Json.lookup "HOME" environment with
  | some home => if home.isEmpty then account? else some home
  | none => account?

/-- What the environment overrides. -/
structure Overrides where
  parallel : Option Nat
  details : Option String
  defaultTimeoutSecs : Option Nat
  delayFirstRetry : Option Bool
  aliases : Option (List String)
  format : Option String
  logLevel : Option String
  /-- The path of the configuration file. -/
  configFile : Option String
  deriving Repr, DecidableEq, Inhabited

namespace Overrides

/-- What the names of all variables begin with. -/
def variablePrefix : String := "STEPWISE"

/-- The name of a variable, from what it overrides. -/
def variableName (name : String) : String := s!"{variablePrefix}_{name}"

/-- The names of all variables. -/
def variableNames : List String :=
  ["PARALLEL", "DETAILS", "TIMEOUT", "DELAY_FIRST_RETRY", "ALIASES", "FORMAT", "LOG_LEVEL",
    "CONFIG"].map variableName

def value? (environment : Variables) (name : String) : Option String :=
  Json.lookup (variableName name) environment

/-- Whether a text says yes. -/
def affirms (text : String) : Bool :=
  ["1", "true", "yes", "on", "enabled"].contains (lowercase text)

/-- The entries between commas, without blanks around them; empty ones do not count. -/
def entriesIn (text : String) : List String :=
  (((splitChar ',' text.toList).map trim).filter (!·.isEmpty)).map String.ofList

/-- What the variables override. -/
def ofVariables (environment : Variables) : Overrides :=
  let get := value? environment
  { parallel := (get "PARALLEL").bind (word64 ·.toList)
    details := get "DETAILS"
    defaultTimeoutSecs := (get "TIMEOUT").bind (word64 ·.toList)
    delayFirstRetry := (get "DELAY_FIRST_RETRY").map affirms
    aliases := (get "ALIASES").map entriesIn
    format := get "FORMAT"
    logLevel := get "LOG_LEVEL"
    configFile := get "CONFIG" }

/-- Whether anything is overridden. -/
def hasAny (o : Overrides) : Bool :=
  o.parallel.isSome || o.details.isSome || o.defaultTimeoutSecs.isSome || o.delayFirstRetry.isSome
    || o.aliases.isSome || o.format.isSome || o.logLevel.isSome || o.configFile.isSome

/-- The configuration with what is overridden. -/
def apply (o : Overrides) (c : Config) : Config :=
  { parallel := o.parallel.getD c.parallel
    details := o.details.getD c.details
    defaultTimeoutSecs := o.defaultTimeoutSecs.getD c.defaultTimeoutSecs
    delayFirstRetry := o.delayFirstRetry.getD c.delayFirstRetry
    aliases := c.aliases ++ o.aliases.getD []
    format := o.format.getD c.format
    logLevel := o.logLevel.getD c.logLevel }

end Overrides
end TestBench
