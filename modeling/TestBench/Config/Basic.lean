import TestBench.Levels
import TestBench.Run.Step
/-
  The configuration of the program.

  Levels and formats are kept as they were written.  A configuration is valid if at least one suite may
  run and every name in it is known (`Config.fault?`); where it is used all the same, an unknown name
  stands for the standard one.
-/
namespace TestBench

structure Config where
  parallel : Nat
  details : String
  defaultTimeoutSecs : Nat
  delayFirstRetry : Bool
  /-- Entries that bind names to texts. -/
  aliases : List String
  format : String
  logLevel : String
  deriving Repr, DecidableEq, Inhabited

/-- What is wrong with a configuration. -/
inductive ConfigFault where
  | noParallel
  | details (name : String)
  | format (name : String)
  | logLevel (name : String)
  deriving Repr, DecidableEq, Inhabited

def ConfigFault.message : ConfigFault → String
  | noParallel => "parallel must be at least 1"
  | details name => s!"Unknown details level '{name}'. Valid: low, medium, high"
  | format name => s!"Unknown format '{name}'. Valid: table, json, json-pretty, yaml, csv"
  | logLevel name => s!"Unknown log level '{name}'"

namespace Config

def standard : Config :=
  { parallel := 1, details := Details.standard.name, defaultTimeoutSecs := standardTimeoutSecs
    delayFirstRetry := false, aliases := [], format := "table", logLevel := "warn" }

/-- The first thing that is wrong with a configuration. -/
def fault? (c : Config) : Option ConfigFault :=
  if c.parallel = 0 then some .noParallel
  else if (Details.ofName? c.details).isNone then some (.details c.details)
  else if (ReportFormat.ofName? c.format).isNone then some (.format c.format)
  else if (LogLevel.ofName? c.logLevel).isNone then some (.logLevel c.logLevel)
  else none

def detailsLevel (c : Config) : Details := (Details.ofName? c.details).getD .standard

def reportFormat (c : Config) : ReportFormat := (ReportFormat.ofName? c.format).getD .table

def logThreshold (c : Config) : LogLevel := (LogLevel.ofName? c.logLevel).getD .warn

/-- The settings of a run. -/
def settings (c : Config) : Settings :=
  { parallel := max 1 c.parallel, details := c.detailsLevel
    defaultTimeoutSecs := c.defaultTimeoutSecs, delayFirstRetry := c.delayFirstRetry }

end Config
end TestBench
