import Mathlib
import TestBench.Proofs.ConfigLayers
import TestBench.Proofs.Reporting
/-
  Which configuration a run starts with.

  1. The program looks at three configurations before it runs anything: that of the file alone, that of
     the file under the variables and the log level, and that of all layers (`configuration_eq_ok_iff`,
     `runConfiguration_eq_ok_iff`).  Each has to be valid, even where a stronger layer would mend it.
  2. If one is not, nothing is run and nothing is printed (`perform_of_no_configuration`).
  3. If all are, the run has the settings of the last one (`RunsWith`): it lets in at least one suite,
     and no unknown name is left that a standard one would have to stand for.
-/
namespace TestBench

open TestBench.CommandLine TestBench.Text

/-! ## The start of a run -/

/-- The configuration that a run has, if it starts. -/
def CommandLine.Arguments.runConfiguration (a : Arguments) (r : RunArguments) (m : Machine) :
    Except ConfigError Config := do
  (r.apply (← a.configuration m)).checked

/-- A run with a configuration: its settings are those of the configuration as they stand there, and
    no name in it is replaced by a standard one. -/
structure RunsWith (c : Config) (r : RunArguments) (startedAt : Timestamp) (m : Machine) (exit : Exit) :
    Prop where
  parallel : 1 ≤ c.settings.parallel
  settings : c.settings = ⟨c.parallel, c.detailsLevel, c.defaultTimeoutSecs, c.delayFirstRetry⟩
  details : Details.ofName? c.details = some c.detailsLevel
  format : ReportFormat.ofName? c.format = some c.reportFormat
  logLevel : LogLevel.ofName? c.logLevel = some c.logThreshold
  /-- Executors are told the aliases of the configuration. -/
  aliases : ∀ s, Task.CallsWith (Aliases.ofEntries c.aliases) (c.context.task s)
  undiscovered : ∀ path cause, runAll c.context m.files r.path ⟨m, 0⟩
    = .error (.discovery path cause) → exit = .failed m "" (RunError.discovery path cause).message
  printed : ∀ all report, runAll c.context m.files r.path ⟨m, 0⟩ = .ok all →
    (all.run startedAt).report c.reportFormat c.detailsLevel true = .ok report →
      exit.output = statusLines c.detailsLevel all.finished ++ report ++ "\n"

section Start

variable {a : Arguments} {r : RunArguments} {m : Machine} {c : Config}

/-- A run has a configuration iff it is valid before its arguments and with them. -/
theorem runConfiguration_eq_ok_iff : a.runConfiguration r m = .ok c
    ↔ ∃ c₀, a.configuration m = .ok c₀ ∧ (r.apply c₀).Valid ∧ c = r.apply c₀ := by
  rw [Arguments.runConfiguration]
  cases a.configuration m with
  | error e => exact iff_of_false (fun h => nomatch h) fun ⟨_, h, _⟩ => nomatch h
  | ok c₀ =>
    show (r.apply c₀).checked = .ok c ↔ _
    simp only [Except.ok.injEq, exists_eq_left', Config.checked_eq_ok_iff]

/-- The configuration before the arguments of a run, from the place that is used. -/
theorem configuration_eq_ok_iff {place : Option String}
    (used : FileUsed a.config (Overrides.ofVariables m.environment).configFile m place) :
    a.configuration m = .ok c ↔ ∃ file, FileLayer m place file ∧ (Config.ofLayers [file]).Valid
      ∧ (Config.ofLayers [.ofLogLevel a.logLevel, .ofVariables m.environment, file]).Valid
      ∧ c = Config.ofLayers [.ofLogLevel a.logLevel, .ofVariables m.environment, file] := by
  have merged (file : Overrides) :
      { (Overrides.ofVariables m.environment).apply (Config.ofLayers [file]) with
          logLevel := a.logLevel.getD
            ((Overrides.ofVariables m.environment).apply (Config.ofLayers [file])).logLevel }
        = Config.ofLayers [.ofLogLevel a.logLevel, .ofVariables m.environment, file] := by
    rw [Config.apply_ofLayers, Config.withLogLevel_ofLayers]
  have hconfiguration : a.configuration m
      = Config.loadFrom (a.config <|> (Overrides.ofVariables m.environment).configFile) m >>= fun c₀ =>
          { (Overrides.ofVariables m.environment).apply c₀ with
            logLevel := a.logLevel.getD
              ((Overrides.ofVariables m.environment).apply c₀).logLevel }.checked := by
    rw [Arguments.configuration]
    cases a.config <|> (Overrides.ofVariables m.environment).configFile <;> rfl
  -- the file is checked when it is loaded, and then once more with what lies over it
  rw [hconfiguration]
  constructor
  · intro h
    obtain ⟨c₀, hload, hchecked⟩ := ok_of_bind_ok h
    obtain ⟨file, layer, hfile, rfl⟩ := (loaded_iff_layer used).1 hload
    rw [merged] at hchecked
    obtain ⟨valid, rfl⟩ := Config.checked_eq_ok_iff.1 hchecked
    exact ⟨file, layer, hfile, valid, rfl⟩
  · rintro ⟨file, layer, hfile, valid, rfl⟩
    rw [(loaded_iff_layer used).2 ⟨file, layer, hfile, rfl⟩]
    show Config.checked _ = _
    rw [merged]
    exact Config.checked_eq_ok_iff.2 ⟨valid, rfl⟩

/-- A run that has no configuration does not start. -/
theorem perform_of_no_configuration (run : a.command = .run r) {e : ConfigError}
    (h : a.runConfiguration r m = .error e) (startedAt : Timestamp) :
    perform a startedAt m = .failed m "" e.message := by
  rw [Arguments.runConfiguration] at h
  rw [perform]
  -- either the configuration is refused before the command is looked at, or by it
  cases hc : a.configuration m with
  | error e' =>
    rw [hc] at h
    injection h with h
    rw [← h]
  | ok c₀ =>
    rw [hc] at h
    have h : (r.apply c₀).checked = .error e := h
    simp only [run, runCommand, h]

/-- A run that has a configuration is carried out with it. -/
theorem perform_of_configuration (run : a.command = .run r) (h : a.runConfiguration r m = .ok c)
    (startedAt : Timestamp) : c.Valid ∧ ∃ c₀, (r.apply c₀).checked = .ok c
      ∧ perform a startedAt m = runCommand r c₀ startedAt m := by
  obtain ⟨c₀, hc₀, valid, rfl⟩ := runConfiguration_eq_ok_iff.1 h
  refine ⟨valid, c₀, Config.checked_eq_ok_iff.2 ⟨valid, rfl⟩, ?_⟩
  simp only [perform, hc₀, run]

/-- A run with a configuration runs with exactly its settings. -/
theorem runsWith_of_configuration (run : a.command = .run r)
    (h : a.runConfiguration r m = .ok c) (startedAt : Timestamp) :
    RunsWith c r startedAt m (perform a startedAt m) := by
  obtain ⟨valid, c₀, checked, hperform⟩ := perform_of_configuration run h startedAt
  obtain ⟨hparallel, ⟨details, hdetails⟩, ⟨format, hformat⟩, ⟨level, hlevel⟩⟩ := valid
  -- names that are valid are read, so no standard value takes their place
  have hmax : max 1 c.parallel = c.parallel := Nat.max_eq_right hparallel
  refine ⟨Nat.le_max_left _ _, ?_, ?_, ?_, ?_, fun s => callsWith_suite c.context s, ?_, ?_⟩
  · rw [Config.settings, hmax]
  · rw [Config.detailsLevel, hdetails]
    rfl
  · rw [Config.reportFormat, hformat]
    rfl
  · rw [Config.logThreshold, hlevel]
    rfl
  · intro path cause undiscovered
    rw [Config.context] at undiscovered
    rw [hperform, runCommand, checked]
    simp only [undiscovered]
  · intro all report ran printed
    rw [hperform]
    exact (runCommand_printed checked ran printed).1

end Start

/-- **A run starts with the merged configuration.**  The file that is used is decided, and so is what it
    and the variables say.  A run has a configuration iff three ones are valid: that of the file alone,
    that of the file under the variables and the log level, and that of all layers; and then it has the
    last of them.  Of each alias the strongest layer decides.  A run without a configuration does not
    start; one with a configuration has its settings. -/
theorem configuration_layered (logLevel? config? : Option String) (r : RunArguments)
    (startedAt : Timestamp) (m : Machine) :
    let a : Arguments := ⟨logLevel?, config?, .run r⟩
    let ofVariables := Overrides.ofVariables m.environment
    let ofArguments := Overrides.ofArguments logLevel? r
    ofVariables.SetBy m.environment
      ∧ (∃! place, FileUsed config? ofVariables.configFile m place)
      ∧ (∀ place, FileUsed config? ofVariables.configFile m place →
        ∀ c, a.runConfiguration r m = .ok c ↔ ∃ file, FileLayer m place file
          ∧ (Config.ofLayers [file]).Valid
          ∧ (Config.ofLayers [.ofLogLevel logLevel?, ofVariables, file]).Valid
          ∧ (Config.ofLayers [ofArguments, ofVariables, file]).Valid
          ∧ c = Config.ofLayers [ofArguments, ofVariables, file])
      ∧ (∀ layers text, (Aliases.ofEntries (Config.ofLayers layers).aliases).expand text
          = String.ofList (Aliases.expandFrom (fun name => (layers.findSome? fun o =>
              Aliases.lastBound? (o.aliases.getD []) (String.ofList name)).map String.toList)
            0 text.toList))
      ∧ (∀ e, a.runConfiguration r m = .error e → perform a startedAt m = .failed m "" e.message)
      ∧ ∀ c, a.runConfiguration r m = .ok c → RunsWith c r startedAt m (perform a startedAt m) := by
  intro a ofVariables ofArguments
  refine ⟨Overrides.ofVariables_setBy _, ⟨_, fileUsed_iff.2 rfl, fun _ h => fileUsed_iff.1 h⟩,
    fun place used c => ?_, fun layers text => ?_, fun e h => perform_of_no_configuration rfl h _,
    fun c h => runsWith_of_configuration rfl h _⟩
  · have hconfiguration (c₀ : Config) := configuration_eq_ok_iff (a := a) (c := c₀) used
    -- laying the arguments over the rest makes one list of layers of it all
    have hall (file : Overrides) :
        r.apply (Config.ofLayers [.ofLogLevel logLevel?, ofVariables, file])
          = Config.ofLayers [ofArguments, ofVariables, file] := Config.apply_withLogLevel ..
    rw [runConfiguration_eq_ok_iff]
    constructor
    · rintro ⟨c₀, hc₀, valid, rfl⟩
      obtain ⟨file, layer, hfile, hbefore, rfl⟩ := (hconfiguration c₀).1 hc₀
      exact ⟨file, layer, hfile, hbefore, hall file ▸ valid, hall file⟩
    · rintro ⟨file, layer, hfile, hbefore, valid, rfl⟩
      exact ⟨_, (hconfiguration _).2 ⟨file, layer, hfile, hbefore, rfl⟩, (hall file).symm ▸ valid,
        (hall file).symm⟩
  · simp only [Aliases.expand_ofEntries, lastBound?_ofLayers]

/-- A file in a standard place, under variables of which one is no number, under arguments. -/
theorem configuration_layered_three :
    let text := "parallel: 4\ndetails: low\naliases: [A:file, B:file]\n"
    let m : Machine :=
      ⟨⟨.directory [("stepwise.yml", .file (Utf8.encode text.toList) FileNode.standardMode)], []⟩,
        [("STEPWISE_PARALLEL", "many"), ("STEPWISE_DETAILS", "high"),
          ("STEPWISE_ALIASES", "B:variable, C:variable")]⟩
    let r : RunArguments := ⟨".", ["C:argument"], none, none, some "csv", none, none, true⟩
    let a : Arguments := ⟨none, none, .run r⟩
    let c : Config := ⟨4, "high", 60, true,
      ["A:file", "B:file", "B:variable", "C:variable", "C:argument"], "csv", "warn"⟩
    a.runConfiguration r m = .ok c ∧ RunsWith c r ⟨0, 0⟩ m (perform a ⟨0, 0⟩ m)
      ∧ (∃ file, FileLayer m (some "./stepwise.yml") file
        ∧ c = Config.ofLayers [.ofArguments none r, .ofVariables m.environment, file])
      ∧ (Aliases.ofEntries c.aliases).expand "\x7b\x7bB\x7d\x7d" = "variable" := by
  intro text m r a c
  have found : m.files.isFile "./stepwise.yml" = true := by decide +kernel
  have used : FileUsed none (Overrides.ofVariables m.environment).configFile m (some "./stepwise.yml") :=
    .standard rfl rfl (List.nil_append _).symm (fun _ hp => absurd hp List.not_mem_nil) found
  obtain ⟨_, _, decided, _, _, starts⟩ := configuration_layered none none r ⟨0, 0⟩ m
  have h : a.runConfiguration r m = .ok c := ok_of_toOption (by decide +kernel)
  obtain ⟨file, layer, _, _, _, hmerged⟩ := (decided _ used c).1 h
  exact ⟨h, starts c h, ⟨file, layer, hmerged⟩, by decide +kernel⟩

end TestBench
