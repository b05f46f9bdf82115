import Mathlib
import TestBench.Program
import TestBench.Proofs.Bookkeeping
import TestBench.Proofs.Interleaving
import TestBench.Proofs.PlainKeys
/-
  Which runs can be reported.

  1. The document of a run holds the steps as they were read, and besides them only texts, numbers and
     mappings with textual keys.  A property that all of those have holds everywhere in the document iff
     it holds everywhere in the steps (`everywhere_document`).
  2. A run changes no step.  So the steps in the totals are those of the suites that were to run,
     skipped cases included, in whichever order the suites ran (`Reachable.allSteps_totals`).
  3. Three of the five formats print every run.  The two JSON formats print a run iff all keys in all of
     its steps are plain (`Run.report_isOk`, `Run.report_denied`); else the program ends without a
     report, whatever the cases came to (`runs_reported_iff_plainKeys`).
-/
namespace TestBench

open TestBench.CommandLine

variable {ω α : Type}

/-! ## The document of a run -/

/-- What holds of scalars, sequences and mappings with textual keys. -/
structure Yaml.Mild (P : Yaml → Prop) : Prop where
  scalar : ∀ v : Yaml, v.IsScalar → P v
  sequence : ∀ items, P (.sequence items)
  named : ∀ entries : Yaml.Entries, (∀ e ∈ entries, ∃ key, e.1 = .text key) → P (.mapping entries)

theorem Yaml.mild_hasPlainKeys : Mild HasPlainKeys where
  scalar := by
    intro v hv
    cases v with
    | mapping entries => cases hv
    | _ => trivial
  sequence := fun _ => trivial
  named := by
    intro entries hnamed e he
    obtain ⟨key, hkey⟩ := hnamed e he
    rw [hkey]
    trivial

theorem Yaml.mild_isTagsApart : Mild IsTagsApart where
  scalar := by
    intro v hv
    cases v with
    | tagged tag v => cases hv
    | _ => trivial
  sequence := fun _ => trivial
  named := fun _ _ => trivial

/-- A property of all steps of a suite. -/
def Suite.AllSteps (P : Step → Prop) (s : Suite) : Prop := ∀ c ∈ s.cases, ∀ step ∈ c.steps, P step

section Document

open Yaml

variable {P : Yaml → Prop} (mild : Mild P)
include mild

theorem Yaml.Mild.everywhere {v : Yaml} (scalar : v.IsScalar) : Everywhere P v :=
  (everywhere_scalar scalar).2 (mild.scalar v scalar)

theorem Yaml.Mild.text (s : String) : Everywhere P (.text s) :=
  mild.everywhere (v := .text s) trivial

theorem Yaml.Mild.nat (n : Nat) : Everywhere P (Yaml.nat n) :=
  mild.everywhere (v := Yaml.nat n) trivial

/-- Of a list it has to hold in every item. -/
theorem Yaml.Mild.sequence_iff {items : List Yaml} :
    Everywhere P (.sequence items) ↔ ∀ v ∈ items, Everywhere P v := by
  rw [everywhere_sequence, and_iff_right (mild.sequence items)]

/-- Of a record it has to hold in every value, since names of fields are texts. -/
theorem Yaml.Mild.mapping_iff {fields : List (String × Yaml)} :
    Everywhere P (.mapping (fields.map fun f => entry f.1 f.2)) ↔ ∀ f ∈ fields, Everywhere P f.2 := by
  have hnamed : ∀ e ∈ fields.map fun f => entry f.1 f.2, ∃ key, e.1 = Yaml.text key := by
    intro e he
    obtain ⟨f, _, rfl⟩ := List.mem_map.1 he
    exact ⟨f.1, rfl⟩
  rw [everywhere_mapping, and_iff_right (mild.named _ hnamed), List.forall_mem_map]
  exact forall₂_congr fun f _ => and_iff_right (mild.text f.1)

/-- Records are an entry with a textual key, or none. -/
theorem Yaml.Mild.records (key : String) (texts : List String) :
    ∃ fields : List (String × Yaml), recordsEntry key texts = fields.map (fun f => entry f.1 f.2)
      ∧ ∀ f ∈ fields, Everywhere P f.2 := by
  rw [recordsEntry]
  split
  · exact ⟨[], rfl, fun _ hf => absurd hf List.not_mem_nil⟩
  · refine ⟨[(key, _)], rfl, List.forall_mem_singleton.2 (mild.sequence_iff.2 ?_)⟩
    refine List.forall_mem_map.2 fun s _ => ?_
    have hvalue : ∀ f ∈ [("value", Yaml.text s)], Everywhere P f.2 :=
      List.forall_mem_singleton.2 (mild.text s)
    exact mild.mapping_iff.2 hvalue

/-- Of the document of a case only its steps can fail to have it. -/
theorem Case.everywhere_document (c : Case) :
    Everywhere P c.document ↔ ∀ step ∈ c.steps, Everywhere P (.mapping step.entries) := by
  obtain ⟨failures, hfailures, hf⟩ := mild.records "failures" c.failures
  obtain ⟨errors, herrors, he⟩ := mild.records "errors" c.errors
  let steps : Yaml := .sequence (c.steps.map fun s => .mapping s.entries)
  have hdocument : c.document = .mapping (([("name", Yaml.text c.name), ("steps", steps),
      ("skipped", Yaml.nat (if c.skipped then 1 else 0))] ++ failures ++ errors).map
        fun f => entry f.1 f.2) := by
    rw [Case.document, hfailures, herrors, List.map_append, List.map_append]
    rfl
  -- all other fields are texts, numbers and lists of records, which have it
  rw [hdocument, mild.mapping_iff]
  simp only [List.forall_mem_append, List.forall_mem_cons, steps, mild.sequence_iff,
    List.forall_mem_map]
  constructor
  · exact fun h => h.1.1.2.1
  · exact fun h => ⟨⟨⟨mild.text _, h, mild.nat _, fun _ hf => absurd hf List.not_mem_nil⟩, hf⟩, he⟩

/-- And of that of a suite only the steps of its cases. -/
theorem Suite.everywhere_document (s : Suite) :
    Everywhere P s.document ↔ s.AllSteps fun step => Everywhere P (.mapping step.entries) := by
  let cases : Yaml := .sequence (s.cases.map Case.document)
  have hdocument : s.document = .mapping ([("name", Yaml.text s.name),
      ("package", Yaml.text s.package), ("testcases", cases), ("total", Yaml.nat s.total),
      ("failures", Yaml.nat s.failures), ("errors", Yaml.nat s.errors),
      ("skipped", Yaml.nat s.skipped)].map fun f => entry f.1 f.2) := rfl
  rw [hdocument, mild.mapping_iff]
  simp only [List.forall_mem_cons, cases, mild.sequence_iff, List.forall_mem_map,
    Case.everywhere_document mild, mild.text, mild.nat, true_and]
  exact and_iff_left fun _ hf => absurd hf List.not_mem_nil

/-- A mild property holds everywhere in a document iff it holds everywhere in the steps. -/
theorem Run.everywhere_document (r : Run) : Everywhere P r.document
    ↔ ∀ s ∈ r.totals.suites, s.AllSteps fun step => Everywhere P (.mapping step.entries) := by
  let suites : Yaml := .sequence (r.totals.suites.map Suite.document)
  have hdocument : r.document = .mapping ([("test_suites", suites),
      ("total_ok", Yaml.nat r.totals.ok), ("total_ko", Yaml.nat r.totals.ko),
      ("total_skipped", Yaml.nat r.totals.skipped), ("total", Yaml.nat r.totals.total),
      ("started_at", Yaml.text r.startedAt.text), ("duration_ms", Yaml.nat r.durationMs)].map
        fun f => entry f.1 f.2) := rfl
  rw [hdocument, mild.mapping_iff]
  simp only [List.forall_mem_cons, suites, mild.sequence_iff, List.forall_mem_map,
    Suite.everywhere_document mild, mild.text, mild.nat, true_and]
  exact and_iff_left fun _ hf => absurd hf List.not_mem_nil

end Document

/-! ## A run changes no step -/

section Steps

/-- A suite has the steps that it had, whatever its run is answered. -/
theorem steps_of_canEnd {ctx : Context ω} {s s' : Suite} (h : (ctx.task s).CanEnd s') :
    s'.cases.map (·.steps) = s.cases.map (·.steps) :=
  map_of_runTo (fun _ _ => rfl) (Suite.ranTo_of_canEnd h).cases

/-- The steps of suites, case by case. -/
theorem Suite.forall_allSteps_iff {P : Step → Prop} {suites : List Suite} :
    (∀ s ∈ suites, s.AllSteps P)
      ↔ ∀ all ∈ suites.map (fun s => s.cases.map (·.steps)), ∀ steps ∈ all, ∀ step ∈ steps, P step := by
  simp only [List.forall_mem_map, AllSteps]

/-- In the end, in every schedule, the totals hold the steps of all suites. -/
theorem Schedule.Reachable.allSteps_totals {ctx : Context ω} {parallel : Nat} {suites : List Suite}
    {w : ω} {st : Schedule ω} (h : Reachable ctx parallel suites w st)
    (halted : st.Halted ctx (capacity suites)) {P : TestBench.Step → Prop} :
    (∀ s ∈ st.totals.sortByPackage.suites, s.AllSteps P) ↔ ∀ s ∈ suites, s.AllSteps P := by
  -- running changes the records of a case but not its steps
  have hsteps : (st.recorded.map fun x => x.1.cases.map (·.steps)).Perm
      (suites.map fun s => s.cases.map (·.steps)) := by
    refine h.recorded_perm (f := fun s => s.cases.map (·.steps)) halted ?_
    intro x hx
    obtain ⟨s, hs, hend⟩ := h.canEnd_of_ended x hx
    rw [hs, steps_of_canEnd hend]
    rfl
  have hsuites : st.totals.sortByPackage.suites.Perm (st.recorded.map Prod.fst) := by
    rw [Totals.sortByPackage, h.valid.totals, Totals.ofSuites_eq]
    exact List.mergeSort_perm _ _
  have hperm : (st.totals.sortByPackage.suites.map fun s => s.cases.map (·.steps)).Perm
      (suites.map fun s => s.cases.map (·.steps)) := by
    refine (hsuites.map _).trans ?_
    rw [List.map_map]
    exact hsteps
  rw [Suite.forall_allSteps_iff, Suite.forall_allSteps_iff]
  exact forall_congr' fun all => imp_congr_left hperm.mem_iff

end Steps

/-! ## Reports -/

/-- Whether a format is JSON, in one line or in many. -/
def ReportFormat.isJson : ReportFormat → Bool
  | .json | .jsonPretty => true
  | .table | .yaml | .csv => false

/-- What a format asks of suites before it can print them. -/
def ReportFormat.CanPrint (format : ReportFormat) (suites : List Suite) : Prop :=
  format.isJson = true → ∀ s ∈ suites, s.AllSteps Step.PlainKeys

namespace Run

variable (r : Run) (details : Details) (color : Bool)

/-- A run has a JSON value iff all its keys are plain. -/
theorem toJson?_document_isSome :
    r.document.toJson?.isSome = true ↔ ∀ s ∈ r.totals.suites, s.AllSteps Step.PlainKeys := by
  rw [Yaml.toJson?_isSome_iff]
  exact r.everywhere_document Yaml.mild_hasPlainKeys

/-- A format prints a run whose steps suit it. -/
theorem report_isOk {format : ReportFormat} (h : format.CanPrint r.totals.suites) :
    ∃ text, r.report format details color = .ok text := by
  have json (print : Json → String) (hplain : ∀ s ∈ r.totals.suites, s.AllSteps Step.PlainKeys) :
      ∃ text, r.json print = .ok text := by
    obtain ⟨j, hj⟩ := Option.isSome_iff_exists.1 (r.toJson?_document_isSome.2 hplain)
    exact ⟨print j, by rw [Run.json, hj]⟩
  cases format with
  | table => exact ⟨_, rfl⟩
  | json => exact json Json.compact (h rfl)
  | jsonPretty => exact json Json.pretty (h rfl)
  | yaml => exact ⟨_, rfl⟩
  | csv => exact ⟨_, rfl⟩

/-- A format that cannot print a run says so. -/
theorem report_denied {format : ReportFormat} (h : ¬ format.CanPrint r.totals.suites) :
    r.report format details color = .error .noJson := by
  obtain ⟨hformat, hplain⟩ := Classical.not_imp.1 h
  have json (print : Json → String) : r.json print = .error .noJson := by
    rw [← r.toJson?_document_isSome, Option.not_isSome_iff_eq_none] at hplain
    rw [Run.json, hplain]
  cases format with
  | json => exact json Json.compact
  | jsonPretty => exact json Json.pretty
  | table => cases hformat
  | yaml => cases hformat
  | csv => cases hformat

end Run

/-! ## The end of the program -/

/-- The context of the runs that a configuration asks for. -/
def Config.context (c : Config) : Context Machine :=
  ⟨Aliases.ofEntries c.aliases, Registry.builtin, c.settings⟩

/-- A whole run as it is reported. -/
def WholeRun.run (all : WholeRun ω) (startedAt : Timestamp) : Run :=
  ⟨all.totals, startedAt, all.bench.elapsedMs⟩

/-- A whole run takes its totals from the suites in file order. -/
theorem totals_of_runAll {ctx : Context ω} {files : Files} {path : String} {b : Bench ω}
    {all : WholeRun ω} {paths : List String} (found : discover files path = .ok paths)
    (ran : runAll ctx files path b = .ok all) :
    all.totals = (collect (runEach ctx (loadAll files paths) b).1).sortByPackage := by
  rw [runAll, found] at ran
  simp only [Except.mapError, bind, Except.bind, pure, Except.pure] at ran
  split at ran
  · cases ran
  · injection ran with ran
    rw [← ran]

/-- The steps in the totals of a whole run are those of the suites that were loaded. -/
theorem allSteps_of_runAll {ctx : Context ω} {files : Files} {path : String} {w : ω}
    {all : WholeRun ω} {paths : List String} (found : discover files path = .ok paths)
    (ran : runAll ctx files path ⟨w, 0⟩ = .ok all) {P : Step → Prop} :
    (∀ s ∈ all.totals.suites, s.AllSteps P) ↔ ∀ s ∈ loadAll files paths, s.AllSteps P := by
  rw [totals_of_runAll found ran]
  exact (Schedule.fileOrder_reachable ctx 1 (loadAll files paths) w).allSteps_totals
    (Schedule.idle_halted _ _ _ _)

section Command

variable {a : RunArguments} {c c' : Config} {startedAt : Timestamp} {m : Machine}
  {all : WholeRun Machine}

/-- A run that cannot be printed ends the program, and what its cases came to does not matter. -/
theorem runCommand_denied (checked : (a.apply c).checked = .ok c')
    (ran : runAll c'.context m.files a.path ⟨m, 0⟩ = .ok all)
    (denied : (all.run startedAt).report c'.reportFormat c'.detailsLevel true = .error .noJson) :
    runCommand a c startedAt m = .failed all.bench.world (statusLines c'.detailsLevel all.finished)
      ReportError.noJson.message := by
  rw [Config.context] at ran
  rw [WholeRun.run] at denied
  simp only [runCommand, checked, ran, denied]

/-- A run that is printed, and written to a file if asked to, ends with a code that says whether a
    case failed. -/
theorem runCommand_printed (checked : (a.apply c).checked = .ok c')
    (ran : runAll c'.context m.files a.path ⟨m, 0⟩ = .ok all) {report : String}
    (printed : (all.run startedAt).report c'.reportFormat c'.detailsLevel true = .ok report) :
    (runCommand a c startedAt m).output
        = statusLines c'.detailsLevel all.finished ++ report ++ "\n"
      ∧ ((∀ path, a.output = some path →
            ∃ files, (all.run startedAt).writeReport all.bench.world.files path = .ok files) →
          (runCommand a c startedAt m).complaint = .nothing
            ∧ (runCommand a c startedAt m).code
              = if all.totals.isOk then Exit.codeOk else Exit.codeFailed) := by
  rw [Config.context] at ran
  rw [WholeRun.run] at printed ⊢
  simp only [runCommand, checked, ran, printed]
  cases houtput : a.output with
  | none => exact ⟨rfl, fun _ => ⟨rfl, rfl⟩⟩
  | some path =>
    constructor
    · split <;> rfl
    · intro written
      obtain ⟨files, hfiles⟩ := written path rfl
      simp only [hfiles, and_self]

end Command

/-- **A run can be reported in every format iff all keys in its steps are plain.**  Suites from files,
    run in any schedule, hold no tag right around another one and are printed by all formats, except
    that JSON needs plain keys in all steps, those of skipped cases included.  A program that can print
    its report ends with the code that its cases ask for; if it cannot, it ends with an error. -/
theorem runs_reported_iff_plainKeys :
    (∀ (ctx : Context ω) (parallel : Nat) (suites : List Suite) (w : ω) (st : Schedule ω),
      (∀ s ∈ suites, ∃ files path, loadSuite files path = .ok s) →
      Schedule.Reachable ctx parallel suites w st → st.Halted ctx (Schedule.capacity suites) →
      ∀ startedAt durationMs,
        let run : Run := ⟨st.totals.sortByPackage, startedAt, durationMs⟩
        run.document.TagsApart ∧ ∀ format details color,
          (format.CanPrint suites → ∃ text, run.report format details color = .ok text)
            ∧ (¬ format.CanPrint suites → run.report format details color = .error .noJson))
    ∧ ∀ (a : RunArguments) (c c' : Config) (startedAt : Timestamp) (m : Machine)
        (paths : List String) (all : WholeRun Machine),
      (a.apply c).checked = .ok c' → discover m.files a.path = .ok paths →
      runAll c'.context m.files a.path ⟨m, 0⟩ = .ok all →
        let lines := statusLines c'.detailsLevel all.finished
        let exit := runCommand a c startedAt m
        (c'.reportFormat.CanPrint (loadAll m.files paths) → ∃ report,
          (all.run startedAt).report c'.reportFormat c'.detailsLevel true = .ok report
            ∧ exit.output = lines ++ report ++ "\n"
            ∧ ((∀ path, a.output = some path →
                ∃ files, (all.run startedAt).writeReport all.bench.world.files path = .ok files) →
              exit.complaint = .nothing
                ∧ exit.code = if all.totals.isOk then Exit.codeOk else Exit.codeFailed))
        ∧ (¬ c'.reportFormat.CanPrint (loadAll m.files paths) →
          exit = .failed all.bench.world lines "Failed to render JSON") := by
  constructor
  · intro ctx parallel suites w st loaded reach halted startedAt durationMs run
    -- steps are what they were when they were loaded, so it can be asked of the suites
    have hplain : ∀ format : ReportFormat, format.CanPrint run.totals.suites
        ↔ format.CanPrint suites :=
      fun format => imp_congr_right fun _ => reach.allSteps_totals halted
    refine ⟨?_, fun format details color => ⟨fun h => ?_, fun h => ?_⟩⟩
    · refine (run.everywhere_document Yaml.mild_isTagsApart).2 ?_
      refine (reach.allSteps_totals halted (P := Step.TagsApart)).2 ?_
      intro s hs
      obtain ⟨files, path, hload⟩ := loaded s hs
      exact tagsApart_of_loadSuite hload
    · exact run.report_isOk details color ((hplain format).2 h)
    · exact run.report_denied details color fun h' => h ((hplain format).1 h')
  · intro a c c' startedAt m paths all checked found ran lines exit
    have hplain : c'.reportFormat.CanPrint (all.run startedAt).totals.suites
        ↔ c'.reportFormat.CanPrint (loadAll m.files paths) :=
      imp_congr_right fun _ => allSteps_of_runAll found ran
    constructor
    · intro h
      obtain ⟨report, printed⟩ := (all.run startedAt).report_isOk c'.detailsLevel true (hplain.2 h)
      exact ⟨report, printed, runCommand_printed checked ran printed⟩
    · intro h
      exact runCommand_denied checked ran
        ((all.run startedAt).report_denied c'.detailsLevel true fun h' => h (hplain.1 h'))

/-- One file with a skipped case whose only step has a null key: the run prints as a table, but asked
    for JSON the program fails, though no case ran. -/
theorem runs_reported_iff_plainKeys_null_key :
    ∃ (m : Machine) (s : Suite), loadSuite m.files "a.yml" = .ok s
      ∧ (∀ c ∈ s.cases, c.skipped = true)
      ∧ (∃ st, Schedule.Reachable Config.standard.context 1 [s] m st
          ∧ (∃ text, Run.report ⟨st.totals.sortByPackage, ⟨0, 0⟩, 0⟩ .table .medium false = .ok text)
          ∧ Run.report ⟨st.totals.sortByPackage, ⟨0, 0⟩, 0⟩ .json .medium false = .error .noJson)
      ∧ (runCommand ⟨"a.yml", [], none, none, some "json", none, none, false⟩ Config.standard ⟨0, 0⟩
          m).code = Exit.codeError := by
  let text := "name: s\ntestcases:\n  - name: c\n    skip: true\n    steps:\n      - ~: x\n"
  let m : Machine :=
    ⟨⟨.directory [("a.yml", .file (Text.Utf8.encode text.toList) FileNode.standardMode)], []⟩, []⟩
  let a : RunArguments := ⟨"a.yml", [], none, none, some "json", none, none, false⟩
  have hfile : (loadSuite m.files "a.yml").toOption.any (fun s => s.cases.all (·.skipped)
      && s.cases.any fun c => c.steps.any (·.toJson?.isNone)) = true := by decide +kernel
  have hfound : discover m.files a.path = .ok ["a.yml"] := by decide +kernel
  have hchecked : (a.apply .standard).checked = .ok (a.apply .standard) := by decide +kernel
  have hformat : (a.apply .standard).reportFormat = .json := by decide +kernel
  cases hload : loadSuite m.files "a.yml" with
  | error e =>
    rw [hload] at hfile
    cases hfile
  | ok s =>
    rw [hload, Except.toOption, Option.any_some, Bool.and_eq_true, List.all_eq_true] at hfile
    obtain ⟨hskipped, hstep⟩ := hfile
    have hloaded : loadAll m.files ["a.yml"] = [s] := by
      simp only [loadAll, List.filterMap_cons, hload, Except.toOption, List.filterMap_nil]
    -- the null key is nowhere but in the case that is skipped
    have hdenied : ¬ ReportFormat.json.CanPrint [s] := by
      intro h
      obtain ⟨c, hc, hstep⟩ := List.any_eq_true.1 hstep
      obtain ⟨step, hstep, hnone⟩ := List.any_eq_true.1 hstep
      have hplain := step.toJson?_isSome_iff.2 (h rfl s (List.mem_singleton_self s) c hc step hstep)
      rw [Option.isNone_iff_eq_none.1 hnone] at hplain
      cases hplain
    have hran : ∃ all, runAll (a.apply .standard).context m.files a.path ⟨m, 0⟩ = .ok all := by
      rw [runAll, hfound]
      exact ⟨_, rfl⟩
    obtain ⟨all, hran⟩ := hran
    have hruns := @runs_reported_iff_plainKeys Machine
    refine ⟨m, s, hload, hskipped, ⟨_, Schedule.fileOrder_reachable _ 1 [s] m, ?_⟩, ?_⟩
    · have hprint := (hruns.1 Config.standard.context 1 [s] m _
        (List.forall_mem_singleton.2 ⟨m.files, "a.yml", hload⟩)
        (Schedule.fileOrder_reachable _ 1 [s] m) (Schedule.idle_halted _ _ _ _) ⟨0, 0⟩ 0).2
      exact ⟨(hprint .table .medium false).1 fun h => absurd h Bool.false_ne_true,
        (hprint .json .medium false).2 hdenied⟩
    · have hexit := (hruns.2 a .standard _ ⟨0, 0⟩ m _ all hchecked hfound hran).2
      rw [hformat, hloaded] at hexit
      rw [hexit hdenied]
      rfl

end TestBench
