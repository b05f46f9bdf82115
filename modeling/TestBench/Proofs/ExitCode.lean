import Mathlib
import TestBench.Proofs.RecordedSuites
import TestBench.Proofs.RunStart
import TestBench.Proofs.ShownCounts
/-
  What the exit code of a run says.

  1. `RunEnd` are the ways in which a run of the program ends, and `Arguments.Ends` says when it ends in
     one of them: with any executors, and with suites whose requests are answered in any order.  The
     program itself ends in one of these ways (`program_ends`).
  2. A run that has been carried out is closed: its report is rendered, printed, and written if asked to
     (`Closes`).  This is the only place where a run that has a configuration and files can still fail,
     and whatever is printed before that stays.
  3. What is closed are the totals of counted suites.  So the code looks at the same number that all
     reports show (`Conclusion`, `conclusion_of_closes`).
-/
namespace TestBench

open TestBench.CommandLine TestBench.Text

variable {ω : Type}

/-! ## Writing a file -/

/-- What is written stands at the place that the path leads to. -/
theorem Files.written_at {files files' : Files} {path : String} {bytes : Utf8.Bytes}
    (h : files.write path bytes = .ok files') : ∃ spot mode, files.locate path = .ok spot
      ∧ files'.root.at? spot.place = some (.file bytes mode) := by
  rw [Files.write, Files.alter] at h
  obtain ⟨spot, hspot, h⟩ := ok_of_bind_ok h
  split at h
  · rename_i old mode hnode
    cases h
    exact ⟨spot, mode, hspot, FileNode.at?_put _ _ _⟩
  · cases h
  · cases h
    exact ⟨spot, _, hspot, FileNode.at?_put _ _ _⟩

/-! ## Closing a run -/

namespace CommandLine.RunArguments

/-- Writes the report to a file if the arguments ask for it. -/
def written (r : RunArguments) (run : Run) (files : Files) : Except ReportError Files :=
  match r.output with
  | some path => run.writeReport files path
  | none => .ok files

/-- Prints the report behind the lines that are there, and writes it. -/
def close (r : RunArguments) (c : Config) (lines : String) (run : Run) (m : Machine) : Exit :=
  match run.report c.reportFormat c.detailsLevel true with
  | .error cause => .failed m lines cause.message
  | .ok report =>
    match r.written run m.files with
    | .error cause => .failed m (lines ++ report ++ "\n") cause.message
    | .ok files => ⟨if run.totals.isOk then Exit.codeOk else Exit.codeFailed,
      lines ++ report ++ "\n", .nothing, { m with files }⟩

end CommandLine.RunArguments

/-- The report cannot be rendered, or it cannot be written. -/
def Unreported (r : RunArguments) (c : Config) (run : Run) (m : Machine) : Prop :=
  (∃ cause, run.report c.reportFormat c.detailsLevel true = .error cause)
    ∨ ∃ path cause, r.output = some path ∧ run.writeReport m.files path = .error cause

/-- How a run is closed. -/
inductive Closes (r : RunArguments) (c : Config) (lines : String) (run : Run) (m : Machine) :
    Exit → Prop
  | failed {output : String} {cause : ReportError} (unreported : Unreported r c run m) :
      Closes r c lines run m (.failed m output cause.message)
  | reported {report : String} {files : Files}
      (rendered : run.report c.reportFormat c.detailsLevel true = .ok report)
      (written : ∀ path, r.output = some path → run.writeReport m.files path = .ok files) :
      Closes r c lines run m ⟨if run.totals.isOk then Exit.codeOk else Exit.codeFailed,
        lines ++ report ++ "\n", .nothing, { m with files }⟩

section Close

variable {r : RunArguments} {c : Config} {lines : String} {run : Run} {m : Machine} {exit : Exit}

/-- What a run closes with is one of the ways to close it. -/
theorem closes_close : Closes r c lines run m (r.close c lines run m) := by
  rw [RunArguments.close]
  cases rendered : run.report c.reportFormat c.detailsLevel true with
  | error cause => exact .failed (.inl ⟨cause, rendered⟩)
  | ok report =>
    have written {result : Except ReportError Files} (h : r.written run m.files = result)
        (path : String) (asked : r.output = some path) : run.writeReport m.files path = result := by
      rw [RunArguments.written, asked] at h
      exact h
    cases hwritten : r.written run m.files with
    | error cause =>
      -- without a path nothing is written, so nothing can fail
      cases asked : r.output with
      | none =>
        rw [RunArguments.written, asked] at hwritten
        cases hwritten
      | some path => exact .failed (.inr ⟨path, cause, asked, written hwritten path asked⟩)
    | ok files => exact .reported rendered fun path asked => written hwritten path asked

/-- There is a complaint iff the code says that something went wrong. -/
theorem Closes.complaint_iff (h : Closes r c lines run m exit) :
    exit.code = Exit.codeError ↔ ∃ message, exit.complaint = .error message := by
  cases h with
  | failed => exact iff_of_true rfl ⟨_, rfl⟩
  | reported =>
    refine iff_of_false ?_ fun ⟨_, h⟩ => nomatch h
    show ¬ (if run.totals.isOk then Exit.codeOk else Exit.codeFailed) = Exit.codeError
    split <;> decide

/-- A run that is closed ends with an error iff its report was not rendered and written. -/
theorem Closes.error_iff (h : Closes r c lines run m exit) :
    exit.code = Exit.codeError ↔ Unreported r c run m := by
  cases h with
  | failed unreported => exact iff_of_true rfl unreported
  | reported rendered written =>
    refine iff_of_false ?_ ?_
    · show ¬ (if run.totals.isOk then Exit.codeOk else Exit.codeFailed) = Exit.codeError
      split <;> decide
    · rintro (⟨cause, h⟩ | ⟨path, cause, asked, h⟩)
      · cases rendered.symm.trans h
      · cases (written path asked).symm.trans h

end Close

/-! ## The ways in which a run ends -/

/-- How a run of the program ends. -/
inductive RunEnd where
  | unconfigured (cause : ConfigError)
  | undiscovered (cause : DiscoveryError)
  | ran (c : Config) (finished : List FinishedSuite) (run : Run) (machine : Machine)

/-- What is left of a run of the program on a machine. -/
def RunEnd.exit (r : RunArguments) (m : Machine) : RunEnd → Exit
  | .unconfigured cause => .failed m "" cause.message
  | .undiscovered cause => .failed m "" (RunError.discovery r.path cause).message
  | .ran c finished run machine => r.close c (statusLines c.detailsLevel finished) run machine

/-- What runs need besides their suites, with the executors of a registry. -/
def Config.contextOf (c : Config) (registry : Registry ω) : Context ω :=
  ⟨Aliases.ofEntries c.aliases, registry, c.settings⟩

/-- The ways in which a run of the program ends in a world, in which it sees a machine, and what is seen
    of it until then. -/
inductive CommandLine.Arguments.Ends (a : Arguments) (r : RunArguments) (registry : Registry ω)
    (view : ω → Machine) (startedAt : Timestamp) (w : ω) : List (Happening ω) → RunEnd → Prop
  | unconfigured {cause : ConfigError} (rejected : a.runConfiguration r (view w) = .error cause) :
      Ends a r registry view startedAt w [] (.unconfigured cause)
  | undiscovered {c : Config} {cause : DiscoveryError} {log : List (Happening ω)}
      (configured : a.runConfiguration r (view w) = .ok c)
      (ended : Session.Ends (c.contextOf registry) (view w).files r.path w
        (discover (view w).files r.path) log (.error (.discovery r.path cause))) :
      Ends a r registry view startedAt w log (.undiscovered cause)
  /-- Nobody can go on.  Suites finish in one order and may be recorded in another one. -/
  | ran {c : Config} {paths : List String} {log : List (Happening ω)} {suites : List Suite}
      {st : Schedule ω} {finished : List FinishedSuite} {elapsedMs : Nat}
      (configured : a.runConfiguration r (view w) = .ok c)
      (found : discover (view w).files r.path = .ok paths)
      (run : Session.Run (c.contextOf registry) (view w).files paths c.settings.parallel w log
        (.running suites st))
      (halted : st.Halted (c.contextOf registry) (Schedule.capacity suites))
      (finishes : (finished.map (·.suite)).Perm (st.recorded.map Prod.fst)) :
      Ends a r registry view startedAt w log
        (.ran c finished ⟨st.totals.sortByPackage, startedAt, elapsedMs⟩ (view st.world))

section Program

variable {a : Arguments} {r : RunArguments} {m : Machine}

/-- What is left of a run that can be carried out is closed. -/
theorem runCommand_eq_close {c c' : Config} {startedAt : Timestamp} {all : WholeRun Machine}
    (checked : (r.apply c).checked = .ok c')
    (ran : runAll c'.context m.files r.path ⟨m, 0⟩ = .ok all) :
    runCommand r c startedAt m = r.close c' (statusLines c'.detailsLevel all.finished)
      (all.run startedAt) all.bench.world := by
  rw [Config.context] at ran
  simp only [runCommand, checked, ran, RunArguments.close, RunArguments.written, WholeRun.run]
  cases r.output <;> rfl

/-- Suites that run in turn end a run in one of the ways in which it can end. -/
theorem exists_ends_ran (registry : Registry ω) (view : ω → Machine) (w : ω) {c : Config}
    {paths : List String} (configured : a.runConfiguration r (view w) = .ok c)
    (found : discover (view w).files r.path = .ok paths) (startedAt : Timestamp) :
    let done := runEach (c.contextOf registry) (loadAll (view w).files paths) ⟨w, 0⟩
    ∃ log, a.Ends r registry view startedAt w log (.ran c done.1
      ⟨(collect done.1).sortByPackage, startedAt, done.2.elapsedMs⟩ (view done.2.world)) := by
  intro done
  let suites := loadAll (view w).files paths
  -- one suite after another is a schedule, so what it ends as is an end of the session
  let st := Schedule.fileOrder (c.contextOf registry) c.settings.parallel suites w
  obtain ⟨log, session⟩ := Session.exists_run
    (Schedule.fileOrder_reachable (c.contextOf registry) c.settings.parallel suites w)
  have halted : st.Halted (c.contextOf registry) (Schedule.capacity suites) :=
    Schedule.idle_halted _ _ _ _
  have finishes : (done.1.map (·.suite)).Perm (st.recorded.map Prod.fst) :=
    .of_eq (List.zipIdx_map_fst ..).symm
  have ended : a.Ends r registry view startedAt w log
      (.ran c done.1 ⟨st.totals.sortByPackage, startedAt, done.2.elapsedMs⟩ (view st.world)) :=
    .ran configured found session halted finishes
  exact ⟨log, ended⟩

/-- The program ends in one of the ways in which its run can end. -/
theorem program_ends {arguments : List String} (read : CommandLine.read arguments = .ok a)
    (run : a.command = .run r) (gate : ∀ c, a.runConfiguration r m = .ok c →
      c.settings.parallel ≤ gateLimit) (startedAt : Timestamp) :
    ∃ log e, a.Ends r Registry.builtin id startedAt m log e
      ∧ program arguments startedAt m = e.exit r m := by
  rw [program, read]
  show ∃ log e, a.Ends r Registry.builtin id startedAt m log e ∧ perform a startedAt m = _
  cases configured : a.runConfiguration r m with
  | error cause =>
    exact ⟨[], _, .unconfigured configured, perform_of_no_configuration run configured startedAt⟩
  | ok c =>
    obtain ⟨_, c₀, checked, hperform⟩ := perform_of_configuration run configured startedAt
    have hgate : c.context.settings.parallel ≤ gateLimit := gate c configured
    rw [hperform]
    -- the three ways to end: no configuration, no files, or a run of the files
    cases found : discover m.files r.path with
    | error cause =>
      have hrun : runAll c.context m.files r.path ⟨m, 0⟩ = .error (.discovery r.path cause) :=
        Session.runAll_of_undiscovered found _
      have ended : Session.Ends c.context m.files r.path m (discover m.files r.path) []
          (.error (.discovery r.path cause)) := found ▸ Session.Ends.undiscovered cause
      refine ⟨[], .undiscovered cause, .undiscovered configured ended, ?_⟩
      rw [Config.context] at hrun
      simp only [runCommand, checked, hrun, RunEnd.exit]
    | ok paths =>
      obtain ⟨log, ended⟩ := exists_ends_ran Registry.builtin id m configured found startedAt
      have hclose : runCommand r c₀ startedAt m = _ :=
        runCommand_eq_close checked (Session.runAll_of_found found hgate ⟨m, 0⟩)
      exact ⟨log, _, ended, hclose⟩

end Program

/-! ## What the code says -/

/-- What is left of a run that has been carried out, and what that tells of the suites loaded for it. -/
structure Conclusion (loaded : List Suite) (r : RunArguments) (c : Config)
    (finished : List FinishedSuite) (run : Run) (m : Machine) (exit : Exit) : Prop where
  /-- The recorded suites are what the loaded ones ended as, and each one is there. -/
  recorded : ∃ results, List.Forall₂ Suite.RanTo loaded results ∧ run.totals.suites.Perm results
  finishes : (finished.map (·.suite)).Perm run.totals.suites
  counted : ∀ s ∈ run.totals.suites, s.Counted
  failed : exit.code ≠ Exit.codeError → (exit.code = Exit.codeFailed
    ↔ ∃ s ∈ run.totals.suites, ∃ c ∈ s.cases, c.skipped = false ∧ 1 ≤ c.records)
  passed : exit.code ≠ Exit.codeError → (exit.code = Exit.codeOk
    ↔ ∀ s ∈ run.totals.suites, ∀ c ∈ s.cases, c.skipped = false → c.records = 0)
  nothing : exit.code ≠ Exit.codeError → loaded = [] → exit.code = Exit.codeOk
  /-- The code is that of a failed run iff the number of failed cases in the reports says so. -/
  ko : exit.code ≠ Exit.codeError →
    (0 < (RunCounts.ofSuites run.totals.suites).ko ↔ exit.code = Exit.codeFailed)
  printed : exit.code ≠ Exit.codeError → ∃ report,
    exit.output = statusLines c.detailsLevel finished ++ report ++ "\n"
      ∧ c.reportFormat.Shows (run.totals.suites.map Suite.counts)
        (RunCounts.ofSuites run.totals.suites) report
  written : exit.code ≠ Exit.codeError → ∀ path, r.output = some path → ∃ report spot mode,
    m.files.locate path = .ok spot
      ∧ exit.machine.files.root.at? spot.place = some (.file (Utf8.encode report.toList) mode)
      ∧ (ReportFormat.ofPath path).Shows (run.totals.suites.map Suite.counts)
        (RunCounts.ofSuites run.totals.suites) report

/-- What the end of a run of the program on a machine tells. -/
structure Tells (a : Arguments) (r : RunArguments) (m : Machine) (log : List (Happening ω))
    (e : RunEnd) : Prop where
  complaint : (e.exit r m).code = Exit.codeError
    ↔ ∃ message, (e.exit r m).complaint = .error message
  error : (e.exit r m).code = Exit.codeError
    ↔ (∃ cause, a.runConfiguration r m = .error cause)
      ∨ (∃ c cause, a.runConfiguration r m = .ok c ∧ discover m.files r.path = .error cause)
      ∨ ∃ c finished run machine, e = .ran c finished run machine ∧ Unreported r c run machine
  /-- Without a configuration or without files nothing is run and nothing is printed. -/
  quiet : (∃ cause, a.runConfiguration r m = .error cause)
      ∨ (∃ cause, discover m.files r.path = .error cause) →
    log = [] ∧ (e.exit r m).output = "" ∧ (e.exit r m).machine = m
  ran : ∀ c, a.runConfiguration r m = .ok c → ∀ paths, discover m.files r.path = .ok paths →
    ∃ finished run machine, e = .ran c finished run machine
      ∧ Conclusion (loadAll m.files paths) r c finished run machine (e.exit r m)

section Codes

/-- Totals are in order iff no case that ran holds a record. -/
theorem Totals.Accounts.isOk_iff_records {t : Totals} {suites : List Suite} (h : t.Accounts suites) :
    t.isOk = true ↔ ∀ s ∈ suites, ∀ c ∈ s.cases, c.skipped = false → c.records = 0 := by
  rw [Totals.isOk, beq_iff_eq, h.ko, List.countP_eq_zero, List.forall_mem_flatMap]
  refine forall₂_congr fun s _ => forall₂_congr fun c _ => ?_
  rw [Case.ko, Bool.and_eq_true, not_and, Bool.not_eq_true', Case.isFailed, decide_eq_true_iff]
  exact imp_congr_right fun _ => Nat.pos_iff_ne_zero.not_left

variable {a : Arguments} {r : RunArguments} {c : Config} {lines : String} {run : Run} {m : Machine}
  {exit : Exit}

/-- Where nothing went wrong the code is that of the totals. -/
theorem Closes.failed_iff (h : Closes r c lines run m exit) (hcode : exit.code ≠ Exit.codeError) :
    (exit.code = Exit.codeFailed ↔ run.totals.isOk = false)
      ∧ (exit.code = Exit.codeOk ↔ run.totals.isOk = true) := by
  cases h with
  | failed => exact absurd rfl hcode
  | reported =>
    show ((if run.totals.isOk then Exit.codeOk else Exit.codeFailed) = Exit.codeFailed ↔ _)
      ∧ ((if run.totals.isOk then Exit.codeOk else Exit.codeFailed) = Exit.codeOk ↔ _)
    cases run.totals.isOk <;> decide

/-- A run that was carried out and reported tells of its suites. -/
theorem conclusion_of_closes {loaded results : List Suite} {finished : List FinishedSuite}
    (h : Closes r c (statusLines c.detailsLevel finished) run m exit)
    (ranTo : List.Forall₂ Suite.RanTo loaded results) (recorded : run.totals.suites.Perm results)
    (finishes : (finished.map (·.suite)).Perm run.totals.suites)
    (counted : ∀ s ∈ run.totals.suites, s.Counted)
    (accounts : run.totals.Accounts run.totals.suites) :
    Conclusion loaded r c finished run m exit := by
  have hpassed (hcode : exit.code ≠ Exit.codeError) : exit.code = Exit.codeOk
      ↔ ∀ s ∈ run.totals.suites, ∀ c ∈ s.cases, c.skipped = false → c.records = 0 :=
    (h.failed_iff hcode).2.trans accounts.isOk_iff_records
  refine ⟨⟨results, ranTo, recorded⟩, finishes, counted, ?_, hpassed, ?_, ?_, ?_, ?_⟩
  · intro hcode
    rw [(h.failed_iff hcode).1, ← Bool.not_eq_true, accounts.isOk_iff_records]
    push Not
    simp only [Nat.one_le_iff_ne_zero]
  · intro hcode hloaded
    -- without suites nothing is recorded, so there is nothing that could have failed
    subst hloaded
    cases ranTo
    rw [hpassed hcode, recorded.eq_nil]
    exact fun s hs => absurd hs List.not_mem_nil
  · intro hcode
    rw [(h.failed_iff hcode).1, accounts.counts_eq, Totals.isOk, beq_eq_false_iff_ne,
      Nat.pos_iff_ne_zero]
  · intro hcode
    cases h with
    | failed => exact absurd rfl hcode
    | @reported report files rendered written =>
      exact ⟨report, rfl, run.report_shows counted accounts rendered⟩
  · intro hcode path asked
    cases h with
    | failed => exact absurd rfl hcode
    | reported _ written =>
      have hwritten := written path asked
      rw [Run.writeReport] at hwritten
      -- the report is written as it is made, and where it is written it is found
      split at hwritten
      · cases hwritten
      · rename_i report rendered
        obtain ⟨spot, mode, hspot, hat⟩ := Files.written_at (ok_of_mapError_ok hwritten)
        exact ⟨report, spot, mode, hspot, hat, run.report_shows counted accounts rendered⟩

/-- However a run ends, code and output tell of it. -/
theorem CommandLine.Arguments.Ends.tells {registry : Registry ω} {view : ω → Machine} {startedAt : Timestamp}
    {w : ω} {log : List (Happening ω)} {e : RunEnd}
    (h : a.Ends r registry view startedAt w log e) : Tells a r (view w) log e := by
  cases h with
  | @unconfigured cause rejected =>
    refine ⟨iff_of_true rfl ⟨_, rfl⟩, iff_of_true rfl (.inl ⟨cause, rejected⟩),
      fun _ => ⟨rfl, rfl, rfl⟩, fun c configured => ?_⟩
    cases rejected.symm.trans configured
  | @undiscovered c cause log configured ended =>
    have hfound : discover (view w).files r.path = .error cause ∧ log = [] := by
      generalize discover (view w).files r.path = found at ended
      cases ended
      exact ⟨rfl, rfl⟩
    obtain ⟨found, rfl⟩ := hfound
    refine ⟨iff_of_true rfl ⟨_, rfl⟩, iff_of_true rfl (.inr (.inl ⟨c, cause, configured, found⟩)),
      fun _ => ⟨rfl, rfl, rfl⟩, fun _ _ paths found' => ?_⟩
    -- no files were discovered, so nothing is said of a run of files
    cases found.symm.trans found'
  | @ran c paths log suites st finished elapsedMs configured found session halted finishes =>
    let run : Run := ⟨st.totals.sortByPackage, startedAt, elapsedMs⟩
    have closes : Closes r c (statusLines c.detailsLevel finished) run (view st.world)
      (RunEnd.exit r (view w) (.ran c finished run (view st.world))) := closes_close
    -- all suites are recorded when the session halts, so the totals account for all of them
    obtain ⟨results, ranTo, recorded, sorted, counted, accounts⟩ := session.accounts halted
    refine ⟨closes.complaint_iff, ?_, ?_, ?_⟩
    · rw [closes.error_iff]
      constructor
      · exact fun unreported => .inr (.inr ⟨c, finished, run, view st.world, rfl, unreported⟩)
      · rintro (⟨cause, rejected⟩ | ⟨c', cause, _, undiscovered⟩ | ⟨c', f, run', m, he, unreported⟩)
        · cases rejected.symm.trans configured
        · cases undiscovered.symm.trans found
        · cases he
          exact unreported
    · rintro (⟨cause, rejected⟩ | ⟨cause, undiscovered⟩)
      · cases rejected.symm.trans configured
      · cases undiscovered.symm.trans found
    · intro c' configured' paths' found'
      cases configured.symm.trans configured'
      cases found.symm.trans found'
      exact ⟨finished, run, view st.world, rfl, conclusion_of_closes closes ranTo recorded
        (finishes.trans sorted) counted accounts⟩

end Codes

/-- **The code of a run says how it went.**  The program ends in one of the ways in which its run can end,
    if there is a gate as wide as it asks for.  Whatever executors there are, and in whatever order suites
    go on: the code is 1, with a line about an error, iff there is no configuration, no files are found,
    or the report is not rendered or not written; in the first two cases nothing has been run or printed.
    Otherwise it is 2 iff a case that is not skipped holds a record in the end, and 0 if none does.  Then
    all reports show what is counted over the cases of the recorded suites. -/
theorem run_exit_code :
    (∀ (arguments : List String) (a : Arguments) (r : RunArguments) (startedAt : Timestamp)
        (m : Machine), CommandLine.read arguments = .ok a → a.command = .run r →
      (∀ c, a.runConfiguration r m = .ok c → c.settings.parallel ≤ gateLimit) →
        ∃ log e, a.Ends r Registry.builtin id startedAt m log e
          ∧ program arguments startedAt m = e.exit r m)
      ∧ ∀ (a : Arguments) (r : RunArguments) (registry : Registry ω) (view : ω → Machine)
          (startedAt : Timestamp) (w : ω) (log : List (Happening ω)) (e : RunEnd),
        a.Ends r registry view startedAt w log e → Tells a r (view w) log e :=
  ⟨fun _ _ _ startedAt _ read run gate => program_ends read run gate startedAt,
    fun _ _ _ _ _ _ _ _ ended => ended.tells⟩

/-- A file with a suite whose only step finds no executor, reported as a table and in a file. -/
theorem run_exit_code_missing_type :
    let text := "name: s\ntestcases:\n  - name: c\n    steps:\n      - type: missing\n"
    let file : FileNode := .file (Utf8.encode text.toList) FileNode.standardMode
    let m : Machine := ⟨⟨.directory [("a.yml", file)], []⟩, []⟩
    let arguments := ["run", "a.yml", "-o", "out.csv"]
    let exit := program arguments ⟨0, 0⟩ m
    exit.code = 2 ∧ ∃ a r log finished run machine,
      a.Ends r Registry.builtin id ⟨0, 0⟩ m log (.ran .standard finished run machine)
        ∧ exit = r.close .standard (statusLines .standard finished) run machine
        ∧ Tells a r m log (.ran .standard finished run machine)
        ∧ 0 < (RunCounts.ofSuites run.totals.suites).ko
        ∧ ∃ report, ReportFormat.csv.Shows (run.totals.suites.map Suite.counts)
          (RunCounts.ofSuites run.totals.suites) report := by
  intro text file m arguments exit
  let r : RunArguments := ⟨"a.yml", [], none, none, none, some "out.csv", none, false⟩
  let a : Arguments := ⟨none, none, .run r⟩
  have hcode : exit.code = 2 := by decide +kernel
  have read : CommandLine.read arguments = .ok a := ok_of_toOption (by decide +kernel)
  have configured : a.runConfiguration r m = .ok .standard := ok_of_toOption (by decide +kernel)
  have found : discover m.files r.path = .ok ["a.yml"] := ok_of_toOption (by decide +kernel)
  have gate : ∀ c, a.runConfiguration r m = .ok c → c.settings.parallel ≤ gateLimit := by
    intro c hc
    cases configured.symm.trans hc
    decide
  obtain ⟨log, e, ended, hexit⟩ :=
    (run_exit_code (ω := Machine)).1 arguments a r ⟨0, 0⟩ m read rfl gate
  have hexit : exit = e.exit r m := hexit
  have tells : Tells a r m log e := run_exit_code.2 a r Registry.builtin id ⟨0, 0⟩ m log e ended
  -- files were found, so this is the end of a run that was carried out
  obtain ⟨finished, run, machine, rfl, conclusion⟩ := tells.ran _ configured _ found
  rw [← hexit] at conclusion
  have hreported : exit.code ≠ Exit.codeError := by
    rw [hcode]
    decide
  obtain ⟨report, _, _, _, _, shows⟩ := conclusion.written hreported "out.csv" rfl
  exact ⟨hcode, a, r, log, finished, run, machine, ended, hexit, tells,
    (conclusion.ko hreported).2 hcode, report, shows⟩

end TestBench
