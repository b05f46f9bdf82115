import Mathlib
import TestBench.Proofs.FileOrder
/-
  Files that are no suites leave no trace.

  1. Discovery gives files; `accepted` are those of them that can be loaded.  The suites of a run are
     those of the accepted files, in their order, one for each (`packages_loadAll`), and they are the
     same ones if only the accepted files are there (`loadAll_accepted`).
  2. `Session.Ends` are the ways in which a whole run ends: with totals once nobody can go on, or with
     an error before any suite is let in.  A run in file order is one of them (`runAll_ends`).
  3. Two runs of the same suites leave the same totals in whatever order their steps were taken, if no
     suite notices the others (`Schedule.Reachable.totals_unique`).  So a run leaves what it would
     leave of the accepted files alone (`rejected_files_leave_no_trace`).
-/
namespace TestBench

variable {ω : Type}

/-! ## Accepted files -/

/-- The files that can be loaded. -/
def accepted (files : Files) (paths : List String) : List String :=
  paths.filter fun path => (loadSuite files path).toOption.isSome

section Accepted

variable {files files' : Files} {paths : List String}

/-- There is a suite for each accepted file, and it has the path of the file as its package. -/
theorem packages_loadAll (files : Files) (paths : List String) :
    (loadAll files paths).map (·.package) = accepted files paths := by
  induction paths with
  | nil => rfl
  | cons path rest ih =>
    rw [loadAll, accepted, List.filterMap_cons, List.filter_cons]
    cases hload : loadSuite files path with
    | error e => exact ih
    | ok s => exact congrArg₂ List.cons (package_of_loadSuite hload) ih

/-- Where the accepted files are read alike, they alone give the same suites. -/
theorem loadAll_accepted (alike : ∀ p ∈ accepted files paths, loadSuite files' p = loadSuite files p) :
    loadAll files' (accepted files paths) = loadAll files paths := by
  rw [loadAll, loadAll, List.filterMap_congr fun p hp => congrArg Except.toOption (alike p hp),
    accepted, List.filterMap_filter]
  refine List.filterMap_congr fun p _ => ?_
  cases loadSuite files p with
  | error e => rfl
  | ok s => rfl

end Accepted

/-! ## Two runs of the same suites -/

namespace Schedule.Reachable

variable {ctx : Context ω} {parallel parallel' : Nat} {suites : List Suite} {w : ω}
  {st st' : Schedule ω}

/-- When nobody can go on, the totals have a suite of each package. -/
theorem packages_totals (h : Reachable ctx parallel suites w st)
    (halted : st.Halted ctx (capacity suites)) :
    (st.totals.sortByPackage.suites.map (·.package)).Perm (suites.map (·.package)) := by
  refine ((List.mergeSort_perm _ _).map _).trans ?_
  rw [h.valid.totals, Totals.ofSuites_eq]
  exact h.packages_perm halted

/-- Suites that do not notice each other leave the same totals in every run. -/
theorem totals_unique {result : Suite → Suite} (alone : ResultsAlone ctx suites w result)
    (distinct : (suites.map (·.package)).Nodup)
    (h : Reachable ctx parallel suites w st) (halted : st.Halted ctx (capacity suites))
    (h' : Reachable ctx parallel' suites w st') (halted' : st'.Halted ctx (capacity suites)) :
    st.totals.sortByPackage = st'.totals.sortByPackage := by
  have hperm : (st.recorded.map Prod.fst).Perm (st'.recorded.map Prod.fst) :=
    (h.results_perm alone halted).trans (h'.results_perm alone halted').symm
  rw [h.valid.totals, h'.valid.totals]
  exact Totals.sortByPackage_ofSuites hperm ((h.packages_perm halted).nodup_iff.2 distinct)

end Schedule.Reachable

/-! ## How a run ends -/

namespace Session

/-- How a whole run ends, given what was found for its path, and what is seen until then. -/
inductive Ends (ctx : Context ω) (files : Files) (path : String) (w : ω) :
    Except DiscoveryError (List String) → List (Happening ω) → Except RunError Totals → Prop where
  | undiscovered (cause : DiscoveryError) :
      Ends ctx files path w (.error cause) [] (.error (.discovery path cause))
  /-- All files have been read, but there is no gate as wide as that. -/
  | tooWide {paths : List String} {log : List (Happening ω)} {readings : List Reading}
      (run : Run ctx files paths ctx.settings.parallel w log (.loading readings))
      (ended : ∀ r ∈ readings, r.2.isSome = true) (wide : gateLimit < ctx.settings.parallel) :
      Ends ctx files path w (.ok paths) log (.error .gateTooWide)
  /-- Nobody can go on. -/
  | halted {paths : List String} {log : List (Happening ω)} {suites : List Suite} {st : Schedule ω}
      (gate : ctx.settings.parallel ≤ gateLimit)
      (run : Run ctx files paths ctx.settings.parallel w log (.running suites st))
      (halted : st.Halted ctx (Schedule.capacity suites)) :
      Ends ctx files path w (.ok paths) log (.ok st.totals.sortByPackage)

section Ends

variable {ctx : Context ω} {files : Files} {path : String} {paths : List String} {w : ω}
  {found : Except DiscoveryError (List String)} {log : List (Happening ω)}

/-- A run that leaves totals was a schedule of the suites in the files that were found. -/
theorem Ends.exists_schedule {totals : Totals}
    (h : Ends ctx files path w (.ok paths) log (.ok totals)) :
    ∃ st : Schedule ω, st.Reachable ctx ctx.settings.parallel (loadAll files paths) w
      ∧ st.Halted ctx (Schedule.capacity (loadAll files paths))
      ∧ totals = st.totals.sortByPackage := by
  cases h with
  | @halted _ _ suites st gate run halted =>
    obtain ⟨rfl, _, _, _, _, _, moves⟩ := run.exists_moves
    exact ⟨st, moves.reachable, halted, rfl⟩

/-- A run leaves totals iff there are files to run and a gate to run them behind. -/
theorem Ends.isOk_iff {result : Except RunError Totals}
    (h : Ends ctx files path w found log result) : (∃ totals, result = .ok totals)
      ↔ (∃ paths, found = .ok paths) ∧ ctx.settings.parallel ≤ gateLimit := by
  cases h with
  | undiscovered cause => exact iff_of_false (fun ⟨_, h⟩ => nomatch h) fun ⟨⟨_, h⟩, _⟩ => nomatch h
  | tooWide run ended wide => exact iff_of_false (fun ⟨_, h⟩ => nomatch h) fun h => by omega
  | halted gate => exact iff_of_true ⟨_, rfl⟩ ⟨⟨_, rfl⟩, gate⟩

/-- A run that breaks off has read files at most. -/
theorem Ends.quiet {e : RunError} (h : Ends ctx files path w found log (.error e)) :
    ∀ happening ∈ log, ∃ i, happening = .loaded i := by
  cases h with
  | undiscovered cause => exact fun _ h => absurd h List.not_mem_nil
  | tooWide run => exact run.reads.quiet

end Ends

/-- A run whose files are not found does not begin. -/
theorem runAll_of_undiscovered {ctx : Context ω} {files : Files} {path : String}
    {cause : DiscoveryError} (undiscovered : discover files path = .error cause) (b : Bench ω) :
    runAll ctx files path b = .error (.discovery path cause) := by
  rw [runAll, undiscovered]
  rfl

/-- A run whose files are found, and whose gate is not too wide, leaves what its suites leave in turn. -/
theorem runAll_of_found {ctx : Context ω} {files : Files} {path : String} {paths : List String}
    (found : discover files path = .ok paths) (gate : ctx.settings.parallel ≤ gateLimit)
    (b : Bench ω) : runAll ctx files path b
      = .ok { totals := (collect (runEach ctx (loadAll files paths) b).1).sortByPackage
              finished := (runEach ctx (loadAll files paths) b).1
              bench := (runEach ctx (loadAll files paths) b).2 } := by
  rw [runAll, found]
  exact if_neg (Nat.not_lt.2 gate)

/-- The run in file order ends in one of these ways. -/
theorem runAll_ends (ctx : Context ω) (files : Files) (path : String) (w : ω) :
    ∃ log, Ends ctx files path w (discover files path) log
      ((runAll ctx files path ⟨w, 0⟩).map (·.totals)) := by
  cases hfound : discover files path with
  | error cause =>
    rw [runAll_of_undiscovered hfound]
    exact ⟨[], .undiscovered cause⟩
  | ok paths =>
    -- the gate is built when all files have been read, and before any suite is let in
    by_cases hgate : gateLimit < ctx.settings.parallel
    · have hrun : runAll ctx files path ⟨w, 0⟩ = .error .gateTooWide := by
        rw [runAll, hfound]
        exact if_pos hgate
      obtain ⟨log, hread⟩ :=
        exists_reading ctx files paths ctx.settings.parallel w paths [] (List.append_nil paths).symm
      rw [List.map_nil, List.append_nil] at hread
      rw [hrun]
      exact ⟨log, .tooWide hread (List.forall_mem_map.2 fun _ _ => rfl) hgate⟩
    · have gate : ctx.settings.parallel ≤ gateLimit := Nat.le_of_not_lt hgate
      obtain ⟨log, run⟩ := exists_run
        (Schedule.fileOrder_reachable ctx ctx.settings.parallel (loadAll files paths) w)
      rw [runAll_of_found hfound gate]
      exact ⟨log, .halted gate run (Schedule.idle_halted _ _ _ _)⟩

/-! ## What rejected files cannot disturb -/

/-- What a run of some files leaves, if the gate is not too wide: what the accepted ones alone leave. -/
structure Undisturbed (ctx : Context ω) (files : Files) (path : String) (w : ω)
    (paths : List String) : Prop where
  distinct : files.Sound → (accepted files paths).Nodup
  /-- There is a suite of each accepted file, and of no other one. -/
  suites : ∀ log result, Ends ctx files path w (.ok paths) log result →
    ∃ totals, result = .ok totals ∧ (totals.suites.map (·.package)).Perm (accepted files paths)
  /-- In whatever order steps are taken, with the accepted files alone in this tree or in another one:
      if no suite notices the others, the totals are the same. -/
  alone : files.Sound → ∀ result, Schedule.ResultsAlone ctx (loadAll files paths) w result →
    ∀ files' path', (∀ p ∈ accepted files paths, loadSuite files' p = loadSuite files p) →
      ∀ log log' left left', Ends ctx files path w (.ok paths) log left →
        Ends ctx files' path' w (.ok (accepted files paths)) log' left' → left' = left
  /-- Suites that run in turn may notice what they like. -/
  inTurn : ∀ files' path', (∀ p ∈ accepted files paths, loadSuite files' p = loadSuite files p) →
    discover files' path' = .ok (accepted files paths) →
      ∀ b, runAll ctx files' path' b = runAll ctx files path b

/-- What is accepted is not disturbed by what is rejected. -/
theorem undisturbed {ctx : Context ω} {files : Files} {path : String} {w : ω} {paths : List String}
    (found : discover files path = .ok paths) (gate : ctx.settings.parallel ≤ gateLimit) :
    Undisturbed ctx files path w paths := by
  have nodup (sound : files.Sound) : (accepted files paths).Nodup :=
    (discover_nodup sound found).filter _
  refine ⟨nodup, ?_, ?_, ?_⟩
  · intro log result h
    obtain ⟨totals, rfl⟩ := h.isOk_iff.2 ⟨⟨_, rfl⟩, gate⟩
    obtain ⟨st, reach, halted, rfl⟩ := h.exists_schedule
    exact ⟨_, rfl, packages_loadAll files paths ▸ reach.packages_totals halted⟩
  · intro sound result alone files' path' alike log log' left left' h h'
    obtain ⟨totals, rfl⟩ := h.isOk_iff.2 ⟨⟨_, rfl⟩, gate⟩
    obtain ⟨totals', rfl⟩ := h'.isOk_iff.2 ⟨⟨_, rfl⟩, gate⟩
    obtain ⟨st, reach, halted, rfl⟩ := h.exists_schedule
    obtain ⟨st', reach', halted', rfl⟩ := h'.exists_schedule
    rw [loadAll_accepted alike] at reach' halted'
    -- accepted files have different paths, and paths are packages, so the totals have one order
    have distinct : ((loadAll files paths).map (·.package)).Nodup :=
      packages_loadAll files paths ▸ nodup sound
    rw [reach'.totals_unique alone distinct halted' reach halted]
  · intro files' path' alike found' b
    rw [runAll, runAll, found, found']
    show (if gateLimit < ctx.settings.parallel then _ else _) = if _ then _ else _
    rw [loadAll_accepted alike]

end Session

/-- **Files that are rejected leave no trace.**  Every run ends, and it leaves totals iff its files can be
    discovered and there is a gate as wide as it asks for; otherwise it breaks off before any suite is
    let in.  If it leaves totals, there is a suite of each accepted file and of no other one in them, and
    they are what the accepted files alone leave. -/
theorem rejected_files_leave_no_trace (ctx : Context ω) (files : Files) (path : String) (w : ω) :
    (∃ log result, Session.Ends ctx files path w (discover files path) log result)
      ∧ (∀ log result, Session.Ends ctx files path w (discover files path) log result →
        ((∃ totals, result = .ok totals)
          ↔ (∃ paths, discover files path = .ok paths) ∧ ctx.settings.parallel ≤ gateLimit))
      ∧ (∀ log e, Session.Ends ctx files path w (discover files path) log (.error e) →
        (∀ happening ∈ log, ∃ i, happening = .loaded i)
          ∧ ∀ cause, discover files path = .error cause → e = .discovery path cause)
      ∧ ∀ paths, discover files path = .ok paths → ctx.settings.parallel ≤ gateLimit →
        Session.Undisturbed ctx files path w paths := by
  refine ⟨?_, fun log result h => h.isOk_iff, fun log e h => ⟨h.quiet, ?_⟩,
    fun paths found gate => Session.undisturbed found gate⟩
  · obtain ⟨log, h⟩ := Session.runAll_ends ctx files path w
    exact ⟨log, _, h⟩
  · -- without files there is one way to end only
    intro cause hcause
    rw [hcause] at h
    cases h
    rfl

/-- Three files, of which one is no YAML and one is no text, and the first one alone. -/
theorem rejected_files_leave_no_trace_three_files :
    let text := "name: a\ntestcases:\n  - name: c\n    steps:\n      - type: missing\n"
    let file (bytes : Text.Utf8.Bytes) : FileNode := .file bytes FileNode.standardMode
    let good : String × FileNode := ("a.yml", file (Text.Utf8.encode text.toList))
    let files : Files := ⟨.directory [good, ("b.yml", file (Text.Utf8.encode "name: [".toList)),
      ("c.yml", file [0xFF])], []⟩
    let files' : Files := ⟨.directory [good], []⟩
    let ctx : Context Unit := ⟨Aliases.empty, Registry.empty, Settings.standard⟩
    ∃ log log' totals, Session.Ends ctx files "." () (discover files ".") log (.ok totals)
      ∧ Session.Ends ctx files' "." () (discover files' ".") log' (.ok totals)
      ∧ totals.suites.map (·.package) = ["./a.yml"] ∧ totals.ko = 1 := by
  intro text file good files files' ctx
  let paths := ["./a.yml", "./b.yml", "./c.yml"]
  have sound : files.Sound := by
    have hname (name : String) (h : name = "a.yml" ∨ name = "b.yml" ∨ name = "c.yml") :
        IsName name := by
      rcases h with rfl | rfl | rfl <;> exact ⟨by decide, by decide, by decide, by decide⟩
    refine .directory (by decide) ?_ ?_
    · exact List.forall_mem_cons.2 ⟨hname _ (.inl rfl), List.forall_mem_cons.2
        ⟨hname _ (.inr (.inl rfl)), List.forall_mem_singleton.2 (hname _ (.inr (.inr rfl)))⟩⟩
    · exact List.forall_mem_cons.2 ⟨.file _ _, List.forall_mem_cons.2
        ⟨.file _ _, List.forall_mem_singleton.2 (.file _ _)⟩⟩
  have hsorted (ps : List String) (h : ps.Pairwise (Path.le · ·)) : sortPaths ps = ps :=
    List.mergeSort_of_pairwise h
  have found : discover files "." = .ok paths := by
    have hdirectory : files.isDirectory "." = true := by decide +kernel
    have hkept : (paths.filter fun path => files.isFile path
        && (some suiteExtension).all (Path.extension? path == some ·)) = paths := by decide +kernel
    rw [discover, if_pos hdirectory, filesIn, show files.list "." = .ok _ from rfl]
    exact congrArg Except.ok ((congrArg sortPaths hkept).trans (hsorted paths (by decide)))
  have haccepted : accepted files paths = ["./a.yml"] := by decide +kernel
  have found' : discover files' "." = .ok (accepted files paths) := by
    have hdirectory : files'.isDirectory "." = true := by decide +kernel
    have hkept : (["./a.yml"].filter fun path => files'.isFile path
        && (some suiteExtension).all (Path.extension? path == some ·)) = ["./a.yml"] := by
      decide +kernel
    rw [discover, if_pos hdirectory, filesIn, show files'.list "." = .ok _ from rfl, haccepted]
    exact congrArg Except.ok ((congrArg sortPaths hkept).trans (hsorted _ (by decide)))
  -- the one accepted file reads the same in both trees
  have alike : ∀ p ∈ accepted files paths, loadSuite files' p = loadSuite files p := by
    have hread : files'.readText "./a.yml" = files.readText "./a.yml" := by decide +kernel
    rw [haccepted, List.forall_mem_singleton, loadSuite, loadSuite, hread]
  have blind : ctx.Blind := fun _ _ _ _ _ _ => rfl
  have gate : ctx.settings.parallel ≤ gateLimit := by decide
  obtain ⟨log, run⟩ := Session.exists_run (Schedule.fileOrder_reachable ctx 1 (loadAll files paths) ())
  obtain ⟨log', run'⟩ := Session.exists_run
    (Schedule.fileOrder_reachable ctx 1 (loadAll files' (accepted files paths)) ())
  have ends : Session.Ends ctx files "." () (.ok paths) log _ :=
    .halted gate run (Schedule.idle_halted _ _ _ _)
  have ends' : Session.Ends ctx files' "." () (.ok (accepted files paths)) log' _ :=
    .halted gate run' (Schedule.idle_halted _ _ _ _)
  have undisturbed := (rejected_files_leave_no_trace ctx files "." ()).2.2.2 paths found gate
  have heq := undisturbed.alone sound _ (Schedule.resultsAlone_of_blind blind _ ()) files' "." alike
    _ _ _ _ ends ends'
  obtain ⟨_, htotals, hpackages⟩ := undisturbed.suites _ _ ends
  injection htotals with htotals
  rw [← htotals, haccepted, List.perm_singleton] at hpackages
  rw [heq] at ends'
  refine ⟨log, log', _, found ▸ ends, found' ▸ ends', hpackages, ?_⟩
  show (collect (runEach ctx (loadAll files paths) ⟨(), 0⟩).1).ko = 1
  decide +kernel

end TestBench
