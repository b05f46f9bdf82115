import Mathlib
import TestBench.Proofs.CaseEnd
import TestBench.Proofs.Decoding
import TestBench.Proofs.Totals
import TestBench.Report.Csv
import TestBench.Report.Table
/-
  The two ways of counting agree.

  A suite counts the records in its cases; the totals of a run put each case into one of three counts.
  Both are taken at different moments: when a suite is prepared, when it has run, and when it is
  recorded.

  1. A run only adds records to cases, and none to skipped ones (`Case.RunTo`), and takes its counters
     from them (`Suite.RanTo`), whatever its requests are answered (`Suite.ranTo_of_canEnd`).
  2. The suites that reach the totals hold no record in a skipped case and have counters that were
     taken from their cases (`Suite.Counted`).  For such a suite the three counts of recording are the
     numbers of skipped, failed and passed cases, and its own marks agree with them.
  3. A `Launch` follows a suite from its document to the end of its run.  Every launch ends in a counted
     suite (`Launch.counted`), whatever the executors do.
-/
namespace TestBench

variable {σ ω : Type}

/-! ## What a run does to the cases -/

/-- A case after a run: it holds more records at most, and is as before if it is skipped. -/
def Case.RunTo (c c' : Case) : Prop := (c.skipped = true → c' = c) ∧ ∃ v, c' = c.addRecords v

/-- Every case after a run was there before. -/
theorem exists_of_runTo {cases cases' : List Case} (h : List.Forall₂ Case.RunTo cases cases') :
    ∀ c' ∈ cases', ∃ c ∈ cases, c.RunTo c' := by
  induction h with
  | nil => exact fun c' hc' => absurd hc' List.not_mem_nil
  | @cons c _ _ _ hc _ ih =>
    intro c' hc'
    rcases List.mem_cons.1 hc' with rfl | hc'
    · exact ⟨c, List.mem_cons_self, hc⟩
    · obtain ⟨c₀, hc₀, hrun⟩ := ih c' hc'
      exact ⟨c₀, List.mem_cons_of_mem c hc₀, hrun⟩

/-- What does not look at records is the same after a run. -/
theorem map_of_runTo {β : Type} {f : Case → β} (blind : ∀ c v, f (c.addRecords v) = f c)
    {cases cases' : List Case} (h : List.Forall₂ Case.RunTo cases cases') :
    cases'.map f = cases.map f := by
  induction h with
  | nil => rfl
  | @cons c _ _ _ hc _ ih =>
    obtain ⟨_, v, rfl⟩ := hc
    rw [List.map_cons, List.map_cons, ih, blind c v]

/-- A case only gains records, whatever the requests of its steps are answered. -/
theorem adds_of_canEnd_stepsTask {call : Call} {k : Nat} (steps : List Step) :
    ∀ (i : Nat) (c c' : Case), (stepsTask call k i steps c : Task ω Case).CanEnd c' →
      ∃ v, c' = c.addRecords v := by
  induction steps with
  | nil =>
    intro i c c' h
    have hsame : c' = c := Task.canEnd_done_iff.1 h
    exact ⟨Verdict.clean, hsame.trans c.addRecords_clean.symm⟩
  | cons step rest ih =>
    intro i c c' h
    cases h with
    | @resolving _ _ _ found _ h =>
      cases found with
      | error e => exact ⟨_, Task.canEnd_done_iff.1 h⟩
      | ok r =>
        obtain ⟨o, _, h⟩ := Task.canEnd_bind h
        dsimp only at h
        split at h
        · -- a step that lets the next one run has left no record
          rename_i hclean
          rw [Verdict.isOk_iff.1 hclean, Case.addRecords_clean] at h
          exact ih (i + 1) c c' h
        · exact ⟨_, Task.canEnd_done_iff.1 h⟩

/-- However the cases of a suite end, each one is what its own case ran to. -/
theorem runTo_of_canEnd_casesTask {aliases : Aliases} {suite workdir : String} (cases : List Case) :
    ∀ (k : Nat) (cases' : List Case),
      (casesTask aliases suite workdir k cases : Task ω (List Case)).CanEnd cases' →
        List.Forall₂ Case.RunTo cases cases' := by
  induction cases with
  | nil =>
    intro k cases' h
    rw [Task.canEnd_done_iff.1 h]
    exact .nil
  | cons c rest ih =>
    intro k cases' h
    obtain ⟨c', hc, h⟩ := Task.canEnd_bind h
    obtain ⟨rest', hrest, rfl⟩ := Task.canEnd_map h
    refine .cons ?_ (ih (k + 1) rest' hrest)
    -- a skipped case has no task to speak of, any other one ends as its steps do
    by_cases hskip : c.skipped = true
    · rw [if_pos hskip] at hc
      have hsame : c' = c := Task.canEnd_done_iff.1 hc
      exact ⟨fun _ => hsame, Verdict.clean, hsame.trans c.addRecords_clean.symm⟩
    · rw [if_neg hskip] at hc
      exact ⟨fun h => absurd h hskip, adds_of_canEnd_stepsTask c.steps 0 c c' hc⟩

/-- A suite after a run: its cases have gone their ways, and its counters were taken from them. -/
structure Suite.RanTo (s s' : Suite) : Prop where
  cases : List.Forall₂ Case.RunTo s.cases s'.cases
  counters : s' = ({ s with cases := s'.cases }).countRecords

/-- A suite ends so, whatever its run is answered. -/
theorem Suite.ranTo_of_canEnd {ctx : Context ω} {s s' : Suite} (h : (ctx.task s).CanEnd s') :
    s.RanTo s' := by
  obtain ⟨cases', hcases, rfl⟩ := Task.canEnd_map h
  exact ⟨runTo_of_canEnd_casesTask s.cases 0 cases' hcases, rfl⟩

section Events

variable (ctx : Context ω) (suite workdir : String)

/-- Things happen only at cases that are not skipped. -/
theorem events_casesTask (cases : List Case) : ∀ (k : Nat) (w : ω),
    ∀ e ∈ (casesTask ctx.aliases suite workdir k cases).events ctx w,
      ∃ i c, e.site.case = k + i ∧ cases[i]? = some c ∧ c.skipped = false := by
  induction cases with
  | nil =>
    intro k w e he
    cases he
  | cons c rest ih =>
    intro k w e he
    rw [casesTask, Task.events_bind, List.mem_append, Task.events_map] at he
    rcases he with he | he
    · -- the case itself is next, and a skipped one asks for nothing
      by_cases hskip : c.skipped = true
      · rw [if_pos hskip] at he
        cases he
      · rw [if_neg hskip] at he
        exact ⟨0, c, (runSteps_go ctx _ k c.steps 0 c ⟨w, 0⟩).site e he, rfl,
          Bool.eq_false_iff.2 hskip⟩
    · obtain ⟨i, c', hsite, hget, hskip⟩ := ih (k + 1) _ e he
      exact ⟨i + 1, c', by omega, hget, hskip⟩

end Events

/-! ## Counts over cases -/

namespace Suite

/-- Counting over the cases is taking the sum of their counts. -/
theorem countOver_eq_sum (count : Case → Nat) (cases : List Case) :
    countOver count cases = (cases.map count).sum := by
  induction cases with
  | nil => rfl
  | cons c rest ih => rw [countOver, ih, List.map_cons, List.sum_cons]

/-- Nothing is counted iff there is nothing in any case. -/
theorem countOver_eq_zero_iff {count : Case → Nat} {cases : List Case} :
    countOver count cases = 0 ↔ ∀ c ∈ cases, count c = 0 := by
  rw [countOver_eq_sum, List.sum_eq_zero_iff]
  exact List.forall_mem_map

/-- A suite that has been run: its counters were taken from its cases, and its skipped cases hold no
    record. -/
structure Counted (s : Suite) : Prop where
  total : s.total = s.cases.length
  failures : s.failures = countOver (·.failures.length) s.cases
  errors : s.errors = countOver (·.errors.length) s.cases
  skipped : s.skipped = s.cases.countP (·.skipped)
  unrun : ∀ c ∈ s.cases, c.skipped = true → c.Unrun

/-- A suite before its run, as files give it: it has counted its cases, and no case has run. -/
structure Waits (s : Suite) : Prop where
  total : s.total = s.cases.length
  unrun : ∀ c ∈ s.cases, c.Unrun

/-- A suite that waited is counted once it has run. -/
theorem RanTo.counted {s s' : Suite} (h : s.RanTo s') (waits : s.Waits) : s'.Counted where
  total := by
    have hlength : s.cases.length = s'.cases.length := h.cases.length_eq
    rw [h.counters]
    exact waits.total.trans hlength
  failures := by
    rw [h.counters]
    rfl
  errors := by
    rw [h.counters]
    rfl
  skipped := by
    rw [h.counters]
    rfl
  unrun := by
    intro c' hc' hskip
    obtain ⟨c, hc, hsame, v, hadds⟩ := exists_of_runTo h.cases c' hc'
    -- a case keeps its mark, so it was skipped before the run, and then nothing was done to it
    have hskipped : c.skipped = true := by
      rw [hadds] at hskip
      exact hskip
    rw [hsame hskipped]
    exact waits.unrun c hc

end Suite

namespace Case

/-- A case has not failed iff it has no records. -/
theorem isFailed_eq_false_iff {c : Case} : c.isFailed = false ↔ c.Unrun := by
  rw [isFailed, records, decide_eq_false_iff_not]
  constructor
  · intro h
    exact ⟨List.length_eq_zero_iff.1 (by omega), List.length_eq_zero_iff.1 (by omega)⟩
  · rintro ⟨hfailures, herrors⟩
    rw [hfailures, herrors]
    exact Nat.lt_irrefl 0

/-- Whether a case ran and holds a record. -/
def ko (c : Case) : Bool := !c.skipped && c.isFailed

/-- Whether a case ran and holds no record. -/
def ok (c : Case) : Bool := !c.skipped && !c.isFailed

/-- Every case is in exactly one of the three counts. -/
theorem length_eq_counts (cases : List Case) :
    cases.length = cases.countP ok + cases.countP ko + cases.countP (·.skipped) := by
  induction cases with
  | nil => rfl
  | cons c rest ih =>
    rw [List.length_cons, List.countP_cons, List.countP_cons, List.countP_cons, ih, ok, ko]
    cases c.skipped <;> cases c.isFailed <;> simp only [Bool.not_true, Bool.not_false,
      Bool.false_and, Bool.true_and, if_true, if_false, Bool.false_eq_true] <;> omega

end Case

namespace Suite

variable {s : Suite}

/-- Skipped cases hold no record, so the failed cases are failed cases that ran. -/
theorem Counted.failedCases (h : s.Counted) : s.failedCases = s.cases.countP Case.ko := by
  rw [Suite.failedCases]
  refine List.countP_congr ?_
  intro c hc
  rw [Case.ko]
  by_cases hskip : c.skipped = true
  · rw [Case.isFailed_eq_false_iff.2 (h.unrun c hc hskip), Bool.and_false]
  · rw [Bool.eq_false_iff.2 hskip, Bool.not_false, Bool.true_and]

/-- The three counts of recording make up the total, so the difference in it is exact. -/
theorem Counted.total_eq (h : s.Counted) :
    s.total = s.cases.countP Case.ok + s.failedCases + s.skipped := by
  rw [h.total, h.failedCases, h.skipped]
  exact Case.length_eq_counts s.cases

theorem Counted.okCases (h : s.Counted) : s.okCases = s.cases.countP Case.ok := by
  have := h.total_eq
  rw [Suite.okCases]
  omega

/-- A suite has passed iff none of its cases has failed. -/
theorem Counted.passed_iff (h : s.Counted) : s.passed = true ↔ s.failedCases = 0 := by
  rw [passed, Bool.and_eq_true, beq_iff_eq, beq_iff_eq, h.failures, h.errors,
    countOver_eq_zero_iff, countOver_eq_zero_iff, Suite.failedCases, List.countP_eq_zero]
  constructor
  · rintro ⟨hfailures, herrors⟩ c hc
    rw [Bool.not_eq_true, Case.isFailed_eq_false_iff]
    exact ⟨List.length_eq_zero_iff.1 (hfailures c hc), List.length_eq_zero_iff.1 (herrors c hc)⟩
  · intro hunrun
    have hclean (c : Case) (hc : c ∈ s.cases) : c.Unrun :=
      Case.isFailed_eq_false_iff.1 (Bool.not_eq_true _ ▸ hunrun c hc)
    exact ⟨fun c hc => List.length_eq_zero_iff.2 (hclean c hc).failures,
      fun c hc => List.length_eq_zero_iff.2 (hclean c hc).errors⟩

end Suite

/-! ## The totals of counted suites -/

namespace Totals

/-- What totals say of the suites that were recorded, in terms of their cases. -/
structure Accounts (t : Totals) (recorded : List Suite) : Prop where
  suites : t.suites = recorded
  balance : t.total = t.ok + t.ko + t.skipped
  suiteTotals : t.total = (recorded.map (·.total)).sum
  cases : t.total = (recorded.flatMap (·.cases)).length
  skipped : t.skipped = (recorded.flatMap (·.cases)).countP (·.skipped)
  ko : t.ko = (recorded.flatMap (·.cases)).countP Case.ko
  ok : t.ok = (recorded.flatMap (·.cases)).countP Case.ok
  isOk : t.isOk = true ↔ ∀ s ∈ recorded, s.passed = true

/-- A count over the cases of all suites is the sum of the counts that the suites have. -/
theorem sum_eq_countP {suites : List Suite} {count : Suite → Nat} {p : Case → Bool}
    (h : ∀ s ∈ suites, count s = s.cases.countP p) :
    (suites.map count).sum = (suites.flatMap (·.cases)).countP p := by
  rw [List.countP_flatMap, List.map_congr_left h]
  rfl

/-- The totals of counted suites account for all their cases. -/
theorem accounts_ofSuites {suites : List Suite} (counted : ∀ s ∈ suites, s.Counted) :
    Accounts (ofSuites suites) suites := by
  have hok := sum_eq_countP fun s hs => (counted s hs).okCases
  have hko := sum_eq_countP fun s hs => (counted s hs).failedCases
  have hskipped := sum_eq_countP fun s hs => (counted s hs).skipped
  -- recording has no count of all cases, so it is the three counts that add up to them
  have hcases : (suites.flatMap (·.cases)).length = (suites.map Suite.okCases).sum
      + (suites.map Suite.failedCases).sum + (suites.map Suite.skipped).sum := by
    rw [Case.length_eq_counts, hok, hko, hskipped]
  have htotals : (suites.map (·.total)).sum = (suites.flatMap (·.cases)).length := by
    rw [List.length_flatMap, List.map_congr_left fun s hs => (counted s hs).total]
  rw [ofSuites_eq]
  refine ⟨rfl, rfl, hcases.symm.trans htotals.symm, hcases.symm, hskipped, hko, hok, ?_⟩
  rw [isOk, beq_iff_eq, List.sum_eq_zero_iff, List.forall_mem_map]
  exact forall₂_congr fun s hs => (counted s hs).passed_iff.symm

end Totals

/-! ## From a document to the totals -/

/-- A suite on its way from its document to the end of its run, with whatever executors there are. -/
structure Launch (format : Format σ) where
  source : σ
  package : String
  decoded : Suite
  decodes : decodeSuite format source = .ok decoded
  World : Type
  context : Context World
  bench : Bench World

namespace Launch

variable {format : Format σ} (l : Launch format)

/-- The suite before its run. -/
def prepared : Suite := l.decoded.prepare l.package

/-- The suite after its run. -/
def ran : Suite := (runSuite l.context l.prepared l.bench).1

/-- The run as a task. -/
def task : Task l.World Suite := l.context.task l.prepared

/-- Nothing has run yet. -/
theorem waits : l.prepared.Waits := ⟨rfl, (unrun_of_decodeSuite l.decodes).cases⟩

theorem ranTo : l.prepared.RanTo l.ran := by
  have hend := Task.canEnd_play l.context l.task l.bench.world
  rw [task, play_suiteTask] at hend
  exact Suite.ranTo_of_canEnd hend

theorem counted : l.ran.Counted := l.ranTo.counted l.waits

/-- Skip marks stay as they are. -/
theorem countP_skipped :
    l.ran.cases.countP (·.skipped) = l.prepared.cases.countP (·.skipped) := by
  have hsame : l.ran.cases.map (·.skipped) = l.prepared.cases.map (·.skipped) :=
    map_of_runTo (fun _ _ => rfl) l.ranTo.cases
  have h := congrArg (List.countP id) hsame
  rw [List.countP_map, List.countP_map] at h
  exact h

/-- What holds of a suite once it has run. -/
structure Settled (l : Launch format) : Prop where
  played : l.task.play l.context l.bench.world
    = (l.ran, (runSuite l.context l.prepared l.bench).2.world)
  total : l.ran.total = l.prepared.total
  skipped : l.ran.skipped = l.prepared.skipped
  failures : l.ran.failures = (l.ran.cases.map (·.failures.length)).sum
  errors : l.ran.errors = (l.ran.cases.map (·.errors.length)).sum
  unrun : ∀ c ∈ l.ran.cases, c.skipped = true → c.Unrun
  /-- Nothing happened at a skipped case. -/
  untouched : ∀ e ∈ l.task.events l.context l.bench.world,
    ∃ c, l.prepared.cases[e.site.case]? = some c ∧ c.skipped = false
  /-- The difference that recording takes is never cut off. -/
  within : l.ran.failedCases + l.ran.skipped ≤ l.ran.total
  passed : l.ran.passed = true ↔ l.ran.failedCases = 0
  statusLine : ∀ elapsed details, ∃ rest, l.ran.statusLine elapsed details
    = (if l.ran.failedCases = 0 then "✅ " else "❌ ") ++ rest
  tableMark : ∀ color, ∃ rest, Table.suiteLine color l.ran
    = (if l.ran.failedCases = 0 then Table.paint color Table.green "✓"
        else Table.paint color Table.red "✗") ++ rest
  csvStatus : l.ran.csvRow.getLast? = some (if l.ran.failedCases = 0 then "ok" else "ko")

/-- A suite that was loaded and run has all its counts and marks in line. -/
theorem settled : l.Settled := by
  have hpassed := l.counted.passed_iff
  refine ⟨play_suiteTask l.context l.prepared l.bench, rfl, l.countP_skipped,
    Suite.countOver_eq_sum _ _, Suite.countOver_eq_sum _ _, l.counted.unrun, ?_, ?_, hpassed,
    ?_, ?_, ?_⟩
  · intro e he
    rw [task, Context.task, suiteTask, Task.events_map] at he
    -- whatever happens, happens at a case that is not skipped
    obtain ⟨i, c, hsite, hget, hskip⟩ := events_casesTask l.context _ _ _ 0 _ e he
    rw [hsite, Nat.zero_add]
    exact ⟨c, hget, hskip⟩
  · rw [l.counted.total_eq]
    omega
  · intro elapsed details
    simp only [Suite.statusLine, hpassed, String.append_assoc]
    exact ⟨_, rfl⟩
  · intro color
    simp only [Table.suiteLine, hpassed, String.append_assoc]
    exact ⟨_, rfl⟩
  · simp only [Suite.csvRow, hpassed]
    rfl

end Launch

/-- **All counts agree.**  Suites that decode, run and are recorded, in any order and with any
    executors: after each of them the totals put every case into the count that its records and its
    mark ask for, and every suite shows the outcome that it adds to the totals. -/
theorem launches_agree {format : Format σ} (launches : List (Launch format)) :
    (∀ n, Totals.Accounts (Totals.ofSuites ((launches.take n).map Launch.ran))
        ((launches.take n).map Launch.ran))
      ∧ ∀ l ∈ launches, l.Settled := by
  constructor
  · intro n
    refine Totals.accounts_ofSuites ?_
    intro s hs
    obtain ⟨l, _, rfl⟩ := List.mem_map.1 hs
    exact l.counted
  · exact fun l _ => l.settled

/-- A document with a case that finds no executor and a skipped one. -/
theorem launches_agree_missing_type :
    ∃ l : Launch Yaml.Node.format, l.ran.failedCases = 1 ∧ l.ran.skipped = 1 ∧ l.Settled := by
  let text (s : String) : Yaml.Node := .scalar none s true
  let first : Yaml.Node := .mapping none [(text "name", text "first"),
    (text "steps", .sequence none [.mapping none [(text "type", text "missing")]])]
  let second : Yaml.Node := .mapping none [(text "name", text "second"), (text "skip", text "true")]
  let l : Launch Yaml.Node.format :=
    { source := .mapping none [(text "name", text "suite"),
        (text "testcases", .sequence none [first, second])]
      package := "suite.yml", decoded := _, decodes := rfl, World := Unit
      context := ⟨⟨[]⟩, Registry.empty, Settings.standard⟩, bench := ⟨(), 0⟩ }
  exact ⟨l, rfl, rfl, (launches_agree [l]).2 l (List.mem_singleton_self l)⟩

end TestBench
