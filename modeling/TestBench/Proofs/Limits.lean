import Mathlib
import TestBench.Proofs.AttemptSequence
import TestBench.Proofs.ExitCode
/-
  What is counted in words of 64 bits, and what has a limit.

  1. A step counts its attempts in a word.  It makes all the attempts that it may iff none passes before
     the last one (`attemptCount_eq_iff`), so the word is too short for one number of attempts only, that
     of a step with the greatest number of retries (`length_invocations_eq_iff`).  There the count is
     nothing and the note is missing; everywhere else both are right (`counts_iff`).
  2. A gate has as many permits as the configuration says, and while suites run there are never more
     (`Schedule.Reachable.permits_le`).  Which configurations are accepted does not depend on the limit
     of the gate, so a run beyond it breaks off (`perform_broken_iff`).
  3. The channel holds one suite at least, and it has room whenever one is to be sent.
-/
namespace TestBench

open TestBench.CommandLine

variable {ω : Type}

/-! ## Attempts -/

/-- A step that has made a number of calls says how many there were, and so does its note, which comes
    behind the records of the calls. -/
structure StepOutcome.Counts (o : StepOutcome) (records : Verdict) (made : Nat) : Prop where
  attempts : o.attempts.toNat = made
  note : o.verdict = records ++ ⟨[], if o.passed = false ∧ 2 ≤ made then
    [s!"It's a failure after {made} attempt(s)"] else []⟩

section Sequences

variable {check : Observed → Verdict} {retry : Nat} {outcomes : Nat → Outcome}

/-- Every attempt is made iff all but the last one fail. -/
theorem attemptCount_eq_iff : attemptCount check retry outcomes = retry + 1
    ↔ ∀ i < retry, passes check (outcomes i) = false := by
  cases hfirst : firstPass? check retry outcomes with
  | none =>
    rw [attemptCount, hfirst]
    exact iff_of_true rfl fun i hi => firstPass?_eq_none_iff.1 hfirst i hi.le
  | some k =>
    -- the attempt that passes is the last one, so it is the last of all iff none passes before
    obtain ⟨hpasses, hk, hbefore⟩ := firstPass?_eq_some_iff.1 hfirst
    rw [attemptCount, hfirst]
    constructor
    · intro heq i hi
      have heq : k + 1 = retry + 1 := heq
      exact hbefore i (by omega)
    · intro hall
      by_contra hne
      have hne : ¬ k + 1 = retry + 1 := hne
      have hk := hall k (by omega)
      rw [hpasses] at hk
      cases hk

end Sequences

section Attempts

variable (ctx : Context ω) (site : Site) (r : Resolved ω) (step : Step) (call : Call) (b : Bench ω)

/-- A step makes as many calls as attempts. -/
theorem length_invocations_stepTask : ((stepTask site r step call).invocations ctx b.world).length
    = attemptCount (r.check step.assertions) r.retry (r.outcomes call b.world) := by
  rw [stepTask, Task.invocations_map,
    (attemptsTask_goes ctx site r step.assertions call r.retry StepOutcome.start b.world).2,
    List.length_map, List.length_range]

/-- The calls of a step are too many for a word iff it has the greatest number of retries, and no attempt
    passes before the last one. -/
theorem length_invocations_eq_iff (bound : r.retry < 2 ^ 64) :
    ((stepTask site r step call).invocations ctx b.world).length = 2 ^ 64 ↔ r.retry = 2 ^ 64 - 1
      ∧ ∀ i < r.retry, passes (r.check step.assertions) (r.outcomes call b.world i) = false := by
  rw [length_invocations_stepTask, ← attemptCount_eq_iff]
  have hle : attemptCount (r.check step.assertions) r.retry (r.outcomes call b.world)
    ≤ r.retry + 1 := attemptCount_le
  omega

/-- A step is its attempts one after another, with the note behind them. -/
theorem runStep_eq_conclude : (runStep ctx.settings r step call b).1
    = (StepOutcome.start.across (r.check step.assertions) r.retry
      (r.outcomes call b.world)).conclude := by
  let site : Site := ⟨0, 0⟩
  have hplay := play_stepTask ctx site r step call b
  rw [stepTask, Task.play_map,
    (attemptsTask_goes ctx site r step.assertions call r.retry StepOutcome.start b.world).1] at hplay
  exact (congrArg Prod.fst hplay).symm

/-- A step counts its calls right as long as they are not too many for a word.  If they are, it counts
    none and leaves no note. -/
theorem counts_iff (bound : r.retry < 2 ^ 64) :
    let records := recordsOf (r.check step.assertions) r.retry (r.outcomes call b.world)
    let made := ((stepTask site r step call).invocations ctx b.world).length
    let o := (runStep ctx.settings r step call b).1
    (o.Counts records made ↔ made < 2 ^ 64)
      ∧ (¬ made < 2 ^ 64 → made = 2 ^ 64 ∧ o.attempts = 0 ∧ o.verdict = records) := by
  intro records made o
  let before := StepOutcome.start.across (r.check step.assertions) r.retry (r.outcomes call b.world)
  have ho : o = before.conclude := runStep_eq_conclude ctx r step call b
  have hmade : made = attemptCount (r.check step.assertions) r.retry (r.outcomes call b.world) :=
    length_invocations_stepTask ctx site r step call b
  have hbefore : before.attempts = UInt64.ofNat made := by
    rw [hmade]
    exact UInt64.zero_add _
  have hverdict : before.verdict = records := rfl
  refine ⟨⟨fun h => h.attempts ▸ o.attempts.toNat_lt, fun hlt => ?_⟩, fun hge => ?_⟩
  · rw [ho, StepOutcome.conclude_eq hlt hbefore]
    exact ⟨hbefore ▸ UInt64.toNat_ofNat_of_lt' hlt, rfl⟩
  · have hle : made ≤ r.retry + 1 := hmade ▸ attemptCount_le
    -- with fewer than `2 ^ 64` retries the counter goes round once at most, and then to zero
    have hexact : made = 2 ^ 64 := by omega
    have hzero : before.attempts = 0 := by
      rw [hbefore, hexact]
      rfl
    have hconclude : before.conclude = before := by
      rw [StepOutcome.conclude, hzero]
      exact if_neg (by simp)
    rw [ho, hconclude]
    exact ⟨hexact, hzero, hverdict⟩

end Attempts

/-! ## Permits -/

/-- Permits are never more than there were at the beginning. -/
theorem Schedule.Reachable.permits_le {ctx : Context ω} {parallel : Nat} {suites : List Suite} {w : ω}
    {st : Schedule ω} (h : Reachable ctx parallel suites w st) : st.permits ≤ max 1 parallel :=
  h.valid.permits ▸ Nat.le_add_right _ _

/-- A run that is carried out and closed does not break off. -/
theorem Closes.code_ne {r : RunArguments} {c : Config} {lines : String} {run : Run} {m : Machine}
    {exit : Exit} (h : Closes r c lines run m exit) : exit.code ≠ Exit.codeBroken := by
  cases h with
  | failed => exact show Exit.codeError ≠ Exit.codeBroken by decide
  | reported =>
    show (if run.totals.isOk then Exit.codeOk else Exit.codeFailed) ≠ Exit.codeBroken
    split <;> decide

section Gate

variable {a : Arguments} {r : RunArguments} {m : Machine} {c : Config}

/-- A run that finds its files breaks off iff its gate would be too wide. -/
theorem perform_broken_iff (run : a.command = .run r) (configured : a.runConfiguration r m = .ok c)
    {paths : List String} (found : discover m.files r.path = .ok paths) (startedAt : Timestamp) :
    (perform a startedAt m).code = Exit.codeBroken ↔ gateLimit < c.settings.parallel := by
  obtain ⟨_, c₀, checked, hperform⟩ := perform_of_configuration run configured startedAt
  rw [hperform]
  by_cases hgate : gateLimit < c.settings.parallel
  · have hrun : runAll c.context m.files r.path ⟨m, 0⟩ = .error .gateTooWide := by
      rw [runAll, found]
      exact if_pos hgate
    rw [Config.context] at hrun
    refine iff_of_true ?_ hgate
    simp only [runCommand, checked, hrun]
  · refine iff_of_false ?_ hgate
    rw [runCommand_eq_close checked (Session.runAll_of_found found (Nat.le_of_not_lt hgate) ⟨m, 0⟩)]
    exact closes_close.code_ne

end Gate

/-- **Which limits are kept.**  An accepted configuration lets in at least one suite at a time, and the
    gate has as many permits as it says, then and later; but a run that finds its files breaks off iff
    these are more than a gate can have.  The channel always has room.  A step with any number of retries
    counts its calls right, in its counter and in its note, unless it has the greatest number and needs
    every attempt. -/
theorem limits_kept_iff :
    (∀ (a : Arguments) (r : RunArguments) (m : Machine) (startedAt : Timestamp) (c : Config),
      a.command = .run r → a.runConfiguration r m = .ok c →
        1 ≤ c.parallel
          ∧ (∀ suites, (Schedule.initial c.settings.parallel suites m).permits = c.parallel)
          ∧ ∀ paths, discover m.files r.path = .ok paths →
            ((perform a startedAt m).code = Exit.codeBroken ↔ gateLimit < c.parallel))
      ∧ (∀ suites, 1 ≤ Schedule.capacity suites)
      ∧ (∀ (ctx : Context ω) (parallel : Nat) (suites : List Suite) (w : ω) (st : Schedule ω),
        Schedule.Reachable ctx parallel suites w st →
          st.permits ≤ (Schedule.initial parallel suites w).permits
            ∧ (st.finished ≠ 0 → st.channel.length < Schedule.capacity suites))
      ∧ ∀ (ctx : Context ω) (site : Site) (r : Resolved ω) (step : Step) (call : Call) (b : Bench ω),
        r.retry < 2 ^ 64 →
          let outcomes := r.outcomes call b.world
          let made := ((stepTask site r step call).invocations ctx b.world).length
          (runStep ctx.settings r step call b).1.Counts
              (recordsOf (r.check step.assertions) r.retry outcomes) made
            ↔ ¬ (r.retry = 2 ^ 64 - 1
              ∧ ∀ i < r.retry, passes (r.check step.assertions) (outcomes i) = false) := by
  refine ⟨fun a r m startedAt c run configured => ?_, fun suites => Nat.le_max_left _ _,
    fun ctx parallel suites w st h => ⟨h.permits_le, h.valid.channel_lt⟩, ?_⟩
  · -- a configuration that is accepted asks for one suite at least, so nothing is raised to one
    obtain ⟨valid, _⟩ := perform_of_configuration run configured startedAt
    have hparallel : c.settings.parallel = c.parallel := Nat.max_eq_right valid.1
    refine ⟨valid.1, fun suites => ?_, fun paths found => ?_⟩
    · rw [hparallel]
      exact Nat.max_eq_right valid.1
    · rw [← hparallel]
      exact perform_broken_iff run configured found startedAt
  · intro ctx site r step call b bound
    have hle : ((stepTask site r step call).invocations ctx b.world).length ≤ 2 ^ 64 := by
      have hcount : attemptCount (r.check step.assertions) r.retry (r.outcomes call b.world)
        ≤ r.retry + 1 := attemptCount_le
      rw [length_invocations_stepTask]
      omega
    have hiff := (counts_iff ctx site r step call b bound).1
    have hexact := length_invocations_eq_iff ctx site r step call b bound
    intro outcomes made
    rw [hiff, ← hexact]
    omega

/-- A file that asks for one suite more than a gate can let in, a suite that waits to be sent, and steps
    that never pass, with two retries and with as many as there can be. -/
theorem limits_kept_iff_beyond :
    let file (text : String) : FileNode :=
      .file (Text.Utf8.encode text.toList) FileNode.standardMode
    let m : Machine := ⟨⟨.directory [("a.yml", file "name: s"),
      ("stepwise.yml", file "parallel: 2305843009213693952\n")], []⟩, []⟩
    let r : RunArguments := ⟨"a.yml", [], none, none, none, none, none, false⟩
    let s : Suite := .fresh "s" []
    let ctx : Context Nat := ⟨Aliases.empty, Registry.empty, Settings.standard⟩
    let step : Step := ⟨[]⟩
    let call : Call := { aliases := Aliases.empty, suite := "suite", case := "case", workdir := "." }
    let counts (r : Resolved Nat) : Prop := (runStep ctx.settings r step call ⟨0, 0⟩).1.Counts
      (recordsOf (r.check step.assertions) r.retry (r.outcomes call 0))
      ((stepTask ⟨0, 0⟩ r step call).invocations ctx 0).length
    (perform ⟨none, none, .run r⟩ ⟨0, 0⟩ m).code = 101
      ∧ (∃ st, Schedule.Reachable ctx 1 [s] 0 st ∧ st.finished ≠ 0 ∧ st.channel.length < 1)
      ∧ (∃ r : Resolved Nat, r.retry = 2 ∧ counts r)
      ∧ ∃ r : Resolved Nat, r.retry = 2 ^ 64 - 1 ∧ ¬ counts r := by
  intro file m r s ctx step call counts
  obtain ⟨accepted, _, reached, steps⟩ := limits_kept_iff (ω := Nat)
  have configured : (⟨none, none, .run r⟩ : Arguments).runConfiguration r m
      = .ok { Config.standard with parallel := 2 ^ 61 } := ok_of_toOption (by decide +kernel)
  have found : discover m.files r.path = .ok ["a.yml"] := ok_of_toOption (by decide +kernel)
  have failing (retry : Nat) := exists_outcomes (fun _ => .error (.invocation "no")) none retry 0 1 call
  refine ⟨?_, ?_, ?_, ?_⟩
  · obtain ⟨_, _, broken⟩ := accepted _ r m ⟨0, 0⟩ _ rfl configured
    exact (broken _ found).2 (by decide)
  · let began : Schedule Nat := { Schedule.initial 1 [s] 0 with
      waiting := [], permits := 0, running := (ctx.task s, 0) ::ₘ 0 }
    let ended : Schedule Nat := { began with
      running := 0, permits := 1, finished := (s.countRecords, 0) ::ₘ 0 }
    have start : Schedule.Step ctx 1 (Schedule.initial 1 [s] 0) began := .start rfl rfl
    have finish : Schedule.Step ctx 1 began ended := .finish rfl
    have reach : Schedule.Reachable ctx 1 [s] 0 ended := .tail (.single start) finish
    have unsent : ended.finished ≠ 0 := show (s.countRecords, 0) ::ₘ 0 ≠ 0 from Multiset.cons_ne_zero
    exact ⟨ended, reach, unsent, (reached ctx 1 [s] 0 ended reach).2 unsent⟩
  · obtain ⟨r, _, hretry, _, _, _⟩ := failing 2
    have right := steps ctx ⟨0, 0⟩ r step call ⟨0, 0⟩ (by rw [hretry]; decide)
    refine ⟨r, hretry, right.2 fun all => ?_⟩
    exact absurd (hretry.symm.trans all.1) (by decide)
  · obtain ⟨r, _, hretry, _, _, houtcomes⟩ := failing (2 ^ 64 - 1)
    have right := steps ctx ⟨0, 0⟩ r step call ⟨0, 0⟩ (by rw [hretry]; decide)
    refine ⟨r, hretry, fun h => right.1 h ⟨hretry, fun i _ => ?_⟩⟩
    rw [houtcomes]
    rfl

end TestBench
