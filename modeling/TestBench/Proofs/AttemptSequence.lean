import Mathlib
import TestBench.Executor.Scripted
import TestBench.Proofs.Invocations
/-
  The attempts of a step, told without a loop.

  What a step leaves depends on nothing but how often it may be retried and on the outcomes that its
  attempts would have one after another.

  1. `firstPass?` is the first attempt that passes.  It is the last one that is made; if there is none,
     all are made (`attemptCount`).
  2. `StepOutcome.reference` puts together what all other attempts leave, in order, with a note of
     their number if none passed and there was more than one.
  3. The first outcome decides how both go on: it passes, it was the only one, or the others follow
     (`firstPass?_of_passes`, `firstPass?_zero`, `firstPass?_succ`).  The task of a step has the same
     three cases, so by induction on its retries it goes as the reference says
     (`attemptsTask_goes`, `runStep_eq_reference`).
  4. Every sequence of outcomes occurs (`exists_outcomes`).
-/
namespace TestBench

variable {ω : Type}

/-! ## Sequences of outcomes -/

/-- Whether an outcome passes: it is a result, and the check leaves nothing on it. -/
def passes (check : Observed → Verdict) : Outcome → Bool
  | .error _ => false
  | .ok observed => (check observed).isOk

/-- The text of the error, or the errors of the check. -/
def errorsOf (check : Observed → Verdict) : Outcome → List String
  | .error e => [e.message]
  | .ok observed => (check observed).errors

/-- The failures of the check, if there is a result to check. -/
def failuresOf (check : Observed → Verdict) : Outcome → List String
  | .error _ => []
  | .ok observed => (check observed).failures

section Sequences

variable (check : Observed → Verdict) (retry : Nat) (outcomes : Nat → Outcome)

/-- The number, from zero, of the first attempt that passes, among as many as there may be. -/
def firstPass? : Option Nat := (List.range (retry + 1)).find? fun i => passes check (outcomes i)

/-- How many attempts are made. -/
def attemptCount : Nat :=
  match firstPass? check retry outcomes with
  | some k => k + 1
  | none => retry + 1

/-- The outcomes of the attempts that are made and do not pass. -/
def unpassed : List Outcome :=
  ((List.range (attemptCount check retry outcomes)).map outcomes).filter (!passes check ·)

/-- What the attempts leave together. -/
def recordsOf : Verdict :=
  ⟨(unpassed check retry outcomes).flatMap (errorsOf check),
    (unpassed check retry outcomes).flatMap (failuresOf check)⟩

/-- The note of the number of attempts, if there was more than one and none passed. -/
def noteOf : List String :=
  if firstPass? check retry outcomes = none ∧ 2 ≤ attemptCount check retry outcomes then
    [s!"It's a failure after {attemptCount check retry outcomes} attempt(s)"]
  else []

/-- How a step ends that may be retried so often and whose attempts have these outcomes. -/
def StepOutcome.reference : StepOutcome :=
  { verdict := recordsOf check retry outcomes ++ ⟨[], noteOf check retry outcomes⟩
    attempts := UInt64.ofNat (attemptCount check retry outcomes)
    passed := (firstPass? check retry outcomes).isSome }

variable {check retry outcomes}

theorem firstPass?_eq_some_iff {k : Nat} : firstPass? check retry outcomes = some k
    ↔ passes check (outcomes k) = true ∧ k ≤ retry ∧ ∀ i < k, passes check (outcomes i) = false := by
  rw [firstPass?, List.find?_range_eq_some, List.mem_range, Nat.lt_succ_iff]
  simp only [Bool.not_eq_true']

theorem firstPass?_eq_none_iff : firstPass? check retry outcomes = none
    ↔ ∀ i ≤ retry, passes check (outcomes i) = false := by
  rw [firstPass?, List.find?_range_eq_none]
  simp only [Nat.lt_succ_iff, Bool.not_eq_true']

/-- There is at most one attempt more than retries. -/
theorem attemptCount_le : attemptCount check retry outcomes ≤ retry + 1 := by
  rw [attemptCount]
  cases hfirst : firstPass? check retry outcomes with
  | none => exact le_rfl
  | some k =>
    have hk := (firstPass?_eq_some_iff.1 hfirst).2.1
    exact Nat.succ_le_succ hk

/-! ## The three ways in which a sequence goes on -/

theorem firstPass?_of_passes (h : passes check (outcomes 0) = true) :
    firstPass? check retry outcomes = some 0 :=
  firstPass?_eq_some_iff.2 ⟨h, Nat.zero_le _, fun i hi => absurd hi (Nat.not_lt_zero i)⟩

theorem firstPass?_zero (h : passes check (outcomes 0) = false) :
    firstPass? check 0 outcomes = none := by
  refine firstPass?_eq_none_iff.2 fun i hi => ?_
  obtain rfl : i = 0 := by omega
  exact h

/-- Behind an attempt that fails the sequence goes on as one that begins there. -/
theorem firstPass?_succ (h : passes check (outcomes 0) = false) :
    firstPass? check (retry + 1) outcomes
      = (firstPass? check retry fun i => outcomes (i + 1)).map (· + 1) := by
  rw [firstPass?, List.range_succ_eq_map, List.find?_cons, h, List.find?_map]
  rfl

theorem attemptCount_of_passes (h : passes check (outcomes 0) = true) :
    attemptCount check retry outcomes = 1 := by
  rw [attemptCount, firstPass?_of_passes h]

theorem attemptCount_zero (h : passes check (outcomes 0) = false) :
    attemptCount check 0 outcomes = 1 := by
  rw [attemptCount, firstPass?_zero h]

theorem attemptCount_succ (h : passes check (outcomes 0) = false) :
    attemptCount check (retry + 1) outcomes
      = attemptCount check retry (fun i => outcomes (i + 1)) + 1 := by
  rw [attemptCount, attemptCount, firstPass?_succ h]
  cases firstPass? check retry fun i => outcomes (i + 1) <;> rfl

theorem unpassed_of_passes (h : passes check (outcomes 0) = true) :
    unpassed check retry outcomes = [] := by
  rw [unpassed, attemptCount_of_passes h]
  show [outcomes 0].filter (!passes check ·) = []
  rw [List.filter_singleton, h]
  rfl

theorem unpassed_zero (h : passes check (outcomes 0) = false) :
    unpassed check 0 outcomes = [outcomes 0] := by
  rw [unpassed, attemptCount_zero h]
  show [outcomes 0].filter (!passes check ·) = [outcomes 0]
  rw [List.filter_singleton, h]
  rfl

theorem unpassed_succ (h : passes check (outcomes 0) = false) :
    unpassed check (retry + 1) outcomes
      = outcomes 0 :: unpassed check retry fun i => outcomes (i + 1) := by
  rw [unpassed, attemptCount_succ h, List.range_succ_eq_map, List.map_cons, List.filter_cons, h,
    List.map_map]
  rfl

end Sequences

/-! ## Adding up -/

/-- What one attempt leaves. -/
def leftBy (check : Observed → Verdict) (outcome : Outcome) : Verdict :=
  ⟨errorsOf check outcome, failuresOf check outcome⟩

theorem isOk_leftBy (check : Observed → Verdict) (outcome : Outcome) :
    (leftBy check outcome).isOk = passes check outcome := by
  cases outcome <;> rfl

/-- A step's own check is that of its assertions. -/
def Resolved.check (r : Resolved ω) (declared : List String) (observed : Observed) : Verdict :=
  evaluate observed declared r.executor.defaults

/-- What an attempt leaves depends on nothing but its outcome and what is checked of it. -/
theorem Resolved.verdictOn_eq (r : Resolved ω) (declared : List String) (outcome : Outcome) :
    r.verdictOn declared outcome = leftBy (r.check declared) outcome := by
  cases outcome <;> rfl

/-- What a step has behind it, and then a sequence of attempts. -/
def StepOutcome.across (o : StepOutcome) (check : Observed → Verdict) (retry : Nat)
    (outcomes : Nat → Outcome) : StepOutcome :=
  { verdict := o.verdict ++ recordsOf check retry outcomes
    attempts := o.attempts + UInt64.ofNat (attemptCount check retry outcomes)
    passed := (firstPass? check retry outcomes).isSome }

namespace StepOutcome

variable {check : Observed → Verdict} {retry : Nat} {outcomes : Nat → Outcome} (o : StepOutcome)

theorem across_of_passes (h : passes check (outcomes 0) = true) :
    o.across check retry outcomes = o.add (leftBy check (outcomes 0)) := by
  have hclean : leftBy check (outcomes 0) = Verdict.clean :=
    Verdict.isOk_iff.1 ((isOk_leftBy ..).trans h)
  rw [across, recordsOf, attemptCount_of_passes h, firstPass?_of_passes h, unpassed_of_passes h,
    hclean]
  rfl

theorem across_zero (h : passes check (outcomes 0) = false) :
    o.across check 0 outcomes = o.add (leftBy check (outcomes 0)) := by
  rw [across, recordsOf, attemptCount_zero h, firstPass?_zero h, unpassed_zero h, add, isOk_leftBy, h,
    List.flatMap_singleton, List.flatMap_singleton]
  rfl

theorem across_succ (h : passes check (outcomes 0) = false) :
    o.across check (retry + 1) outcomes
      = (o.add (leftBy check (outcomes 0))).across check retry fun i => outcomes (i + 1) := by
  have hrecords : recordsOf check (retry + 1) outcomes
      = leftBy check (outcomes 0) ++ recordsOf check retry fun i => outcomes (i + 1) := by
    rw [recordsOf, unpassed_succ h, List.flatMap_cons, List.flatMap_cons]
    rfl
  rw [across, across, hrecords, attemptCount_succ h, firstPass?_succ h, add_verdict,
    Verdict.append_assoc, Option.isSome_map, Nat.add_comm, UInt64.ofNat_add, ← UInt64.add_assoc]
  rfl

/-- The note names the number of attempts, and comes iff there was more than one and none passed. -/
theorem conclude_eq {o : StepOutcome} {n : Nat} (hn : n < 2 ^ 64)
    (hattempts : o.attempts = UInt64.ofNat n) :
    o.conclude = { o with
      verdict := o.verdict ++ ⟨[], if o.passed = false ∧ 2 ≤ n then
        [s!"It's a failure after {n} attempt(s)"] else []⟩ } := by
  have hnat : (UInt64.ofNat n).toNat = n := UInt64.toNat_ofNat_of_lt' hn
  -- the counter is a word, so it shows the number of attempts only below `2 ^ 64`
  have hseveral : 1 < o.attempts ↔ 2 ≤ n := by
    rw [UInt64.lt_iff_toNat_lt, hattempts, hnat]
    exact Iff.rfl
  have htext : toString o.attempts = toString n := by
    rw [hattempts]
    exact congrArg toString hnat
  have hcondition : (!o.passed && decide (1 < o.attempts)) = true ↔ o.passed = false ∧ 2 ≤ n := by
    rw [Bool.and_eq_true, Bool.not_eq_true', decide_eq_true_iff, hseveral]
  rw [conclude]
  by_cases h : o.passed = false ∧ 2 ≤ n
  · rw [if_pos (hcondition.2 h), if_pos h]
    unfold attemptNote
    rw [htext]
  · rw [if_neg (mt hcondition.1 h), if_neg h]
    show o = { o with verdict := o.verdict ++ Verdict.clean }
    rw [Verdict.append_clean]

/-- A step that has nothing behind it ends as the reference says. -/
theorem conclude_across (h : retry < 2 ^ 64 - 1) :
    (start.across check retry outcomes).conclude = reference check retry outcomes := by
  have hcount : attemptCount check retry outcomes < 2 ^ 64 := by
    have hle : attemptCount check retry outcomes ≤ retry + 1 := attemptCount_le
    omega
  have hattempts : (start.across check retry outcomes).attempts
      = UInt64.ofNat (attemptCount check retry outcomes) := UInt64.zero_add _
  have hnone : (start.across check retry outcomes).passed = false
      ↔ firstPass? check retry outcomes = none :=
    Option.isSome_eq_false_iff.trans Option.isNone_iff_eq_none
  rw [conclude_eq hcount hattempts, hattempts, reference, noteOf]
  simp only [hnone]
  rfl

end StepOutcome

/-! ## The attempts of a step are such a sequence -/

namespace Resolved

variable (r : Resolved ω) (call : Call)

/-- The world before an attempt, if all earlier ones are made. -/
def worldBefore (w : ω) : Nat → ω
  | 0 => w
  | i + 1 => worldBefore (r.answer call w).2 i

/-- The outcomes that the attempts would have one after another. -/
def outcomes (w : ω) (i : Nat) : Outcome := (r.answer call (r.worldBefore call w i)).1

end Resolved

/-- The task of the attempts ends like the sequence of its outcomes and makes one call for each attempt
    of it, each in the world that the one before left. -/
theorem attemptsTask_goes (ctx : Context ω) (site : Site) (r : Resolved ω) (declared : List String)
    (call : Call) (left : Nat) (o : StepOutcome) (w : ω) :
    let n := attemptCount (r.check declared) left (r.outcomes call w)
    (attemptsTask site r declared call left o).play ctx w
        = (o.across (r.check declared) left (r.outcomes call w), r.worldBefore call w n)
      ∧ (attemptsTask site r declared call left o).invocations ctx w
        = (List.range n).map fun i => r.invocation site call (r.worldBefore call w i) := by
  induction left generalizing o w with
  | zero =>
    have hverdict := r.verdictOn_eq declared (r.outcomes call w 0)
    by_cases h : passes (r.check declared) (r.outcomes call w 0) = true
    · rw [StepOutcome.across_of_passes o h, attemptCount_of_passes h, ← hverdict]
      exact ⟨rfl, rfl⟩
    · have h := Bool.eq_false_iff.2 h
      rw [StepOutcome.across_zero o h, attemptCount_zero h, ← hverdict]
      exact ⟨rfl, rfl⟩
  | succ left ih =>
    have hverdict := r.verdictOn_eq declared (r.outcomes call w 0)
    have hpassed : (r.verdictOn declared (r.outcomes call w 0)).isOk
        = passes (r.check declared) (r.outcomes call w 0) := by rw [hverdict, isOk_leftBy]
    have houtcome : (r.answer call w).1 = r.outcomes call w 0 := rfl
    intro n
    rw [attemptsTask, Task.play, Task.invocations, houtcome]
    by_cases h : passes (r.check declared) (r.outcomes call w 0) = true
    · have hn : n = 1 := attemptCount_of_passes h
      rw [if_pos (hpassed.trans h), StepOutcome.across_of_passes o h, hn, ← hverdict]
      exact ⟨rfl, rfl⟩
    · have h := Bool.eq_false_iff.2 h
      have hn : n = attemptCount (r.check declared) left (r.outcomes call (r.answer call w).2) + 1 :=
        attemptCount_succ h
      have hnot : ¬ (r.verdictOn declared (r.outcomes call w 0)).isOk = true := by
        rw [hpassed, h]
        exact Bool.false_ne_true
      -- what follows is the sequence from the next outcome on, in the world that this call leaves
      obtain ⟨hplay, hcalls⟩ := ih (o.add (r.verdictOn declared (r.outcomes call w 0)))
        (r.answer call w).2
      rw [if_neg hnot, StepOutcome.across_succ o h, hn, ← hverdict]
      refine ⟨hplay, ?_⟩
      rw [List.range_succ_eq_map, List.map_cons, List.map_map]
      exact congrArg _ hcalls

/-- Every sequence of outcomes occurs. -/
theorem exists_outcomes (outcomes : Nat → Outcome) (defaults : Option (List String))
    (retry delaySecs timeoutSecs : Nat) (call : Call) :
    ∃ r : Resolved Nat, r.executor.defaults = defaults ∧ r.retry = retry ∧ r.delaySecs = delaySecs
      ∧ r.timeoutSecs = timeoutSecs ∧ r.outcomes call 0 = outcomes := by
  -- the world counts the calls
  let executor : Executor Nat := ⟨defaults, fun _ i => (.ends 0 (outcomes i), i + 1), id⟩
  let r : Resolved Nat := ⟨executor, retry, delaySecs, timeoutSecs⟩
  have hanswer (i : Nat) : r.answer call i = (outcomes i, i + 1) := by
    have hinvoke : invoke r call ⟨i, 0⟩ = (outcomes i, ⟨i + 1, 0⟩) := by
      simp only [invoke, r, executor]
      exact if_pos (Nat.zero_le _)
    rw [Resolved.answer, hinvoke]
  have hworld (i : Nat) : ∀ start, r.worldBefore call start i = start + i := by
    induction i with
    | zero => exact fun start => rfl
    | succ i ih =>
      intro start
      rw [Resolved.worldBefore, hanswer, ih]
      omega
  refine ⟨r, rfl, rfl, rfl, rfl, funext fun i => ?_⟩
  rw [Resolved.outcomes, hworld, hanswer, Nat.zero_add]

/-- **A step is its reference.**  It ends as the sequence of the outcomes of its attempts says, and the
    number of attempts does not overflow.  Its executor is called once for each of them, each time in
    the world that the call before left.  The step is clean iff the first attempt passes. -/
theorem runStep_eq_reference (ctx : Context ω) (site : Site) (r : Resolved ω) (step : Step)
    (call : Call) (b : Bench ω) (bound : r.retry < 2 ^ 64 - 1) :
    let check := r.check step.assertions
    let outcomes := r.outcomes call b.world
    let n := attemptCount check r.retry outcomes
    let run := runStep ctx.settings r step call b
    run.1 = .reference check r.retry outcomes ∧ run.1.attempts.toNat = n
      ∧ run.2.world = r.worldBefore call b.world n
      ∧ (stepTask site r step call).invocations ctx b.world
        = (List.range n).map (fun i => r.invocation site call (r.worldBefore call b.world i))
      ∧ (run.1.isOk = true ↔ passes check (outcomes 0) = true) := by
  intro check outcomes n run
  have hplay := play_stepTask ctx site r step call b
  obtain ⟨hattempts, hcalls⟩ :=
    attemptsTask_goes ctx site r step.assertions call r.retry StepOutcome.start b.world
  rw [stepTask, Task.play_map, hattempts, StepOutcome.conclude_across bound] at hplay
  have hrun : run.1 = .reference check r.retry outcomes := (congrArg Prod.fst hplay).symm
  -- one attempt more than retries, so the bound keeps the number in a word
  have hcount : n ≤ r.retry + 1 := attemptCount_le
  refine ⟨hrun, ?_, (congrArg Prod.snd hplay).symm, ?_, ?_⟩
  · rw [hrun]
    exact UInt64.toNat_ofNat_of_lt' (show n < 2 ^ 64 by omega)
  · rw [stepTask, Task.invocations_map]
    exact hcalls
  · rw [runStep_isOk_iff, invoke_fst, r.verdictOn_eq, isOk_leftBy]
    rfl

/-- A step whose attempts fail, find no key and pass, with one retry and with two. -/
theorem runStep_eq_reference_recovery :
    let script : Script := ⟨[⟨0, .fail "not yet"⟩, ⟨0, .give .null⟩, ⟨0, .give (.bool true)⟩], none⟩
    let ctx : Context Stage := ⟨Aliases.empty, Registry.empty, Settings.standard⟩
    let step : Step := ⟨[(.text "assertions", .text "result ShouldExist")]⟩
    let call : Call := { aliases := Aliases.empty, suite := "suite", case := "case", workdir := "." }
    let resolved (retry : Nat) : Resolved Stage := ⟨script.executor "probe", retry, 0, 1⟩
    let run (retry : Nat) := (runStep ctx.settings (resolved retry) step call ⟨Stage.empty, 0⟩).1
    let absent := "Assertion \"result ShouldExist\" failed. result: key does not exist"
    run 1 = ⟨⟨["not yet"], [absent, "It's a failure after 2 attempt(s)"]⟩, 2, false⟩
      ∧ run 2 = ⟨⟨["not yet"], [absent]⟩, 3, true⟩ := by
  intro script ctx step call resolved run absent
  obtain ⟨once, _⟩ :=
    runStep_eq_reference ctx ⟨0, 0⟩ (resolved 1) step call ⟨Stage.empty, 0⟩ (by decide)
  obtain ⟨twice, _⟩ :=
    runStep_eq_reference ctx ⟨0, 0⟩ (resolved 2) step call ⟨Stage.empty, 0⟩ (by decide)
  exact ⟨once.trans (by decide +kernel), twice.trans (by decide +kernel)⟩

end TestBench
