import Mathlib
import TestBench.Proofs.Task
/-
  Where a case ends.

  A case runs its steps in order and ends at the first one that leaves a record.  Three things have to
  hold at once for that: nothing is tried twice before that step, nothing is tried after it, and none
  of its records is lost.

  1. `PassAtOnce` describes the steps in front: each finds its executor, and one attempt passes.
  2. `EndsCase` describes the step that ends the case: it finds no executor, or its attempts leave
     records, whether or not the last of them passed.
  3. `StepsGo` puts the two together with what happened at which step, and `runSteps_go` shows by
     induction on the steps that every run of steps goes that way.
-/
namespace TestBench

variable {ω : Type}

/-- Steps whose first attempts all pass, one after another, from a bench to a bench. -/
inductive PassAtOnce (ctx : Context ω) (call : Call) : List Step → Bench ω → Bench ω → Prop where
  | nil (b : Bench ω) : PassAtOnce ctx call [] b b
  | cons {step : Step} {rest : List Step} {r : Resolved ω} {b b' : Bench ω}
      (found : ctx.find step = .ok r)
      (clean : r.verdictOn step.assertions (invoke r call b).1 = Verdict.clean)
      (others : PassAtOnce ctx call rest (invoke r call b).2 b') :
      PassAtOnce ctx call (step :: rest) b b'

/-- How a step ends its case: how often it is invoked, the records that it leaves, and the bench. -/
inductive EndsCase (ctx : Context ω) (call : Call) (step : Step) (b : Bench ω) :
    Nat → Verdict → Bench ω → Prop where
  | unresolved {e : ExecutorError} (missing : ctx.find step = .error e) :
      EndsCase ctx call step b 0 ⟨[e.message], []⟩ b
  | recorded {r : Resolved ω} {retried : Nat} (found : ctx.find step = .ok r)
      (within : retried ≤ r.retry)
      (records : (runStep ctx.settings r step call b).1.isOk = false) :
      EndsCase ctx call step b (retried + 1) (runStep ctx.settings r step call b).1.verdict
        (runStep ctx.settings r step call b).2

/-- What happens at `n` steps of case `k` from number `i` on, if each is invoked once. -/
def onceEach (k i n : Nat) : List Event :=
  (List.range' i n).flatMap fun j => [.resolved ⟨k, j⟩, .invoked ⟨k, j⟩]

/-- One step is invoked, and then the others are. -/
theorem onceEach_succ (k i n : Nat) :
    onceEach k i (n + 1) = .resolved ⟨k, i⟩ :: .invoked ⟨k, i⟩ :: onceEach k (i + 1) n := by
  rw [onceEach, List.range'_succ, List.flatMap_cons]
  rfl

/-- How the steps of case `k` go from number `i` on: the case and the bench that they leave, and what
    happens on the way.  Nothing is said of the steps after the one that ends the case. -/
inductive StepsGo (ctx : Context ω) (call : Call) (k i : Nat) (c : Case) (b b' : Bench ω) :
    List Step → Case → List Event → Prop where
  | allPass {steps : List Step} (pass : PassAtOnce ctx call steps b b') :
      StepsGo ctx call k i c b b' steps c (onceEach k i steps.length)
  | endsAt {front : List Step} {step : Step} {rest : List Step} {b₁ : Bench ω} {v : Verdict}
      {n : Nat} (pass : PassAtOnce ctx call front b b₁) (ends : EndsCase ctx call step b₁ n v b') :
      StepsGo ctx call k i c b b' (front ++ step :: rest) (c.addRecords v)
        (onceEach k i front.length ++ .resolved ⟨k, i + front.length⟩
          :: List.replicate n (.invoked ⟨k, i + front.length⟩))

/-- A step that passes at once comes in front of however the others go. -/
theorem StepsGo.cons {ctx : Context ω} {call : Call} {k i : Nat} {c c' : Case} {b b' : Bench ω}
    {step : Step} {rest : List Step} {events : List Event} {r : Resolved ω}
    (found : ctx.find step = .ok r)
    (clean : r.verdictOn step.assertions (invoke r call b).1 = Verdict.clean)
    (others : StepsGo ctx call k (i + 1) c (invoke r call b).2 b' rest c' events) :
    StepsGo ctx call k i c b b' (step :: rest) c'
      (.resolved ⟨k, i⟩ :: .invoked ⟨k, i⟩ :: events) := by
  cases others with
  | allPass pass =>
    rw [← onceEach_succ]
    exact .allPass (.cons found clean pass)
  | @endsAt front last rest b₁ v n pass ends =>
    -- the step joins those in front of the last one, which moves one place back by that
    have h : StepsGo ctx call k i c b b' ((step :: front) ++ last :: rest) (c.addRecords v) _ :=
      .endsAt (.cons found clean pass) ends
    rw [List.length_cons, onceEach_succ, List.cons_append, List.cons_append, List.cons_append,
      show i + (front.length + 1) = i + 1 + front.length by omega] at h
    exact h

/-- Nothing happens at other cases. -/
theorem StepsGo.site {ctx : Context ω} {call : Call} {k i : Nat} {c c' : Case} {b b' : Bench ω}
    {steps : List Step} {events : List Event} (h : StepsGo ctx call k i c b b' steps c' events) :
    ∀ e ∈ events, e.site.case = k := by
  have once (i n : Nat) : ∀ e ∈ onceEach k i n, e.site.case = k := by
    intro e he
    obtain ⟨j, _, he⟩ := List.mem_flatMap.1 he
    rcases List.mem_pair.1 he with rfl | rfl <;> rfl
  cases h with
  | allPass => exact once i _
  | endsAt =>
    intro e he
    rcases List.mem_append.1 he with he | he
    · exact once i _ e he
    · rcases List.mem_cons.1 he with rfl | he
      · rfl
      · rw [List.eq_of_mem_replicate he]
        rfl

/-! ## What happens at one step -/

/-- All attempts of a step happen at its place, and there is at least one. -/
theorem events_attemptsTask (ctx : Context ω) (site : Site) (r : Resolved ω)
    (declared : List String) (call : Call) (left : Nat) : ∀ (o : StepOutcome) (w : ω),
      ∃ n, n ≤ left ∧ (attemptsTask site r declared call left o).events ctx w
        = List.replicate (n + 1) (.invoked site) := by
  induction left with
  | zero => exact fun _ _ => ⟨0, Nat.le_refl 0, rfl⟩
  | succ left ih =>
    intro o w
    -- every attempt adds one event, and only whether others follow depends on its verdict
    rw [attemptsTask, Task.events]
    by_cases h : (r.verdictOn declared (r.answer call w).1).isOk = true
    · rw [if_pos h]
      exact ⟨0, Nat.zero_le _, rfl⟩
    · rw [if_neg h]
      obtain ⟨n, hn, hevents⟩ := ih (o.add (r.verdictOn declared (r.answer call w).1))
        (r.answer call w).2
      exact ⟨n + 1, Nat.succ_le_succ hn, by rw [hevents]; rfl⟩

/-- A step is invoked once at least, and at most once more than it has retries. -/
theorem events_stepTask (ctx : Context ω) (site : Site) (r : Resolved ω) (step : Step)
    (call : Call) (w : ω) :
    ∃ n, n ≤ r.retry ∧ (stepTask site r step call).events ctx w
      = List.replicate (n + 1) (.invoked site) := by
  rw [stepTask, Task.events_map]
  exact events_attemptsTask ctx site r step.assertions call r.retry _ w

/-- A step that passes at once is invoked once. -/
theorem events_stepTask_of_passed (ctx : Context ω) (site : Site) (r : Resolved ω) (step : Step)
    (call : Call) (b : Bench ω)
    (h : (r.verdictOn step.assertions (invoke r call b).1).isOk = true) :
    (stepTask site r step call).events ctx b.world = [.invoked site] := by
  rw [invoke_fst] at h
  rw [stepTask, Task.events_map]
  cases r.retry with
  | zero => rfl
  | succ left => rw [attemptsTask, Task.events, if_pos h, Task.events]

/-! ## The steps of a case -/

/-- Steps go until one leaves a record, and what happens is what their task says. -/
theorem runSteps_go (ctx : Context ω) (call : Call) (k : Nat) (steps : List Step) :
    ∀ (i : Nat) (c : Case) (b : Bench ω),
      StepsGo ctx call k i c b (runSteps ctx call steps c b).2 steps
        (runSteps ctx call steps c b).1 ((stepsTask call k i steps c).events ctx b.world) := by
  induction steps with
  | nil => exact fun i c b => .allPass (.nil b)
  | cons step rest ih =>
    intro i c b
    rw [stepsTask, Task.events]
    cases hfind : ctx.find step with
    | error e =>
      rw [runSteps_unresolved ctx call rest c b hfind]
      exact .endsAt (.nil b) (.unresolved hfind)
    | ok r =>
      have hplay := play_stepTask ctx ⟨k, i⟩ r step call b
      simp only [Task.events_bind, hplay]
      by_cases hclean : (runStep ctx.settings r step call b).1.isOk = true
      · -- the step is clean, so its only attempt passed and the next step has its turn
        have hfirst := (runStep_isOk_iff ctx.settings r step call b).1 hclean
        have hrun := runStep_of_passed ctx.settings r step call b hfirst
        rw [if_pos hclean, runSteps_clean ctx call rest c b hfind hclean,
          events_stepTask_of_passed ctx _ r step call b hfirst, Verdict.isOk_iff.1 hclean,
          Case.addRecords_clean, hrun]
        exact .cons hfind (Verdict.isOk_iff.1 hfirst) (ih (i + 1) c (invoke r call b).2)
      · obtain ⟨n, hn, hevents⟩ := events_stepTask ctx ⟨k, i⟩ r step call b.world
        rw [if_neg hclean, runSteps_recorded ctx call rest c b hfind hclean, hevents]
        simp only [Task.events, List.append_nil]
        exact .endsAt (.nil b) (.recorded hfind hn (Bool.not_eq_true _ ▸ hclean))

end TestBench
