import Mathlib
import TestBench.Proofs.CaseEnd
/-
  The invocations that a run makes.

  An event says where something happened.  An invocation says what was called there: the executor, its
  deadline, what it was told, and the world that it was called in, which together fix its outcome.

  1. `Task.invocations` lists the invocations of a task that is played alone; they are the events of
     that task in more detail (`Task.filterMap_events`).
  2. A second task adds its invocations behind those of the first (`Task.invocations_bind`).
  3. All invocations of a step are at its place (`invocations_stepTask`), and the steps of a case go on
     in one of three ways: a step finds no executor, leaves a record, or passes at once
     (`stepsTask_unresolved`, `stepsTask_recorded`, `stepsTask_clean`).
-/
namespace TestBench

variable {ω α β : Type}

/-- One call of an executor. -/
structure Invocation (ω : Type) where
  site : Site
  executor : Executor ω
  timeoutSecs : Nat
  call : Call
  /-- The world that the calls so far have left. -/
  world : ω

/-- The call of a step's executor in a world. -/
def Resolved.invocation (r : Resolved ω) (site : Site) (call : Call) (w : ω) : Invocation ω :=
  { site, executor := r.executor, timeoutSecs := r.timeoutSecs, call, world := w }

namespace Event

/-- The place at which an executor was looked for. -/
def resolvedSite? : Event → Option Site
  | resolved site => some site
  | invoked _ => none

/-- The place at which an executor was invoked. -/
def invokedSite? : Event → Option Site
  | resolved _ => none
  | invoked site => some site

end Event

namespace Task

variable (ctx : Context ω)

/-- The invocations of a task that is played alone. -/
def invocations : Task ω α → ω → List (Invocation ω)
  | .done _, _ => []
  | .resolving _ step next, w => (next (ctx.find step)).invocations w
  | .invoking site r call next, w =>
    r.invocation site call w :: (next (r.answer call w).1).invocations (r.answer call w).2

/-- The invocations of a task of two parts come part after part. -/
theorem invocations_bind (f : α → Task ω β) : ∀ (t : Task ω α) (w : ω),
    (t.bind f).invocations ctx w
      = t.invocations ctx w ++ (f (t.play ctx w).1).invocations ctx (t.play ctx w).2
  | .done _, _ => rfl
  | .resolving _ step next, w => invocations_bind f (next (ctx.find step)) w
  | .invoking site r call next, w => by
    simp only [bind, invocations, play, List.cons_append,
      invocations_bind f (next (r.answer call w).1) (r.answer call w).2]

@[simp] theorem invocations_map (f : α → β) (t : Task ω α) (w : ω) :
    (t.map f).invocations ctx w = t.invocations ctx w := by
  rw [map, invocations_bind]
  exact List.append_nil _

/-- Each invocation is an event, at the same place and in the same order. -/
theorem filterMap_events : ∀ (t : Task ω α) (w : ω),
    (t.events ctx w).filterMap Event.invokedSite? = (t.invocations ctx w).map (·.site)
  | .done _, _ => rfl
  | .resolving _ step next, w => filterMap_events (next (ctx.find step)) w
  | .invoking site r call next, w =>
    congrArg (site :: ·) (filterMap_events (next (r.answer call w).1) (r.answer call w).2)

end Task

/-! ## The invocations of a step -/

/-- The first attempt comes first, and all others are at the same place. -/
theorem invocations_attemptsTask (ctx : Context ω) (site : Site) (r : Resolved ω)
    (declared : List String) (call : Call) (left : Nat) (o : StepOutcome) (w : ω) :
    ∃ retries, (attemptsTask site r declared call left o).invocations ctx w
        = r.invocation site call w :: retries
      ∧ ∀ x ∈ retries, x.site = site := by
  induction left generalizing o w with
  | zero => exact ⟨[], rfl, fun _ hx => absurd hx List.not_mem_nil⟩
  | succ left ih =>
    rw [attemptsTask, Task.invocations]
    -- a first attempt that passes is the only one
    by_cases h : (r.verdictOn declared (r.answer call w).1).isOk = true
    · rw [if_pos h]
      exact ⟨[], rfl, fun _ hx => absurd hx List.not_mem_nil⟩
    · rw [if_neg h]
      obtain ⟨retries, hretries, hsites⟩ := ih (o.add (r.verdictOn declared (r.answer call w).1))
        (r.answer call w).2
      exact ⟨_, rfl, hretries ▸ List.forall_mem_cons.2 ⟨rfl, hsites⟩⟩

theorem invocations_stepTask (ctx : Context ω) (site : Site) (r : Resolved ω) (step : Step)
    (call : Call) (w : ω) :
    ∃ retries, (stepTask site r step call).invocations ctx w = r.invocation site call w :: retries
      ∧ ∀ x ∈ retries, x.site = site := by
  rw [stepTask, Task.invocations_map]
  exact invocations_attemptsTask ctx site r step.assertions call r.retry _ w

/-- A step that passes at once is called once. -/
theorem invocations_stepTask_of_passed (ctx : Context ω) (site : Site) (r : Resolved ω) (step : Step)
    (call : Call) (w : ω)
    (h : (r.verdictOn step.assertions (r.answer call w).1).isOk = true) :
    (stepTask site r step call).invocations ctx w = [r.invocation site call w] := by
  rw [stepTask, Task.invocations_map]
  cases r.retry with
  | zero => rfl
  | succ left => rw [attemptsTask, Task.invocations, if_pos h, Task.invocations]

/-! ## The steps of a case -/

section Steps

variable (ctx : Context ω) (call : Call) (k i : Nat) {step : Step} (rest : List Step) (c : Case)

/-- A step without an executor is the last one, and nothing is invoked there. -/
theorem stepsTask_unresolved {e : ExecutorError} (h : ctx.find step = .error e) (w : ω) :
    (stepsTask call k i (step :: rest) c).events ctx w = [.resolved ⟨k, i⟩]
      ∧ (stepsTask call k i (step :: rest) c).invocations ctx w = [] := by
  rw [stepsTask, Task.events, Task.invocations, h]
  exact ⟨rfl, rfl⟩

variable {r : Resolved ω} (h : ctx.find step = .ok r) (b : Bench ω)
include h

/-- A step that leaves a record is the last one. -/
theorem stepsTask_recorded (hrecord : ¬ (runStep ctx.settings r step call b).1.isOk = true) :
    (stepsTask call k i (step :: rest) c).events ctx b.world
        = .resolved ⟨k, i⟩ :: (stepTask ⟨k, i⟩ r step call).events ctx b.world
      ∧ (stepsTask call k i (step :: rest) c).invocations ctx b.world
        = (stepTask ⟨k, i⟩ r step call).invocations ctx b.world := by
  rw [stepsTask, Task.events, Task.invocations, h]
  simp only [Task.events_bind, Task.invocations_bind, play_stepTask ctx ⟨k, i⟩ r step call b,
    if_neg hrecord]
  exact ⟨congrArg _ (List.append_nil _), List.append_nil _⟩

/-- After a step that passes at once the next one has its turn. -/
theorem stepsTask_clean
    (hpass : (r.verdictOn step.assertions (r.answer call b.world).1).isOk = true) :
    (stepsTask call k i (step :: rest) c).events ctx b.world
        = .resolved ⟨k, i⟩ :: .invoked ⟨k, i⟩
          :: (stepsTask call k (i + 1) rest c).events ctx (r.answer call b.world).2
      ∧ (stepsTask call k i (step :: rest) c).invocations ctx b.world
        = r.invocation ⟨k, i⟩ call b.world
          :: (stepsTask call k (i + 1) rest c).invocations ctx (r.answer call b.world).2 := by
  have hfirst : (r.verdictOn step.assertions (invoke r call b).1).isOk = true := by
    rwa [invoke_fst]
  -- a step that passes at once is clean, so it adds no records and others follow
  have hclean := (runStep_isOk_iff ctx.settings r step call b).2 hfirst
  have hworld := runStep_world_of_passed ctx.settings r step call b hpass
  rw [stepsTask, Task.events, Task.invocations, h]
  simp only [Task.events_bind, Task.invocations_bind, play_stepTask ctx ⟨k, i⟩ r step call b,
    if_pos hclean, Verdict.isOk_iff.1 hclean, Case.addRecords_clean, hworld,
    events_stepTask_of_passed ctx ⟨k, i⟩ r step call b hfirst,
    invocations_stepTask_of_passed ctx ⟨k, i⟩ r step call b.world hpass, List.singleton_append,
    and_self]

end Steps
end TestBench
