import Mathlib
import TestBench.Proofs.Attempts
import TestBench.Run.Suite
/-
  A suite under way, as the requests that it makes of the world outside of it.

  A run that goes from one bench to the next says nothing of what happens in between, and two suites
  that run at once meet exactly there.  So a task is a tree: it has ended, or it waits for an answer
  and goes on with whatever the answer is.

  1. There are two requests: to find the executor of a step, and to invoke it once.  Waiting between
     attempts is no request, since nobody answers it.
  2. `attemptsTask` up to `suiteTask` are the tasks of a step's attempts, a step, a case and a suite.
  3. `play` answers the requests of one task alone, each from the world that the one before it left,
     and `events` lists them.  Played alone, a task does what the run of its suite does, in every
     world (`play_suiteTask`): the events of a task are those of the run.
-/
namespace TestBench

/-- A place in a suite: the number of a case, and the number of a step in it. -/
structure Site where
  case : Nat
  step : Nat
  deriving Repr, DecidableEq

/-- What happens at a place: its executor is looked for, or invoked once. -/
inductive Event where
  | resolved (site : Site)
  | invoked (site : Site)
  deriving Repr, DecidableEq

def Event.site : Event → Site
  | resolved site => site
  | invoked site => site

/-- What remains of a run: its result, or a request and how it goes on with each answer. -/
inductive Task (ω α : Type) where
  | done (result : α)
  | resolving (site : Site) (step : Step) (next : Except ExecutorError (Resolved ω) → Task ω α)
  | invoking (site : Site) (r : Resolved ω) (call : Call) (next : Outcome → Task ω α)

variable {ω α β : Type}

/-- The outcome of one attempt from a world, and the world that it leaves. -/
def Resolved.answer (r : Resolved ω) (call : Call) (w : ω) : Outcome × ω :=
  ((invoke r call ⟨w, 0⟩).1, (invoke r call ⟨w, 0⟩).2.world)

/-- The executor that a context has for a step. -/
def Context.find (ctx : Context ω) (step : Step) : Except ExecutorError (Resolved ω) :=
  resolve ctx.registry ctx.settings.defaultTimeoutSecs step

/-- A step that has found its executor has the numbers that it asks for, where it asks for any. -/
theorem Context.eq_of_find {ctx : Context ω} {step : Step} {r : Resolved ω}
    (h : ctx.find step = .ok r) :
    r = { executor := r.executor
          retry := step.retry?.getD 0
          delaySecs := step.delay?.getD 0
          timeoutSecs := max 1 (step.timeout?.getD ctx.settings.defaultTimeoutSecs) } := by
  rw [find, resolve] at h
  cases hinstantiate : ctx.registry.instantiate step with
  | error e =>
    rw [hinstantiate] at h
    cases h
  | ok executor =>
    rw [hinstantiate] at h
    injection h with h
    exact h ▸ rfl

namespace Task

/-- Goes on with a second task from the result of the first. -/
def bind : Task ω α → (α → Task ω β) → Task ω β
  | .done a, f => f a
  | .resolving site step next, f => .resolving site step fun x => (next x).bind f
  | .invoking site r call next, f => .invoking site r call fun x => (next x).bind f

/-- Changes the result. -/
def map (f : α → β) (t : Task ω α) : Task ω β := t.bind fun a => .done (f a)

/-- Answers all requests of a task, with nobody else around. -/
def play (ctx : Context ω) : Task ω α → ω → α × ω
  | .done a, w => (a, w)
  | .resolving _ step next, w => (next (ctx.find step)).play ctx w
  | .invoking _ r call next, w => (next (r.answer call w).1).play ctx (r.answer call w).2

/-- The requests that are answered on the way. -/
def events (ctx : Context ω) : Task ω α → ω → List Event
  | .done _, _ => []
  | .resolving site step next, w => .resolved site :: (next (ctx.find step)).events ctx w
  | .invoking site r call next, w =>
    .invoked site :: (next (r.answer call w).1).events ctx (r.answer call w).2

/-- The results that a task can come to, whatever it is answered. -/
inductive CanEnd : Task ω α → α → Prop where
  | done (a : α) : CanEnd (.done a) a
  | resolving {site step next x a} : CanEnd (next x) a → CanEnd (.resolving site step next) a
  | invoking {site r call next x a} : CanEnd (next x) a → CanEnd (.invoking site r call next) a

end Task

/-! ## The tasks of a suite -/

/-- The attempts of a step that has found its executor, with some retries left after the next. -/
def attemptsTask (site : Site) (r : Resolved ω) (declared : List String) (call : Call) :
    Nat → StepOutcome → Task ω StepOutcome
  | 0, o => .invoking site r call fun outcome => .done (o.add (r.verdictOn declared outcome))
  | left + 1, o => .invoking site r call fun outcome =>
    if (r.verdictOn declared outcome).isOk then .done (o.add (r.verdictOn declared outcome))
    else attemptsTask site r declared call left (o.add (r.verdictOn declared outcome))

/-- The task of a step: its attempts, and the note behind them. -/
def stepTask (site : Site) (r : Resolved ω) (step : Step) (call : Call) : Task ω StepOutcome :=
  (attemptsTask site r step.assertions call r.retry StepOutcome.start).map StepOutcome.conclude

/-- The steps of a case from number `i` on. -/
def stepsTask (call : Call) (k : Nat) : Nat → List Step → Case → Task ω Case
  | _, [], c => .done c
  | i, step :: rest, c => .resolving ⟨k, i⟩ step fun
    | .error e => .done (c.addRecords ⟨[e.message], []⟩)
    | .ok r => (stepTask ⟨k, i⟩ r step call).bind fun o =>
      let c := c.addRecords o.verdict
      if o.isOk then stepsTask call k (i + 1) rest c else .done c

/-- A case, the one with number `k` in its suite. -/
def caseTask (aliases : Aliases) (suite workdir : String) (k : Nat) (c : Case) : Task ω Case :=
  stepsTask { aliases, suite, case := c.name, workdir } k 0 c.steps c

/-- The cases of a suite from number `k` on. -/
def casesTask (aliases : Aliases) (suite workdir : String) : Nat → List Case → Task ω (List Case)
  | _, [] => .done []
  | k, c :: rest =>
    (if c.skipped then .done c else caseTask aliases suite workdir k c).bind fun c =>
      (casesTask aliases suite workdir (k + 1) rest).map fun rest => c :: rest

/-- The task of a suite: its cases, and the counts of their records. -/
def suiteTask (aliases : Aliases) (s : Suite) : Task ω Suite :=
  (casesTask aliases s.name (suiteDirectory s.package) 0 s.cases).map fun cases =>
    ({ s with cases }).countRecords

/-- The task of a suite in a context. -/
abbrev Context.task (ctx : Context ω) (s : Suite) : Task ω Suite := suiteTask ctx.aliases s

/-! ## Playing tasks one after another -/

namespace Task

variable (ctx : Context ω)

/-- A task of two parts is played part after part. -/
theorem play_bind (f : α → Task ω β) : ∀ (t : Task ω α) (w : ω),
    (t.bind f).play ctx w = (f (t.play ctx w).1).play ctx (t.play ctx w).2
  | .done _, _ => rfl
  | .resolving _ step next, w => play_bind f (next (ctx.find step)) w
  | .invoking _ r call next, w => play_bind f (next (r.answer call w).1) (r.answer call w).2

/-- And its events come part after part. -/
theorem events_bind (f : α → Task ω β) : ∀ (t : Task ω α) (w : ω),
    (t.bind f).events ctx w
      = t.events ctx w ++ (f (t.play ctx w).1).events ctx (t.play ctx w).2
  | .done _, _ => rfl
  | .resolving site step next, w => by
    simp only [bind, events, play, List.cons_append, events_bind f (next (ctx.find step)) w]
  | .invoking site r call next, w => by
    simp only [bind, events, play, List.cons_append,
      events_bind f (next (r.answer call w).1) (r.answer call w).2]

@[simp] theorem play_map (f : α → β) (t : Task ω α) (w : ω) :
    (t.map f).play ctx w = (f (t.play ctx w).1, (t.play ctx w).2) := by
  rw [map, play_bind]; rfl

@[simp] theorem events_map (f : α → β) (t : Task ω α) (w : ω) :
    (t.map f).events ctx w = t.events ctx w := by
  rw [map, events_bind]; exact List.append_nil _

/-- What a task comes to when it is played is one of its results. -/
theorem canEnd_play : ∀ (t : Task ω α) (w : ω), t.CanEnd (t.play ctx w).1
  | .done a, _ => .done a
  | .resolving _ step next, w => .resolving (canEnd_play (next (ctx.find step)) w)
  | .invoking _ r call next, w =>
    .invoking (canEnd_play (next (r.answer call w).1) (r.answer call w).2)

theorem canEnd_done_iff {a b : α} : (Task.done a : Task ω α).CanEnd b ↔ b = a := by
  constructor
  · rintro ⟨⟩
    rfl
  · rintro rfl
    exact .done _

/-- A task of two parts ends as its second part, from a result of the first. -/
theorem canEnd_bind {f : α → Task ω β} {t : Task ω α} {b : β} (h : (t.bind f).CanEnd b) :
    ∃ a, t.CanEnd a ∧ (f a).CanEnd b := by
  induction t with
  | done a => exact ⟨a, .done a, h⟩
  | resolving site step next ih =>
    cases h with
    | resolving h =>
      obtain ⟨a, ha, hb⟩ := ih _ h
      -- the answer that leads on is the same for the task of two parts and for its first part
      exact ⟨a, .resolving ha, hb⟩
  | invoking site r call next ih =>
    cases h with
    | invoking h =>
      obtain ⟨a, ha, hb⟩ := ih _ h
      exact ⟨a, .invoking ha, hb⟩

/-- What is done to the result alone changes no answer on the way. -/
theorem canEnd_map {f : α → β} {t : Task ω α} {b : β} (h : (t.map f).CanEnd b) :
    ∃ a, t.CanEnd a ∧ b = f a := by
  obtain ⟨a, ha, hb⟩ := canEnd_bind h
  exact ⟨a, ha, canEnd_done_iff.1 hb⟩

end Task

/-! ## A task played alone is a run -/

@[simp] theorem Case.addRecords_clean (c : Case) : c.addRecords Verdict.clean = c := by
  rw [Case.addRecords]
  simp only [Verdict.clean, List.append_nil]

section Play

variable (ctx : Context ω)

/-- The outcome of an attempt does not depend on the time that has passed. -/
theorem invoke_fst (r : Resolved ω) (call : Call) (b : Bench ω) :
    (invoke r call b).1 = (r.answer call b.world).1 := by
  rw [Resolved.answer]
  simp only [invoke]
  split
  · split <;> rfl
  · rfl
  · rfl

theorem invoke_world (r : Resolved ω) (call : Call) (b : Bench ω) :
    (invoke r call b).2.world = (r.answer call b.world).2 := by
  rw [Resolved.answer]
  simp only [invoke]
  split
  · split <;> rfl
  · rfl
  · rfl

theorem attemptAt_fst (settings : Settings) (r : Resolved ω) (call : Call) (attempt : Nat)
    (b : Bench ω) : (attemptAt settings r call attempt b).1 = (r.answer call b.world).1 :=
  invoke_fst r call _

theorem attemptAt_world (settings : Settings) (r : Resolved ω) (call : Call) (attempt : Nat)
    (b : Bench ω) : (attemptAt settings r call attempt b).2.world = (r.answer call b.world).2 :=
  invoke_world r call _

/-- A step is clean iff the answer to its first attempt passes. -/
theorem runStep_isOk_iff_answer (settings : Settings) (r : Resolved ω) (step : Step) (call : Call)
    (b : Bench ω) : (runStep settings r step call b).1.isOk = true
      ↔ (r.verdictOn step.assertions (r.answer call b.world).1).isOk = true := by
  rw [runStep_isOk_iff, invoke_fst]

/-- It leaves the world that this answer leaves, then. -/
theorem runStep_world_of_passed (settings : Settings) (r : Resolved ω) (step : Step) (call : Call)
    (b : Bench ω) (h : (r.verdictOn step.assertions (r.answer call b.world).1).isOk = true) :
    (runStep settings r step call b).2.world = (r.answer call b.world).2 := by
  have hfirst : (r.verdictOn step.assertions (invoke r call b).1).isOk = true := by
    rwa [invoke_fst]
  rw [runStep_of_passed settings r step call b hfirst, invoke_world]

/-- Delays and the number of the next attempt only move the clock, so the task leaves them out. -/
theorem play_attemptsTask (settings : Settings) (site : Site) (r : Resolved ω)
    (declared : List String) (call : Call) (left : Nat) :
    ∀ (attempt : Nat) (o : StepOutcome) (b : Bench ω),
      (attemptsTask site r declared call left o).play ctx b.world
        = ((attemptsFrom settings r declared call left attempt o b).1,
            (attemptsFrom settings r declared call left attempt o b).2.world) := by
  induction left with
  | zero =>
    intro attempt o b
    rw [attemptsFrom_zero, attemptAt_fst, attemptAt_world]
    rfl
  | succ left ih =>
    intro attempt o b
    rw [attemptsTask, Task.play]
    -- the attempt is judged in its world, whatever its number and however late it is
    by_cases h : (r.verdictOn declared (attemptAt settings r call attempt b).1).isOk = true
    · rw [attemptsFrom_passed _ _ _ _ _ _ _ _ h]
      rw [attemptAt_fst] at h ⊢
      rw [attemptAt_world, if_pos h]
      rfl
    · rw [attemptsFrom_failed _ _ _ _ _ _ _ _ h, ← ih (attempt + 1)]
      rw [attemptAt_fst] at h ⊢
      rw [attemptAt_world, if_neg h]

/-- Played or run, a step comes to the same records and the same world. -/
theorem play_stepTask (site : Site) (r : Resolved ω) (step : Step) (call : Call) (b : Bench ω) :
    (stepTask site r step call).play ctx b.world
      = ((runStep ctx.settings r step call b).1, (runStep ctx.settings r step call b).2.world) := by
  rw [stepTask, Task.play_map, play_attemptsTask ctx ctx.settings site r _ call r.retry 0 _ b]
  rfl

/-- A step without an executor ends its case with one error. -/
theorem runSteps_unresolved (call : Call) {step : Step} (rest : List Step) (c : Case)
    (b : Bench ω) {e : ExecutorError} (h : ctx.find step = .error e) :
    runSteps ctx call (step :: rest) c b = (c.addRecords ⟨[e.message], []⟩, b) := by
  rw [Context.find] at h
  simp only [runSteps, h]

/-- A step that leaves a record ends its case. -/
theorem runSteps_recorded (call : Call) {step : Step} (rest : List Step) (c : Case) (b : Bench ω)
    {r : Resolved ω} (h : ctx.find step = .ok r)
    (hrecord : ¬ (runStep ctx.settings r step call b).1.isOk = true) :
    runSteps ctx call (step :: rest) c b
      = (c.addRecords (runStep ctx.settings r step call b).1.verdict,
          (runStep ctx.settings r step call b).2) := by
  rw [Context.find] at h
  simp only [runSteps, h, if_neg hrecord]

/-- After a clean step the next one has its turn. -/
theorem runSteps_clean (call : Call) {step : Step} (rest : List Step) (c : Case) (b : Bench ω)
    {r : Resolved ω} (h : ctx.find step = .ok r)
    (hclean : (runStep ctx.settings r step call b).1.isOk = true) :
    runSteps ctx call (step :: rest) c b
      = runSteps ctx call rest c (runStep ctx.settings r step call b).2 := by
  rw [Context.find] at h
  simp only [runSteps, h, if_pos hclean]
  rw [Verdict.isOk_iff.1 hclean, Case.addRecords_clean]

/-- So do the steps of a case, one after another until one leaves a record. -/
theorem play_stepsTask (call : Call) (k : Nat) (steps : List Step) :
    ∀ (i : Nat) (c : Case) (b : Bench ω),
      (stepsTask call k i steps c).play ctx b.world
        = ((runSteps ctx call steps c b).1, (runSteps ctx call steps c b).2.world) := by
  induction steps with
  | nil => intro i c b; rfl
  | cons step rest ih =>
    intro i c b
    cases hfind : ctx.find step with
    | error e =>
      rw [runSteps_unresolved ctx call rest c b hfind, stepsTask, Task.play, hfind]
      rfl
    | ok r =>
      rw [stepsTask, Task.play, hfind]
      simp only [Task.play_bind, play_stepTask]
      by_cases hclean : (runStep ctx.settings r step call b).1.isOk = true
      · -- a clean step adds nothing, so the case is still the one that the rest begins with
        rw [if_pos hclean, ih (i + 1), runSteps_clean ctx call rest c b hfind hclean,
          Verdict.isOk_iff.1 hclean, Case.addRecords_clean]
      · rw [if_neg hclean, runSteps_recorded ctx call rest c b hfind hclean]
        rfl

theorem play_caseTask (suite workdir : String) (k : Nat) (c : Case) (b : Bench ω) :
    (caseTask ctx.aliases suite workdir k c).play ctx b.world
      = ((runCase ctx suite workdir c b).1, (runCase ctx suite workdir c b).2.world) :=
  play_stepsTask ctx _ k c.steps 0 c b

/-- And the cases of a suite. -/
theorem play_casesTask (suite workdir : String) (cases : List Case) :
    ∀ (k : Nat) (b : Bench ω),
      (casesTask ctx.aliases suite workdir k cases).play ctx b.world
        = ((runCases ctx suite workdir cases b).1, (runCases ctx suite workdir cases b).2.world) := by
  induction cases with
  | nil => intro k b; rfl
  | cons c rest ih =>
    intro k b
    simp only [casesTask, runCases, Task.play_bind, Task.play_map]
    split
    · simp only [Task.play, ih (k + 1) b]
    · simp only [play_caseTask, ih (k + 1)]

/-- **A suite that runs alone.**  Playing its task gives what its run gives, from every world. -/
theorem play_suiteTask (s : Suite) (b : Bench ω) :
    (ctx.task s).play ctx b.world
      = ((runSuite ctx s b).1, (runSuite ctx s b).2.world) := by
  rw [Context.task, suiteTask, Task.play_map, play_casesTask]
  rfl

end Play
end TestBench
