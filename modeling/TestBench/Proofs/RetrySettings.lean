import Mathlib
import TestBench.Executor.Builtin
import TestBench.Executor.Scripted
import TestBench.Proofs.Invocations
/-
  What retries and delays cannot change.

  1. `Step.without` leaves keys out of a step.  A registry ignores the reserved keys if steps that
     agree without them find the same executors; the registry of all builtin executors is one
     (`builtin_ignoresReserved`).
  2. `firstAttempts` runs the steps of a case with one attempt each and stops at the first one that
     does not pass.  It does not look at retries and delays (`firstAttempts_congr`), and every run goes
     as it says, with all retries at the step where it stops (`runSteps_goesAs`).
  3. Delays are not even part of what is played: two tasks that differ only in them make the same
     invocations and leave the same records and the same world (`Task.PlaysAs`).
-/
namespace TestBench

variable {ω α β : Type}

/-! ## Steps without some of their keys -/

/-- The keys that are not for executors. -/
def reservedKeys : List String := ["type", "retry", "delay", "timeout", "assertions"]

namespace Step

/-- Whether the key of an entry is none of some keys. -/
def isBeside (keys : List String) (e : Yaml × Yaml) : Bool := e.1.text?.all (!keys.contains ·)

/-- A step without the entries of some keys. -/
def without (keys : List String) (step : Step) : Step := ⟨step.entries.filter (isBeside keys)⟩

/-- Leaving out fewer keys first makes no difference. -/
theorem without_of_subset {keys more : List String} (h : keys ⊆ more) (step : Step) :
    (step.without keys).without more = step.without more := by
  rw [without, without, without, List.filter_filter]
  refine congrArg Step.mk (List.filter_congr fun e _ => ?_)
  rw [Bool.and_eq_left_iff_imp, isBeside, isBeside]
  cases e.1.text? with
  | none => exact fun _ => rfl
  | some key =>
    simp only [Option.all_some, Bool.not_eq_true', List.contains_eq_mem, decide_eq_false_iff_not]
    exact mt fun hkey => h hkey

/-- Other keys keep their values. -/
theorem get?_without {keys : List String} {key : String} (hkey : key ∉ keys) (step : Step) :
    (step.without keys).get? key = step.get? key := by
  obtain ⟨entries⟩ := step
  rw [without, get?, get?]
  induction entries with
  | nil => rfl
  | cons e rest ih =>
    obtain ⟨k, v⟩ := e
    rw [List.filter_cons]
    cases k with
    | text name =>
      by_cases hname : name = key
      · -- the first entry with the key has the key, so it is not one of those that go
        have hkept : isBeside keys (.text name, v) = true := by
          simpa only [isBeside, Yaml.text?, Option.all_some, Bool.not_eq_true',
            List.contains_eq_mem, decide_eq_false_iff_not, hname] using hkey
        rw [if_pos hkept, Yaml.lookup, Yaml.lookup, if_pos hname, if_pos hname]
      · split
        · rw [Yaml.lookup, Yaml.lookup, if_neg hname, if_neg hname, ih]
        · rw [Yaml.lookup, if_neg hname, ih]
    | _ => exact ih

/-- Steps that agree without some keys agree on each other key. -/
theorem get?_eq {keys : List String} {step step' : Step} (h : step.without keys = step'.without keys)
    {key : String} (hkey : key ∉ keys) : step.get? key = step'.get? key := by
  rw [← get?_without hkey step, ← get?_without hkey step', h]

end Step

/-! ## Executors that ignore the reserved keys -/

/-- A factory gives steps the same executor if they agree without the reserved keys. -/
def Factory.IgnoresReserved (factory : Factory ω) : Prop :=
  ∀ step step' : Step, step.without reservedKeys = step'.without reservedKeys →
    factory step = factory step'

/-- All factories of a registry ignore the reserved keys. -/
def Registry.IgnoresReserved (registry : Registry ω) : Prop :=
  ∀ name factory, Json.lookup name registry.factories = some factory →
    Factory.IgnoresReserved factory

section Builtin

/-- An entry in front of entries that read alike is read alike. -/
theorem Field.readNamed_cons_congr {fields : List (Field Yaml α)} {parts parts' : List (String × Yaml)}
    (h : ∀ seen a, readNamed fields seen parts a = readNamed fields seen parts' a)
    (part : String × Yaml) (seen : List String) (a : α) :
    readNamed fields seen (part :: parts) a = readNamed fields seen (part :: parts') a := by
  simp only [readNamed, h]

/-- Entries whose keys no field answers to make no difference. -/
theorem namedParts_beside {fields : List (Field Yaml α)} {keys : List String}
    (unknown : ∀ key ∈ keys, fields.find? (·.answersTo key) = none) (entries : Yaml.Entries) :
    (∀ seen a,
        Field.readNamed fields seen (Step.namedParts (entries.filter (Step.isBeside keys))).1 a
          = Field.readNamed fields seen (Step.namedParts entries).1 a)
      ∧ (Step.namedParts (entries.filter (Step.isBeside keys))).2 = (Step.namedParts entries).2 := by
  induction entries with
  | nil => exact ⟨fun _ _ => rfl, rfl⟩
  | cons e rest ih =>
    obtain ⟨k, v⟩ := e
    obtain ⟨ihread, ihbad⟩ := ih
    by_cases hkept : Step.isBeside keys (k, v) = true
    · rw [List.filter_cons_of_pos hkept, Step.namedParts, Step.namedParts]
      cases k.keyText? with
      | none => exact ⟨fun _ _ => rfl, rfl⟩
      | some name => exact ⟨Field.readNamed_cons_congr ihread (name, v), ihbad⟩
    · rw [List.filter_cons_of_neg hkept]
      cases k with
      | text name =>
        have hname : name ∈ keys := by
          simpa only [Step.isBeside, Yaml.text?, Option.all_some, Bool.not_eq_true',
            List.contains_eq_mem, decide_eq_false_iff_not, not_not] using hkept
        refine ⟨fun seen a => ?_, ihbad⟩
        -- the entry that goes has a name that no field answers to, so reading passes over it
        show _ = Field.readNamed fields seen ((name, v) :: (Step.namedParts rest).1) a
        rw [Field.readNamed, unknown name hname]
        exact ihread seen a
      | _ => exact absurd rfl hkept

/-- So the parameters are read alike with and without these keys. -/
theorem parameters_without {fields : List (Field Yaml α)} {keys : List String}
    (unknown : ∀ key ∈ keys, fields.find? (·.answersTo key) = none) (initial : α) (step : Step) :
    (step.without keys).parameters fields initial = step.parameters fields initial := by
  obtain ⟨hread, hbad⟩ := namedParts_beside unknown step.entries
  rw [Step.parameters, Step.parameters, Step.without]
  simp only [hread, hbad]

/-- A factory whose parameters have no reserved names ignores the reserved keys. -/
theorem decoded_ignoresReserved {name : String} {fields : List (Field Yaml α)} {initial : α}
    (unknown : ∀ key ∈ reservedKeys, fields.find? (·.answersTo key) = none)
    (executor : α → Executor ω) :
    Factory.IgnoresReserved (decoded name (·.parameters fields initial) executor) := by
  intro step step' h
  rw [decoded, decoded, ← parameters_without unknown initial step, h,
    parameters_without unknown initial step']

/-- A registry goes on ignoring reserved keys with a factory that does. -/
theorem register_ignoresReserved {registry : Registry ω} (h : registry.IgnoresReserved)
    (name : String) {factory : Factory ω} (hfactory : Factory.IgnoresReserved factory) :
    (registry.register name factory).IgnoresReserved := by
  intro name' factory' hlookup
  rw [Registry.register, Json.lookup_insertField] at hlookup
  split at hlookup
  · injection hlookup with hlookup
    exact hlookup ▸ hfactory
  · exact h name' factory' hlookup

/-- Scripts, requests and files have no parameter with a reserved name. -/
theorem builtin_ignoresReserved : Registry.builtin.IgnoresReserved := by
  have none : (Registry.empty : Registry Machine).IgnoresReserved := by
    intro name factory h
    cases h
  refine register_ignoresReserved (register_ignoresReserved (register_ignoresReserved none _ ?_) _ ?_)
    _ ?_
  · exact decoded_ignoresReserved (by decide) _
  · exact decoded_ignoresReserved (by decide) _
  · exact decoded_ignoresReserved (by decide) _

end Builtin

/-! ## What an attempt sees of a step -/

/-- Resolved steps that an attempt cannot tell apart. -/
structure Resolved.Alike (r r' : Resolved ω) : Prop where
  executor : r.executor = r'.executor
  timeoutSecs : r.timeoutSecs = r'.timeoutSecs

namespace Resolved.Alike

variable {r r' : Resolved ω} (h : r.Alike r')
include h

theorem answer (call : Call) (w : ω) : r.answer call w = r'.answer call w := by
  obtain ⟨executor, retry, delaySecs, timeoutSecs⟩ := r
  obtain ⟨executor', retry', delaySecs', timeoutSecs'⟩ := r'
  obtain ⟨rfl, rfl⟩ := h
  rfl

theorem verdictOn (declared : List String) (outcome : Outcome) :
    r.verdictOn declared outcome = r'.verdictOn declared outcome := by
  rw [Resolved.verdictOn, Resolved.verdictOn, h.executor]

theorem invocation (site : Site) (call : Call) (w : ω) :
    r.invocation site call w = r'.invocation site call w := by
  rw [Resolved.invocation, Resolved.invocation, h.executor, h.timeoutSecs]

end Resolved.Alike

/-- The keys that say when and how often a step is tried. -/
def retryKeys : List String := ["retry", "delay"]

section Find

variable {ctx : Context ω} {step step' : Step}

/-- Steps that differ only in when and how often they are tried find the same, as far as an attempt
    can tell. -/
theorem find_alike (ignores : ctx.registry.IgnoresReserved)
    (h : step.without retryKeys = step'.without retryKeys) :
    (∃ e, ctx.find step = .error e ∧ ctx.find step' = .error e)
      ∨ ∃ r r', ctx.find step = .ok r ∧ ctx.find step' = .ok r' ∧ r.Alike r' := by
  have htype : step.typeName = step'.typeName := by
    rw [Step.typeName, Step.typeName, Step.get?_eq h (by decide)]
  have htimeout : step.timeout? = step'.timeout? := by
    rw [Step.timeout?, Step.timeout?, Step.word?, Step.word?, Step.get?_eq h (by decide)]
  have hreserved : step.without reservedKeys = step'.without reservedKeys := by
    have hsub : retryKeys ⊆ reservedKeys := by decide
    rw [← Step.without_of_subset hsub step, h, Step.without_of_subset hsub step']
  -- the type is the same, and the factory of that type does not see the difference
  have hinstantiate : ctx.registry.instantiate step = ctx.registry.instantiate step' := by
    rw [Registry.instantiate, Registry.instantiate, htype]
    cases hlookup : Json.lookup step'.typeName ctx.registry.factories with
    | none => rfl
    | some factory => exact ignores _ factory hlookup step step' hreserved
  rw [Context.find, Context.find, resolve, resolve, hinstantiate]
  cases ctx.registry.instantiate step' with
  | error e => exact .inl ⟨e, rfl, rfl⟩
  | ok executor =>
    exact .inr ⟨_, _, rfl, rfl, rfl, congrArg (fun t : Option Nat => max 1 (t.getD _)) htimeout⟩

theorem assertions_eq (h : step.without retryKeys = step'.without retryKeys) :
    step.assertions = step'.assertions := by
  rw [Step.assertions, Step.assertions, Step.get?_eq h (by decide)]

/-- The number of retries is the one that the step asks for. -/
theorem retry_of_find {r : Resolved ω} (h : ctx.find step = .ok r) : r.retry = step.retry?.getD 0 :=
  congrArg Resolved.retry (Context.eq_of_find h)

end Find

/-- The context in which the first retry is delayed too, or not. -/
def Context.delayingFirst (ctx : Context ω) (flag : Bool) : Context ω :=
  { ctx with settings := { ctx.settings with delayFirstRetry := flag } }

theorem delayingFirst_find (ctx : Context ω) (flag : Bool) (step : Step) :
    (ctx.delayingFirst flag).find step = ctx.find step := rfl

/-! ## First attempts alone -/

/-- Where the first attempts of some steps stop: nowhere, at a step that finds no executor, or at a
    step that leaves a record.  Steps are counted from the first one. -/
inductive Stop where
  | never
  | unresolved (index : Nat)
  | recorded (index : Nat)
  deriving Repr, DecidableEq

namespace Stop

/-- One more step in front. -/
def succ : Stop → Stop
  | never => never
  | unresolved j => unresolved (j + 1)
  | recorded j => recorded (j + 1)

def index? : Stop → Option Nat
  | never => none
  | unresolved j | recorded j => some j

/-- How many of `n` steps have their turn. -/
def turns (n : Nat) : Stop → Nat
  | never => n
  | unresolved j | recorded j => j + 1

/-- How many of `n` steps are invoked. -/
def invoked (n : Nat) : Stop → Nat
  | never => n
  | unresolved j => j
  | recorded j => j + 1

/-- A step in front that passes makes one turn more. -/
theorem turns_succ (n : Nat) (stop : Stop) : stop.succ.turns (n + 1) = stop.turns n + 1 := by
  cases stop <;> rfl

theorem invoked_succ (n : Nat) (stop : Stop) : stop.succ.invoked (n + 1) = stop.invoked n + 1 := by
  cases stop <;> rfl

theorem isSome_index?_succ (stop : Stop) : stop.succ.index?.isSome = stop.index?.isSome := by
  cases stop <;> rfl

end Stop

/-- First attempts: where they stop, and the invocations on the way. -/
structure FirstAttempts (ω : Type) where
  stop : Stop
  calls : List (Invocation ω)

/-- One more step in front, which passes at once. -/
def FirstAttempts.after (first : FirstAttempts ω) (x : Invocation ω) : FirstAttempts ω :=
  ⟨first.stop.succ, x :: first.calls⟩

/-- The first attempts of the steps of case `k` from number `i` on, up to the one that does not pass. -/
def firstAttempts (ctx : Context ω) (call : Call) (k : Nat) :
    Nat → List Step → ω → FirstAttempts ω
  | _, [], _ => ⟨.never, []⟩
  | i, step :: rest, w =>
    match ctx.find step with
    | .error _ => ⟨.unresolved 0, []⟩
    | .ok r =>
      if (r.verdictOn step.assertions (r.answer call w).1).isOk then
        (firstAttempts ctx call k (i + 1) rest (r.answer call w).2).after
          (r.invocation ⟨k, i⟩ call w)
      else ⟨.recorded 0, [r.invocation ⟨k, i⟩ call w]⟩

section FirstAttempts

variable {ctx : Context ω}

/-- Retries and delays are nothing to first attempts. -/
theorem firstAttempts_congr (ignores : ctx.registry.IgnoresReserved) (flag flag' : Bool) (call : Call)
    (k : Nat) {steps steps' : List Step}
    (h : List.Forall₂ (fun step step' => step.without retryKeys = step'.without retryKeys)
      steps steps') :
    ∀ (i : Nat) (w : ω), firstAttempts (ctx.delayingFirst flag) call k i steps w
      = firstAttempts (ctx.delayingFirst flag') call k i steps' w := by
  induction h with
  | nil => exact fun _ _ => rfl
  | @cons step step' rest rest' hstep _ ih =>
    intro i w
    rw [firstAttempts, firstAttempts, assertions_eq hstep, delayingFirst_find, delayingFirst_find]
    rcases find_alike ignores hstep with ⟨e, hfind, hfind'⟩ | ⟨r, r', hfind, hfind', alike⟩
    · rw [hfind, hfind']
    · rw [hfind, hfind']
      -- the two executors answer alike, so both go on or both stop
      dsimp only
      rw [alike.answer, alike.verdictOn, alike.invocation, ih]

/-- How the steps of case `k` go from number `i` on, by their first attempts: the case has failed iff
    they stop somewhere, they are looked at up to there, each is invoked for the first time in turn, and
    whatever is invoked after that is a retry of the step where they stop. -/
structure GoesAs (ctx : Context ω) (call : Call) (k i : Nat) (steps : List Step) (c : Case)
    (b : Bench ω) (first : FirstAttempts ω) : Prop where
  played : (stepsTask call k i steps c).play ctx b.world
    = ((runSteps ctx call steps c b).1, (runSteps ctx call steps c b).2.world)
  verdict : (runSteps ctx call steps c b).1.isFailed = (c.isFailed || first.stop.index?.isSome)
  turns : ((stepsTask call k i steps c).events ctx b.world).filterMap Event.resolvedSite?
    = (List.range' i (first.stop.turns steps.length)).map (Site.mk k)
  once : first.calls.map (·.site) = (List.range' i (first.stop.invoked steps.length)).map (Site.mk k)
  calls : ∃ retries, (stepsTask call k i steps c).invocations ctx b.world = first.calls ++ retries
    ∧ ∀ x ∈ retries, ∃ j, first.stop = .recorded j ∧ x.site = ⟨k, i + j⟩

theorem isFailed_iff {c : Case} : c.isFailed = true ↔ 0 < c.failures.length + c.errors.length :=
  decide_eq_true_iff

theorem isFailed_addRecords (c : Case) (v : Verdict) :
    (c.addRecords v).isFailed = (c.isFailed || !v.isOk) := by
  have hv : v.isOk = false ↔ 0 < v.failures.length + v.errors.length := by
    rw [Verdict.isOk, Bool.and_eq_false_iff, List.isEmpty_eq_false_iff_exists_mem,
      List.isEmpty_eq_false_iff_exists_mem, ← List.length_pos_iff_exists_mem,
      ← List.length_pos_iff_exists_mem]
    omega
  rw [Bool.eq_iff_iff, Bool.or_eq_true, Bool.not_eq_true', hv, isFailed_iff, isFailed_iff,
    Case.addRecords, List.length_append, List.length_append]
  omega

/-- **Runs go as their first attempts.**  Until the step where they stop nothing is retried, whatever
    the settings say. -/
theorem runSteps_goesAs (ctx : Context ω) (call : Call) (k : Nat) (steps : List Step) :
    ∀ (i : Nat) (c : Case) (b : Bench ω),
      GoesAs ctx call k i steps c b (firstAttempts ctx call k i steps b.world) := by
  induction steps with
  | nil =>
    intro i c b
    exact ⟨rfl, (Bool.or_false _).symm, rfl, rfl, [], rfl, fun _ hx => absurd hx List.not_mem_nil⟩
  | cons step rest ih =>
    intro i c b
    have hplayed := play_stepsTask ctx call k (step :: rest) i c b
    rw [firstAttempts]
    cases hfind : ctx.find step with
    | error e =>
      obtain ⟨hevents, hinvocations⟩ := stepsTask_unresolved ctx call k i rest c hfind b.world
      refine ⟨hplayed, ?_, ?_, rfl, [], hinvocations, fun _ hx => absurd hx List.not_mem_nil⟩
      · rw [runSteps_unresolved ctx call rest c b hfind, isFailed_addRecords]
        rfl
      · rw [hevents]
        rfl
    | ok r =>
      have hfirst := runStep_isOk_iff_answer ctx.settings r step call b
      dsimp only
      by_cases hpass : (r.verdictOn step.assertions (r.answer call b.world).1).isOk = true
      · -- one attempt, and the rest goes as its own first attempts
        obtain ⟨hevents, hinvocations⟩ := stepsTask_clean ctx call k i rest c hfind b hpass
        have hworld := runStep_world_of_passed ctx.settings r step call b hpass
        obtain ⟨_, hverdict, hturns, honce, retries, hcalls, hretries⟩ :=
          ih (i + 1) c (runStep ctx.settings r step call b).2
        rw [hworld] at hverdict hturns honce hcalls hretries
        rw [if_pos hpass]
        refine ⟨hplayed, ?_, ?_, ?_, retries, ?_, ?_⟩
        · rw [runSteps_clean ctx call rest c b hfind (hfirst.2 hpass), hverdict]
          exact congrArg _ (Stop.isSome_index?_succ _).symm
        · rw [hevents, List.length_cons, FirstAttempts.after, Stop.turns_succ, List.range'_succ,
            List.map_cons, ← hturns]
          rfl
        · rw [FirstAttempts.after, List.length_cons, Stop.invoked_succ, List.range'_succ,
            List.map_cons, List.map_cons, honce]
          rfl
        · rw [hinvocations, hcalls]
          rfl
        · intro x hx
          obtain ⟨j, hstop, hsite⟩ := hretries x hx
          refine ⟨j + 1, congrArg Stop.succ hstop, ?_⟩
          rw [hsite, Nat.add_right_comm, Nat.add_assoc]
      · -- the step leaves a record, and all that follows its first attempt is a retry
        have hrecord := mt hfirst.1 hpass
        obtain ⟨hevents, hinvocations⟩ := stepsTask_recorded ctx call k i rest c hfind b hrecord
        obtain ⟨n, _, hattempts⟩ := events_stepTask ctx ⟨k, i⟩ r step call b.world
        obtain ⟨retries, hcalls, hretries⟩ := invocations_stepTask ctx ⟨k, i⟩ r step call b.world
        rw [if_neg hpass]
        refine ⟨hplayed, ?_, ?_, rfl, retries, ?_, fun x hx => ⟨0, rfl, hretries x hx⟩⟩
        · rw [runSteps_recorded ctx call rest c b hfind hrecord, isFailed_addRecords]
          rw [StepOutcome.isOk, Bool.not_eq_true] at hrecord
          rw [hrecord]
          rfl
        · have hnone : (List.replicate (n + 1) (Event.invoked ⟨k, i⟩)).filterMap Event.resolvedSite?
              = [] := List.filterMap_replicate_of_none rfl
          rw [hevents, hattempts]
          exact congrArg (Site.mk k i :: ·) hnone
        · rw [hinvocations, hcalls]
          rfl

end FirstAttempts

/-! ## Tasks that play alike -/

/-- Two tasks, each in its own context, play alike from every world: the same invocations, the same
    world in the end, and results that agree. -/
def Task.PlaysAs (ctx ctx' : Context ω) (R : α → α → Prop) (t t' : Task ω α) : Prop :=
  ∀ w, t.invocations ctx w = t'.invocations ctx' w ∧ (t.play ctx w).2 = (t'.play ctx' w).2
    ∧ R (t.play ctx w).1 (t'.play ctx' w).1

namespace Task.PlaysAs

variable {ctx ctx' : Context ω} {R : α → α → Prop} {S : β → β → Prop}

theorem done {a a' : α} (h : R a a') : PlaysAs ctx ctx' R (.done a) (.done a') :=
  fun _ => ⟨rfl, rfl, h⟩

theorem resolving {site site' : Site} {step step' : Step}
    {next next' : Except ExecutorError (Resolved ω) → Task ω α}
    (h : PlaysAs ctx ctx' R (next (ctx.find step)) (next' (ctx'.find step'))) :
    PlaysAs ctx ctx' R (.resolving site step next) (.resolving site' step' next') := h

theorem invoking {site : Site} {r r' : Resolved ω} {call : Call} {next next' : Outcome → Task ω α}
    (alike : r.Alike r') (h : ∀ outcome, PlaysAs ctx ctx' R (next outcome) (next' outcome)) :
    PlaysAs ctx ctx' R (.invoking site r call next) (.invoking site r' call next') := by
  intro w
  obtain ⟨hcalls, hworld, hresult⟩ := h (r.answer call w).1 (r.answer call w).2
  rw [invocations, invocations, play, play, ← alike.answer, ← alike.invocation, hcalls]
  exact ⟨rfl, hworld, hresult⟩

theorem bind {t t' : Task ω α} {f f' : α → Task ω β} (h : PlaysAs ctx ctx' R t t')
    (hf : ∀ a a', R a a' → PlaysAs ctx ctx' S (f a) (f' a')) :
    PlaysAs ctx ctx' S (t.bind f) (t'.bind f') := by
  intro w
  obtain ⟨hcalls, hworld, hresult⟩ := h w
  obtain ⟨hcalls', hworld', hresult'⟩ := hf _ _ hresult (t.play ctx w).2
  rw [hworld] at hcalls' hworld' hresult'
  rw [invocations_bind, invocations_bind, play_bind, play_bind, hcalls, hworld, hcalls']
  exact ⟨rfl, hworld', hresult'⟩

end Task.PlaysAs

/-- A case whose steps lack some keys. -/
def Case.without (keys : List String) (c : Case) : Case :=
  { c with steps := c.steps.map (Step.without keys) }

section Delays

variable {ctx : Context ω}

/-- Attempts with as many retries play alike. -/
theorem attemptsTask_playsAs {ctx ctx' : Context ω} {r r' : Resolved ω} (alike : r.Alike r')
    (site : Site) (declared : List String) (call : Call) (left : Nat) : ∀ o : StepOutcome,
      Task.PlaysAs ctx ctx' Eq (attemptsTask site r declared call left o)
        (attemptsTask site r' declared call left o) := by
  induction left with
  | zero =>
    intro o
    refine .invoking alike fun outcome => .done ?_
    rw [alike.verdictOn]
  | succ left ih =>
    intro o
    refine .invoking alike fun outcome => ?_
    rw [alike.verdictOn]
    -- whether another attempt follows is decided by the outcome, which is the same
    split
    · exact .done rfl
    · exact ih _

theorem addRecords_without {keys : List String} {c c' : Case} (h : c.without keys = c'.without keys)
    (v : Verdict) : (c.addRecords v).without keys = (c'.addRecords v).without keys :=
  congrArg (fun c : Case => c.addRecords v) h

/-- Steps that agree beside their delays play alike. -/
theorem stepsTask_playsAs (ignores : ctx.registry.IgnoresReserved) (flag flag' : Bool) (call : Call)
    (k : Nat) {steps steps' : List Step}
    (h : List.Forall₂ (fun step step' => step.without ["delay"] = step'.without ["delay"])
      steps steps') :
    ∀ (i : Nat) (c c' : Case), c.without ["delay"] = c'.without ["delay"] →
      Task.PlaysAs (ctx.delayingFirst flag) (ctx.delayingFirst flag')
        (fun c c' => c.without ["delay"] = c'.without ["delay"])
        (stepsTask call k i steps c) (stepsTask call k i steps' c') := by
  induction h with
  | nil => exact fun _ _ _ hc => .done hc
  | @cons step step' rest rest' hstep _ ih =>
    intro i c c' hc
    have hsub : ["delay"] ⊆ retryKeys := by decide
    have hboth : step.without retryKeys = step'.without retryKeys := by
      rw [← Step.without_of_subset hsub step, hstep, Step.without_of_subset hsub step']
    have hretry : step.retry? = step'.retry? := by
      rw [Step.retry?, Step.retry?, Step.word?, Step.word?, Step.get?_eq hstep (by decide)]
    refine .resolving ?_
    rw [delayingFirst_find, delayingFirst_find]
    rcases find_alike ignores hboth with ⟨e, hfind, hfind'⟩ | ⟨r, r', hfind, hfind', alike⟩
    · rw [hfind, hfind']
      exact .done (addRecords_without hc _)
    · -- the same number of retries, since only the delays differ
      have hleft : r.retry = r'.retry := by
        rw [retry_of_find hfind, retry_of_find hfind', hretry]
      have hattempts : Task.PlaysAs (ctx.delayingFirst flag) (ctx.delayingFirst flag') Eq
          (stepTask ⟨k, i⟩ r step call) (stepTask ⟨k, i⟩ r' step' call) := by
        rw [stepTask, stepTask, assertions_eq hboth, hleft]
        refine .bind (attemptsTask_playsAs alike _ _ call _ _) ?_
        rintro o o' rfl
        exact .done rfl
      rw [hfind, hfind']
      refine .bind hattempts ?_
      rintro o o' rfl
      dsimp only
      split
      · exact ih (i + 1) _ _ (addRecords_without hc _)
      · exact .done (addRecords_without hc _)

end Delays

/-! ## Cases -/

/-- Cases that agree beside some keys have as many steps, which agree beside them too. -/
theorem forall₂_of_without {keys : List String} {c c' : Case}
    (h : c.without keys = c'.without keys) :
    List.Forall₂ (fun step step' => step.without keys = step'.without keys) c.steps c'.steps := by
  have hsteps : c.steps.map (Step.without keys) = c'.steps.map (Step.without keys) :=
    congrArg Case.steps h
  rw [← List.forall₂_eq_eq_eq, List.forall₂_map_left_iff, List.forall₂_map_right_iff] at hsteps
  exact hsteps

theorem name_of_without {keys : List String} {c c' : Case} (h : c.without keys = c'.without keys) :
    c.name = c'.name := by
  have hname := congrArg Case.name h
  exact hname

theorem isFailed_of_without {keys : List String} {c c' : Case}
    (h : c.without keys = c'.without keys) : c.isFailed = c'.isFailed := by
  have hfailed := congrArg Case.isFailed h
  exact hfailed

/-- Cases that agree beside their delays play alike. -/
theorem caseTask_playsAs {ctx : Context ω} (ignores : ctx.registry.IgnoresReserved)
    (flag flag' : Bool) (suite workdir : String) (k : Nat) {c c' : Case}
    (h : c.without ["delay"] = c'.without ["delay"]) :
    Task.PlaysAs (ctx.delayingFirst flag) (ctx.delayingFirst flag')
      (fun c c' => c.without ["delay"] = c'.without ["delay"])
      (caseTask ctx.aliases suite workdir k c) (caseTask ctx.aliases suite workdir k c') := by
  rw [caseTask, caseTask, name_of_without h]
  exact stepsTask_playsAs ignores flag flag' _ k (forall₂_of_without h) 0 c c' h

/-- **Retries and delays decide neither the verdict nor what leads to it.**  Two runs of a case whose
    steps differ only in retries and delays stop at the same step, make the same invocations up to its
    first attempt, and fail both or neither.  Where only delays differ, all invocations and all records
    are the same, and the runs leave the same world. -/
theorem runCase_ignores_retry_settings (ctx : Context ω) (ignores : ctx.registry.IgnoresReserved)
    (suite workdir : String) (k : Nat) (w : ω) (flag flag' : Bool) (ms ms' : Nat) (c c' : Case) :
    let call : Call := { aliases := ctx.aliases, suite, case := c.name, workdir }
    let run := runCase (ctx.delayingFirst flag) suite workdir c ⟨w, ms⟩
    let run' := runCase (ctx.delayingFirst flag') suite workdir c' ⟨w, ms'⟩
    (c.without retryKeys = c'.without retryKeys →
      ∃ first : FirstAttempts ω,
        GoesAs (ctx.delayingFirst flag) call k 0 c.steps c ⟨w, ms⟩ first
          ∧ GoesAs (ctx.delayingFirst flag') call k 0 c'.steps c' ⟨w, ms'⟩ first
          ∧ run.1.isFailed = run'.1.isFailed)
    ∧ (c.without ["delay"] = c'.without ["delay"] →
      run.1.without ["delay"] = run'.1.without ["delay"] ∧ run.2.world = run'.2.world
        ∧ (caseTask ctx.aliases suite workdir k c).invocations (ctx.delayingFirst flag) w
          = (caseTask ctx.aliases suite workdir k c').invocations (ctx.delayingFirst flag') w) := by
  intro call run run'
  constructor
  · intro h
    have hrun' : run' = runSteps (ctx.delayingFirst flag') call c'.steps c' ⟨w, ms'⟩ := by
      simp only [run', call, name_of_without h]
      rfl
    -- both runs go as their first attempts say, and these are the same
    have hfirst := runSteps_goesAs (ctx.delayingFirst flag) call k c.steps 0 c ⟨w, ms⟩
    have hfirst' := runSteps_goesAs (ctx.delayingFirst flag') call k c'.steps 0 c' ⟨w, ms'⟩
    rw [← firstAttempts_congr ignores flag flag' call k (forall₂_of_without h) 0 w] at hfirst'
    refine ⟨_, hfirst, hfirst', ?_⟩
    rw [hrun', hfirst'.verdict, ← isFailed_of_without h]
    exact hfirst.verdict
  · intro h
    have hplay : (caseTask ctx.aliases suite workdir k c).play (ctx.delayingFirst flag) w
        = (run.1, run.2.world) := play_caseTask (ctx.delayingFirst flag) suite workdir k c ⟨w, ms⟩
    have hplay' : (caseTask ctx.aliases suite workdir k c').play (ctx.delayingFirst flag') w
        = (run'.1, run'.2.world) :=
      play_caseTask (ctx.delayingFirst flag') suite workdir k c' ⟨w, ms'⟩
    obtain ⟨hcalls, hworld, hcase⟩ := caseTask_playsAs ignores flag flag' suite workdir k h w
    rw [hplay, hplay'] at hworld hcase
    exact ⟨hcase, hworld, hcalls⟩

/-- A step that recovers at its second attempt.  Without its retry the second attempt is not made, but
    the case fails all the same; without its delay the same two attempts are made. -/
theorem runCase_ignores_retry_settings_recovery :
    let script : Script := ⟨[⟨0, .fail "not yet"⟩, ⟨0, .give .null⟩], none⟩
    let registry := Registry.empty.register "probe" fun _ => .ok (script.executor "probe")
    let ctx : Context Stage := ⟨Aliases.empty, registry, Settings.standard⟩
    let step (extra : Yaml.Entries) : Step := ⟨(.text "type", .text "probe") :: extra⟩
    let once := Case.fresh "case" [step [], step []] false
    let retry : Yaml × Yaml := (.text "retry", .number (.int 1))
    let delay : Yaml × Yaml := (.text "delay", .number (.int 1))
    let again := Case.fresh "case" [step [retry], step []] false
    let later := Case.fresh "case" [step [retry, delay], step []] false
    let run (c : Case) := runCase (ctx.delayingFirst true) "suite" "." c ⟨Stage.empty, 0⟩
    let calls (c : Case) :=
      (caseTask ctx.aliases "suite" "." 0 c).invocations (ctx.delayingFirst true) Stage.empty
    (calls once).length = 1 ∧ (calls later).length = 2
      ∧ (run once).1.isFailed = (run later).1.isFailed
      ∧ (run again).1.errors = ["not yet"] ∧ (run again).2.elapsedMs = 0
      ∧ 0 < (run later).2.elapsedMs ∧ calls again = calls later := by
  intro script registry ctx step once retry delay again later run calls
  have ignores : registry.IgnoresReserved := by
    refine register_ignoresReserved ?_ _ fun _ _ _ => rfl
    intro name factory h
    cases h
  have hboth := runCase_ignores_retry_settings ctx ignores "suite" "." 0 Stage.empty true true 0 0
  refine ⟨rfl, rfl, ?_, rfl, rfl, of_decide_eq_true rfl, ?_⟩
  · obtain ⟨_, _, _, hverdict⟩ := (hboth once later).1 rfl
    exact hverdict
  · exact ((hboth again later).2 rfl).2.2

end TestBench
