import Mathlib
import TestBench.Proofs.Task
/-
  What a suite records, by what it was answered.

  1. A delivery is the answer that an invocation got.  `Task.Follows` says which task remains of another
     one once some deliveries have been made, wherever they came from.
  2. Every invocation that a suite asks for has a place with a step, and its executor is the one that
     this step finds (`Task.Asks`, `asks_suite`).
  3. Each delivery contributes the verdict on its outcome to the case of its place and to no other, in
     the order of deliveries.  Besides them a case records one thing at most: why a step found no
     executor, or how often a step was tried (`Extra`, `records_suite`).
-/
namespace TestBench

variable {ω α β : Type}

/-! ## Following a task -/

/-- An invocation and the outcome that it was answered with. -/
structure Delivery (ω : Type) where
  site : Site
  resolved : Resolved ω
  call : Call
  outcome : Outcome

namespace Task

/-- What remains of a task after some deliveries. -/
inductive Follows (ctx : Context ω) : Task ω α → List (Delivery ω) → Task ω α → Prop where
  | here (t : Task ω α) : Follows ctx t [] t
  | resolving {site step next ds t} (rest : Follows ctx (next (ctx.find step)) ds t) :
      Follows ctx (.resolving site step next) ds t
  | invoking {site r call next outcome ds t} (rest : Follows ctx (next outcome) ds t) :
      Follows ctx (.invoking site r call next) (⟨site, r, call, outcome⟩ :: ds) t

variable {ctx : Context ω} {t : Task ω α} {ds : List (Delivery ω)}

/-- Deliveries to a task, and then to what it has become, are deliveries to the task. -/
theorem Follows.trans {t' t'' : Task ω α} {ds' : List (Delivery ω)} (h : Follows ctx t ds t')
    (h' : Follows ctx t' ds' t'') : Follows ctx t (ds ++ ds') t'' := by
  induction h with
  | here t => exact h'
  | resolving rest ih => exact .resolving (ih h')
  | invoking rest ih => exact .invoking (ih h')

/-- Once its executor has been looked for, a task goes on. -/
theorem Follows.resolve {site : Site} {step : Step}
    {next : Except ExecutorError (Resolved ω) → Task ω α}
    (h : Follows ctx t ds (.resolving site step next)) :
    Follows ctx t ds (next (ctx.find step)) := by
  have hnext := h.trans (.resolving (.here (next (ctx.find step))))
  rwa [List.append_nil] at hnext

/-- One more delivery. -/
theorem Follows.deliver {site : Site} {r : Resolved ω} {call : Call} {next : Outcome → Task ω α}
    (h : Follows ctx t ds (.invoking site r call next)) (outcome : Outcome) :
    Follows ctx t (ds ++ [⟨site, r, call, outcome⟩]) (next outcome) :=
  h.trans (.invoking (.here (next outcome)))

/-- A task of two parts goes through the first one and then through the second one. -/
theorem Follows.of_bind {f : α → Task ω β} {b : β} (h : Follows ctx (t.bind f) ds (.done b)) :
    ∃ ds₁ ds₂ a, ds = ds₁ ++ ds₂ ∧ Follows ctx t ds₁ (.done a)
      ∧ Follows ctx (f a) ds₂ (.done b) := by
  induction t generalizing ds with
  | done a => exact ⟨[], ds, a, rfl, .here _, h⟩
  | resolving site step next ih =>
    cases h with
    | resolving rest =>
      obtain ⟨ds₁, ds₂, a, rfl, hfirst, hsecond⟩ := ih _ rest
      exact ⟨ds₁, ds₂, a, rfl, .resolving hfirst, hsecond⟩
  | invoking site r call next ih =>
    cases h with
    | invoking rest =>
      obtain ⟨ds₁, ds₂, a, rfl, hfirst, hsecond⟩ := ih _ rest
      -- the first part has asked for this delivery, so it is counted there
      exact ⟨_ :: ds₁, ds₂, a, rfl, .invoking hfirst, hsecond⟩

/-- A task that is done gets no more deliveries. -/
theorem Follows.of_done {a b : α} (h : Follows ctx (.done a) ds (.done b)) : ds = [] ∧ b = a := by
  cases h with
  | here => exact ⟨rfl, rfl⟩

/-- What is done to the result alone takes no deliveries. -/
theorem Follows.of_map {f : α → β} {b : β} (h : Follows ctx (t.map f) ds (.done b)) :
    ∃ a, Follows ctx t ds (.done a) ∧ b = f a := by
  obtain ⟨ds₁, ds₂, a, rfl, hfirst, hsecond⟩ := h.of_bind
  obtain ⟨rfl, rfl⟩ := hsecond.of_done
  exact ⟨a, (List.append_nil ds₁).symm ▸ hfirst, rfl⟩

/-- The deliveries fix what a task comes to. -/
theorem Follows.unique {a b : α} (ha : Follows ctx t ds (.done a)) (hb : Follows ctx t ds (.done b)) :
    a = b := by
  induction t generalizing ds with
  | done result => rw [ha.of_done.2, hb.of_done.2]
  | resolving site step next ih =>
    cases ha with
    | resolving ha =>
      cases hb with
      | resolving hb => exact ih _ ha hb
  | invoking site r call next ih =>
    cases ha with
    | invoking ha =>
      cases hb with
      | invoking hb => exact ih _ ha hb

/-! ## What a task asks for -/

/-- All invocations that a task can still ask for have a property, whatever it is answered. -/
inductive Asks (ctx : Context ω) (P : Site → Resolved ω → Prop) : Task ω α → Prop where
  | done (a : α) : Asks ctx P (.done a)
  | resolving {site step next} (rest : Asks ctx P (next (ctx.find step))) :
      Asks ctx P (.resolving site step next)
  | invoking {site r call next} (asked : P site r) (rest : ∀ outcome, Asks ctx P (next outcome)) :
      Asks ctx P (.invoking site r call next)

variable {P : Site → Resolved ω → Prop}

/-- A task of two parts asks for what its parts ask for. -/
theorem Asks.bind {f : α → Task ω β} (h : Asks ctx P t) (hf : ∀ a, Asks ctx P (f a)) :
    Asks ctx P (t.bind f) := by
  induction h with
  | done a => exact hf a
  | resolving _ ih => exact .resolving ih
  | invoking asked _ ih => exact .invoking asked ih

theorem Asks.map {f : α → β} (h : Asks ctx P t) : Asks ctx P (t.map f) := h.bind fun a => .done (f a)

/-- What a task was answered, it has asked for. -/
theorem Asks.follow {t' : Task ω α} (h : Asks ctx P t) (hfollow : Follows ctx t ds t') :
    (∀ d ∈ ds, P d.site d.resolved) ∧ Asks ctx P t' := by
  induction hfollow with
  | here t => exact ⟨fun _ hd => absurd hd List.not_mem_nil, h⟩
  | resolving _ ih =>
    cases h with
    | resolving rest => exact ih rest
  | invoking _ ih =>
    cases h with
    | invoking asked rest =>
      obtain ⟨hds, ht⟩ := ih (rest _)
      exact ⟨List.forall_mem_cons.2 ⟨asked, hds⟩, ht⟩

end Task

/-- A suite has a step at a place. -/
def Suite.StepAt (s : Suite) (site : Site) (step : Step) : Prop :=
  ∃ c, s.cases[site.case]? = some c ∧ c.steps[site.step]? = some step

section Asks

variable {ctx : Context ω} {stepAt : Site → Step → Prop}

/-- The executor of an invocation is the one that the step at its place finds. -/
def FoundAt (ctx : Context ω) (stepAt : Site → Step → Prop) (site : Site) (r : Resolved ω) : Prop :=
  ∃ step, stepAt site step ∧ ctx.find step = .ok r

/-- However many attempts are left, all of them ask at the place of the step for its executor. -/
theorem asks_attempts {P : Site → Resolved ω → Prop} {site : Site} {r : Resolved ω} (h : P site r)
    (declared : List String) (call : Call) (left : Nat) : ∀ o : StepOutcome,
      Task.Asks ctx P (attemptsTask site r declared call left o) := by
  induction left with
  | zero => exact fun o => .invoking h fun outcome => .done _
  | succ left ih =>
    refine fun o => .invoking h fun outcome => ?_
    split
    · exact .done _
    · exact ih _

/-- The steps of a case ask at their own places for the executors that they find. -/
theorem asks_steps (call : Call) (k : Nat) (steps : List Step) : ∀ (i : Nat) (c : Case),
    (∀ j step, steps[j]? = some step → stepAt ⟨k, i + j⟩ step) →
      Task.Asks ctx (FoundAt ctx stepAt) (stepsTask call k i steps c) := by
  induction steps with
  | nil => exact fun i c _ => .done c
  | cons step rest ih =>
    intro i c hat
    refine .resolving ?_
    cases hfind : ctx.find step with
    | error e => exact .done _
    | ok r =>
      have hfound : FoundAt ctx stepAt ⟨k, i⟩ r := ⟨step, hat 0 step rfl, hfind⟩
      refine (asks_attempts hfound step.assertions call r.retry _).map.bind fun o => ?_
      dsimp only
      split
      · -- the rest of the steps is the same case from the next place on
        refine ih (i + 1) _ fun j step' hstep => ?_
        rw [Nat.add_assoc, Nat.add_comm 1 j]
        exact hat (j + 1) step' hstep
      · exact .done _

/-- The cases of a suite ask for what their steps find, each at its own number. -/
theorem asks_cases (aliases : Aliases) (suite workdir : String) (cases : List Case) : ∀ k : Nat,
    (∀ j c, cases[j]? = some c → ∀ i step, c.steps[i]? = some step → stepAt ⟨k + j, i⟩ step) →
      Task.Asks ctx (FoundAt ctx stepAt) (casesTask aliases suite workdir k cases) := by
  induction cases with
  | nil => exact fun k _ => .done []
  | cons c rest ih =>
    intro k hat
    -- the rest of the cases is the same suite from the next number on
    have hrest := ih (k + 1) fun j c' hc' i step hstep => by
      rw [Nat.add_assoc, Nat.add_comm 1 j]
      exact hat (j + 1) c' hc' i step hstep
    refine .bind ?_ fun c' => hrest.map
    split
    · exact .done c
    · refine asks_steps _ k c.steps 0 c fun j step hstep => ?_
      rw [Nat.zero_add]
      exact hat 0 c rfl j step hstep

/-- All invocations of a suite are at places where it has a step, with the executor of that step. -/
theorem asks_suite (ctx : Context ω) (s : Suite) :
    Task.Asks ctx (FoundAt ctx s.StepAt) (ctx.task s) := by
  refine (asks_cases _ _ _ s.cases 0 fun j c hc i step hstep => ?_).map
  rw [Nat.zero_add]
  exact ⟨c, hc, hstep⟩

end Asks

/-! ## What deliveries leave -/

namespace Verdict

/-- Verdicts one after another. -/
def join (vs : List Verdict) : Verdict := vs.foldr (· ++ ·) clean

@[simp] theorem join_nil : join [] = clean := rfl

@[simp] theorem join_cons (v : Verdict) (vs : List Verdict) : join (v :: vs) = v ++ join vs := rfl

@[simp] theorem clean_append (v : Verdict) : clean ++ v = v := rfl

theorem join_append (vs ws : List Verdict) : join (vs ++ ws) = join vs ++ join ws := by
  induction vs with
  | nil => rfl
  | cons v vs ih => rw [List.cons_append, join_cons, join_cons, ih, append_assoc]

end Verdict

/-- What a case records besides the verdicts on its deliveries: nothing, how often a step was tried, or
    why a step has no executor. -/
inductive Extra (ctx : Context ω) : Verdict → Prop where
  | nothing : Extra ctx Verdict.clean
  | tried (attempts : UInt64) : Extra ctx ⟨[], [StepOutcome.attemptNote attempts]⟩
  | unresolved {step : Step} {e : ExecutorError} (missing : ctx.find step = .error e) :
      Extra ctx ⟨[e.message], []⟩

/-- A verdict is the one on a delivery, by the assertions of the step at its place. -/
def Contributes (ctx : Context ω) (stepAt : Site → Step → Prop) (d : Delivery ω) (v : Verdict) :
    Prop :=
  ∃ step, stepAt d.site step ∧ ctx.find step = .ok d.resolved
    ∧ v = d.resolved.verdictOn step.assertions d.outcome

/-- A case after a run.  To its records come the verdicts on its deliveries, in their order, and one
    thing besides them at most. -/
def Case.Records (ctx : Context ω) (stepAt : Site → Step → Prop) (ds : List (Delivery ω))
    (c c' : Case) : Prop :=
  ∃ vs extra, List.Forall₂ (Contributes ctx stepAt) ds vs ∧ Extra ctx extra
    ∧ c' = c.addRecords (Verdict.join vs ++ extra)

/-- A case that nothing was delivered to is left as it was. -/
theorem Case.records_nil (ctx : Context ω) (stepAt : Site → Step → Prop) (c : Case) :
    c.Records ctx stepAt [] c :=
  ⟨[], Verdict.clean, .nil, .nothing, c.addRecords_clean.symm⟩

section Records

variable {ctx : Context ω} {stepAt : Site → Step → Prop} {ds : List (Delivery ω)}

/-- The attempts of a step leave the verdicts on its deliveries. -/
theorem records_attempts {site : Site} {r : Resolved ω} {declared : List String} {call : Call}
    {left : Nat} {o o' : StepOutcome}
    (h : Task.Follows ctx (attemptsTask site r declared call left o) ds (.done o')) :
    o'.verdict = o.verdict ++ Verdict.join (ds.map fun d => r.verdictOn declared d.outcome)
      ∧ ∀ d ∈ ds, d.site = site ∧ d.resolved = r := by
  have last (o : StepOutcome) (outcome : Outcome) :
      (o.add (r.verdictOn declared outcome)).verdict
        = o.verdict ++ Verdict.join [r.verdictOn declared outcome] := by
    rw [Verdict.join_cons, Verdict.join_nil, Verdict.append_clean, StepOutcome.add_verdict]
  induction left generalizing o ds with
  | zero =>
    cases h with
    | @invoking _ _ _ _ outcome ds _ rest =>
      obtain ⟨rfl, rfl⟩ := rest.of_done
      exact ⟨last o outcome, List.forall_mem_singleton.2 ⟨rfl, rfl⟩⟩
  | succ left ih =>
    cases h with
    | @invoking _ _ _ _ outcome ds _ rest =>
      dsimp only at rest
      -- attempts go on iff this one has left a record
      by_cases hpass : (r.verdictOn declared outcome).isOk = true
      · rw [if_pos hpass] at rest
        obtain ⟨rfl, rfl⟩ := rest.of_done
        exact ⟨last o outcome, List.forall_mem_singleton.2 ⟨rfl, rfl⟩⟩
      · rw [if_neg hpass] at rest
        obtain ⟨hverdict, hsites⟩ := ih rest
        rw [StepOutcome.add_verdict, Verdict.append_assoc] at hverdict
        exact ⟨hverdict, List.forall_mem_cons.2 ⟨⟨rfl, rfl⟩, hsites⟩⟩

/-- A step leaves the verdicts on its deliveries, and at most a note of their number. -/
theorem records_step {site : Site} {r : Resolved ω} {step : Step} {call : Call} {o : StepOutcome}
    (h : Task.Follows ctx (stepTask site r step call) ds (.done o)) :
    (∃ extra, Extra ctx extra ∧ o.verdict
        = Verdict.join (ds.map fun d => r.verdictOn step.assertions d.outcome) ++ extra)
      ∧ ∀ d ∈ ds, d.site = site ∧ d.resolved = r := by
  obtain ⟨tried, htried, rfl⟩ := h.of_map
  obtain ⟨hverdict, hsites⟩ := records_attempts htried
  have hstart : tried.verdict
      = Verdict.join (ds.map fun d => r.verdictOn step.assertions d.outcome) := hverdict
  refine ⟨?_, hsites⟩
  rw [StepOutcome.conclude]
  split
  · exact ⟨_, .tried _, by rw [hstart]⟩
  · exact ⟨_, .nothing, by rw [hstart, Verdict.append_clean]⟩

/-- The steps of a case leave the verdicts on their deliveries, all of which are in this case. -/
theorem records_steps (call : Call) (k : Nat) {steps : List Step} {i : Nat} {c c' : Case}
    (hat : ∀ j step, steps[j]? = some step → stepAt ⟨k, i + j⟩ step)
    (h : Task.Follows ctx (stepsTask call k i steps c) ds (.done c')) :
    c.Records ctx stepAt ds c' ∧ ∀ d ∈ ds, d.site.case = k := by
  induction steps generalizing i c ds with
  | nil =>
    obtain ⟨rfl, rfl⟩ := Task.Follows.of_done h
    exact ⟨Case.records_nil ctx stepAt _, fun _ hd => absurd hd List.not_mem_nil⟩
  | cons step rest ih =>
    cases h with
    | resolving h =>
      cases hfind : ctx.find step with
      | error e =>
        rw [hfind] at h
        obtain ⟨rfl, rfl⟩ := Task.Follows.of_done h
        exact ⟨⟨[], _, .nil, .unresolved hfind, rfl⟩, fun _ hd => absurd hd List.not_mem_nil⟩
      | ok r =>
        rw [hfind] at h
        obtain ⟨ds₁, ds₂, o, rfl, hfirst, hrest⟩ := h.of_bind
        obtain ⟨⟨extra, hextra, hverdict⟩, hsites⟩ := records_step hfirst
        have hcase : ∀ d ∈ ds₁, d.site.case = k := fun d hd => congrArg Site.case (hsites d hd).1
        have hcontributes : List.Forall₂ (Contributes ctx stepAt) ds₁
            (ds₁.map fun d => r.verdictOn step.assertions d.outcome) := by
          rw [List.forall₂_map_right_iff, List.forall₂_same]
          intro d hd
          obtain ⟨hsite, hresolved⟩ := hsites d hd
          exact ⟨step, hsite ▸ hat 0 step rfl, hresolved ▸ hfind, by rw [hresolved]⟩
        dsimp only at hrest
        split at hrest
        next hclean =>
          -- the step is clean, so its deliveries left nothing and what follows is all there is
          rw [Verdict.isOk_iff.1 hclean, Case.addRecords_clean] at hrest
          rw [StepOutcome.isOk, hverdict, Verdict.isOk_append, Bool.and_eq_true] at hclean
          obtain ⟨⟨vs, extra', hvs, hextra', rfl⟩, hrestCase⟩ := ih (fun j step' hstep => by
            rw [Nat.add_assoc, Nat.add_comm 1 j]
            exact hat (j + 1) step' hstep) hrest
          refine ⟨⟨_, extra', List.rel_append hcontributes hvs, hextra', ?_⟩,
            List.forall_mem_append.2 ⟨hcase, hrestCase⟩⟩
          rw [Verdict.join_append, Verdict.isOk_iff.1 hclean.1, Verdict.clean_append]
        next =>
          obtain ⟨rfl, rfl⟩ := Task.Follows.of_done hrest
          rw [List.append_nil, hverdict]
          exact ⟨⟨_, extra, hcontributes, hextra, rfl⟩, hcase⟩

/-- Deliveries in a case, followed by deliveries in later cases, are told apart by their case. -/
theorem filter_case_append {ds₁ ds₂ : List (Delivery ω)} {k : Nat}
    (here : ∀ d ∈ ds₁, d.site.case = k) (behind : ∀ d ∈ ds₂, k + 1 ≤ d.site.case) :
    (ds₁ ++ ds₂).filter (fun d => d.site.case = k) = ds₁
      ∧ ∀ j, (ds₁ ++ ds₂).filter (fun d => d.site.case = k + 1 + j)
        = ds₂.filter fun d => d.site.case = k + 1 + j := by
  constructor
  · have hnone : ds₂.filter (fun d => d.site.case = k) = [] := by
      refine List.filter_eq_nil_iff.2 fun d hd => ?_
      have := behind d hd
      rw [decide_eq_true_eq]
      omega
    rw [List.filter_append, hnone, List.append_nil]
    exact List.filter_eq_self.2 fun d hd => decide_eq_true (here d hd)
  · intro j
    have hnone : ds₁.filter (fun d => d.site.case = k + 1 + j) = [] := by
      refine List.filter_eq_nil_iff.2 fun d hd => ?_
      have := here d hd
      rw [decide_eq_true_eq]
      omega
    rw [List.filter_append, hnone, List.nil_append]

/-- Each case of a suite leaves the verdicts on the deliveries at its places. -/
theorem records_cases {aliases : Aliases} {suite workdir : String} {cases cases' : List Case}
    {k : Nat}
    (hat : ∀ j c, cases[j]? = some c → ∀ i step, c.steps[i]? = some step → stepAt ⟨k + j, i⟩ step)
    (h : Task.Follows ctx (casesTask aliases suite workdir k cases) ds (.done cases')) :
    (∀ d ∈ ds, k ≤ d.site.case) ∧ cases'.length = cases.length
      ∧ ∀ (j : Nat) (c c' : Case), cases[j]? = some c → cases'[j]? = some c' →
          c.Records ctx stepAt (ds.filter fun d => d.site.case = k + j) c' := by
  induction cases generalizing k ds cases' with
  | nil =>
    obtain ⟨rfl, rfl⟩ := Task.Follows.of_done h
    exact ⟨fun _ hd => absurd hd List.not_mem_nil, rfl, fun j c c' hc => nomatch hc⟩
  | cons c rest ih =>
    obtain ⟨ds₁, ds₂, ran, rfl, hfirst, hothers⟩ := Task.Follows.of_bind h
    obtain ⟨rest', hrest, rfl⟩ := hothers.of_map
    have hshift : ∀ j, k + (j + 1) = k + 1 + j := fun j => by omega
    obtain ⟨hbehind, hlength, hrecords⟩ := ih (fun j c' hc' => by
      rw [← hshift]
      exact hat (j + 1) c' hc') hrest
    have hran : c.Records ctx stepAt ds₁ ran ∧ ∀ d ∈ ds₁, d.site.case = k := by
      split at hfirst
      · obtain ⟨rfl, rfl⟩ := hfirst.of_done
        exact ⟨Case.records_nil ctx stepAt _, fun _ hd => absurd hd List.not_mem_nil⟩
      · refine records_steps _ k (fun j step hstep => ?_) hfirst
        rw [Nat.zero_add]
        exact hat 0 c rfl j step hstep
    -- so the number of a case tells its deliveries from those of the cases behind it
    obtain ⟨hhere, hlater⟩ := filter_case_append hran.2 hbehind
    refine ⟨List.forall_mem_append.2 ⟨fun d hd => (hran.2 d hd).ge, fun d hd =>
      (Nat.le_succ k).trans (hbehind d hd)⟩, congrArg (· + 1) hlength, fun j c₁ c₂ hc₁ hc₂ => ?_⟩
    cases j with
    | zero =>
      cases hc₁
      cases hc₂
      rw [Nat.add_zero, hhere]
      exact hran.1
    | succ j =>
      rw [hshift, hlater]
      exact hrecords j c₁ c₂ hc₁ hc₂

end Records

/-- **What a suite records.**  A suite that has ended has the cases that it had, and each of them has
    recorded what was delivered at its own places, delivery by delivery, with one thing besides at
    most. -/
theorem records_suite {ctx : Context ω} {s s' : Suite} {ds : List (Delivery ω)}
    (h : Task.Follows ctx (ctx.task s) ds (.done s')) :
    s'.cases.length = s.cases.length
      ∧ ∀ (k : Nat) (c c' : Case), s.cases[k]? = some c → s'.cases[k]? = some c' →
          c.Records ctx s.StepAt (ds.filter fun d => d.site.case = k) c' := by
  obtain ⟨cases', hcases, rfl⟩ := h.of_map
  have hat : ∀ (j : Nat) (c : Case), s.cases[j]? = some c →
      ∀ (i : Nat) (step : Step), c.steps[i]? = some step → s.StepAt ⟨0 + j, i⟩ step := by
    intro j c hc i step hstep
    rw [Nat.zero_add]
    exact ⟨c, hc, hstep⟩
  obtain ⟨-, hlength, hrecords⟩ := records_cases hat hcases
  refine ⟨hlength, fun k c c' hc hc' => ?_⟩
  have hrecord := hrecords k c c' hc hc'
  rwa [Nat.zero_add] at hrecord

end TestBench
