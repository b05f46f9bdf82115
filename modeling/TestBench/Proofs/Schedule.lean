import Mathlib
import TestBench.Proofs.Task
import TestBench.Proofs.Totals
/-
  Suites that run at once.

  A gate lets in so many suites at a time, in the order of their files.  A suite that has run gives up
  its place behind the gate, and only then goes into a channel, at whose other end one collector
  records it.  Who is next is open at every moment.

  1. `Schedule` is the state and `Schedule.Step` what can happen in it.  Suites keep the numbers that
     they have in file order.
  2. No step loses a number, makes a second one, or puts one where it does not belong
     (`Valid.step`).  Hence each suite is in exactly one of five places in every state that can be
     reached, and the channel, which has room for all suites, is never full when a suite is sent.
  3. Somebody can go on until all suites are recorded (`Valid.exists_step`), and nobody can go on for
     ever (`step_wellFounded`).
-/
namespace TestBench

variable {ω α : Type}

/-! ## Tasks request by request -/

namespace Task

/-- The next request of a task is answered, if it has one. -/
def advance (ctx : Context ω) : Task ω α → ω → Option (Task ω α × ω)
  | .done _, _ => none
  | .resolving _ step next, w => some (next (ctx.find step), w)
  | .invoking _ r call next, w => some (next (r.answer call w).1, (r.answer call w).2)

/-- A task that is not done has a request, and every request is answered. -/
theorem exists_advance (ctx : Context ω) (t : Task ω α) (w : ω) :
    (∃ a, t = .done a) ∨ ∃ t' w', t.advance ctx w = some (t', w') := by
  cases t with
  | done a => exact .inl ⟨a, rfl⟩
  | resolving site step next => exact .inr ⟨_, _, rfl⟩
  | invoking site r call next => exact .inr ⟨_, _, rfl⟩

section Advance

variable {ctx : Context ω} {t' : Task ω α} {w w' : ω}

/-- A task that asks for an executor goes on with what is found. -/
theorem advance_resolving {site : Site} {step : Step}
    {next : Except ExecutorError (Resolved ω) → Task ω α}
    (h : (Task.resolving site step next).advance ctx w = some (t', w')) :
    t' = next (ctx.find step) := by
  injection h with h
  injection h with ht hw
  exact ht.symm

/-- A task that invokes an executor goes on with its answer in the world of that moment. -/
theorem advance_invoking {site : Site} {r : Resolved ω} {call : Call} {next : Outcome → Task ω α}
    (h : (Task.invoking site r call next).advance ctx w = some (t', w')) :
    t' = next (r.answer call w).1 := by
  injection h with h
  injection h with ht hw
  exact ht.symm

/-- A task that is answered comes to nothing that it could not come to before. -/
theorem canEnd_of_advance {t : Task ω α} {a : α} (h : t.advance ctx w = some (t', w'))
    (hend : t'.CanEnd a) : t.CanEnd a := by
  cases t with
  | done b => cases h
  | resolving site step next =>
    rw [advance_resolving h] at hend
    exact .resolving hend
  | invoking site r call next =>
    rw [advance_invoking h] at hend
    exact .invoking hend

end Advance

/-- A task is answered only so many times, though nobody knows how many. -/
theorem advance_wellFounded (ctx : Context ω) :
    WellFounded fun t' t : Task ω α => ∃ w w', t.advance ctx w = some (t', w') := by
  refine ⟨fun t => ?_⟩
  -- each answer leaves one of the branches, and the induction knows that all of them end
  induction t with
  | done a =>
    refine ⟨_, ?_⟩
    rintro t' ⟨w, w', h⟩
    cases h
  | resolving site step next ih =>
    refine ⟨_, ?_⟩
    rintro t' ⟨w, w', h⟩
    rw [advance_resolving h]
    exact ih (ctx.find step)
  | invoking site r call next ih =>
    refine ⟨_, ?_⟩
    rintro t' ⟨w, w', h⟩
    rw [advance_invoking h]
    exact ih (r.answer call w).1

end Task

/-! ## States and steps -/

/-- A run of suites at some moment.  Every suite has the number that it has in file order. -/
structure Schedule (ω : Type) where
  waiting : List (Suite × Nat)
  running : Multiset (Task ω Suite × Nat)
  /-- Suites that have given up their permits, but are not in the channel yet. -/
  finished : Multiset (Suite × Nat)
  channel : List (Suite × Nat)
  recorded : List (Suite × Nat)
  totals : Totals
  permits : Nat
  world : ω

namespace Schedule

/-- The places in which a suite can be. -/
inductive Place where
  | waiting | running | finished | channel | recorded
  deriving Repr, DecidableEq

/-- All suites wait, and the gate lets in at least one at a time. -/
def initial (parallel : Nat) (suites : List Suite) (w : ω) : Schedule ω :=
  { waiting := suites.zipIdx, running := 0, finished := 0, channel := [], recorded := []
    totals := Totals.empty, permits := max 1 parallel, world := w }

/-- How many suites fit into the channel. -/
def capacity (suites : List Suite) : Nat := max 1 suites.length

/-- What can happen next, with a channel that holds `room` suites. -/
inductive Step (ctx : Context ω) (room : Nat) : Schedule ω → Schedule ω → Prop where
  /-- The first suite that waits gets a permit. -/
  | start {st : Schedule ω} {s : Suite} {n permits : Nat} {rest : List (Suite × Nat)}
      (turn : st.waiting = (s, n) :: rest) (gate : st.permits = permits + 1) :
      Step ctx room st
        { st with waiting := rest, permits, running := (ctx.task s, n) ::ₘ st.running }
  | advance {st : Schedule ω} {t t' : Task ω Suite} {n : Nat} {w : ω}
      {others : Multiset (Task ω Suite × Nat)} (turn : st.running = (t, n) ::ₘ others)
      (answer : t.advance ctx st.world = some (t', w)) :
      Step ctx room st { st with running := (t', n) ::ₘ others, world := w }
  /-- A suite is done and gives up its permit, before it is sent. -/
  | finish {st : Schedule ω} {s : Suite} {n : Nat} {others : Multiset (Task ω Suite × Nat)}
      (turn : st.running = (.done s, n) ::ₘ others) :
      Step ctx room st { st with running := others, permits := st.permits + 1
                                 finished := (s, n) ::ₘ st.finished }
  | send {st : Schedule ω} {s : Suite} {n : Nat} {others : Multiset (Suite × Nat)}
      (turn : st.finished = (s, n) ::ₘ others) (fits : st.channel.length < room) :
      Step ctx room st { st with finished := others, channel := st.channel ++ [(s, n)] }
  /-- The collector takes what was sent first. -/
  | receive {st : Schedule ω} {s : Suite} {n : Nat} {rest : List (Suite × Nat)}
      (turn : st.channel = (s, n) :: rest) :
      Step ctx room st { st with channel := rest, recorded := st.recorded ++ [(s, n)]
                                 totals := st.totals.record s }

/-- What a run of suites can come to from a world. -/
def Reachable (ctx : Context ω) (parallel : Nat) (suites : List Suite) (w : ω) :
    Schedule ω → Prop :=
  Relation.ReflTransGen (Step ctx (capacity suites)) (initial parallel suites w)

/-- Nobody can go on. -/
def Halted (ctx : Context ω) (room : Nat) (st : Schedule ω) : Prop := ∀ st', ¬ Step ctx room st st'

/-- The numbers of the suites in a place. -/
def numbers (st : Schedule ω) : Place → Multiset Nat
  | .waiting => (st.waiting : Multiset (Suite × Nat)).map Prod.snd
  | .running => st.running.map Prod.snd
  | .finished => st.finished.map Prod.snd
  | .channel => (st.channel : Multiset (Suite × Nat)).map Prod.snd
  | .recorded => (st.recorded : Multiset (Suite × Nat)).map Prod.snd

/-- The numbers of all suites. -/
def allNumbers (st : Schedule ω) : Multiset Nat :=
  st.numbers .waiting + st.numbers .running + st.numbers .finished + st.numbers .channel
    + st.numbers .recorded

/-- The suites that have run, wherever they are. -/
def ended (st : Schedule ω) : Multiset (Suite × Nat) :=
  st.finished + (st.channel : Multiset (Suite × Nat)) + (st.recorded : Multiset (Suite × Nat))

/-! ## What every step keeps -/

/-- No number is lost or comes up twice. -/
theorem Step.allNumbers_eq {ctx : Context ω} {room : Nat} {st st' : Schedule ω}
    (h : Step ctx room st st') : st'.allNumbers = st.allNumbers := by
  -- each step takes a number from one place, if any, and puts it into the next
  cases h with
  | start turn gate =>
    simp only [allNumbers, numbers, turn, ← Multiset.cons_coe, ← Multiset.singleton_add,
      Multiset.map_add, Multiset.map_singleton]
    abel
  | advance turn answer =>
    simp only [allNumbers, numbers, turn, Multiset.map_cons]
  | finish turn =>
    simp only [allNumbers, numbers, turn, ← Multiset.singleton_add, Multiset.map_add,
      Multiset.map_singleton]
    abel
  | send turn fits =>
    simp only [allNumbers, numbers, turn, ← Multiset.coe_add, Multiset.coe_singleton,
      ← Multiset.singleton_add, Multiset.map_add, Multiset.map_singleton]
    abel
  | receive turn =>
    simp only [allNumbers, numbers, turn, ← Multiset.coe_add, ← Multiset.cons_coe,
      ← Multiset.singleton_add, Multiset.map_add, Multiset.map_singleton]
    abel

/-- Suites only come to have run by finishing. -/
theorem Step.ended_eq {ctx : Context ω} {room : Nat} {st st' : Schedule ω}
    (h : Step ctx room st st') : st'.ended = st.ended
      ∨ ∃ s n, (Task.done s, n) ∈ st.running ∧ st'.ended = (s, n) ::ₘ st.ended := by
  cases h with
  | start turn gate => exact .inl rfl
  | advance turn answer => exact .inl rfl
  | @finish s n others turn =>
    refine .inr ⟨s, n, turn ▸ Multiset.mem_cons_self _ _, ?_⟩
    simp only [ended, Multiset.cons_add]
  -- sending and receiving move a suite among the places of those that have run
  | send turn fits =>
    refine .inl ?_
    simp only [ended, turn, ← Multiset.coe_add, Multiset.coe_singleton, ← Multiset.singleton_add]
    abel
  | receive turn =>
    refine .inl ?_
    simp only [ended, turn, ← Multiset.coe_add, ← Multiset.cons_coe, ← Multiset.singleton_add]
    abel

/-- What holds of every state of a run. -/
structure Valid (ctx : Context ω) (parallel : Nat) (suites : List Suite) (st : Schedule ω) :
    Prop where
  /-- Each suite is in one place, and in no other. -/
  numbers : st.allNumbers = Multiset.range suites.length
  /-- Permits that are not there belong to suites that run. -/
  permits : st.permits + st.running.card = max 1 parallel
  /-- What waits is a suite as it was read. -/
  waiting : ∀ x ∈ st.waiting, suites[x.2]? = some x.1
  /-- What a suite under way can still come to, it could come to from the start. -/
  running : ∀ x ∈ st.running, ∃ s, suites[x.2]? = some s
    ∧ ∀ s', x.1.CanEnd s' → (ctx.task s).CanEnd s'
  /-- What is counted is what is recorded. -/
  totals : st.totals = Totals.ofSuites (st.recorded.map Prod.fst)

/-- At the beginning all suites wait and all permits are there. -/
theorem valid_initial (ctx : Context ω) (parallel : Nat) (suites : List Suite) (w : ω) :
    Valid ctx parallel suites (initial parallel suites w) where
  numbers := by
    simp only [allNumbers, Schedule.numbers, initial, Multiset.map_coe, List.zipIdx_map_snd,
      Multiset.map_zero, add_zero, Multiset.coe_nil, Multiset.range,
      List.range_eq_range']
  permits := Nat.add_zero _
  waiting := fun _ hx => List.mem_zipIdx_iff_getElem?.1 hx
  running := fun _ hx => absurd hx (Multiset.notMem_zero _)
  totals := rfl

/-- A step keeps what is valid: numbers move from place to place, and a permit is taken exactly when a
    suite begins to run and given back exactly when it ends. -/
theorem Valid.step {ctx : Context ω} {parallel room : Nat} {suites : List Suite}
    {st st' : Schedule ω} (hv : Valid ctx parallel suites st) (h : Step ctx room st st') :
    Valid ctx parallel suites st' := by
  -- conservation is the same argument for every kind of step; the rest is not, so cases follow
  have hnumbers : st'.allNumbers = Multiset.range suites.length := h.allNumbers_eq.trans hv.numbers
  have hpermits := hv.permits
  cases h with
  | @start s n permits rest turn gate =>
    refine ⟨hnumbers, ?_, ?_, ?_, hv.totals⟩
    · rw [gate] at hpermits
      show permits + ((ctx.task s, n) ::ₘ st.running).card = max 1 parallel
      rw [Multiset.card_cons]
      omega
    · exact fun x hx => hv.waiting x (turn ▸ List.mem_cons_of_mem _ hx)
    · intro x hx
      rcases Multiset.mem_cons.1 hx with rfl | hx
      · exact ⟨s, hv.waiting _ (turn ▸ List.mem_cons_self), fun _ hend => hend⟩
      · exact hv.running x hx
  | @advance t t' n w others turn answer =>
    refine ⟨hnumbers, ?_, hv.waiting, ?_, hv.totals⟩
    · rw [turn, Multiset.card_cons] at hpermits
      show st.permits + ((t', n) ::ₘ others).card = max 1 parallel
      rw [Multiset.card_cons]
      exact hpermits
    · intro x hx
      rcases Multiset.mem_cons.1 hx with rfl | hx
      · -- what the task can end with after the step, it could end with before it
        obtain ⟨s, hs, hend⟩ := hv.running _ (turn ▸ Multiset.mem_cons_self (t, n) others)
        exact ⟨s, hs, fun s' h => hend s' (Task.canEnd_of_advance answer h)⟩
      · exact hv.running x (turn ▸ Multiset.mem_cons_of_mem hx)
  | @finish s n others turn =>
    refine ⟨hnumbers, ?_, hv.waiting, ?_, hv.totals⟩
    · rw [turn, Multiset.card_cons] at hpermits
      show st.permits + 1 + others.card = max 1 parallel
      omega
    · exact fun x hx => hv.running x (turn ▸ Multiset.mem_cons_of_mem hx)
  | send turn fits => exact ⟨hnumbers, hpermits, hv.waiting, hv.running, hv.totals⟩
  | receive turn =>
    refine ⟨hnumbers, hpermits, hv.waiting, hv.running, ?_⟩
    show st.totals.record _ = _
    -- recording one suite more is one more turn of the fold over all that are recorded
    rw [hv.totals, List.map_append, Totals.ofSuites, Totals.ofSuites, List.foldl_append]
    rfl

/-! ## What holds in every state -/

section Run

variable {ctx : Context ω} {parallel : Nat} {suites : List Suite} {w : ω} {st : Schedule ω}

/-- All that can be reached is valid, by induction on the steps. -/
theorem Reachable.valid (h : Reachable ctx parallel suites w st) :
    Valid ctx parallel suites st := by
  induction h with
  | refl => exact valid_initial ctx parallel suites w
  | tail _ hstep ih => exact ih.step hstep

/-- What holds of every suite at the moment when it is done holds of all suites that have run. -/
theorem Reachable.forall_ended {P : Suite × Nat → Prop} (h : Reachable ctx parallel suites w st)
    (done : ∀ st, Reachable ctx parallel suites w st →
      ∀ s n, (Task.done s, n) ∈ st.running → P (s, n)) : ∀ x ∈ st.ended, P x := by
  induction h with
  | refl => exact fun x hx => absurd hx (Multiset.notMem_zero _)
  | tail hreach hstep ih =>
    rcases hstep.ended_eq with heq | ⟨s, n, hmem, heq⟩
    · rw [heq]
      exact ih
    · -- only the suite that has just finished is new among them
      intro x hx
      rw [heq] at hx
      rcases Multiset.mem_cons.1 hx with rfl | hx
      · exact done _ hreach s n hmem
      · exact ih x hx

/-- A suite that has run is what its own task can come to. -/
theorem Reachable.canEnd_of_ended (h : Reachable ctx parallel suites w st) : ∀ x ∈ st.ended,
    ∃ s, suites[x.2]? = some s ∧ (ctx.task s).CanEnd x.1 := by
  refine h.forall_ended ?_
  intro st hst s n hmem
  obtain ⟨s₀, hs₀, hend⟩ := hst.valid.running _ hmem
  exact ⟨s₀, hs₀, hend s (.done s)⟩

/-- One of the five places has the number of a suite, once, and the others do not. -/
theorem Valid.onePlace (hv : Valid ctx parallel suites st) {n : Nat} (hn : n < suites.length) :
    ∃ p, (st.numbers p).count n = 1 ∧ ∀ q, q ≠ p → (st.numbers q).count n = 0 := by
  have hcount := congrArg (Multiset.count n) hv.numbers
  rw [Multiset.count_eq_one_of_mem (Multiset.nodup_range _) (Multiset.mem_range.2 hn)] at hcount
  simp only [allNumbers, Multiset.count_add] at hcount
  -- five counts add up to one, so one of them is one and the others are nothing
  have hone : ∃ p, (st.numbers p).count n = 1 := by
    by_contra hnone
    rw [not_exists] at hnone
    have h₁ := hnone .waiting
    have h₂ := hnone .running
    have h₃ := hnone .finished
    have h₄ := hnone .channel
    have h₅ := hnone .recorded
    omega
  obtain ⟨p, hp⟩ := hone
  refine ⟨p, hp, ?_⟩
  intro q hq
  cases p <;> cases q <;> first | exact absurd rfl hq | omega

/-- No place has a number that is not the number of a suite. -/
theorem Valid.lt_of_mem (hv : Valid ctx parallel suites st) {p : Place} {n : Nat}
    (h : n ∈ st.numbers p) : n < suites.length := by
  rw [← Multiset.mem_range, ← hv.numbers]
  simp only [allNumbers, Multiset.mem_add]
  cases p <;> tauto

/-- The channel holds fewer suites than there are, as long as one is not sent yet. -/
theorem Valid.channel_lt (hv : Valid ctx parallel suites st) (h : st.finished ≠ 0) :
    st.channel.length < capacity suites := by
  have hcard := congrArg Multiset.card hv.numbers
  simp only [allNumbers, Schedule.numbers, Multiset.card_add, Multiset.card_map, Multiset.coe_card,
    Multiset.card_range] at hcard
  have hpos := Multiset.card_pos.2 h
  rw [capacity]
  omega

/-! ## Somebody can go on -/

/-- Unless all suites are recorded, there is a step. -/
theorem Valid.exists_step (hv : Valid ctx parallel suites st)
    (h : (st.recorded.map Prod.snd : Multiset Nat) ≠ Multiset.range suites.length) :
    ∃ st', Step ctx (capacity suites) st st' := by
  -- whoever is furthest goes first: then the channel has room, and the gate a permit
  by_cases hchannel : st.channel = []
  swap
  · obtain ⟨⟨s, n⟩, rest, hrest⟩ := List.exists_cons_of_ne_nil hchannel
    exact ⟨_, .receive hrest⟩
  by_cases hfinished : st.finished = 0
  swap
  · obtain ⟨⟨s, n⟩, hmem⟩ := Multiset.exists_mem_of_ne_zero hfinished
    obtain ⟨others, hothers⟩ := Multiset.exists_cons_of_mem hmem
    exact ⟨_, .send hothers (hv.channel_lt hfinished)⟩
  by_cases hrunning : st.running = 0
  swap
  · obtain ⟨⟨t, n⟩, hmem⟩ := Multiset.exists_mem_of_ne_zero hrunning
    obtain ⟨others, hothers⟩ := Multiset.exists_cons_of_mem hmem
    rcases t.exists_advance ctx st.world with ⟨s, rfl⟩ | ⟨t', w', hanswer⟩
    · exact ⟨_, .finish hothers⟩
    · exact ⟨_, .advance hothers hanswer⟩
  by_cases hwaiting : st.waiting = []
  · -- all other places are empty, so all numbers are recorded
    refine absurd ?_ h
    rw [← hv.numbers]
    simp only [allNumbers, Schedule.numbers, hwaiting, hrunning, hfinished, hchannel,
      Multiset.coe_nil, Multiset.map_zero, zero_add, Multiset.map_coe]
  · -- nobody runs, so all permits are there
    obtain ⟨⟨s, n⟩, rest, hrest⟩ := List.exists_cons_of_ne_nil hwaiting
    have hpermits := hv.permits
    rw [hrunning, Multiset.card_zero] at hpermits
    have hgate : st.permits = (st.permits - 1) + 1 := by omega
    exact ⟨_, .start hrest hgate⟩

/-- No run goes on for ever: each step brings one suite further and none back. -/
theorem step_wellFounded (ctx : Context ω) (room : Nat) :
    WellFounded fun st' st : Schedule ω => Step ctx room st st' := by
  -- in this order: suites that wait, what is left of those that run, then the way to the record
  let further : Schedule ω → Nat × Multiset (Task ω Suite) × Nat × Nat := fun st =>
    (st.waiting.length, st.running.map Prod.fst, st.finished.card, st.channel.length)
  have hlt : WellFounded fun m n : Nat => m < n := Nat.lt_wfRel.wf
  have htask : WellFounded fun t' t : Task ω Suite => ∃ w w', t.advance ctx w = some (t', w') :=
    Task.advance_wellFounded ctx
  have hwf := hlt.prod_lex (htask.cutExpand.prod_lex (hlt.prod_lex hlt))
  refine Subrelation.wf ?_ (InvImage.wf further hwf)
  intro st' st h
  cases h with
  | start turn gate =>
    refine .left _ _ ?_
    rw [turn]
    exact Nat.lt_succ_self _
  | @advance t t' n w others turn answer =>
    refine .right _ (.left _ _ ?_)
    rw [turn, Multiset.map_cons, Multiset.map_cons, ← Multiset.singleton_add,
      ← Multiset.singleton_add]
    exact Relation.cutExpand_single_add ⟨_, _, answer⟩ _
  | @finish s n others turn =>
    refine .right _ (.left _ _ ?_)
    -- a task that finishes is replaced by no task, which is less than any
    have hgone := (Relation.cutExpand_add_right
      (r := fun t' t : Task ω Suite => ∃ w w', t.advance ctx w = some (t', w'))
      (others.map Prod.fst)).2 (Relation.cutExpand_zero (x := Task.done s))
    rw [zero_add, Multiset.singleton_add] at hgone
    rw [turn, Multiset.map_cons]
    exact hgone
  | send turn fits =>
    refine .right _ (.right _ (.left _ _ ?_))
    rw [turn, Multiset.card_cons]
    exact Nat.lt_succ_self _
  | receive turn =>
    refine .right _ (.right _ (.right _ ?_))
    rw [turn]
    exact Nat.lt_succ_self _

/-- When nobody can go on, every suite has been recorded, and once. -/
theorem Valid.recorded_of_halted (hv : Valid ctx parallel suites st)
    (h : st.Halted ctx (capacity suites)) :
    (st.recorded.map Prod.snd).Perm (List.range suites.length) := by
  by_contra hperm
  obtain ⟨st', hstep⟩ := hv.exists_step fun heq => hperm (Multiset.coe_eq_coe.1 heq)
  exact h st' hstep

end Run
end Schedule
end TestBench
