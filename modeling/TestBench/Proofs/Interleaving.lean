import Mathlib
import TestBench.Proofs.Schedule
import TestBench.Run.All
/-
  Every order of a concurrent run leads to the same totals.

  1. A run in file order is one of the schedules, for every width of the gate
     (`fileOrder_reachable`), and it leaves the totals that `collect` takes from `runEach`.
  2. When nobody can go on, the recorded suites are those of the run in some order
     (`Reachable.recorded_perm`).  If no suite notices the others, they are the same ones in every
     schedule, and the order disappears when they are sorted by package (`schedules_agree`).
  3. No suite notices the others if no executor looks at the world (`resultsAlone_of_blind`).
-/
namespace TestBench

variable {ω α β : Type}

namespace Schedule

/-! ## The run in file order -/

section FileOrder

variable {ctx : Context ω} {room : Nat}

/-- A suite that runs while the others stand still does what its task does alone. -/
theorem play_steps (n : Nat) (others : Multiset (Task ω Suite × Nat)) (t : Task ω Suite) :
    ∀ st : Schedule ω, st.running = (t, n) ::ₘ others →
      Relation.ReflTransGen (Step ctx room) st
        { st with running := (.done (t.play ctx st.world).1, n) ::ₘ others
                  world := (t.play ctx st.world).2 } := by
  induction t with
  | done s =>
    intro st turn
    rw [Task.play, ← turn]
  | resolving site step next ih =>
    intro st turn
    exact .head (.advance turn rfl) (ih (ctx.find step) _ rfl)
  | invoking site r call next ih =>
    intro st turn
    exact .head (.advance turn rfl) (ih (r.answer call st.world).1 _ rfl)

/-- A suite goes through all places that are left to it while the others stand still. -/
theorem through_steps (hroom : 0 < room) {n : Nat} {others : Multiset (Task ω Suite × Nat)}
    {t : Task ω Suite} {waiting recorded : List (Suite × Nat)} {totals : Totals} {permits : Nat}
    {s : Suite} {w w' : ω} (hplay : t.play ctx w = (s, w')) :
    Relation.ReflTransGen (Step ctx room)
      ⟨waiting, (t, n) ::ₘ others, 0, [], recorded, totals, permits, w⟩
      ⟨waiting, others, 0, [], recorded ++ [(s, n)], totals.record s, permits + 1, w'⟩ := by
  -- the four places that are still ahead: running, finished, in the channel, recorded
  have hrun : Relation.ReflTransGen (Step ctx room) _ _ :=
    play_steps n others t ⟨waiting, (t, n) ::ₘ others, 0, [], recorded, totals, permits, w⟩ rfl
  have hfinish : Step ctx room
      ⟨waiting, (.done s, n) ::ₘ others, 0, [], recorded, totals, permits, w'⟩
      ⟨waiting, others, (s, n) ::ₘ 0, [], recorded, totals, permits + 1, w'⟩ := .finish rfl
  have hsend : Step ctx room
      ⟨waiting, others, (s, n) ::ₘ 0, [], recorded, totals, permits + 1, w'⟩
      ⟨waiting, others, 0, [(s, n)], recorded, totals, permits + 1, w'⟩ := .send rfl hroom
  have hreceive : Step ctx room
      ⟨waiting, others, 0, [(s, n)], recorded, totals, permits + 1, w'⟩
      ⟨waiting, others, 0, [], recorded ++ [(s, n)], totals.record s, permits + 1, w'⟩ :=
    .receive rfl
  simp only [hplay] at hrun
  exact .trans hrun (.head hfinish (.head hsend (.single hreceive)))

/-- A state in which nothing is under way. -/
def idle (permits : Nat) (waiting recorded : List (Suite × Nat)) (totals : Totals) (w : ω) :
    Schedule ω :=
  { waiting, running := 0, finished := 0, channel := [], recorded, totals, permits, world := w }

/-- When nothing is under way and nobody waits, nobody can go on. -/
theorem idle_halted (permits : Nat) (recorded : List (Suite × Nat)) (totals : Totals) (w : ω) :
    (idle permits [] recorded totals w).Halted ctx room := by
  intro st' h
  cases h with
  | start turn gate => cases turn
  | advance turn answer => exact Multiset.zero_ne_cons turn
  | finish turn => exact Multiset.zero_ne_cons turn
  | send turn fits => exact Multiset.zero_ne_cons turn
  | receive turn => cases turn

/-- The next suite goes through all places before another one starts. -/
theorem idle_steps (hroom : 0 < room) {permits n : Nat} {s : Suite}
    {rest recorded : List (Suite × Nat)} {totals : Totals} (b : Bench ω) :
    Relation.ReflTransGen (Step ctx room)
      (idle (permits + 1) ((s, n) :: rest) recorded totals b.world)
      (idle (permits + 1) rest (recorded ++ [((runSuite ctx s b).1, n)])
        (totals.record (runSuite ctx s b).1) (runSuite ctx s b).2.world) :=
  .head (.start rfl rfl) (through_steps hroom (play_suiteTask ctx s b))

/-- One suite after another, in file order. -/
theorem runEach_steps (hroom : 0 < room) {permits : Nat} (suites : List Suite) :
    ∀ (k : Nat) (recorded : List (Suite × Nat)) (totals : Totals) (b : Bench ω),
      Relation.ReflTransGen (Step ctx room)
        (idle (permits + 1) (suites.zipIdx k) recorded totals b.world)
        (idle (permits + 1) [] (recorded ++ ((runEach ctx suites b).1.map (·.suite)).zipIdx k)
          (((runEach ctx suites b).1.map (·.suite)).foldl Totals.record totals)
          (runEach ctx suites b).2.world) := by
  induction suites with
  | nil =>
    intro k recorded totals b
    rw [runEach, List.map_nil, List.zipIdx_nil, List.append_nil]
    exact .refl
  | cons s rest ih =>
    intro k recorded totals b
    have hrest := ih (k + 1) (recorded ++ [((runSuite ctx s b).1, k)])
      (totals.record (runSuite ctx s b).1) (runSuite ctx s b).2
    rw [List.append_assoc] at hrest
    exact .trans (idle_steps hroom b) hrest

end FileOrder

/-- What the run in file order leaves. -/
def fileOrder (ctx : Context ω) (parallel : Nat) (suites : List Suite) (w : ω) : Schedule ω :=
  idle (max 1 parallel) [] ((runEach ctx suites ⟨w, 0⟩).1.map (·.suite)).zipIdx
    (collect (runEach ctx suites ⟨w, 0⟩).1) (runEach ctx suites ⟨w, 0⟩).2.world

/-- One suite after another is one of the schedules. -/
theorem fileOrder_reachable (ctx : Context ω) (parallel : Nat) (suites : List Suite) (w : ω) :
    Reachable ctx parallel suites w (fileOrder ctx parallel suites w) := by
  obtain ⟨permits, hpermits⟩ : ∃ permits, max 1 parallel = permits + 1 :=
    ⟨max 1 parallel - 1, by omega⟩
  have hroom : 0 < capacity suites := Nat.le_max_left 1 _
  have h : Relation.ReflTransGen (Step ctx (capacity suites)) (idle (permits + 1) _ _ _ _) _ :=
    runEach_steps hroom suites 0 [] Totals.empty ⟨w, 0⟩
  rw [List.nil_append, ← hpermits] at h
  exact h

/-! ## What is recorded in the end -/

section End

variable {ctx : Context ω} {parallel : Nat} {suites : List Suite} {w : ω} {st : Schedule ω}

/-- Looking up all numbers in order gives the list back. -/
theorem map_range_getElem? (g : Suite → β) (suites : List Suite) :
    (List.range suites.length).map (fun n => suites[n]?.map g) = (suites.map g).map some := by
  refine List.ext_getElem? ?_
  intro n
  by_cases h : n < suites.length
  · simp only [List.getElem?_map, List.getElem?_range h, List.getElem?_eq_getElem h, Option.map_some]
  · have hnone : (List.range suites.length)[n]? = none :=
      List.getElem?_eq_none (by rw [List.length_range]; omega)
    simp only [List.getElem?_map, hnone, List.getElem?_eq_none (Nat.le_of_not_lt h),
      Option.map_none]

/-- In the end, what is known of each suite that has run is known of all suites, each once. -/
theorem Reachable.recorded_perm {f g : Suite → β} (h : Reachable ctx parallel suites w st)
    (halted : st.Halted ctx (capacity suites))
    (known : ∀ x ∈ st.ended, suites[x.2]?.map g = some (f x.1)) :
    (st.recorded.map fun x => f x.1).Perm (suites.map g) := by
  -- each recorded suite stands for its number, and the numbers are all there
  rw [← List.map_perm_map_iff (Option.some_injective β), ← map_range_getElem?, List.map_map]
  refine List.Perm.trans (.of_eq ?_) ((h.valid.recorded_of_halted halted).map _)
  rw [List.map_map]
  refine List.map_congr_left ?_
  intro x hx
  exact (known x (Multiset.mem_add.2 (.inr (Multiset.mem_coe.2 hx)))).symm

/-- A run does not change the package of a suite, whatever it is answered. -/
theorem package_of_canEnd {s s' : Suite} (h : (ctx.task s).CanEnd s') : s'.package = s.package := by
  obtain ⟨cases, _, rfl⟩ := Task.canEnd_map h
  rfl

/-- Each suite comes to the same end in every run, whatever the others do meanwhile. -/
def ResultsAlone (ctx : Context ω) (suites : List Suite) (w : ω) (result : Suite → Suite) : Prop :=
  ∀ parallel st, Reachable ctx parallel suites w st →
    ∀ s s' n, suites[n]? = some s → (Task.done s', n) ∈ st.running → s' = result s

/-- In the end the recorded suites are the results, in some order. -/
theorem Reachable.results_perm {result : Suite → Suite} (alone : ResultsAlone ctx suites w result)
    (h : Reachable ctx parallel suites w st) (halted : st.Halted ctx (capacity suites)) :
    (st.recorded.map Prod.fst).Perm (suites.map result) := by
  refine h.recorded_perm (f := id) halted ?_
  refine h.forall_ended ?_
  intro st hst s' n hmem
  obtain ⟨s, hs, _⟩ := hst.valid.running _ hmem
  rw [hs, alone parallel st hst s s' n hs hmem]
  rfl

/-- In the end the recorded suites have the packages of all suites. -/
theorem Reachable.packages_perm (h : Reachable ctx parallel suites w st)
    (halted : st.Halted ctx (capacity suites)) :
    ((st.recorded.map Prod.fst).map (·.package)).Perm (suites.map (·.package)) := by
  rw [List.map_map]
  refine h.recorded_perm (f := (·.package)) halted ?_
  intro x hx
  obtain ⟨s, hs, hend⟩ := h.canEnd_of_ended x hx
  rw [hs, package_of_canEnd hend]
  rfl

end End
end Schedule

/-! ## Executors that do not look at the world -/

/-- No executor that a step can find lets the world decide on its outcome. -/
def Context.Blind (ctx : Context ω) : Prop :=
  ∀ step r, ctx.find step = .ok r → ∀ call w w', (r.answer call w).1 = (r.answer call w').1

namespace Task

/-- A task comes to one result, whatever happens to the world between its requests. -/
inductive Settles (ctx : Context ω) : Task ω α → α → Prop where
  | done (a : α) : Settles ctx (.done a) a
  | resolving {site step next a} (rest : Settles ctx (next (ctx.find step)) a) :
      Settles ctx (.resolving site step next) a
  | invoking {site r call next a} (rest : ∀ w, Settles ctx (next (r.answer call w).1) a) :
      Settles ctx (.invoking site r call next) a

variable {ctx : Context ω}

/-- What a task settles on, it still settles on after a step in any world. -/
theorem Settles.advance {t t' : Task ω α} {w w' : ω} {a : α} (h : t.Settles ctx a)
    (answer : t.advance ctx w = some (t', w')) : t'.Settles ctx a := by
  cases h with
  | done => cases answer
  | resolving rest =>
    rw [advance_resolving answer]
    exact rest
  | invoking rest =>
    rw [advance_invoking answer]
    exact rest w

/-- Played alone, a task comes to what it settles on. -/
theorem Settles.play_eq {t : Task ω α} {a : α} (h : t.Settles ctx a) :
    ∀ w, (t.play ctx w).1 = a := by
  induction h with
  | done a => exact fun w => rfl
  | resolving rest ih => exact fun w => ih w
  | invoking rest ih => exact fun w => ih w _

theorem Settles.bind {f : α → Task ω β} {t : Task ω α} {a : α} {b : β} (h : t.Settles ctx a)
    (hf : (f a).Settles ctx b) : (t.bind f).Settles ctx b := by
  induction h with
  | done a => exact hf
  | resolving rest ih => exact .resolving (ih hf)
  | invoking rest ih => exact .invoking fun w => ih w hf

theorem Settles.map {f : α → β} {t : Task ω α} {a : α} (h : t.Settles ctx a) :
    (t.map f).Settles ctx (f a) := h.bind (.done (f a))

end Task

section Blind

variable {ctx : Context ω} (blind : ctx.Blind) (w : ω)
include blind w

/-- Where the world is nothing to executors, the attempts of a step settle on one outcome. -/
theorem exists_settles_attempts {step : Step} {r : Resolved ω} (found : ctx.find step = .ok r)
    (site : Site) (declared : List String) (call : Call) (left : Nat) : ∀ o : StepOutcome,
      ∃ o', (attemptsTask site r declared call left o).Settles ctx o' := by
  induction left with
  | zero =>
    intro o
    refine ⟨o.add (r.verdictOn declared (r.answer call w).1), .invoking ?_⟩
    intro w'
    rw [blind step r found call w' w]
    exact .done _
  | succ left ih =>
    intro o
    -- the verdict is the same in all worlds, so it may be taken in the given one
    by_cases h : (r.verdictOn declared (r.answer call w).1).isOk = true
    · refine ⟨o.add (r.verdictOn declared (r.answer call w).1), .invoking ?_⟩
      intro w'
      rw [blind step r found call w' w, if_pos h]
      exact .done _
    · obtain ⟨o', ho'⟩ := ih (o.add (r.verdictOn declared (r.answer call w).1))
      refine ⟨o', .invoking ?_⟩
      intro w'
      rw [blind step r found call w' w, if_neg h]
      exact ho'

/-- Then the steps of a case settle on one case, as their attempts do. -/
theorem exists_settles_steps (call : Call) (k : Nat) (steps : List Step) :
    ∀ (i : Nat) (c : Case), ∃ c', (stepsTask call k i steps c).Settles ctx c' := by
  induction steps with
  | nil => exact fun i c => ⟨c, .done c⟩
  | cons step rest ih =>
    intro i c
    cases hfind : ctx.find step with
    | error e =>
      refine ⟨c.addRecords ⟨[e.message], []⟩, .resolving ?_⟩
      rw [hfind]
      exact .done _
    | ok r =>
      obtain ⟨o, ho⟩ := exists_settles_attempts blind w hfind ⟨k, i⟩ step.assertions call r.retry
        StepOutcome.start
      obtain ⟨c', hc'⟩ : ∃ c', Task.Settles ctx
          (if o.conclude.isOk then stepsTask call k (i + 1) rest (c.addRecords o.conclude.verdict)
            else .done (c.addRecords o.conclude.verdict)) c' := by
        split
        · exact ih (i + 1) _
        · exact ⟨_, .done _⟩
      refine ⟨c', .resolving ?_⟩
      rw [hfind]
      exact ho.map.bind hc'

/-- And the cases of a suite on theirs. -/
theorem exists_settles_cases (suite workdir : String) (cases : List Case) : ∀ k : Nat,
    ∃ cases', (casesTask ctx.aliases suite workdir k cases).Settles ctx cases' := by
  induction cases with
  | nil => exact fun k => ⟨[], .done []⟩
  | cons c rest ih =>
    intro k
    obtain ⟨rest', hrest'⟩ := ih (k + 1)
    obtain ⟨c', hc'⟩ : ∃ c', Task.Settles ctx
        (if c.skipped then .done c else caseTask ctx.aliases suite workdir k c) c' := by
      split
      · exact ⟨c, .done c⟩
      · exact exists_settles_steps blind w _ k c.steps 0 c
    exact ⟨c' :: rest', hc'.bind hrest'.map⟩

/-- A suite comes to what it comes to alone. -/
theorem settles_suite (s : Suite) : (ctx.task s).Settles ctx (runSuite ctx s ⟨w, 0⟩).1 := by
  obtain ⟨cases', h⟩ := exists_settles_cases blind w s.name (suiteDirectory s.package) s.cases 0
  have hs : (ctx.task s).Settles ctx (({ s with cases := cases' }).countRecords) := h.map
  have hplay := play_suiteTask ctx s ⟨w, 0⟩
  rw [← hs.play_eq w, hplay] at hs
  exact hs

end Blind

namespace Schedule

/-- Suites whose executors are blind do not notice each other. -/
theorem resultsAlone_of_blind {ctx : Context ω} (blind : ctx.Blind) (suites : List Suite) (w : ω) :
    ResultsAlone ctx suites w fun s => (runSuite ctx s ⟨w, 0⟩).1 := by
  intro parallel st hreach
  -- steps of other suites change the world only, and that is what the invariant does not see
  have hsettles : ∀ x ∈ st.running, ∀ s, suites[x.2]? = some s →
      x.1.Settles ctx (runSuite ctx s ⟨w, 0⟩).1 := by
    induction hreach with
    | refl => exact fun x hx => absurd hx (Multiset.notMem_zero _)
    | tail hprev hstep ih =>
      have hv := Reachable.valid hprev
      intro x hx s hs
      cases hstep with
      | @start s₀ n permits rest turn gate =>
        rcases Multiset.mem_cons.1 hx with rfl | hx
        · have hs₀ : suites[n]? = some s₀ := hv.waiting (s₀, n) (turn ▸ List.mem_cons_self)
          obtain rfl : s₀ = s := Option.some.inj (hs₀.symm.trans hs)
          exact settles_suite blind w s₀
        · exact ih x hx s hs
      | @advance t t' n w' others turn answer =>
        rcases Multiset.mem_cons.1 hx with rfl | hx
        · exact (ih (t, n) (turn ▸ Multiset.mem_cons_self _ _) s hs).advance answer
        · exact ih x (turn ▸ Multiset.mem_cons_of_mem hx) s hs
      | finish turn => exact ih x (turn ▸ Multiset.mem_cons_of_mem hx) s hs
      | send turn fits => exact ih x hx s hs
      | receive turn => exact ih x hx s hs
  intro s s' n hs hmem
  exact (hsettles _ hmem s hs).play_eq w

/-! ## All schedules agree -/

/-- What a run of suites guarantees in every state. -/
structure Orderly (ctx : Context ω) (suites : List Suite) (st : Schedule ω) : Prop where
  /-- Each suite is in one place, once. -/
  onePlace : ∀ n < suites.length,
    ∃ p, (st.numbers p).count n = 1 ∧ ∀ q, q ≠ p → (st.numbers q).count n = 0
  lt_of_mem : ∀ p, ∀ n ∈ st.numbers p, n < suites.length
  /-- What has run is what its own suite can come to. -/
  canEnd : ∀ x ∈ st.ended, ∃ s, suites[x.2]? = some s ∧ (ctx.task s).CanEnd x.1
  /-- A suite that is not sent yet finds room in the channel. -/
  fits : st.finished ≠ 0 → st.channel.length < capacity suites
  totals : st.totals = Totals.ofSuites (st.recorded.map Prod.fst)
  /-- When nobody can go on, each suite has been recorded, once. -/
  complete : st.Halted ctx (capacity suites) →
    (st.recorded.map Prod.snd).Perm (List.range suites.length)

/-- All that can be reached is orderly. -/
theorem Reachable.orderly {ctx : Context ω} {parallel : Nat} {suites : List Suite} {w : ω}
    {st : Schedule ω} (h : Reachable ctx parallel suites w st) : st.Orderly ctx suites where
  onePlace := fun _ hn => h.valid.onePlace hn
  lt_of_mem := fun _ _ hn => h.valid.lt_of_mem hn
  canEnd := h.canEnd_of_ended
  fits := h.valid.channel_lt
  totals := h.valid.totals
  complete := h.valid.recorded_of_halted

/-- **All schedules agree.**  For every width of the gate and in every order of steps, suites are
    neither lost nor doubled.  If no suite notices the others and no two have one package, the totals,
    sorted by package, are in the end those of the run in file order. -/
theorem schedules_agree (ctx : Context ω) (suites : List Suite) (w : ω) :
    (∀ parallel st, Reachable ctx parallel suites w st → st.Orderly ctx suites)
      ∧ ∀ result, ResultsAlone ctx suites w result → (suites.map (·.package)).Nodup →
          ∀ parallel st, Reachable ctx parallel suites w st → st.Halted ctx (capacity suites) →
            st.totals.sortByPackage = (collect (runEach ctx suites ⟨w, 0⟩).1).sortByPackage := by
  refine ⟨fun _ _ h => h.orderly, ?_⟩
  intro result alone distinct parallel st hreach halted
  have hfile := fileOrder_reachable ctx parallel suites w
  -- both runs record the same results, each in its own order
  have hperm : (st.recorded.map Prod.fst).Perm
      ((fileOrder ctx parallel suites w).recorded.map Prod.fst) :=
    (hreach.results_perm alone halted).trans (hfile.results_perm alone (idle_halted _ _ _ _)).symm
  have hpackages : ((st.recorded.map Prod.fst).map (·.package)).Nodup :=
    (hreach.packages_perm halted).nodup_iff.2 distinct
  have htotals : collect (runEach ctx suites ⟨w, 0⟩).1
      = Totals.ofSuites ((fileOrder ctx parallel suites w).recorded.map Prod.fst) :=
    hfile.valid.totals
  rw [hreach.valid.totals, htotals]
  exact Totals.sortByPackage_ofSuites hperm hpackages

/-- Two suites start, and the second one is recorded before the first one has gone on. -/
theorem schedules_agree_overtaking :
    let ctx : Context Unit := ⟨⟨[]⟩, Registry.empty, Settings.standard⟩
    let a := (Suite.fresh "a" [Case.fresh "only" [⟨[]⟩] false]).prepare "a.yml"
    let b := (Suite.fresh "b" [Case.fresh "only" [⟨[]⟩] true]).prepare "b.yml"
    ∃ st, Reachable ctx 2 [a, b] () st ∧ st.recorded.map Prod.snd = [1, 0]
      ∧ st.totals.sortByPackage = (collect (runEach ctx [a, b] ⟨(), 0⟩).1).sortByPackage := by
  intro ctx a b
  have blind : ctx.Blind := fun _ _ _ _ _ _ => rfl
  have room : 0 < capacity [a, b] := by decide
  have started : Reachable ctx 2 [a, b] ()
      ⟨[], (ctx.task b, 1) ::ₘ (ctx.task a, 0) ::ₘ 0, 0, [], [], Totals.empty, 0, ()⟩ :=
    .head (.start rfl rfl) (.single (.start rfl rfl))
  -- the second suite goes all the way first
  have reach : Reachable ctx 2 [a, b] () _ :=
    .trans started (.trans (through_steps room (play_suiteTask ctx b ⟨(), 0⟩))
      (through_steps room (play_suiteTask ctx a ⟨(), 0⟩)))
  exact ⟨_, reach, rfl, (schedules_agree ctx [a, b] ()).2 _ (resultsAlone_of_blind blind _ ())
    (by decide) 2 _ reach (idle_halted _ _ _ _)⟩

end Schedule
end TestBench
