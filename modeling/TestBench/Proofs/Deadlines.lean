import Mathlib
import TestBench.Proofs.Workshop
/-
  What is left of an attempt after its deadline.

  1. A case records what its attempts add (`Past.Adds`): an abandoned one its timeout, any other one the
     verdict on the outcome that was received.  What an abandoned attempt ends with adds nothing.
  2. A signal that is seen comes from the own deadline, so an attempt that is cancelled by it is no
     longer waited for (`Sound.isolated`).
  3. A suite is fixed by what it was answered, so two runs that differ in late outcomes only leave the
     same suite (`attempts_isolated`).
-/
namespace TestBench

variable {ω : Type}

/-! ## What suites record -/

/-- The deadline of a step. -/
def Context.timeoutOf (ctx : Context ω) (step : Step) : Nat :=
  max 1 (step.timeout?.getD ctx.settings.defaultTimeoutSecs)

theorem timeoutSecs_of_find {ctx : Context ω} {step : Step} {r : Resolved ω}
    (h : ctx.find step = .ok r) : r.timeoutSecs = ctx.timeoutOf step :=
  congrArg Resolved.timeoutSecs (Context.eq_of_find h)

/-- What an attempt adds to the records of its case: one error if it was abandoned, else the verdict on
    the outcome that its suite received. -/
inductive Past.Adds (ctx : Context ω) (s : Suite) (p : Past ω) : Verdict → Prop where
  | timeout {step : Step} (place : s.StepAt p.attempt.site step) (abandoned : p.fate = .abandoned) :
      p.Adds ctx s ⟨[s!"Timeout after {ctx.timeoutOf step} second(s)"], []⟩
  | verdict {step : Step} {o : Outcome} (place : s.StepAt p.attempt.site step)
      (returned : p.fate = .returned o) :
      p.Adds ctx s (p.attempt.resolved.verdictOn step.assertions o)

theorem verdictOn_timeout (r : Resolved ω) (declared : List String) (seconds : Nat) :
    r.verdictOn declared (.error (.timeout seconds))
      = ⟨[s!"Timeout after {seconds} second(s)"], []⟩ := rfl

theorem Past.adds_of_contributes {ctx : Context ω} {s : Suite} {p : Past ω} {v : Verdict}
    (h : Contributes ctx s.StepAt p.delivery v) : p.Adds ctx s v := by
  obtain ⟨step, hplace, hfind, rfl⟩ := h
  have htimeout : p.attempt.resolved.timeoutSecs = ctx.timeoutOf step := timeoutSecs_of_find hfind
  show p.Adds ctx s (p.attempt.resolved.verdictOn step.assertions p.outcome)
  rw [Past.outcome]
  cases hfate : p.fate with
  | returned o => exact .verdict hplace hfate
  | abandoned =>
    rw [verdictOn_timeout, htimeout]
    exact .timeout hplace hfate

/-- What the attempts of a suite come to in it. -/
structure Runner.Accounts (ctx : Context ω) (s : Suite) (x : Runner ω) : Prop where
  /-- Each attempt is one of a step, under the deadline of this step, which is a second at least. -/
  placed : ∀ a ∈ x.attempts, ∃ step, s.StepAt a.site step
    ∧ a.resolved.timeoutSecs = ctx.timeoutOf step ∧ 1 ≤ ctx.timeoutOf step
  /-- Once the suite has ended, each case has recorded what its own attempts add, in their order, and
      one thing besides at most. -/
  recorded : ∀ s', x.phase = .going (.done s') → s'.cases.length = s.cases.length
    ∧ ∀ (k : Nat) (c c' : Case), s.cases[k]? = some c → s'.cases[k]? = some c' →
        ∃ vs extra, List.Forall₂ (Past.Adds ctx s)
            (x.past.filter fun p => p.attempt.site.case = k) vs
          ∧ Extra ctx extra ∧ c' = c.addRecords (Verdict.join vs ++ extra)

/-- What is sound accounts for itself: attempts belong to steps of the suite, and what is recorded is
    what was delivered. -/
theorem Runner.Sound.accounts {ctx : Context ω} {can : Conduct ω} {s : Suite} {nowMs : Nat}
    {fired : List Nat} {x : Runner ω} (hx : x.Sound ctx can s nowMs fired) : x.Accounts ctx s where
  placed a ha := by
    obtain ⟨hpast, hrest⟩ := (asks_suite ctx s).follow hx.follows
    have hfound : FoundAt ctx s.StepAt a.site a.resolved := by
      rcases List.mem_append.1 ha with ha | ha
      · obtain ⟨p, hp, rfl⟩ := List.mem_map.1 ha
        exact hpast p.delivery (List.mem_map_of_mem hp)
      · -- an attempt that is waited for is the last thing that the task has asked for
        obtain ⟨phase, past⟩ := x
        cases phase with
        | going rest => cases ha
        | awaiting b next =>
          rw [List.mem_singleton.1 ha]
          cases hrest with
          | invoking asked _ => exact asked
    obtain ⟨step, hplace, hfind⟩ := hfound
    exact ⟨step, hplace, timeoutSecs_of_find hfind, Nat.le_max_left _ _⟩
  recorded s' hphase := by
    have hfollows := hx.follows
    rw [hphase] at hfollows
    obtain ⟨hlength, hrecords⟩ := records_suite hfollows
    refine ⟨hlength, fun k c c' hc hc' => ?_⟩
    obtain ⟨vs, extra, hvs, hextra, hcase⟩ := hrecords k c c' hc hc'
    rw [List.filter_map, List.forall₂_map_left_iff] at hvs
    exact ⟨vs, extra, hvs.imp fun p v => Past.adds_of_contributes, hextra, hcase⟩

/-- Each member of the second list stands where its partner stands in the first one. -/
theorem exists_of_forall₂ {α β : Type} {R : α → β → Prop} {l : List α} {l' : List β}
    (h : List.Forall₂ R l l') {i : Nat} {b : β} (hb : l'[i]? = some b) :
    ∃ a, l[i]? = some a ∧ R a b := by
  induction h generalizing i with
  | nil => cases hb
  | cons hhead _ ih =>
    cases i with
    | zero =>
      cases hb
      exact ⟨_, rfl, hhead⟩
    | succ i => exact ih hb

namespace Workshop

variable {ctx : Context ω} {can : Conduct ω} {suites : List Suite} {w : Workshop ω}

/-- Attempts that stay apart. -/
structure Isolated (ctx : Context ω) (can : Conduct ω) (suites : List Suite) (w : Workshop ω) :
    Prop where
  /-- Each attempt has a channel of its own. -/
  own : (w.past.map Past.channel ++ w.awaited.map (·.channel)).Nodup
  /-- No channel is fired twice. -/
  once : w.fired.Nodup
  /-- Nothing else is fired than the channels of abandoned attempts. -/
  fired : ∀ channel ∈ w.fired, ∃ p ∈ w.past, p.fate = .abandoned ∧ p.channel = channel
  /-- The channel of an attempt is fired iff this very attempt was abandoned. -/
  fired_iff : ∀ p ∈ w.past, p.channel ∈ w.fired ↔ p.fate = .abandoned
  silent : ∀ a ∈ w.awaited, a.channel ∉ w.fired
  /-- An abandoned attempt was waited for until its deadline, any other one until it ended. -/
  genuine : ∀ p ∈ w.past, p.Genuine w.nowMs
  accounts : List.Forall₂ (fun s x => x.Accounts ctx s) suites w.runners
  /-- Who is cancelled only when told to stop is never received as cancelled. -/
  uncancelled : can.Honest → ∀ p ∈ w.past, p.outcome ≠ .error .cancelled

/-- What is sound is isolated. -/
theorem Sound.isolated (hw : w.Sound ctx can suites) : w.Isolated ctx can suites := by
  have hsound {p : Past ω} (hp : p ∈ w.past) :
      ∃ (s : Suite) (x : Runner ω), p ∈ x.past ∧ x.Sound ctx can s w.nowMs w.fired := by
    obtain ⟨x, hx, hp⟩ := List.mem_flatMap.1 hp
    obtain ⟨i, hi⟩ := List.mem_iff_getElem?.1 hx
    obtain ⟨s, -, hsound⟩ := exists_of_forall₂ hw.runners hi
    exact ⟨s, x, hp, hsound⟩
  have hgenuine : ∀ p ∈ w.past, p.Genuine w.nowMs := by
    intro p hp
    obtain ⟨s, x, hpx, hx⟩ := hsound hp
    exact hx.genuine p hpx
  refine ⟨hw.nodup_channels, hw.nodup_fired, fun _ h => hw.mem_fired_iff.1 h,
    fun p hp => hw.channel_mem_fired_iff hp, fun a ha => hw.channel_not_mem_fired ha, hgenuine,
    hw.runners.imp fun s x hx => hx.accounts, ?_⟩
  intro honest p hp hcancelled
  have hended := (hgenuine p hp).2
  rw [Past.outcome] at hcancelled
  cases hfate : p.fate with
  | abandoned =>
    rw [hfate] at hcancelled
    cases hcancelled
  | returned o =>
    rw [hfate] at hcancelled hended
    simp only at hcancelled hended
    rw [hcancelled] at hended
    -- it ended cancelled, so it had been told to stop, but then it was abandoned
    obtain ⟨s, x, hpx, hx⟩ := hsound hp
    have hfired := hx.told honest p.attempt (List.mem_append_left _ (List.mem_map_of_mem hpx)) hended
    rw [(hw.channel_mem_fired_iff hp).1 hfired] at hfate
    cases hfate

/-- **Attempts stay apart.**  Whatever attempts end with and whenever they end, a signal to stop goes
    to an attempt that its suite abandoned at the deadline, once, and to no other attempt; an abandoned
    attempt leaves its timeout and nothing else; and two runs in which a suite was answered the same
    leave the same suite, no matter what else happened in them. -/
theorem attempts_isolated (h : Reaches ctx can suites w) :
    w.Isolated ctx can suites
      ∧ ∀ (can' : Conduct ω) (w' : Workshop ω), Reaches ctx can' suites w' →
          ∀ (i : Nat) (x x' : Runner ω) (s s' : Suite), w.runners[i]? = some x →
            w'.runners[i]? = some x' → x.past.map Past.delivery = x'.past.map Past.delivery →
            x.phase = .going (.done s) → x'.phase = .going (.done s') → s = s' := by
  refine ⟨h.sound.isolated, fun can' w' h' i x x' s s' hx hx' hsame hphase hphase' => ?_⟩
  obtain ⟨s₁, hs₁, hsound⟩ := exists_of_forall₂ h.sound.runners hx
  obtain ⟨s₂, hs₂, hsound'⟩ := exists_of_forall₂ h'.sound.runners hx'
  obtain rfl : s₁ = s₂ := Option.some.inj (hs₁.symm.trans hs₂)
  -- both suites end the same task after the same deliveries, and these fix what it comes to
  have hfollows := hsound.follows
  have hfollows' := hsound'.follows
  rw [hphase, hsame] at hfollows
  rw [hphase'] at hfollows'
  exact hfollows.unique hfollows'

/-- An attempt is abandoned at its deadline and ends later, cancelled, or never.  Either way its suite
    has the timeout of the first attempt and nothing else on record when the second attempt passes. -/
theorem attempts_isolated_late :
    let executor : Executor Unit := ⟨none, fun _ w => (.awaitsCancel, w), id⟩
    let registry := Registry.empty.register "probe" fun _ => .ok executor
    let ctx : Context Unit := ⟨Aliases.empty, registry, Settings.standard⟩
    let step : TestBench.Step :=
      ⟨[(.text "type", .text "probe"), (.text "retry", .number (.int 1)),
        (.text "timeout", .number (.int 0))]⟩
    let suite := Suite.fresh "s" [Case.fresh "c" [step] false]
    let can : Conduct Unit := fun _ told o => told = true ∨ o ≠ .error .cancelled
    let ended (x : Runner Unit) := x.past.map (·.attempt.ended?)
    ∃ (w w' : Workshop Unit) (x x' : Runner Unit) (s s' : Suite),
      Reaches ctx can [suite] w ∧ w.runners = [x] ∧ x.phase = .going (.done s)
      ∧ ended x = [some (.error .cancelled), some (.ok Observed.empty)]
      ∧ Reaches ctx can [suite] w' ∧ w'.runners = [x'] ∧ x'.phase = .going (.done s')
      ∧ ended x' = [none, some (.ok Observed.empty)]
      ∧ w.Isolated ctx can [suite] ∧ w.fired = [0] ∧ s = s'
      ∧ s.cases.map (·.errors) = [["Timeout after 1 second(s)"]]
      ∧ ∀ p ∈ w.past, p.outcome ≠ .error .cancelled := by
  intro executor registry ctx step suite can ended
  have honest : can.Honest := fun _ _ h => h.resolve_left Bool.false_ne_true
  let call : Call := { aliases := Aliases.empty, suite := "s", case := "c", workdir := "." }
  let attempt (channel launchedMs : Nat) (ended? : Option Outcome) : Attempt Unit :=
    ⟨⟨0, 0⟩, ⟨executor, 1, 0, 1⟩, call, channel, launchedMs, ended?⟩
  let abandoned (ended? : Option Outcome) : Past Unit := ⟨attempt 0 0 ended?, .abandoned, 1000⟩
  -- the first attempt has been abandoned, and the second one is waited for
  obtain ⟨next, s, waiting, hnext, hs⟩ : ∃ next s,
      Reaches ctx can [suite] ⟨[⟨.awaiting (attempt 1 1000 none) next, [abandoned none]⟩], 2, [0], 1000⟩
        ∧ next (.ok Observed.empty) = .done s
        ∧ s.cases.map (·.errors) = [["Timeout after 1 second(s)"]] :=
    ⟨_, _, .head (.alone .resolve) <| .head (.alone .launch) <| .head (.tick _ 1000) <|
      .head (.alone (.expire (by decide))) <| .single (.alone .launch), rfl, by decide +kernel⟩
  have passes (first : Past Unit) : Relation.ReflTransGen (Step ctx can)
      ⟨[⟨.awaiting (attempt 1 1000 none) next, [first]⟩], 2, [0], 1000⟩
      ⟨[⟨.going (.done s), [first, ⟨attempt 1 1000 (some (.ok Observed.empty)),
        .returned (.ok Observed.empty), 1000⟩]⟩], 2, [0], 1000⟩ :=
    hnext ▸ .head (.alone (@Runner.Step.finish _ _ _ _ _ _ _ _ _ (.ok Observed.empty) rfl
      (.inr fun h => nomatch h))) (.single (.alone (.receive rfl)))
  have cancelled : Step ctx can
      ⟨[⟨.awaiting (attempt 1 1000 none) next, [abandoned none]⟩], 2, [0], 1000⟩
      ⟨[⟨.awaiting (attempt 1 1000 none) next, [abandoned (some (.error .cancelled))]⟩], 2, [0],
        1000⟩ :=
    .alone (@Runner.Step.finishLate _ _ _ _ _ _ _ [] _ [] (.error .cancelled) rfl (.inl rfl))
  have late := (waiting.tail cancelled).trans (passes _)
  have never := waiting.trans (passes _)
  obtain ⟨hisolated, hunique⟩ := attempts_isolated late
  exact ⟨_, _, _, _, s, s, late, rfl, rfl, rfl, never, rfl, rfl, rfl, hisolated, rfl,
    hunique _ _ never 0 _ _ s s rfl rfl rfl rfl rfl, hs, hisolated.uncancelled honest⟩

end Workshop
end TestBench
