import Mathlib
import TestBench.Proofs.Deliveries
/-
  Suites that run at once, with attempts that nobody can stop.

  Each attempt runs on its own.  Its suite waits for it until the deadline at most and then goes on
  without it.  The attempt has been told to stop by then, but may still end when it likes and with what
  it likes, next to later attempts, other steps and other suites.

  1. A `Workshop` holds suites under way, each with the attempts that it has waited for, and the
     channels over which attempts were told to stop.  `Runner.Step` is what can happen in one suite, and
     `Workshop.Step` lets any suite go on at any time.  What an attempt ends with is open (`Conduct`).
  2. What a suite was answered is what its attempts came to, an abandoned one to its timeout
     (`Runner.Sound`).  No rule looks at the outcome of an attempt that nobody waits for.
  3. Every channel belongs to one attempt, and a signal goes to abandoned attempts only
     (`Workshop.Sound`, `Sound.channel_mem_fired_iff`).
  4. A run by the clock is one of the courses that a workshop can take (`exists_reaches_runSuite`).
-/
namespace TestBench

variable {ω : Type}

/-! ## Attempts and their ends -/

/-- An attempt, under way or ended. -/
structure Attempt (ω : Type) where
  site : Site
  resolved : Resolved ω
  call : Call
  /-- The channel over which this attempt can be told to stop. -/
  channel : Nat
  launchedMs : Nat
  /-- What it ended with, whether or not somebody still waited. -/
  ended? : Option Outcome

namespace Attempt

/-- When the attempt is given up. -/
def deadlineMs (a : Attempt ω) : Nat := a.launchedMs + waitMs a.resolved.timeoutSecs

/-- The attempt when its call has ended. -/
def finish (a : Attempt ω) (o : Outcome) : Attempt ω := { a with ended? := some o }

end Attempt

/-- How the wait for an attempt ended: with its outcome, or because its deadline elapsed. -/
inductive Fate where
  | returned (outcome : Outcome)
  | abandoned

def Fate.isAbandoned : Fate → Bool
  | returned _ => false
  | abandoned => true

theorem Fate.isAbandoned_iff {fate : Fate} : fate.isAbandoned = true ↔ fate = .abandoned := by
  cases fate with
  | returned o => exact ⟨(nomatch ·), (nomatch ·)⟩
  | abandoned => exact ⟨fun _ => rfl, fun _ => rfl⟩

/-- An attempt that is no longer waited for.  It may still be under way. -/
structure Past (ω : Type) where
  attempt : Attempt ω
  fate : Fate
  /-- When the wait ended. -/
  atMs : Nat

namespace Past

/-- A late outcome changes what is known of the call, and nothing that was made of it. -/
def finish (p : Past ω) (o : Outcome) : Past ω := { p with attempt := p.attempt.finish o }

/-- What the suite was answered. -/
def outcome (p : Past ω) : Outcome :=
  match p.fate with
  | .returned o => o
  | .abandoned => .error (.timeout p.attempt.resolved.timeoutSecs)

/-- What the suite was answered. -/
def delivery (p : Past ω) : Delivery ω :=
  ⟨p.attempt.site, p.attempt.resolved, p.attempt.call, p.outcome⟩

def channel (p : Past ω) : Nat := p.attempt.channel

/-- However an attempt ends later, its suite was answered the same. -/
@[simp] theorem delivery_finish (p : Past ω) (o : Outcome) : (p.finish o).delivery = p.delivery := rfl

end Past

/-- The outcomes that attempts can end with, by whether they have been told to stop. -/
abbrev Conduct (ω : Type) := Attempt ω → Bool → Outcome → Prop

/-- No attempt is cancelled before it is told to stop. -/
def Conduct.Honest (can : Conduct ω) : Prop := ∀ a o, can a false o → o ≠ .error .cancelled

/-! ## Suites under way -/

/-- What a suite is doing. -/
inductive Phase (ω : Type) where
  | going (rest : Task ω Suite)
  | awaiting (attempt : Attempt ω) (next : Outcome → Task ω Suite)

namespace Phase

/-- What remains of the suite. -/
def task : Phase ω → Task ω Suite
  | going rest => rest
  | awaiting a next => .invoking a.site a.resolved a.call next

/-- The attempt that a suite waits for, if it does. -/
def awaited : Phase ω → List (Attempt ω)
  | going _ => []
  | awaiting a _ => [a]

end Phase

/-- A suite under way, with its attempts in the order in which they were waited for. -/
structure Runner (ω : Type) where
  phase : Phase ω
  past : List (Past ω)

namespace Runner

/-- All attempts of a suite, the one that it waits for last. -/
def attempts (x : Runner ω) : List (Attempt ω) := x.past.map (·.attempt) ++ x.phase.awaited

/-- The channels of the attempts that the suite has abandoned. -/
def told (x : Runner ω) : List Nat := (x.past.filter (·.fate.isAbandoned)).map Past.channel

/-- What can happen in a suite at a time, with the channels that it opens and those that it fires. -/
inductive Step (ctx : Context ω) (can : Conduct ω) (nowMs channels : Nat) (fired : List Nat) :
    Runner ω → List Nat → List Nat → Runner ω → Prop where
  | resolve {site step next past} :
      Step ctx can nowMs channels fired ⟨.going (.resolving site step next), past⟩ [] []
        ⟨.going (next (ctx.find step)), past⟩
  | launch {site r call next past} :
      Step ctx can nowMs channels fired ⟨.going (.invoking site r call next), past⟩ [channels] []
        ⟨.awaiting ⟨site, r, call, channels, nowMs, none⟩ next, past⟩
  | finish {a next past o} (running : a.ended? = none) (able : can a (a.channel ∈ fired) o) :
      Step ctx can nowMs channels fired ⟨.awaiting a next, past⟩ [] []
        ⟨.awaiting (a.finish o) next, past⟩
  | finishLate {phase front p back o} (running : p.attempt.ended? = none)
      (able : can p.attempt (p.channel ∈ fired) o) :
      Step ctx can nowMs channels fired ⟨phase, front ++ p :: back⟩ [] []
        ⟨phase, front ++ p.finish o :: back⟩
  | receive {a next past o} (ended : a.ended? = some o) :
      Step ctx can nowMs channels fired ⟨.awaiting a next, past⟩ [] []
        ⟨.going (next o), past ++ [⟨a, .returned o, nowMs⟩]⟩
  | expire {a next past} (elapsed : a.deadlineMs ≤ nowMs) :
      Step ctx can nowMs channels fired ⟨.awaiting a next, past⟩ [] [a.channel]
        ⟨.going (next (.error (.timeout a.resolved.timeoutSecs))), past ++ [⟨a, .abandoned, nowMs⟩]⟩

end Runner

/-- Suites that run at once. -/
structure Workshop (ω : Type) where
  runners : List (Runner ω)
  /-- How many channels have been opened; the next one gets this number. -/
  channels : Nat
  /-- The signals that were sent, in their order. -/
  fired : List Nat
  nowMs : Nat

namespace Workshop

/-- The attempts of all suites. -/
def attempts (w : Workshop ω) : List (Attempt ω) := w.runners.flatMap (·.attempts)

def past (w : Workshop ω) : List (Past ω) := w.runners.flatMap (·.past)

def awaited (w : Workshop ω) : List (Attempt ω) := w.runners.flatMap (·.phase.awaited)

/-- No suite has made an attempt, and no channel is open. -/
def start (ctx : Context ω) (suites : List Suite) : Workshop ω :=
  ⟨suites.map fun s => ⟨.going (ctx.task s), []⟩, 0, [], 0⟩

/-- Time passes, or something happens in one of the suites. -/
inductive Step (ctx : Context ω) (can : Conduct ω) : Workshop ω → Workshop ω → Prop where
  | tick (w : Workshop ω) (ms : Nat) : Step ctx can w { w with nowMs := w.nowMs + ms }
  | run {front x back channels fired nowMs opens fires x'}
      (step : Runner.Step ctx can nowMs channels fired x opens fires x') :
      Step ctx can ⟨front ++ x :: back, channels, fired, nowMs⟩
        ⟨front ++ x' :: back, channels + opens.length, fired ++ fires, nowMs⟩

/-- The workshops that suites can get into. -/
def Reaches (ctx : Context ω) (can : Conduct ω) (suites : List Suite) (w : Workshop ω) : Prop :=
  Relation.ReflTransGen (Step ctx can) (start ctx suites) w

end Workshop

/-! ## What a step does in a suite -/

/-- The wait for an attempt ended with its outcome, or not before its deadline. -/
def Past.Genuine (nowMs : Nat) (p : Past ω) : Prop :=
  p.atMs ≤ nowMs ∧
    match p.fate with
    | .returned o => p.attempt.ended? = some o
    | .abandoned => p.attempt.deadlineMs ≤ p.atMs

/-- What holds of a suite in every workshop. -/
structure Runner.Sound (ctx : Context ω) (can : Conduct ω) (s : Suite) (nowMs : Nat)
    (fired : List Nat) (x : Runner ω) : Prop where
  follows : Task.Follows ctx (ctx.task s) (x.past.map Past.delivery) x.phase.task
  genuine : ∀ p ∈ x.past, p.Genuine nowMs
  told : can.Honest → ∀ a ∈ x.attempts, a.ended? = some (.error .cancelled) → a.channel ∈ fired

namespace Runner

variable {ctx : Context ω} {can : Conduct ω} {s : Suite} {nowMs opened : Nat}
  {fired opens sends : List Nat} {x x' : Runner ω}

/-- Time and signals elsewhere do not disturb a suite. -/
theorem Sound.mono {nowMs' : Nat} {fired' : List Nat} (h : x.Sound ctx can s nowMs fired)
    (hnow : nowMs ≤ nowMs') (hfired : fired ⊆ fired') : x.Sound ctx can s nowMs' fired' where
  follows := h.follows
  genuine p hp := ⟨(h.genuine p hp).1.trans hnow, (h.genuine p hp).2⟩
  told honest a ha hended := hfired (h.told honest a ha hended)

/-- A suite goes on with what it was answered. -/
theorem Step.follows {t : Task ω Suite} (h : Step ctx can nowMs opened fired x opens sends x')
    (hx : Task.Follows ctx t (x.past.map Past.delivery) x.phase.task) :
    Task.Follows ctx t (x'.past.map Past.delivery) x'.phase.task := by
  cases h with
  | resolve => exact hx.resolve
  -- nothing is delivered when a call starts or ends, so the task stays where it is
  | launch => exact hx
  | finish => exact hx
  -- a late outcome is noted where the attempt stands, but what was delivered was its timeout
  | finishLate =>
    rw [List.map_append, List.map_cons, Past.delivery_finish, ← List.map_cons, ← List.map_append]
    exact hx
  -- what is delivered, an outcome or the timeout in its place, comes behind all that was before
  | receive =>
    rw [List.map_append]
    exact hx.deliver _
  | expire =>
    rw [List.map_append]
    exact hx.deliver _

/-- Attempts of the past keep to their deadlines: time has only moved on since. -/
theorem Step.genuine (h : Step ctx can nowMs opened fired x opens sends x')
    (hx : ∀ p ∈ x.past, p.Genuine nowMs) : ∀ p ∈ x'.past, p.Genuine nowMs := by
  cases h with
  | resolve => exact hx
  | launch => exact hx
  | finish => exact hx
  | @finishLate phase front p back o running able =>
    rw [List.forall_mem_append, List.forall_mem_cons] at hx ⊢
    obtain ⟨hfront, hp, hback⟩ := hx
    refine ⟨hfront, ⟨hp.1, ?_⟩, hback⟩
    have hfate := hp.2
    -- the attempt was abandoned, for it was still under way
    cases hcase : p.fate with
    | returned o' =>
      simp only [hcase, running] at hfate
      cases hfate
    | abandoned =>
      simp only [hcase] at hfate
      simp only [Past.finish, hcase]
      exact hfate
  | receive ended =>
    rw [List.forall_mem_append, List.forall_mem_singleton]
    exact ⟨hx, Nat.le_refl _, ended⟩
  | expire elapsed =>
    rw [List.forall_mem_append, List.forall_mem_singleton]
    exact ⟨hx, Nat.le_refl _, elapsed⟩

/-- Only who has been told to stop is cancelled. -/
theorem Step.told_of_cancelled (h : Step ctx can nowMs opened fired x opens sends x')
    (honest : can.Honest)
    (hx : ∀ a ∈ x.attempts, a.ended? = some (.error .cancelled) → a.channel ∈ fired) :
    ∀ a ∈ x'.attempts, a.ended? = some (.error .cancelled) → a.channel ∈ fired := by
  -- an honest call ends cancelled only if it has seen the signal
  have fresh (a : Attempt ω) (o : Outcome) (able : can a (a.channel ∈ fired) o)
      (hended : (a.finish o).ended? = some (.error .cancelled)) : a.channel ∈ fired := by
    by_contra hsilent
    rw [decide_eq_false hsilent] at able
    exact honest a o able (Option.some.inj hended)
  cases h with
  | resolve => exact hx
  | launch =>
    rw [attempts, List.forall_mem_append] at hx ⊢
    exact ⟨hx.1, List.forall_mem_singleton.2 fun h => nomatch h⟩
  | @finish a _ _ o running able =>
    rw [attempts, List.forall_mem_append] at hx ⊢
    exact ⟨hx.1, List.forall_mem_singleton.2 (fresh a o able)⟩
  | @finishLate _ _ p _ o running able =>
    rw [attempts, List.map_append, List.map_cons, List.forall_mem_append, List.forall_mem_append,
      List.forall_mem_cons] at hx ⊢
    exact ⟨⟨hx.1.1, fresh p.attempt o able, hx.1.2.2⟩, hx.2⟩
  | receive =>
    rw [attempts, List.map_append, List.append_assoc]
    exact hx
  | expire =>
    rw [attempts, List.map_append, List.append_assoc]
    exact hx

/-- A step of one suite keeps all that is sound about it. -/
theorem Step.sound (h : Step ctx can nowMs opened fired x opens sends x')
    (hx : x.Sound ctx can s nowMs fired) : x'.Sound ctx can s nowMs (fired ++ sends) :=
  Sound.mono ⟨h.follows hx.follows, h.genuine hx.genuine,
      fun honest => h.told_of_cancelled honest (hx.told honest)⟩
    (Nat.le_refl _) (List.subset_append_left _ _)

/-- A suite opens a channel for each attempt that it launches. -/
theorem Step.channels (h : Step ctx can nowMs opened fired x opens sends x') :
    x'.attempts.map (·.channel) = x.attempts.map (·.channel) ++ opens
      ∧ (opens = [] ∨ opens = [opened]) := by
  cases h with
  | resolve => exact ⟨(List.append_nil _).symm, .inl rfl⟩
  | launch => exact ⟨by simp [attempts, Phase.awaited], .inr rfl⟩
  | finish => exact ⟨by simp [attempts, Phase.awaited, Attempt.finish], .inl rfl⟩
  | finishLate => exact ⟨by simp [attempts, Past.finish, Attempt.finish], .inl rfl⟩
  | receive => exact ⟨by simp [attempts, Phase.awaited], .inl rfl⟩
  | expire => exact ⟨by simp [attempts, Phase.awaited], .inl rfl⟩

/-- A suite fires the channel of each attempt that it abandons. -/
theorem Step.fires (h : Step ctx can nowMs opened fired x opens sends x') :
    x'.told = x.told ++ sends := by
  cases h with
  | resolve => exact (List.append_nil _).symm
  | launch => exact (List.append_nil _).symm
  | finish => exact (List.append_nil _).symm
  | @finishLate _ _ p _ o =>
    have hfate : (p.finish o).fate = p.fate := rfl
    simp only [told, List.filter_append, List.filter_cons, hfate, List.append_nil, List.map_append]
    split <;> rfl
  | receive => simp [told, Fate.isAbandoned]
  | expire => simp [told, Fate.isAbandoned, Past.channel]

end Runner

/-! ## What a step does in a workshop -/

/-- One member of the second list is replaced. -/
theorem forall₂_replace {α β : Type} {R R' : α → β → Prop} {l : List α} {front back : List β}
    {x x' : β} (h : List.Forall₂ R l (front ++ x :: back)) (hx : ∀ a, R a x → R' a x')
    (hothers : ∀ a b, R a b → R' a b) : List.Forall₂ R' l (front ++ x' :: back) := by
  induction front generalizing l with
  | nil =>
    cases h with
    | cons hhead htail => exact .cons (hx _ hhead) (htail.imp hothers)
  | cons b front ih =>
    cases h with
    | cons hhead htail => exact .cons (hothers _ b hhead) (ih htail)

namespace Workshop

variable {ctx : Context ω} {can : Conduct ω} {suites : List Suite} {w w' : Workshop ω}

/-- What holds in every workshop: the suites are sound, every channel belongs to one attempt, and the
    signals are those to the abandoned attempts. -/
structure Sound (ctx : Context ω) (can : Conduct ω) (suites : List Suite) (w : Workshop ω) :
    Prop where
  runners : List.Forall₂ (fun s x => x.Sound ctx can s w.nowMs w.fired) suites w.runners
  channels : (w.attempts.map (·.channel)).Perm (List.range w.channels)
  fired : w.fired.Perm (w.runners.flatMap (·.told))

/-- A workshop begins without attempts. -/
theorem Sound.start (ctx : Context ω) (can : Conduct ω) (suites : List Suite) :
    (start ctx suites).Sound ctx can suites where
  runners := by
    rw [Workshop.start, List.forall₂_map_right_iff, List.forall₂_same]
    exact fun s _ => ⟨.here _, fun _ hp => absurd hp List.not_mem_nil,
      fun _ _ ha => absurd ha List.not_mem_nil⟩
  channels := by
    simp [Workshop.start, attempts, Runner.attempts, Phase.awaited, List.flatMap_map]
  fired := by
    simp [Workshop.start, Runner.told, List.flatMap_map]

/-- A step keeps what is sound: one suite goes on and opens the channel that comes next, the others see
    time pass and signals that are not theirs. -/
theorem Sound.step (hw : w.Sound ctx can suites) (h : Step ctx can w w') :
    w'.Sound ctx can suites := by
  cases h with
  | tick _ ms =>
    refine ⟨hw.runners.imp fun s x hx => ?_, hw.channels, hw.fired⟩
    exact hx.mono (Nat.le_add_right _ _) (List.Subset.refl _)
  | @run front x back channels fired nowMs opens fires x' hstep =>
    obtain ⟨hrunners, hchannels, hfired⟩ := hw
    obtain ⟨hopens, hnext⟩ := hstep.channels
    refine ⟨forall₂_replace hrunners (fun s hx => hstep.sound hx) fun s y hy =>
      hy.mono (Nat.le_refl _) (List.subset_append_left _ _), ?_, ?_⟩
    · -- channels are numbered in the order in which attempts are launched
      have hrange : List.range (channels + opens.length) = List.range channels ++ opens := by
        rcases hnext with rfl | rfl
        · exact (List.append_nil _).symm
        · exact List.range_succ
      rw [hrange]
      refine List.Perm.trans ?_ (hchannels.append_right opens)
      simp only [attempts, List.flatMap_append, List.flatMap_cons, List.map_append, hopens,
        List.append_assoc]
      exact ((List.perm_append_comm).append_left _).append_left _
    · refine (hfired.append_right fires).trans ?_
      simp only [List.flatMap_append, List.flatMap_cons, hstep.fires, List.append_assoc]
      exact ((List.perm_append_comm).append_left _).append_left _

/-- All that can be reached is sound, by induction on the steps. -/
theorem Reaches.sound (h : Reaches ctx can suites w) : w.Sound ctx can suites := by
  induction h with
  | refl => exact .start ctx can suites
  | tail _ hstep ih => exact ih.step hstep

/-! ## Channels and signals -/

/-- The channels of all attempts, those waited for behind the others. -/
theorem Sound.nodup_channels (hw : w.Sound ctx can suites) :
    (w.past.map Past.channel ++ w.awaited.map (·.channel)).Nodup := by
  have hsplit : (w.past.map Past.channel ++ w.awaited.map (·.channel)).Perm
      (w.attempts.map (·.channel)) := by
    have h := (List.flatMap_append_perm w.runners (fun x => x.past.map (·.attempt))
      (fun x => x.phase.awaited)).map (·.channel)
    rw [List.map_append, ← List.map_flatMap, List.map_map] at h
    exact h
  exact (hsplit.trans hw.channels).nodup_iff.2 (List.nodup_range)

/-- A signal was sent exactly for each attempt that was given up. -/
theorem Sound.fired_perm (hw : w.Sound ctx can suites) :
    w.fired.Perm ((w.past.filter (·.fate.isAbandoned)).map Past.channel) := by
  rw [past, List.filter_flatMap, List.map_flatMap]
  exact hw.fired

/-- A channel is fired iff an attempt with this channel was abandoned. -/
theorem Sound.mem_fired_iff (hw : w.Sound ctx can suites) {channel : Nat} :
    channel ∈ w.fired ↔ ∃ p ∈ w.past, p.fate = .abandoned ∧ p.channel = channel := by
  rw [hw.fired_perm.mem_iff, List.mem_map]
  simp only [List.mem_filter, Fate.isAbandoned_iff, and_assoc]

theorem Sound.nodup_fired (hw : w.Sound ctx can suites) : w.fired.Nodup :=
  hw.fired_perm.nodup_iff.2
    ((List.nodup_append.1 hw.nodup_channels).1.sublist (List.filter_sublist.map _))

/-- An attempt that was waited for has its channel fired iff it was abandoned itself. -/
theorem Sound.channel_mem_fired_iff (hw : w.Sound ctx can suites) {p : Past ω} (hp : p ∈ w.past) :
    p.channel ∈ w.fired ↔ p.fate = .abandoned := by
  constructor
  · intro h
    obtain ⟨q, hq, hfate, hchannel⟩ := hw.mem_fired_iff.1 h
    have hsame : q = p :=
      List.inj_on_of_nodup_map (List.nodup_append.1 hw.nodup_channels).1 hq hp hchannel
    rwa [← hsame]
  · exact fun h => hw.mem_fired_iff.2 ⟨p, hp, h, rfl⟩

/-- An attempt that is waited for has not been told to stop. -/
theorem Sound.channel_not_mem_fired (hw : w.Sound ctx can suites) {a : Attempt ω}
    (ha : a ∈ w.awaited) : a.channel ∉ w.fired := by
  intro h
  obtain ⟨q, hq, -, hchannel⟩ := hw.mem_fired_iff.1 h
  exact (List.nodup_append.1 hw.nodup_channels).2.2 _ (List.mem_map_of_mem hq) _
    (List.mem_map_of_mem ha) hchannel

end Workshop

/-! ## A run by the clock -/

/-- Attempts end with what their executors end with, from whatever world. -/
def Conduct.ofCourses : Conduct ω := fun a _ o =>
  ∃ ms w w', a.resolved.executor.start
    { a.call with stopAtMs := some (waitMs a.resolved.timeoutSecs) } w = (.ends ms o, w')

/-- By the clock an attempt is answered with what its executor ends with, or with its timeout. -/
theorem answer_ends_or_timeout (r : Resolved ω) (call : Call) (w : ω) :
    (∃ ms w', r.executor.start { call with stopAtMs := some (waitMs r.timeoutSecs) } w
        = (.ends ms (r.answer call w).1, w'))
      ∨ (r.answer call w).1 = .error (.timeout r.timeoutSecs) := by
  rw [Resolved.answer]
  simp only [invoke]
  split
  next ms outcome w' hstart =>
    split
    · exact .inl ⟨ms, w', hstart⟩
    · exact .inr rfl
  next => exact .inr rfl
  next => exact .inr rfl

namespace Workshop

variable {ctx : Context ω} {can : Conduct ω}

/-- Something happens in the only suite. -/
theorem Step.alone {x x' : Runner ω} {nowMs channels : Nat} {fired opens fires : List Nat}
    (step : Runner.Step ctx can nowMs channels fired x opens fires x') :
    Step ctx can ⟨[x], channels, fired, nowMs⟩
      ⟨[x'], channels + opens.length, fired ++ fires, nowMs⟩ :=
  @Step.run _ _ _ [] _ [] _ _ _ _ _ _ step

/-- What a task comes to when it is played, it can come to in a workshop. -/
theorem exists_play (ctx : Context ω) (t : Task ω Suite) : ∀ (w : ω) (past : List (Past ω))
    (channels : Nat) (fired : List Nat) (nowMs : Nat), ∃ past' channels' fired' nowMs',
      Relation.ReflTransGen (Step ctx .ofCourses) ⟨[⟨.going t, past⟩], channels, fired, nowMs⟩
        ⟨[⟨.going (.done (t.play ctx w).1), past'⟩], channels', fired', nowMs'⟩ := by
  induction t with
  | done s => exact fun _ _ _ _ _ => ⟨_, _, _, _, .refl⟩
  | resolving site step next ih =>
    intro w past channels fired nowMs
    obtain ⟨past', channels', fired', nowMs', hrest⟩ := ih (ctx.find step) w past _ _ nowMs
    exact ⟨past', channels', fired', nowMs', .head (.alone .resolve) hrest⟩
  | invoking site r call next ih =>
    intro w past channels fired nowMs
    -- an answer is either what the call ended with in time, or the timeout at its deadline
    rcases answer_ends_or_timeout r call w with ⟨ms, w', hstart⟩ | htimeout
    · obtain ⟨past', channels', fired', nowMs', hrest⟩ :=
        ih (r.answer call w).1 (r.answer call w).2 _ _ _ nowMs
      exact ⟨past', channels', fired', nowMs', .head (.alone .launch) <|
        .head (.alone (.finish rfl ⟨ms, w, w', hstart⟩)) <| .head (.alone (.receive rfl)) hrest⟩
    · obtain ⟨past', channels', fired', nowMs', hrest⟩ :=
        ih (r.answer call w).1 (r.answer call w).2 _ _ _ (nowMs + waitMs r.timeoutSecs)
      rw [htimeout] at hrest
      refine ⟨past', channels', fired', nowMs', .head (.alone .launch) <|
        .head (.tick _ (waitMs r.timeoutSecs)) <| .head (.alone (.expire (Nat.le_refl _))) ?_⟩
      rw [Task.play, htimeout]
      exact hrest

/-- A suite that runs alone by the clock is one that a workshop can end with. -/
theorem exists_reaches_runSuite (ctx : Context ω) (s : Suite) (b : Bench ω) :
    ∃ w past, Reaches ctx .ofCourses [s] w
      ∧ w.runners = [⟨.going (.done (runSuite ctx s b).1), past⟩] := by
  obtain ⟨past, channels, fired, nowMs, hrun⟩ := exists_play ctx (ctx.task s) b.world [] 0 [] 0
  rw [play_suiteTask] at hrun
  exact ⟨_, past, hrun, rfl⟩

end Workshop

end TestBench
