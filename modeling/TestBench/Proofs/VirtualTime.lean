import Mathlib
import TestBench.Executor.Scripted
import TestBench.Proofs.AttemptSequence
import TestBench.Proofs.Deadlines
import TestBench.Proofs.RetrySettings
/-
  How long steps and cases take.

  1. Left alone a call takes its duration, which is infinite if it hangs.  Under a deadline it is waited
     for up to the earlier of the two (`Course.heldMs`), and its own outcome counts iff it comes first
     (`invoke_goes`).
  2. Before an attempt comes a delay or nothing, so an attempt moves the clock on by a delay and by the
     time it is waited for.  By induction on the retries that are left, the attempts of a step take the
     sum (`elapsedMs_attemptsFrom`); how often the delay comes depends on their number alone
     (`sum_waitBefore`).
  3. `stepsRun` lists the steps of a case that are run and the worlds in which they begin.  It looks at
     executors and first attempts, as the run of the case does, and not at the clock.  A case takes what
     the listed steps take (`elapsedMs_runSteps`).
  4. No executor decides more than how many attempts are made and how much of each deadline is used up,
     so a step has a budget (`stepMs_le`), and the steps that are run stay within that of all steps
     (`sum_ms_le`).  A delay before the first retry comes once in a step that has a first retry
     (`stepMs_true`).
  5. Clock and timers have limits, so both sums are written for any length that seconds may have: the one
     that they are waited for, and the thousand milliseconds that are asked for.  Where what is asked for
     ends within reach of the timers (`Resolved.reachMs`), no wait was cut and the two sums are the same
     (`stepMs_waitMs`).  The budget holds beyond that as well, since a wait is never longer than asked.
-/
namespace TestBench

variable {ω : Type}

/-! ## One attempt -/

namespace Course

/-- How long a call takes if nobody waits for less.  One that waits for the signal to stop does not end
    before it. -/
def duration : Course → ℕ∞
  | ends ms _ => ms
  | hangs => ⊤
  | awaitsCancel => ⊤

/-- How long a call is waited for under a deadline. -/
def heldMs (deadlineMs : Nat) : Course → Nat
  | ends ms _ => min ms deadlineMs
  | hangs => deadlineMs
  | awaitsCancel => deadlineMs

/-- What a call answers by a deadline, if it does. -/
def answerBy? (deadlineMs : Nat) : Course → Option Outcome
  | ends ms outcome => if ms ≤ deadlineMs then some outcome else none
  | hangs => none
  | awaitsCancel => none

/-- It is waited for until its end or until the deadline, whichever comes first. -/
theorem coe_heldMs (deadlineMs : Nat) (course : Course) :
    (course.heldMs deadlineMs : ℕ∞) = min course.duration deadlineMs := by
  cases course with
  | ends ms outcome => exact Nat.mono_cast.map_min
  | hangs => exact (min_eq_right le_top).symm
  | awaitsCancel => exact (min_eq_right le_top).symm

/-- A call is held for no longer than the deadline. -/
theorem heldMs_le (deadlineMs : Nat) (course : Course) : course.heldMs deadlineMs ≤ deadlineMs := by
  cases course with
  | ends ms outcome => exact Nat.min_le_right ms deadlineMs
  | hangs => exact le_rfl
  | awaitsCancel => exact le_rfl

/-- A call gives no answer by a deadline iff it goes on after it. -/
theorem answerBy?_eq_none_iff {deadlineMs : Nat} {course : Course} :
    course.answerBy? deadlineMs = none ↔ (deadlineMs : ℕ∞) < course.duration := by
  cases course with
  | ends ms outcome =>
    rw [answerBy?, duration, Nat.cast_lt, ← Nat.not_le]
    split
    · rename_i hinTime
      exact iff_of_false (Option.some_ne_none outcome) (not_not_intro hinTime)
    · rename_i hlate
      exact iff_of_true rfl hlate
  | hangs => exact iff_of_true rfl (ENat.natCast_lt_top deadlineMs)
  | awaitsCancel => exact iff_of_true rfl (ENat.natCast_lt_top deadlineMs)

end Course

namespace Resolved

variable (r : Resolved ω) (call : Call)

/-- How the call of an attempt goes that begins in a world. -/
def course (w : ω) : Course :=
  (r.executor.start { call with stopAtMs := some (waitMs r.timeoutSecs) } w).1

/-- How the calls of the attempts would go one after another. -/
def courses (w : ω) (i : Nat) : Course := r.course call (r.worldBefore call w i)

/-- How long an attempt is waited for. -/
def attemptMs (w : ω) (i : Nat) : Nat := (r.courses call w i).heldMs (waitMs r.timeoutSecs)

end Resolved

section Attempt

variable {r : Resolved ω} {call : Call}

/-- **How an invocation goes.**  It answers with what the call answers by the deadline, or with a timeout,
    and takes as long as the call is held. -/
theorem invoke_goes (b : Bench ω) :
    (invoke r call b).1 = ((r.course call b.world).answerBy? (waitMs r.timeoutSecs)).getD
        (.error (.timeout r.timeoutSecs))
      ∧ (invoke r call b).2.elapsedMs
        = b.elapsedMs + (r.course call b.world).heldMs (waitMs r.timeoutSecs) := by
  rw [Resolved.course, invoke]
  dsimp only
  -- the call ends, in time or late, or hangs, or waits to be told to stop
  split
  · rename_i ms outcome world hstart
    rw [hstart, Course.answerBy?, Course.heldMs]
    split
    · rename_i hinTime
      rw [Nat.min_eq_left hinTime]
      exact ⟨rfl, rfl⟩
    · rename_i hlate
      rw [Nat.min_eq_right (Nat.le_of_not_ge hlate)]
      exact ⟨rfl, rfl⟩
  · rename_i world hstart
    rw [hstart]
    exact ⟨rfl, rfl⟩
  · rename_i world hstart
    rw [hstart]
    exact ⟨rfl, rfl⟩

/-- A call that ends by the deadline is judged by its own outcome. -/
theorem answer_of_inTime {w : ω} {ms : Nat} {outcome : Outcome}
    (h : r.course call w = .ends ms outcome) (inTime : ms ≤ waitMs r.timeoutSecs) :
    (r.answer call w).1 = outcome := by
  refine (invoke_goes ⟨w, 0⟩).1.trans ?_
  rw [h, Course.answerBy?, if_pos inTime, Option.getD_some]

/-- A call that goes on after the deadline is judged a timeout. -/
theorem answer_of_late {w : ω} (late : (waitMs r.timeoutSecs : ℕ∞) < (r.course call w).duration) :
    (r.answer call w).1 = .error (.timeout r.timeoutSecs) := by
  refine (invoke_goes ⟨w, 0⟩).1.trans ?_
  rw [Course.answerBy?_eq_none_iff.2 late, Option.getD_none]

/-- An attempt takes its delay and its invocation. -/
theorem elapsedMs_attemptAt (settings : Settings) (attempt : Nat) (b : Bench ω) :
    (attemptAt settings r call attempt b).2.elapsedMs
      = b.elapsedMs + (waitBefore settings r.delaySecs attempt + r.attemptMs call b.world 0) := by
  rw [attemptAt, (invoke_goes _).2, Bench.wait, Nat.add_assoc]
  rfl

end Attempt

/-! ## All attempts of a step -/

/-- How many attempts of a step are made. -/
def Resolved.attemptsMade (r : Resolved ω) (declared : List String) (call : Call) (w : ω) : Nat :=
  attemptCount (r.check declared) r.retry (r.outcomes call w)

section Attempts

variable (settings : Settings) (r : Resolved ω) (declared : List String) (call : Call)

/-- Attempts take the sum of the waits before them and of the times that they are waited for. -/
theorem elapsedMs_attemptsFrom (left : Nat) : ∀ (attempt : Nat) (o : StepOutcome) (b : Bench ω),
    (attemptsFrom settings r declared call left attempt o b).2.elapsedMs
      = b.elapsedMs
        + ∑ i ∈ Finset.range (attemptCount (r.check declared) left (r.outcomes call b.world)),
            (waitBefore settings r.delaySecs (attempt + i) + r.attemptMs call b.world i) := by
  have hverdict (attempt : Nat) (b : Bench ω) :
      (r.verdictOn declared (attemptAt settings r call attempt b).1).isOk
        = passes (r.check declared) (r.outcomes call b.world 0) := by
    rw [attemptAt_fst, r.verdictOn_eq, isOk_leftBy]
    rfl
  induction left with
  | zero =>
    intro attempt o b
    have hone : attemptCount (r.check declared) 0 (r.outcomes call b.world) = 1 := by
      by_cases h : passes (r.check declared) (r.outcomes call b.world 0) = true
      · exact attemptCount_of_passes h
      · exact attemptCount_zero (Bool.eq_false_iff.2 h)
    rw [attemptsFrom_zero, hone, Finset.sum_range_one, elapsedMs_attemptAt]
    rfl
  | succ left ih =>
    intro attempt o b
    by_cases h : passes (r.check declared) (r.outcomes call b.world 0) = true
    · rw [attemptsFrom_passed _ _ _ _ _ _ _ _ ((hverdict attempt b).trans h),
        attemptCount_of_passes h, Finset.sum_range_one, elapsedMs_attemptAt]
      rfl
    · have hnot : ¬ (r.verdictOn declared (attemptAt settings r call attempt b).1).isOk = true := by
        rwa [hverdict]
      -- what follows begins in the world that this attempt leaves, so it counts from the next one on
      have hrest : ∑ i ∈ Finset.range
            (attemptCount (r.check declared) left (r.outcomes call (r.answer call b.world).2)),
            (waitBefore settings r.delaySecs (attempt + 1 + i)
              + r.attemptMs call (r.answer call b.world).2 i)
          = ∑ i ∈ Finset.range
              (attemptCount (r.check declared) left fun i => r.outcomes call b.world (i + 1)),
              (waitBefore settings r.delaySecs (attempt + (i + 1))
                + r.attemptMs call b.world (i + 1)) := by
        refine Finset.sum_congr rfl fun i _ => ?_
        rw [Nat.add_right_comm]
        rfl
      rw [attemptsFrom_failed _ _ _ _ _ _ _ _ hnot, ih, attemptAt_world, elapsedMs_attemptAt,
        attemptCount_succ (Bool.eq_false_iff.2 h), Finset.sum_range_succ', hrest, Nat.add_assoc,
        Nat.add_comm (waitBefore settings r.delaySecs attempt + _)]
      rfl

end Attempts

/-- How often the delay comes among some attempts, before the first retry too or not. -/
def delaysAmong (first : Bool) (attempts : Nat) : Nat :=
  if first then attempts - 1 else max attempts 2 - 2

/-- The delay before an attempt is added, if there is one. -/
theorem delaysAmong_succ (first : Bool) (n : Nat) :
    delaysAmong first (n + 1)
      = delaysAmong first n + if 1 < n ∨ (n = 1 ∧ first = true) then 1 else 0 := by
  rw [delaysAmong, delaysAmong]
  cases first with
  | true =>
    simp only [eq_self, if_true, and_true]
    split <;> omega
  | false =>
    simp only [Bool.false_eq_true, if_false, and_false, or_false]
    split <;> omega

/-- The waits before the attempts are the delay, as often as it comes. -/
theorem sum_waitBefore (settings : Settings) (delaySecs n : Nat) :
    ∑ i ∈ Finset.range n, waitBefore settings delaySecs i
      = waitMs delaySecs * delaysAmong settings.delayFirstRetry n := by
  induction n with
  | zero => cases settings.delayFirstRetry <;> rfl
  | succ n ih =>
    rw [Finset.sum_range_succ, ih, delaysAmong_succ, waitBefore]
    split
    · rw [Nat.mul_add, Nat.mul_one]
    · rfl

/-- A delay before the first retry comes once where there is a first retry. -/
theorem delaysAmong_true (n : Nat) :
    delaysAmong true n = delaysAmong false n + if 2 ≤ n then 1 else 0 := by
  rw [delaysAmong, delaysAmong, if_pos rfl, if_neg Bool.false_ne_true]
  split <;> omega

/-- There are fewer delays than attempts. -/
theorem delaysAmong_le (first : Bool) (n : Nat) : delaysAmong first n ≤ n - 1 := by
  rw [delaysAmong]
  split <;> omega

/-! ## Steps -/

/-- What a step takes from a world on if seconds last this long, with or without a delay before its
    first retry. -/
def Resolved.stepMs (r : Resolved ω) (length : Nat → Nat) (declared : List String) (call : Call)
    (first : Bool) (w : ω) : Nat :=
  let n := r.attemptsMade declared call w
  ∑ i ∈ Finset.range n, (r.courses call w i).heldMs (length r.timeoutSecs)
    + length r.delaySecs * delaysAmong first n

/-- The milliseconds that a step can take at most, by the numbers that it asks for. -/
def Context.budgetMs (ctx : Context ω) (step : Step) : Nat :=
  1000 * ((step.retry?.getD 0 + 1) * ctx.timeoutOf step + step.retry?.getD 0 * step.delay?.getD 0)

/-- No wait is longer than what is asked for. -/
theorem waitMs_le (seconds : Nat) : waitMs seconds ≤ 1000 * seconds := by
  rw [waitMs]
  split
  · exact Nat.min_le_left _ _
  · rename_i hfar
    have hlong : 30 * 365 * 86400 ≤ Nat.pow 2 63 := by decide
    exact Nat.mul_le_mul_left 1000 (hlong.trans (Nat.le_of_not_lt hfar))

section Step

variable {ctx : Context ω} {r : Resolved ω} {declared : List String} {call : Call}

/-- A step takes the sum over its attempts. -/
theorem elapsedMs_runStep (settings : Settings) (r : Resolved ω) (step : Step) (call : Call)
    (b : Bench ω) :
    (runStep settings r step call b).2.elapsedMs
      = b.elapsedMs + r.stepMs waitMs step.assertions call settings.delayFirstRetry b.world := by
  rw [runStep, elapsedMs_attemptsFrom, Finset.sum_add_distrib,
    Nat.add_comm (∑ i ∈ _, waitBefore settings r.delaySecs _)]
  simp only [Nat.zero_add]
  rw [sum_waitBefore]
  rfl

/-- The same sum over the durations of the calls. -/
theorem coe_stepMs (r : Resolved ω) (length : Nat → Nat) (declared : List String) (call : Call)
    (first : Bool) (w : ω) :
    (r.stepMs length declared call first w : ℕ∞)
      = ∑ i ∈ Finset.range (r.attemptsMade declared call w),
            min (r.courses call w i).duration (length r.timeoutSecs)
          + length r.delaySecs * delaysAmong first (r.attemptsMade declared call w) := by
  simp only [Resolved.stepMs, ← Course.coe_heldMs]
  push_cast
  rfl

/-- A step has at most one attempt more than retries, each within the deadline, and at most as many
    delays as retries. -/
theorem stepMs_le (first : Bool) (w : ω) :
    r.stepMs waitMs declared call first w
      ≤ 1000 * ((r.retry + 1) * r.timeoutSecs + r.retry * r.delaySecs) := by
  have hcount : r.attemptsMade declared call w ≤ r.retry + 1 := attemptCount_le
  have hdelays : delaysAmong first (r.attemptsMade declared call w) ≤ r.retry :=
    (delaysAmong_le first _).trans (Nat.sub_le_of_le_add hcount)
  have hattempts : ∑ i ∈ Finset.range (r.attemptsMade declared call w),
      (r.courses call w i).heldMs (waitMs r.timeoutSecs) ≤ (r.retry + 1) * (1000 * r.timeoutSecs) := by
    refine (Finset.sum_le_card_nsmul _ _ _ fun i _ => Course.heldMs_le _ _).trans ?_
    rw [Finset.card_range, smul_eq_mul]
    exact Nat.mul_le_mul hcount (waitMs_le _)
  calc r.stepMs waitMs declared call first w
      ≤ (r.retry + 1) * (1000 * r.timeoutSecs) + 1000 * r.delaySecs * r.retry :=
        Nat.add_le_add hattempts (Nat.mul_le_mul (waitMs_le _) hdelays)
    _ = 1000 * ((r.retry + 1) * r.timeoutSecs + r.retry * r.delaySecs) := by ring

/-- So it takes no more than its budget. -/
theorem stepMs_le_budgetMs {step : Step} (h : ctx.find step = .ok r) (first : Bool) (w : ω) :
    r.stepMs waitMs declared call first w ≤ ctx.budgetMs step := by
  have hdelay : r.delaySecs = step.delay?.getD 0 := congrArg Resolved.delaySecs (Context.eq_of_find h)
  have hle : r.stepMs waitMs declared call first w ≤ _ := stepMs_le first w
  rwa [retry_of_find h, timeoutSecs_of_find h, hdelay] at hle

/-- A delay before the first retry costs the delay, once, if there is a first retry. -/
theorem stepMs_true (length : Nat → Nat) (w : ω) :
    r.stepMs length declared call true w = r.stepMs length declared call false w
      + if 2 ≤ r.attemptsMade declared call w then length r.delaySecs else 0 := by
  simp only [Resolved.stepMs, delaysAmong_true]
  split
  · rw [Nat.mul_add, Nat.mul_one, Nat.add_assoc]
  · rfl

end Step

/-! ## The reach of the clock -/

/-- The time from the start within which a step is sure to take what it asks for: up to the limit of the
    timers, or thirty years if the deadline is beyond that limit and may be cut. -/
def Resolved.reachMs (r : Resolved ω) : Nat :=
  if 1000 * r.timeoutSecs ≤ timerLimitMs then timerLimitMs else thirtyYearsMs

/-- Nothing reaches further than the timer. -/
theorem Resolved.reachMs_le (r : Resolved ω) : r.reachMs ≤ timerLimitMs := by
  rw [Resolved.reachMs]
  split
  · exact le_rfl
  · decide

/-- Waits within the range of the timer are not cut. -/
theorem waitMs_of_le {seconds : Nat} (h : 1000 * seconds ≤ timerLimitMs) :
    waitMs seconds = 1000 * seconds := by
  have hlimit : timerLimitMs < 1000 * Nat.pow 2 63 := by decide
  rw [waitMs, if_pos (Nat.lt_of_mul_lt_mul_left (h.trans_lt hlimit)), Nat.min_eq_left h]

/-- A wait that is cut still lasts thirty years. -/
theorem thirtyYearsMs_le_waitMs {seconds : Nat} (h : timerLimitMs < 1000 * seconds) :
    thirtyYearsMs ≤ waitMs seconds := by
  rw [waitMs]
  split
  · rw [Nat.min_eq_right h.le]
    decide
  · exact le_rfl

section Reach

variable {r : Resolved ω}

/-- A call that is waited for within reach is waited for as long as asked. -/
theorem heldMs_waitMs {course : Course} (h : course.heldMs (1000 * r.timeoutSecs) < r.reachMs) :
    course.heldMs (waitMs r.timeoutSecs) = course.heldMs (1000 * r.timeoutSecs) := by
  rw [Resolved.reachMs] at h
  split at h
  · rename_i hreach
    rw [waitMs_of_le hreach]
  · -- the deadline may be cut, so the call must have ended before that could make a difference
    rename_i hbeyond
    have hcut : thirtyYearsMs ≤ waitMs r.timeoutSecs :=
      thirtyYearsMs_le_waitMs (Nat.lt_of_not_le hbeyond)
    have hfar : ¬ 1000 * r.timeoutSecs < thirtyYearsMs := Nat.not_lt.2 (hcut.trans (waitMs_le _))
    cases course with
    | ends ms outcome =>
      have hsoon : ms < thirtyYearsMs := (min_lt_iff.1 h).resolve_right hfar
      rw [Course.heldMs, Course.heldMs, Nat.min_eq_left (hsoon.le.trans hcut),
        Nat.min_eq_left (hsoon.le.trans (Nat.not_lt.1 hfar))]
    | hangs => exact absurd h hfar
    | awaitsCancel => exact absurd h hfar

/-- Delays that end within reach last as long as asked.  One that never comes may be of any length. -/
theorem waitMs_mul_of_le {seconds times : Nat} (h : 1000 * seconds * times ≤ timerLimitMs) :
    waitMs seconds * times = 1000 * seconds * times := by
  rcases Nat.eq_zero_or_pos times with hnone | hsome
  · rw [hnone, Nat.mul_zero, Nat.mul_zero]
  · rw [waitMs_of_le ((Nat.le_mul_of_pos_right _ hsome).trans h)]

variable {declared : List String} {call : Call} {first : Bool} {w : ω}

/-- What an attempt is waited for is part of what the step takes. -/
theorem heldMs_le_stepMs (length : Nat → Nat) {i : Nat} (hi : i < r.attemptsMade declared call w) :
    (r.courses call w i).heldMs (length r.timeoutSecs) ≤ r.stepMs length declared call first w :=
  (Finset.single_le_sum (f := fun i => (r.courses call w i).heldMs (length r.timeoutSecs))
    (fun _ _ => Nat.zero_le _) (Finset.mem_range.2 hi)).trans (Nat.le_add_right _ _)

/-- **Within reach of the clock a step takes what it asks for.** -/
theorem stepMs_waitMs (h : r.stepMs (1000 * ·) declared call first w < r.reachMs) :
    r.stepMs waitMs declared call first w = r.stepMs (1000 * ·) declared call first w := by
  have hattempts : ∑ i ∈ Finset.range (r.attemptsMade declared call w),
        (r.courses call w i).heldMs (waitMs r.timeoutSecs)
      = ∑ i ∈ Finset.range (r.attemptsMade declared call w),
        (r.courses call w i).heldMs (1000 * r.timeoutSecs) :=
    Finset.sum_congr rfl fun i hi =>
      heldMs_waitMs ((heldMs_le_stepMs _ (Finset.mem_range.1 hi)).trans_lt h)
  have hdelays : 1000 * r.delaySecs * delaysAmong first (r.attemptsMade declared call w) ≤ timerLimitMs :=
    ((Nat.le_add_left _ _).trans h.le).trans r.reachMs_le
  rw [Resolved.stepMs, Resolved.stepMs, hattempts, waitMs_mul_of_le hdelays]

/-- An attempt of such a step whose call ends before the deadline is judged by how it ends. -/
theorem outcomes_of_inTime (h : r.stepMs (1000 * ·) declared call first w < r.reachMs) {i : Nat}
    (hi : i < r.attemptsMade declared call w) {ms : Nat} {outcome : Outcome}
    (hends : r.courses call w i = .ends ms outcome) (inTime : ms < 1000 * r.timeoutSecs) :
    r.outcomes call w i = outcome := by
  have hheld := heldMs_waitMs ((heldMs_le_stepMs (1000 * ·) hi).trans_lt h)
  rw [hends, Course.heldMs, Course.heldMs, Nat.min_eq_left inTime.le] at hheld
  exact answer_of_inTime hends (min_eq_left_iff.1 hheld)

end Reach

/-! ## Cases -/

/-- A step that is run: what it has found, and the world in which it begins. -/
structure StepRun (ω : Type) where
  step : Step
  resolved : Resolved ω
  world : ω

namespace StepRun

variable (x : StepRun ω) (call : Call)

/-- How many attempts a step has here. -/
def attempts : Nat := x.resolved.attemptsMade x.step.assertions call x.world

/-- How long it takes, with seconds of this length. -/
def ms (length : Nat → Nat) (first : Bool) : Nat :=
  x.resolved.stepMs length x.step.assertions call first x.world

end StepRun

/-- The steps of a case that are run from a world on: up to the one that finds no executor, or with the
    one whose first attempt does not pass. -/
def stepsRun (ctx : Context ω) (call : Call) : List Step → ω → List (StepRun ω)
  | [], _ => []
  | step :: rest, w =>
    match ctx.find step with
    | .error _ => []
    | .ok r => ⟨step, r, w⟩ ::
      if (r.verdictOn step.assertions (r.answer call w).1).isOk then
        stepsRun ctx call rest (r.answer call w).2
      else []

section StepsRun

variable (ctx : Context ω) (call : Call)

/-- The clock is nothing to the steps that are run. -/
theorem stepsRun_delayingFirst (first : Bool) (steps : List Step) (w : ω) :
    stepsRun (ctx.delayingFirst first) call steps w = stepsRun ctx call steps w := by
  induction steps generalizing w with
  | nil => rfl
  | cons step rest ih => simp only [stepsRun, delayingFirst_find, ih]

/-- A step without an executor is not run, nor is any behind it. -/
theorem stepsRun_unresolved {step : Step} {e : ExecutorError} (h : ctx.find step = .error e)
    (rest : List Step) (w : ω) : stepsRun ctx call (step :: rest) w = [] := by
  rw [stepsRun, h]

section Found

variable {ctx call} {step : Step} {r : Resolved ω} (h : ctx.find step = .ok r) (rest : List Step)
  {w : ω}
include h

/-- Behind a step that leaves a record none is run. -/
theorem stepsRun_recorded
    (hrecord : ¬ (r.verdictOn step.assertions (r.answer call w).1).isOk = true) :
    stepsRun ctx call (step :: rest) w = [⟨step, r, w⟩] := by
  rw [stepsRun, h]
  exact congrArg _ (if_neg hrecord)

/-- Behind one that passes the next is run, with what it left. -/
theorem stepsRun_clean (hpass : (r.verdictOn step.assertions (r.answer call w).1).isOk = true) :
    stepsRun ctx call (step :: rest) w
      = ⟨step, r, w⟩ :: stepsRun ctx call rest (r.answer call w).2 := by
  rw [stepsRun, h]
  exact congrArg _ (if_pos hpass)

end Found

/-- Steps are run from the front, each with what it finds. -/
theorem stepsRun_prefix (steps : List Step) (w : ω) :
    (stepsRun ctx call steps w).map StepRun.step <+: steps
      ∧ ∀ x ∈ stepsRun ctx call steps w, ctx.find x.step = .ok x.resolved := by
  induction steps generalizing w with
  | nil => exact ⟨List.prefix_rfl, fun x hx => absurd hx List.not_mem_nil⟩
  | cons step rest ih =>
    cases hfind : ctx.find step with
    | error e =>
      rw [stepsRun_unresolved ctx call hfind]
      exact ⟨List.nil_prefix, fun x hx => absurd hx List.not_mem_nil⟩
    | ok r =>
      by_cases hpass : (r.verdictOn step.assertions (r.answer call w).1).isOk = true
      · obtain ⟨hfront, hfound⟩ := ih (r.answer call w).2
        rw [stepsRun_clean hfind rest hpass]
        exact ⟨(List.prefix_cons_inj step).2 hfront, List.forall_mem_cons.2 ⟨hfind, hfound⟩⟩
      · rw [stepsRun_recorded hfind rest hpass]
        exact ⟨⟨rest, rfl⟩, List.forall_mem_cons.2 ⟨hfind, fun x hx => absurd hx List.not_mem_nil⟩⟩

/-- What is invoked for the steps of a case is what is invoked for each step that is run, in its world. -/
theorem invocations_stepsTask (k : Nat) (steps : List Step) :
    ∀ (i : Nat) (c : Case) (w : ω), (stepsTask call k i steps c).invocations ctx w
      = ((stepsRun ctx call steps w).zipIdx i).flatMap fun x =>
          (stepTask ⟨k, x.2⟩ x.1.resolved x.1.step call).invocations ctx x.1.world := by
  induction steps with
  | nil => exact fun _ _ _ => rfl
  | cons step rest ih =>
    intro i c w
    cases hfind : ctx.find step with
    | error e =>
      rw [(stepsTask_unresolved ctx call k i rest c hfind w).2, stepsRun_unresolved ctx call hfind]
      rfl
    | ok r =>
      by_cases hpass : (r.verdictOn step.assertions (r.answer call w).1).isOk = true
      · -- the only invocation of the step is that of the attempt that passes
        rw [(stepsTask_clean ctx call k i rest c hfind ⟨w, 0⟩ hpass).2, ih,
          stepsRun_clean hfind rest hpass, List.zipIdx_cons, List.flatMap_cons,
          invocations_stepTask_of_passed ctx ⟨k, i⟩ r step call w hpass]
        rfl
      · have hrecord : ¬ (runStep ctx.settings r step call ⟨w, 0⟩).1.isOk = true := by
          rwa [runStep_isOk_iff_answer]
        rw [(stepsTask_recorded ctx call k i rest c hfind ⟨w, 0⟩ hrecord).2,
          stepsRun_recorded hfind rest hpass, List.zipIdx_singleton, List.flatMap_singleton]

/-- The steps of a case take the sum over those that are run. -/
theorem elapsedMs_runSteps (steps : List Step) : ∀ (c : Case) (b : Bench ω),
    (runSteps ctx call steps c b).2.elapsedMs = b.elapsedMs
      + ((stepsRun ctx call steps b.world).map
          (·.ms call waitMs ctx.settings.delayFirstRetry)).sum := by
  induction steps with
  | nil => exact fun _ _ => rfl
  | cons step rest ih =>
    intro c b
    cases hfind : ctx.find step with
    | error e =>
      rw [runSteps_unresolved ctx call rest c b hfind, stepsRun_unresolved ctx call hfind]
      rfl
    | ok r =>
      have hfirst := runStep_isOk_iff_answer ctx.settings r step call b
      -- a step that passes lets the others go on; one that does not is the last
      by_cases hpass : (r.verdictOn step.assertions (r.answer call b.world).1).isOk = true
      · have hworld := runStep_world_of_passed ctx.settings r step call b hpass
        rw [runSteps_clean ctx call rest c b hfind (hfirst.2 hpass), ih, elapsedMs_runStep, hworld,
          stepsRun_clean hfind rest hpass, List.map_cons, List.sum_cons, Nat.add_assoc]
        rfl
      · rw [runSteps_recorded ctx call rest c b hfind (mt hfirst.1 hpass), elapsedMs_runStep,
          stepsRun_recorded hfind rest hpass, List.map_singleton, List.sum_singleton]
        rfl

/-- No step that is run takes more than its budget, so together they stay within that of all steps. -/
theorem sum_ms_le (first : Bool) (steps : List Step) (w : ω) :
    ((stepsRun ctx call steps w).map (·.ms call waitMs first)).sum ≤ (steps.map ctx.budgetMs).sum := by
  obtain ⟨hfront, hfound⟩ := stepsRun_prefix ctx call steps w
  calc ((stepsRun ctx call steps w).map (·.ms call waitMs first)).sum
      ≤ ((stepsRun ctx call steps w).map fun x => ctx.budgetMs x.step).sum :=
        List.sum_le_sum fun x hx => stepMs_le_budgetMs (hfound x hx) first x.world
    _ = (((stepsRun ctx call steps w).map StepRun.step).map ctx.budgetMs).sum := by
        rw [List.map_map]
        rfl
    _ ≤ (steps.map ctx.budgetMs).sum :=
        (hfront.map ctx.budgetMs).sublist.sum_le_sum fun _ _ => Nat.zero_le _

/-- The clock reaches to where the steps end if everything takes what it asks for. -/
def InReach (elapsedMs : Nat) (first : Bool) (runs : List (StepRun ω)) : Prop :=
  ∀ x ∈ runs, elapsedMs + (runs.map (·.ms call (1000 * ·) first)).sum < x.resolved.reachMs

variable {call} {elapsedMs : Nat} {first : Bool} {runs : List (StepRun ω)}

/-- Every step of a case in reach is in reach by itself. -/
theorem InReach.step (h : InReach call elapsedMs first runs) {x : StepRun ω} (hx : x ∈ runs) :
    x.ms call (1000 * ·) first < x.resolved.reachMs := by
  have hpart := List.single_le_sum (fun _ _ => Nat.zero_le _) _
    (List.mem_map_of_mem (f := (StepRun.ms · call (1000 * ·) first)) hx)
  exact (hpart.trans (Nat.le_add_left _ _)).trans_lt (h x hx)

/-- Then everything does. -/
theorem InReach.sum_ms (h : InReach call elapsedMs first runs) :
    (runs.map (·.ms call waitMs first)).sum = (runs.map (·.ms call (1000 * ·) first)).sum :=
  congrArg List.sum (List.map_congr_left fun _ hx => stepMs_waitMs (h.step hx))

/-- Delaying first adds a delay to each step that has a second attempt. -/
theorem sum_ms_true (length : Nat → Nat) (runs : List (StepRun ω)) :
    (runs.map (·.ms call length true)).sum = (runs.map (·.ms call length false)).sum
      + (runs.map fun x => if 2 ≤ x.attempts call then length x.resolved.delaySecs else 0).sum := by
  rw [← List.sum_map_add]
  exact congrArg List.sum (List.map_congr_left fun x _ => stepMs_true length x.world)

/-- Without delays before first retries the steps end no later. -/
theorem InReach.of_true (h : InReach call elapsedMs true runs) : InReach call elapsedMs false runs := by
  intro x hx
  refine (Nat.add_le_add_left ?_ _).trans_lt (h x hx)
  rw [sum_ms_true]
  exact Nat.le_add_right _ _

end StepsRun

/-! ## Steps and cases together -/

/-- How a step passes the time from a bench on. -/
structure StepTimed (ctx : Context ω) (r : Resolved ω) (step : Step) (call : Call) (b : Bench ω)
    (n : Nat) : Prop where
  /-- There are `n` attempts, each in the world that the ones before have left. -/
  attempts : ∀ site, (stepTask site r step call).invocations ctx b.world
    = (List.range n).map fun i => r.invocation site call (r.worldBefore call b.world i)
  /-- An attempt whose call ends before the deadline is judged by how it ends. -/
  inTime : ∀ i < n, ∀ ms outcome, r.courses call b.world i = .ends ms outcome →
    ms < 1000 * r.timeoutSecs → r.outcomes call b.world i = outcome
  /-- An attempt whose call goes on after the deadline is judged a timeout. -/
  late : ∀ i < n, (1000 * r.timeoutSecs : ℕ∞) < (r.courses call b.world i).duration →
    r.outcomes call b.world i = .error (.timeout r.timeoutSecs)
  /-- The clock moves on by what the attempts take and by the delays among them. -/
  elapsed : ((runStep ctx.settings r step call b).2.elapsedMs : ℕ∞) = b.elapsedMs
    + (∑ i ∈ Finset.range n, min (r.courses call b.world i).duration (1000 * r.timeoutSecs)
      + 1000 * r.delaySecs * delaysAmong ctx.settings.delayFirstRetry n)

/-- How a case passes the time from a bench on, in which these steps are run. -/
structure CaseTimed (ctx : Context ω) (suite workdir : String) (c : Case) (call : Call) (b : Bench ω)
    (runs : List (StepRun ω)) : Prop where
  /-- What the case invokes are the attempts of these steps. -/
  attempts : ∀ k, (caseTask ctx.aliases suite workdir k c).invocations ctx b.world
    = runs.zipIdx.flatMap fun x =>
        (stepTask ⟨k, x.2⟩ x.1.resolved x.1.step call).invocations ctx x.1.world
  /-- Each of them passes the time as steps do. -/
  steps : ∀ x ∈ runs, StepTimed ctx x.resolved x.step call ⟨x.world, 0⟩ (x.attempts call)
  /-- The clock moves on by what they take. -/
  elapsed : (runCase ctx suite workdir c b).2.elapsedMs = b.elapsedMs
    + (runs.map fun x => (runStep ctx.settings x.resolved x.step call ⟨x.world, 0⟩).2.elapsedMs).sum

/-- A step within reach passes the time so. -/
theorem stepTimed (ctx : Context ω) (r : Resolved ω) (step : Step) (call : Call) (b : Bench ω)
    (h : r.stepMs (1000 * ·) step.assertions call ctx.settings.delayFirstRetry b.world < r.reachMs) :
    StepTimed ctx r step call b (r.attemptsMade step.assertions call b.world) where
  attempts site := by
    rw [stepTask, Task.invocations_map]
    exact (attemptsTask_goes ctx site r step.assertions call r.retry StepOutcome.start b.world).2
  inTime _ hi _ _ hends inTime := outcomes_of_inTime h hi hends inTime
  late _ _ late := by
    -- the signal never comes later than asked, so this needs no reach
    refine answer_of_late (lt_of_le_of_lt ?_ late)
    exact_mod_cast waitMs_le r.timeoutSecs
  elapsed := by
    rw [elapsedMs_runStep, Nat.cast_add, stepMs_waitMs h, coe_stepMs]
    push_cast
    rfl

/-- And so does a case. -/
theorem caseTimed (ctx : Context ω) (suite workdir : String) (c : Case) (b : Bench ω) :
    let call : Call := { aliases := ctx.aliases, suite, case := c.name, workdir }
    let runs := stepsRun ctx call c.steps b.world
    InReach call b.elapsedMs ctx.settings.delayFirstRetry runs →
      CaseTimed ctx suite workdir c call b runs := by
  intro call runs hreach
  refine ⟨fun k => invocations_stepsTask ctx call k c.steps 0 c b.world,
    fun x hx => stepTimed ctx x.resolved x.step call ⟨x.world, 0⟩ (hreach.step hx), ?_⟩
  rw [runCase, elapsedMs_runSteps]
  simp only [elapsedMs_runStep, Nat.zero_add]
  rfl

/-- No case takes more than the budget of its steps. -/
theorem elapsedMs_runCase_le (ctx : Context ω) (suite workdir : String) (c : Case) (b : Bench ω) :
    (runCase ctx suite workdir c b).2.elapsedMs ≤ b.elapsedMs + (c.steps.map ctx.budgetMs).sum := by
  rw [runCase, elapsedMs_runSteps]
  exact Nat.add_le_add_left (sum_ms_le ctx _ _ c.steps b.world) _

/-- Delaying first costs one delay for each step that has a second attempt. -/
theorem elapsedMs_runCase_delayingFirst (ctx : Context ω) (suite workdir : String) (c : Case)
    (b : Bench ω) :
    let call : Call := { aliases := ctx.aliases, suite, case := c.name, workdir }
    let runs := stepsRun ctx call c.steps b.world
    InReach call b.elapsedMs true runs →
      (runCase (ctx.delayingFirst true) suite workdir c b).2.elapsedMs
        = (runCase (ctx.delayingFirst false) suite workdir c b).2.elapsedMs
          + (runs.map fun x => if 2 ≤ x.attempts call then 1000 * x.resolved.delaySecs else 0).sum := by
  intro call runs hreach
  -- with either setting the case takes the exact sum, for if the longer one is in reach, both are
  have htakes (first : Bool) (h : InReach call b.elapsedMs first runs) :
      (runCase (ctx.delayingFirst first) suite workdir c b).2.elapsedMs
        = b.elapsedMs + (runs.map (·.ms call (1000 * ·) first)).sum := by
    rw [← h.sum_ms, runCase, elapsedMs_runSteps, stepsRun_delayingFirst]
    rfl
  rw [htakes true hreach, htakes false hreach.of_true, sum_ms_true, Nat.add_assoc]

/-- **Time adds up.**  A step takes the sum over its attempts of the duration of the call or the deadline,
    whichever is less, and as many delays as there are attempts after the first, or after the second
    where the first retry is not delayed.  An attempt is judged a timeout iff its call goes on after the
    deadline.  A case takes what the steps take that are run, and delaying first retries costs one delay
    for each step that has one.  This is so as far as the clock reaches: where these sums come to more
    than its limits, waits are cut.  But whatever the executors do and however long the waits are that
    are asked for, no case takes more than the budget of its steps. -/
theorem time_adds_up (ctx : Context ω) :
    (∀ (r : Resolved ω) (step : Step) (call : Call) (b : Bench ω),
        b.elapsedMs + r.stepMs (1000 * ·) step.assertions call ctx.settings.delayFirstRetry b.world
          < r.reachMs →
        StepTimed ctx r step call b (r.attemptsMade step.assertions call b.world))
      ∧ ∀ (suite workdir : String) (c : Case) (b : Bench ω),
          let call : Call := { aliases := ctx.aliases, suite, case := c.name, workdir }
          let runs := stepsRun ctx call c.steps b.world
          (InReach call b.elapsedMs ctx.settings.delayFirstRetry runs →
              CaseTimed ctx suite workdir c call b runs)
            ∧ (InReach call b.elapsedMs true runs →
                (runCase (ctx.delayingFirst true) suite workdir c b).2.elapsedMs
                  = (runCase (ctx.delayingFirst false) suite workdir c b).2.elapsedMs
                    + (runs.map fun x =>
                        if 2 ≤ x.attempts call then 1000 * x.resolved.delaySecs else 0).sum)
            ∧ (runCase ctx suite workdir c b).2.elapsedMs
                ≤ b.elapsedMs + (c.steps.map ctx.budgetMs).sum :=
  ⟨fun r step call b hreach => stepTimed ctx r step call b ((Nat.le_add_left _ _).trans_lt hreach),
    fun suite workdir c b => ⟨caseTimed ctx suite workdir c b,
      elapsedMs_runCase_delayingFirst ctx suite workdir c b,
      elapsedMs_runCase_le ctx suite workdir c b⟩⟩

/-- Three attempts: one that hangs under a deadline of a second, one that fails and one that passes.  The
    delay of two seconds comes before the last one, or before both retries. -/
theorem time_adds_up_recovery :
    let script : Script := ⟨[⟨0, .hang⟩, ⟨300, .fail "not yet"⟩, ⟨200, .give .null⟩], none⟩
    let registry := Registry.empty.register "probe" fun _ => .ok (script.executor "probe")
    let ctx : Context Stage := ⟨Aliases.empty, registry, Settings.standard⟩
    let step : Step := ⟨[(.text "type", .text "probe"), (.text "retry", .number (.int 2)),
      (.text "delay", .number (.int 2)), (.text "timeout", .number (.int 1))]⟩
    let c := Case.fresh "case" [step, step] false
    let r : Resolved Stage := ⟨script.executor "probe", 2, 2, 1⟩
    let call : Call := { aliases := Aliases.empty, suite := "suite", case := "case", workdir := "." }
    let runs := stepsRun ctx call c.steps Stage.empty
    let ms (first : Bool) :=
      (runCase (ctx.delayingFirst first) "suite" "." c ⟨Stage.empty, 0⟩).2.elapsedMs
    r.stepMs (1000 * ·) [] call false Stage.empty < r.reachMs
      ∧ r.outcomes call Stage.empty 0 = .error (.timeout 1)
      ∧ InReach call 0 true runs ∧ ms false = 1000 + 300 + 2000 + 200
      ∧ ms true = ms false + 2000 ∧ ms true ≤ 2 * 7000 := by
  intro script registry ctx step c r call runs ms
  have hreach : r.stepMs (1000 * ·) [] call false Stage.empty < r.reachMs := by decide +kernel
  have hreachAll : InReach call 0 true runs := by
    intro x hx
    revert x
    decide +kernel
  obtain ⟨hstep, hcase⟩ := time_adds_up ctx
  obtain ⟨htimed, hdelayed, -⟩ := hcase "suite" "." c ⟨Stage.empty, 0⟩
  obtain ⟨-, hcaseDelayed⟩ := time_adds_up (ctx.delayingFirst true)
  obtain ⟨-, -, hbounded⟩ := hcaseDelayed "suite" "." c ⟨Stage.empty, 0⟩
  refine ⟨hreach, ?_, hreachAll, ?_, ?_, ?_⟩
  · have hattempts := hstep r step call ⟨Stage.empty, 0⟩ ((Nat.zero_add _).trans_lt hreach)
    exact hattempts.late 0 (by decide +kernel) (ENat.natCast_lt_top 1000)
  · refine (htimed hreachAll.of_true).elapsed.trans ?_
    decide +kernel
  · refine (hdelayed hreachAll).trans (congrArg (ms false + ·) ?_)
    decide +kernel
  · refine hbounded.trans ?_
    decide +kernel

/-- A delay that the clock cannot show is cut, so three attempts that take no time at all do not take as
    long as the delay between the last two of them. -/
theorem long_delay_cut :
    let script : Script := ⟨[⟨0, .fail "no"⟩], none⟩
    let registry := Registry.empty.register "probe" fun _ => .ok (script.executor "probe")
    let ctx : Context Stage := ⟨Aliases.empty, registry, Settings.standard⟩
    let step : Step := ⟨[(.text "type", .text "probe"), (.text "retry", .number (.int 2)),
      (.text "delay", .number (.int 9223372036854775808))]⟩
    let r : Resolved Stage := ⟨script.executor "probe", 2, 9223372036854775808, 60⟩
    let call : Call := { aliases := Aliases.empty, suite := "suite", case := "case", workdir := "." }
    let run := runStep ctx.settings r step call ⟨Stage.empty, 0⟩
    ctx.find step = .ok r ∧ run.1.attempts = 3
      ∧ (∀ i < 3, r.attemptMs call Stage.empty i = 0)
      ∧ run.2.elapsedMs = 946080000000
      ∧ run.2.elapsedMs
        ≠ 3 * min 0 (1000 * 60) + 1000 * 9223372036854775808 * delaysAmong false 3 := by
  intro script registry ctx step r call run
  exact ⟨rfl, by decide +kernel, by decide +kernel, by decide +kernel, by decide +kernel⟩

end TestBench
