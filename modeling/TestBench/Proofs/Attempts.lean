import Mathlib
import TestBench.Run.Step
/-
  The attempts of a step.

  1. `attemptsFrom_zero`, `attemptsFrom_passed` and `attemptsFrom_failed` are the three ways in which
     an attempt goes on: it was the last one, it passed, or the next one follows.
  2. Records are only ever added, so what one attempt leaves is still there at the end
     (`attemptsFrom_keeps`).
  3. Hence a step leaves no record iff its first attempt passes, and then that attempt was the only
     one (`runStep_isOk_iff`, `runStep_of_passed`).  A later attempt that passes saves nothing.
  4. A step passes by its last attempt, which has a result that the assertions leave nothing on
     (`runStep_last`).
-/
namespace TestBench

variable {ω : Type}

/-! ## Verdicts -/

namespace Verdict

@[simp] theorem append_clean (v : Verdict) : v ++ clean = v := by
  show append v clean = v
  simp only [append, clean, List.append_nil]

theorem isOk_iff {v : Verdict} : v.isOk = true ↔ v = clean := by
  obtain ⟨errors, failures⟩ := v
  rw [isOk, Bool.and_eq_true, List.isEmpty_iff, List.isEmpty_iff]
  constructor
  · rintro ⟨rfl, rfl⟩
    rfl
  · intro h
    injection h with herrors hfailures
    exact ⟨herrors, hfailures⟩

/-- Two verdicts together are clean iff each of them is. -/
theorem isOk_append (v w : Verdict) : (v ++ w).isOk = (v.isOk && w.isOk) := by
  rw [Bool.eq_iff_iff, Bool.and_eq_true, isOk, isOk, isOk]
  simp only [append_errors, append_failures, Bool.and_eq_true, List.isEmpty_iff,
    List.append_eq_nil_iff]
  tauto

end Verdict

namespace StepOutcome

@[simp] theorem add_verdict (o : StepOutcome) (v : Verdict) :
    (o.add v).verdict = o.verdict ++ v := rfl

@[simp] theorem conclude_passed (o : StepOutcome) : o.conclude.passed = o.passed := by
  rw [conclude]
  split <;> rfl

/-- The note only comes on top of the records that are there. -/
theorem conclude_verdict (o : StepOutcome) : ∃ v, o.conclude.verdict = o.verdict ++ v := by
  rw [conclude]
  split
  · exact ⟨_, rfl⟩
  · exact ⟨Verdict.clean, (Verdict.append_clean _).symm⟩

end StepOutcome

/-! ## The three ways in which an attempt goes on -/

section Attempts

variable (settings : Settings) (r : Resolved ω) (declared : List String) (call : Call)

/-- One attempt and the wait before it. -/
def attemptAt (settings : Settings) (r : Resolved ω) (call : Call) (attempt : Nat) (b : Bench ω) :
    Outcome × Bench ω :=
  invoke r call (b.wait (waitBefore settings r.delaySecs attempt))

/-- Nothing is waited for before the first attempt. -/
theorem attemptAt_zero (b : Bench ω) : attemptAt settings r call 0 b = invoke r call b := rfl

/-- What an attempt with the given outcome leaves. -/
abbrev Resolved.verdictOn (r : Resolved ω) (declared : List String) (outcome : Outcome) : Verdict :=
  assess declared r.executor.defaults outcome

/-- The last attempt ends the step, whether it passes or not. -/
theorem attemptsFrom_zero (attempt : Nat) (o : StepOutcome) (b : Bench ω) :
    attemptsFrom settings r declared call 0 attempt o b
      = (o.add (r.verdictOn declared (attemptAt settings r call attempt b).1),
          (attemptAt settings r call attempt b).2) := by
  rw [attemptsFrom]
  exact ite_self _

/-- An attempt that passes ends the step, however many are left. -/
theorem attemptsFrom_passed (left attempt : Nat) (o : StepOutcome) (b : Bench ω)
    (h : (r.verdictOn declared (attemptAt settings r call attempt b).1).isOk = true) :
    attemptsFrom settings r declared call left attempt o b
      = (o.add (r.verdictOn declared (attemptAt settings r call attempt b).1),
          (attemptAt settings r call attempt b).2) := by
  rw [attemptsFrom]
  exact if_pos h

/-- One that does not pass is followed by the next one, behind what it has left. -/
theorem attemptsFrom_failed (left attempt : Nat) (o : StepOutcome) (b : Bench ω)
    (h : ¬ (r.verdictOn declared (attemptAt settings r call attempt b).1).isOk = true) :
    attemptsFrom settings r declared call (left + 1) attempt o b
      = attemptsFrom settings r declared call left (attempt + 1)
          (o.add (r.verdictOn declared (attemptAt settings r call attempt b).1))
          (attemptAt settings r call attempt b).2 := by
  rw [attemptsFrom]
  exact if_neg h

/-! ## Records stay -/

/-- Further attempts add to the records that are there. -/
theorem attemptsFrom_keeps (left : Nat) : ∀ (attempt : Nat) (o : StepOutcome) (b : Bench ω),
    ∃ v, (attemptsFrom settings r declared call left attempt o b).1.verdict = o.verdict ++ v := by
  induction left with
  | zero =>
    intro attempt o b
    rw [attemptsFrom_zero]
    exact ⟨_, rfl⟩
  | succ left ih =>
    intro attempt o b
    by_cases h : (r.verdictOn declared (attemptAt settings r call attempt b).1).isOk = true
    · rw [attemptsFrom_passed _ _ _ _ _ _ _ _ h]
      exact ⟨_, rfl⟩
    · rw [attemptsFrom_failed _ _ _ _ _ _ _ _ h]
      -- what this attempt leaves is the first part of what is added
      obtain ⟨v, hv⟩ := ih (attempt + 1)
        (o.add (r.verdictOn declared (attemptAt settings r call attempt b).1))
        (attemptAt settings r call attempt b).2
      rw [hv, StepOutcome.add_verdict, Verdict.append_assoc]
      exact ⟨_, rfl⟩

/-! ## The last attempt decides whether a step passes -/

/-- Attempts that pass end with one whose outcome leaves nothing. -/
theorem attemptsFrom_last (left : Nat) : ∀ (attempt : Nat) (o : StepOutcome) (b : Bench ω),
    (attemptsFrom settings r declared call left attempt o b).1.passed = true →
      ∃ b₁ outcome, invoke r call b₁
          = (outcome, (attemptsFrom settings r declared call left attempt o b).2)
        ∧ (r.verdictOn declared outcome).isOk = true := by
  induction left with
  | zero =>
    intro attempt o b h
    rw [attemptsFrom_zero] at h ⊢
    exact ⟨_, _, rfl, h⟩
  | succ left ih =>
    intro attempt o b h
    by_cases hpass : (r.verdictOn declared (attemptAt settings r call attempt b).1).isOk = true
    · rw [attemptsFrom_passed _ _ _ _ _ _ _ _ hpass] at h ⊢
      exact ⟨_, _, rfl, h⟩
    · rw [attemptsFrom_failed _ _ _ _ _ _ _ _ hpass] at h ⊢
      exact ih _ _ _ h

end Attempts

/-! ## The first attempt decides whether a step is clean -/

section Step

variable (settings : Settings) (r : Resolved ω) (step : Step) (call : Call) (b : Bench ω)

/-- A step whose first attempt passes makes no other. -/
theorem runStep_of_passed
    (h : (r.verdictOn step.assertions (invoke r call b).1).isOk = true) :
    runStep settings r step call b = (⟨Verdict.clean, 1, true⟩, (invoke r call b).2) := by
  have hadd : StepOutcome.start.add (r.verdictOn step.assertions (invoke r call b).1)
      = ⟨Verdict.clean, 1, true⟩ := by
    rw [Verdict.isOk_iff.1 h]
    rfl
  rw [runStep, attemptsFrom_passed _ _ _ _ _ 0 _ b h, attemptAt_zero, hadd]
  rfl

/-- A step whose first attempt leaves a record keeps that record, whether or not it passes later. -/
theorem runStep_keeps_first :
    ∃ v, (runStep settings r step call b).1.verdict
      = r.verdictOn step.assertions (invoke r call b).1 ++ v := by
  obtain ⟨note, hnote⟩ := StepOutcome.conclude_verdict
    (attemptsFrom settings r step.assertions call r.retry 0 StepOutcome.start b).1
  have hfirst : ∃ v, (attemptsFrom settings r step.assertions call r.retry 0
      StepOutcome.start b).1.verdict = r.verdictOn step.assertions (invoke r call b).1 ++ v := by
    by_cases h : (r.verdictOn step.assertions (invoke r call b).1).isOk = true
    · rw [attemptsFrom_passed _ _ _ _ _ 0 _ b h]
      exact ⟨Verdict.clean, (Verdict.append_clean _).symm⟩
    · -- the first attempt is the last one too, or others add to it
      cases r.retry with
      | zero =>
        rw [attemptsFrom_zero]
        exact ⟨Verdict.clean, (Verdict.append_clean _).symm⟩
      | succ left =>
        rw [attemptsFrom_failed _ _ _ _ _ 0 _ b h]
        exact attemptsFrom_keeps settings r step.assertions call left 1 _ _
  obtain ⟨v, hv⟩ := hfirst
  refine ⟨v ++ note, ?_⟩
  rw [← Verdict.append_assoc, ← hv]
  exact hnote

/-- **A step is clean iff its first attempt passes.** -/
theorem runStep_isOk_iff :
    (runStep settings r step call b).1.isOk = true
      ↔ (r.verdictOn step.assertions (invoke r call b).1).isOk = true := by
  constructor
  · intro h
    obtain ⟨v, hv⟩ := runStep_keeps_first settings r step call b
    rw [StepOutcome.isOk, hv, Verdict.isOk_append, Bool.and_eq_true] at h
    exact h.1
  · intro h
    rw [runStep_of_passed settings r step call b h]
    rfl

/-- A step that passes ends with a result that its assertions leave nothing on. -/
theorem runStep_last (h : (runStep settings r step call b).1.passed = true) :
    ∃ b₁ observed, invoke r call b₁ = (.ok observed, (runStep settings r step call b).2)
      ∧ (evaluate observed step.assertions r.executor.defaults).isOk = true := by
  rw [runStep, StepOutcome.conclude_passed] at h
  obtain ⟨b₁, outcome, hinvoke, hclean⟩ :=
    attemptsFrom_last settings r step.assertions call r.retry 0 StepOutcome.start b h
  cases outcome with
  | error e => cases hclean
  | ok observed => exact ⟨b₁, observed, hinvoke, hclean⟩

end Step
end TestBench
