import Mathlib
import TestBench.Proofs.Attempts
/-
  What becomes of the items that a step lists as its assertions.

  A document lists any values; the checker reads texts.  Between the two, values that are no texts are
  dropped without a word.

  1. `Yaml.listed` are the items of a declaration as its document has them, and `Yaml.Legible` says
     that the step hands all of them on: a text, or a sequence of texts, with no tag around it.
  2. An item is accounted for if it is judged, or if an error is left that no judged expression left
     (`Step.Accounted`).  Errors come from judged expressions only, so the second never happens, and
     all items are accounted for iff the declaration is legible.
  3. A legible declaration with items is all that a step is judged by, and the step passes only if
     all items hold.  Any other one is judged by the texts that are left of it, and by the defaults of
     the executor if none is.
-/
namespace TestBench

/-! ## Judging a list of expressions -/

/-- Nothing is left by an expression iff it holds. -/
theorem Judgement.verdict_isOk_iff {j : Judgement} : j.verdict.isOk = true ↔ j = .satisfied := by
  cases j with
  | satisfied => exact iff_of_true rfl rfl
  | invalid e => exact iff_of_false Bool.false_ne_true Judgement.noConfusion
  | violated expression path m => exact iff_of_false Bool.false_ne_true Judgement.noConfusion

section Judging

variable {observed : Observed} {expressions : List String}

/-- Nothing is left iff all expressions hold. -/
theorem judgeAll_isOk_iff : (judgeAll observed expressions).isOk = true
    ↔ ∀ e ∈ expressions, judge observed e = .satisfied := by
  induction expressions with
  | nil => exact iff_of_true rfl fun _ h => absurd h List.not_mem_nil
  | cons e rest ih =>
    rw [judgeAll, Verdict.isOk_append, Bool.and_eq_true, ih, Judgement.verdict_isOk_iff,
      List.forall_mem_cons]

/-- Every error is left by one of the expressions. -/
theorem mem_errors_judgeAll {error : String} : error ∈ (judgeAll observed expressions).errors
    ↔ ∃ e ∈ expressions, error ∈ (judge observed e).verdict.errors := by
  induction expressions with
  | nil => exact iff_of_false List.not_mem_nil fun ⟨_, h, _⟩ => List.not_mem_nil h
  | cons e rest ih =>
    rw [judgeAll, Verdict.append_errors, List.mem_append, ih, List.exists_mem_cons_iff]

end Judging

/-- Declared expressions count, and the defaults only if there are none. -/
theorem effective_eq (declared : List String) (defaults : Option (List String)) :
    effective declared defaults = if declared = [] then defaults.getD [] else declared := by
  cases defaults with
  | none =>
    split
    · assumption
    · rfl
  | some ds => simp only [effective, List.isEmpty_iff, Option.getD_some]

/-! ## What a declaration lists -/

namespace Yaml

/-- The items of a declaration: those of a sequence, or the value itself unless it is null. -/
def listed (v : Yaml) : List Yaml :=
  match v.untagged with
  | .null => []
  | .sequence items => items
  | v => [v]

/-- Whether a step hands on all items that a declaration lists. -/
def Legible : Yaml → Prop
  | .null | .text _ => True
  | .sequence items => ∀ item ∈ items, ∃ e, item.untagged = .text e
  | .tagged _ v => v.listed = []
  | _ => False

/-- A text that is handed on stands in the list. -/
theorem listed_of_mem_assertionsIn {v : Yaml} {e : String} (h : e ∈ Step.assertionsIn v) :
    ∃ item ∈ v.listed, item.untagged = .text e := by
  cases v with
  | sequence items =>
    obtain ⟨item, hitem, htext⟩ := List.mem_filterMap.1 h
    refine ⟨item, hitem, ?_⟩
    cases huntagged : item.untagged with
    -- a text by itself is a list of one
    | text s =>
      rw [huntagged] at htext
      injection htext with htext
      rw [htext]
    | _ =>
      rw [huntagged] at htext
      cases htext
  | text s =>
    rw [List.mem_singleton.1 h]
    exact ⟨.text s, List.mem_singleton_self _, rfl⟩
  | _ => cases h

/-- If nothing is handed on, nothing must be listed. -/
theorem handed_on_nil_iff {items : List Yaml} :
    (∀ item ∈ items, ∃ e ∈ ([] : List String), item.untagged = .text e) ↔ items = [] := by
  rw [List.eq_nil_iff_forall_not_mem]
  refine forall_congr' fun item => ?_
  constructor
  · intro h hitem
    obtain ⟨_, he, _⟩ := h hitem
    exact List.not_mem_nil he
  · exact fun h hitem => absurd hitem h

/-- All items are handed on iff the declaration is legible. -/
theorem legible_iff {v : Yaml} :
    v.Legible ↔ ∀ item ∈ v.listed, ∃ e ∈ Step.assertionsIn v, item.untagged = .text e := by
  cases v with
  | sequence items =>
    refine forall₂_congr fun item hitem => ?_
    constructor
    · rintro ⟨e, htext⟩
      refine ⟨e, List.mem_filterMap.2 ⟨item, hitem, ?_⟩, htext⟩
      rw [htext]
      rfl
    · rintro ⟨e, _, htext⟩
      exact ⟨e, htext⟩
  | text s =>
    refine iff_of_true trivial ?_
    intro item hitem
    rw [List.mem_singleton.1 hitem]
    exact ⟨s, List.mem_singleton_self s, rfl⟩
  -- nothing is handed on of the others
  | null => exact iff_of_true trivial (handed_on_nil_iff.2 rfl)
  | tagged tag v => exact handed_on_nil_iff.symm
  | bool b => exact iff_of_false id fun h => List.cons_ne_nil _ _ (handed_on_nil_iff.1 h)
  | number n => exact iff_of_false id fun h => List.cons_ne_nil _ _ (handed_on_nil_iff.1 h)
  | mapping entries => exact iff_of_false id fun h => List.cons_ne_nil _ _ (handed_on_nil_iff.1 h)

/-- A legible declaration is handed on as it is, in order. -/
theorem Legible.map_text {v : Yaml} (h : v.Legible) :
    (Step.assertionsIn v).map Yaml.text = v.listed.map untagged := by
  cases v with
  | sequence items =>
    induction items with
    | nil => rfl
    | cons item rest ih =>
      obtain ⟨e, htext⟩ := h item List.mem_cons_self
      have hrest := ih fun item hitem => h item (List.mem_cons_of_mem _ hitem)
      show ((item :: rest).filterMap (·.untagged.text?)).map Yaml.text
        = item.untagged :: rest.map untagged
      -- no item is dropped, since each of them is a text below its tags
      rw [List.filterMap_cons, htext]
      exact congrArg _ hrest
  | null => rfl
  | text s => rfl
  | tagged tag v =>
    show [] = v.listed.map untagged
    rw [show v.listed = [] from h, List.map_nil]
  | bool b => exact h.elim
  | number n => exact h.elim
  | mapping entries => exact h.elim

end Yaml

/-! ## What a step is judged by -/

namespace Step

/-- An item is accounted for: it is judged as a declared expression, or there is an error that no
    judged expression left. -/
def Accounted (step : Step) (defaults : Option (List String)) (observed : Observed) (item : Yaml) :
    Prop :=
  (∃ e ∈ step.assertions, item.untagged = .text e ∧ e ∈ effective step.assertions defaults)
    ∨ ∃ error ∈ (evaluate observed step.assertions defaults).errors,
        ∀ e ∈ effective step.assertions defaults, error ∉ (judge observed e).verdict.errors

variable {step : Step} {defaults : Option (List String)} {observed : Observed}

/-- Errors come from judged expressions, so an item is accounted for only if it is judged. -/
theorem accounted_iff {item : Yaml} : step.Accounted defaults observed item
    ↔ ∃ e ∈ step.assertions, item.untagged = .text e := by
  constructor
  · rintro (⟨e, he, htext, _⟩ | ⟨error, herror, hnone⟩)
    · exact ⟨e, he, htext⟩
    · obtain ⟨e, he, hleft⟩ := mem_errors_judgeAll.1 herror
      exact absurd hleft (hnone e he)
  · rintro ⟨e, he, htext⟩
    refine .inl ⟨e, he, htext, ?_⟩
    rw [effective_eq, if_neg (List.ne_nil_of_mem he)]
    exact he

variable {v : Yaml}

/-- What a step hands on are the texts in its declaration. -/
theorem assertions_eq (h : step.get? "assertions" = some v) :
    step.assertions = assertionsIn v := by
  rw [assertions, h]
  rfl

/-- A legible declaration with items leaves no room for defaults. -/
theorem effective_of_legible (h : step.get? "assertions" = some v) (legible : v.Legible)
    (items : v.listed ≠ []) : effective step.assertions defaults = step.assertions := by
  rw [effective_eq, if_neg]
  intro hnil
  have hmap := legible.map_text
  rw [← assertions_eq h, hnil, List.map_nil] at hmap
  exact items (List.map_eq_nil_iff.1 hmap.symm)

/-- A legible declaration leaves nothing iff all of its items hold. -/
theorem isOk_iff_of_legible (h : step.get? "assertions" = some v) (legible : v.Legible)
    (items : v.listed ≠ []) : (evaluate observed step.assertions defaults).isOk = true
      ↔ ∀ item ∈ v.listed, ∃ e, item.untagged = .text e ∧ judge observed e = .satisfied := by
  rw [evaluate, effective_of_legible h legible items, judgeAll_isOk_iff, assertions_eq h]
  constructor
  · -- the texts that are judged are exactly the items, so it may be asked of either
    intro hall item hitem
    obtain ⟨e, he, htext⟩ := Yaml.legible_iff.1 legible item hitem
    exact ⟨e, htext, hall e he⟩
  · intro hall e he
    obtain ⟨item, hitem, htext⟩ := Yaml.listed_of_mem_assertionsIn he
    obtain ⟨e', htext', hsatisfied⟩ := hall item hitem
    rw [htext] at htext'
    injection htext' with heq
    exact heq ▸ hsatisfied

/-- **All items are accounted for iff the declaration is legible.**  Then its items, if it has any, are
    all that counts, and the step passes only with a result on which each of them holds.  In any case
    the step is judged by the texts that it hands on, and by the defaults if there are none: an item
    that is no text can neither fail the step nor keep the defaults away. -/
theorem accounted_iff_legible {ω : Type} (settings : Settings) (r : Resolved ω) (call : Call)
    (b : Bench ω) (h : step.get? "assertions" = some v) :
    (∀ observed, (∀ item ∈ v.listed, step.Accounted r.executor.defaults observed item) ↔ v.Legible)
      ∧ (v.Legible → v.listed ≠ [] →
          effective step.assertions r.executor.defaults = step.assertions
            ∧ step.assertions.map Yaml.text = v.listed.map Yaml.untagged
            ∧ ((runStep settings r step call b).1.passed = true →
                ∃ b₁ observed, invoke r call b₁ = (.ok observed, (runStep settings r step call b).2)
                  ∧ ∀ item ∈ v.listed,
                      ∃ e, item.untagged = .text e ∧ judge observed e = .satisfied))
      ∧ ∀ observed, ((r.verdictOn step.assertions (.ok observed)).isOk = true
          ↔ ∀ e ∈ (if assertionsIn v = [] then r.executor.defaults.getD [] else assertionsIn v),
              judge observed e = .satisfied) := by
  refine ⟨fun observed => ?_, fun legible items => ⟨effective_of_legible h legible items, ?_, ?_⟩,
    fun observed => ?_⟩
  · rw [Yaml.legible_iff, ← assertions_eq h]
    exact forall₂_congr fun _ _ => accounted_iff
  · rw [assertions_eq h]
    exact legible.map_text
  · -- a step that passes ends with an attempt that left nothing, and that was judged by the items
    intro hpassed
    obtain ⟨b₁, observed, hinvoke, hclean⟩ := runStep_last settings r step call b hpassed
    exact ⟨b₁, observed, hinvoke, (isOk_iff_of_legible h legible items).1 hclean⟩
  · rw [← effective_eq, ← assertions_eq h]
    exact judgeAll_isOk_iff

/-- Two steps with one executor.  The text of the first one is all that it is judged by.  The item of
    the second one has a colon in it, so it is read as a mapping: the step passes by the defaults, and
    the item is not accounted for. -/
theorem accounted_iff_legible_colon :
    let observed := Observed.empty.insert "result.body" (.text "x")
    let executor : Executor Unit :=
      { defaults := some ["result.body ShouldExist"], start := fun _ w => (.ends 0 (.ok observed), w) }
    let r : Resolved Unit := { executor, retry := 0, delaySecs := 0, timeoutSecs := 1 }
    let call : Call := { aliases := ⟨[]⟩, suite := "s", case := "c", workdir := "." }
    let plain := Yaml.sequence [.text "result.body ShouldEqual x"]
    let colon := Yaml.sequence [.mapping [(.text "result.body ShouldEqual a", .text "b")]]
    (∀ item ∈ plain.listed, ∃ e, item.untagged = .text e ∧ ∃ b₁ observed₁,
        (invoke r call b₁).1 = .ok observed₁ ∧ judge observed₁ e = .satisfied)
      ∧ (runStep Settings.standard r ⟨[(.text "assertions", colon)]⟩ call ⟨(), 0⟩).1
          = ⟨Verdict.clean, 1, true⟩
      ∧ ¬ ∀ item ∈ colon.listed,
          (Step.mk [(.text "assertions", colon)]).Accounted executor.defaults observed item := by
  intro observed executor r call plain colon
  refine ⟨?_, by decide +kernel, ?_⟩
  · have declared : (Step.mk [(.text "assertions", plain)]).get? "assertions" = some plain := rfl
    have legible : plain.Legible := by
      intro item hitem
      rw [List.mem_singleton.1 hitem]
      exact ⟨_, rfl⟩
    obtain ⟨_, _, hlast⟩ := (accounted_iff_legible Settings.standard r call ⟨(), 0⟩ declared).2.1
      legible (List.cons_ne_nil _ _)
    obtain ⟨b₁, observed₁, hinvoke, hall⟩ := hlast (by decide +kernel)
    intro item hitem
    obtain ⟨e, htext, hsatisfied⟩ := hall item hitem
    exact ⟨e, htext, b₁, observed₁, congrArg Prod.fst hinvoke, hsatisfied⟩
  · intro hall
    have legible : colon.Legible :=
      ((accounted_iff_legible Settings.standard r call ⟨(), 0⟩ rfl).1 observed).1 hall
    obtain ⟨e, he⟩ := legible _ (List.mem_singleton_self _)
    cases he

end Step
end TestBench
