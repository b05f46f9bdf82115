import Mathlib
import TestBench.Proofs.DeclaredAssertions
import TestBench.Proofs.TextPieces
/-
  How a list of assertions is judged.

  1. `Predicate.Holds` says of each predicate when it holds of what stands under a path, without a word
     of the checker: texts that agree, parts of texts, numbers in order, values with nothing in them.
     Where nothing stands under the path, one predicate holds and no other.
  2. The checker passes a predicate iff it holds (`check_ok_iff_holds`).  Order and equality of numbers
     come down to their ranks, a substring to a split of the text.
  3. So each expression of a list contributes one of three things (`Contribution`): nothing, one error or
     one failure.  The verdict on the list is put together from the contributions in order.
-/
namespace TestBench

open TestBench.Text TestBench.Decimal

/-! ## When a predicate holds -/

/-- A text writes a number, which has a place in the order of the numbers. -/
def WritesRank (s : String) (rank : Int) : Prop := ∃ x, numberIn? s = some x ∧ x.rank? = some rank

/-- The same text, or two texts that write numbers of one value. -/
def Agree (s t : String) : Prop := s = t ∨ ∃ rank, WritesRank s rank ∧ WritesRank t rank

/-- Two texts write numbers that are in a relation. -/
def Related (R : Int → Int → Prop) (s t : String) : Prop :=
  ∃ a b, WritesRank s a ∧ WritesRank t b ∧ R a b

/-- Null, or a text, an array or an object with nothing in it. -/
def Json.HasNothing (v : Json) : Prop := v = .null ∨ v = .text "" ∨ v = .array [] ∨ v = .object []

namespace Predicate

/-- When a predicate holds of a value that is there. -/
def HoldsOf (p : Predicate) (leaf : Json) (expected : String) : Prop :=
  match p with
  | equal => Agree leaf.plainText expected
  | notEqual => ¬ Agree leaf.plainText expected
  | containSubstring => expected.toList <:+: leaf.plainText.toList
  | notContainSubstring => ¬ expected.toList <:+: leaf.plainText.toList
  | startWith => expected.toList <+: leaf.plainText.toList
  | endWith => expected.toList <:+ leaf.plainText.toList
  | beEmpty => leaf.HasNothing
  | notBeEmpty => ¬ leaf.HasNothing
  | exist => True
  | notExist => False
  | beTrue => leaf.plainText.toList.map Char.toLower = "true".toList
  | beFalse => leaf.plainText.toList.map Char.toLower = "false".toList
  | beGreaterThan => Related (· > ·) leaf.plainText expected
  | beGreaterThanOrEqualTo => Related (· ≥ ·) leaf.plainText expected
  | beLessThan => Related (· < ·) leaf.plainText expected
  | beLessThanOrEqualTo => Related (· ≤ ·) leaf.plainText expected

/-- When a predicate holds of what stands under a path, `none` if nothing does. -/
def Holds (p : Predicate) (leaf? : Option Json) (expected : String) : Prop :=
  match leaf? with
  | none => p = notExist
  | some leaf => p.HoldsOf leaf expected

end Predicate

/-! ## The checker -/

/-- Values are equal if they are the same text or write the same number. -/
theorem looselyEqual_iff_agree {s t : String} : looselyEqual s t = true ↔ Agree s t := by
  rw [looselyEqual, Bool.or_eq_true, beq_iff_eq]
  refine or_congr_right ?_
  constructor
  · intro h
    split at h
    · rename_i x y hx hy
      obtain ⟨rank, hrankx, hranky⟩ := Binary64.same_iff.1 h
      exact ⟨rank, ⟨x, hx, hrankx⟩, y, hy, hranky⟩
    · cases h
  · rintro ⟨rank, ⟨x, hx, hrankx⟩, y, hy, hranky⟩
    rw [hx, hy]
    exact Binary64.same_iff.2 ⟨rank, hrankx, hranky⟩

theorem Json.isEmpty_iff_hasNothing {v : Json} : v.isEmpty = true ↔ v.HasNothing := by
  unfold HasNothing
  cases v with
  | null => exact iff_of_true rfl (.inl rfl)
  | bool b => simp [isEmpty]
  | number n => simp [isEmpty]
  | text s => simp [isEmpty]
  | array items => simp [isEmpty]
  | object fields => simp [isEmpty]

namespace Predicate

variable {p : Predicate} {leaf : Json} {expected : String}

/-- A predicate that asks for an order passes iff both texts write numbers in that order. -/
theorem checkLeaf_ok_iff_related {holds : Binary64 → Binary64 → Bool} {R : Int → Int → Prop}
    (order : p.order? = some holds)
    (ranks : ∀ x y, holds x y = true ↔ ∃ a b, x.rank? = some a ∧ y.rank? = some b ∧ R a b) :
    p.checkLeaf leaf expected = .ok () ↔ Related R leaf.plainText expected := by
  rw [checkLeaf, order]
  constructor
  · intro h
    dsimp only at h
    -- both texts have to write numbers, and those have to hold in the order
    split at h
    · rename_i x y hx hy
      split at h
      · rename_i hholds
        obtain ⟨a, b, ha, hb, hab⟩ := (ranks x y).1 hholds
        exact ⟨a, b, ⟨x, hx, ha⟩, ⟨y, hy, hb⟩, hab⟩
      · cases h
    · cases h
  · rintro ⟨a, b, ⟨x, hx, ha⟩, ⟨y, hy, hb⟩, hab⟩
    rw [hx, hy]
    exact if_pos ((ranks x y).2 ⟨a, b, ha, hb, hab⟩)

/-- Any other predicate passes iff the value is accepted. -/
theorem checkLeaf_ok_iff_accepts (order : p.order? = none) :
    p.checkLeaf leaf expected = .ok () ↔ p.accepts leaf expected = true := by
  rw [checkLeaf, order]
  dsimp only
  split
  · exact iff_of_true rfl ‹_›
  · exact iff_of_false (fun h => by cases h) ‹_›

end Predicate

namespace Decimal.Binary64

variable {x y : Binary64}

/-- Numbers are in order as their ranks are; the number that is none has no rank. -/
theorem less_iff : x.less y = true ↔ ∃ a b, x.rank? = some a ∧ y.rank? = some b ∧ a < b := by
  unfold less
  cases x.rank? <;> cases y.rank? <;> simp

theorem atMost_iff : x.atMost y = true ↔ ∃ a b, x.rank? = some a ∧ y.rank? = some b ∧ a ≤ b := by
  unfold atMost
  cases x.rank? <;> cases y.rank? <;> simp

theorem greater_iff : y.less x = true ↔ ∃ a b, x.rank? = some a ∧ y.rank? = some b ∧ a > b := by
  unfold less
  cases x.rank? <;> cases y.rank? <;> simp

theorem atLeast_iff : y.atMost x = true ↔ ∃ a b, x.rank? = some a ∧ y.rank? = some b ∧ a ≥ b := by
  unfold atMost
  cases x.rank? <;> cases y.rank? <;> simp

end Decimal.Binary64

namespace Predicate

/-- **The checker passes a predicate iff it holds** of what stands under the path. -/
theorem check_ok_iff_holds {p : Predicate} {leaf? : Option Json} {expected : String} :
    p.check leaf? expected = .ok () ↔ p.Holds leaf? expected := by
  cases leaf? with
  | none => cases p <;> simp [check, Holds]
  | some leaf =>
    -- one case for each predicate; those that deny another one follow from it
    cases p with
    | exist => exact iff_of_true rfl trivial
    | notExist => exact iff_of_false (fun h => by cases h) id
    | equal => exact (checkLeaf_ok_iff_accepts (p := equal) rfl).trans looselyEqual_iff_agree
    | notEqual =>
      refine (checkLeaf_ok_iff_accepts (p := notEqual) rfl).trans ?_
      rw [accepts, Bool.not_eq_true', ← Bool.not_eq_true]
      exact not_congr looselyEqual_iff_agree
    | containSubstring =>
      exact (checkLeaf_ok_iff_accepts (p := containSubstring) rfl).trans occursIn_iff
    | notContainSubstring =>
      refine (checkLeaf_ok_iff_accepts (p := notContainSubstring) rfl).trans ?_
      rw [accepts, Bool.not_eq_true', ← Bool.not_eq_true]
      exact not_congr occursIn_iff
    | startWith =>
      exact (checkLeaf_ok_iff_accepts (p := startWith) rfl).trans List.isPrefixOf_iff_prefix
    | endWith => exact (checkLeaf_ok_iff_accepts (p := endWith) rfl).trans List.isSuffixOf_iff_suffix
    | beEmpty => exact (checkLeaf_ok_iff_accepts (p := beEmpty) rfl).trans Json.isEmpty_iff_hasNothing
    | notBeEmpty =>
      refine (checkLeaf_ok_iff_accepts (p := notBeEmpty) rfl).trans ?_
      rw [accepts, Bool.not_eq_true', ← Bool.not_eq_true]
      exact not_congr Json.isEmpty_iff_hasNothing
    | beTrue => exact (checkLeaf_ok_iff_accepts (p := beTrue) rfl).trans beq_iff_eq
    | beFalse => exact (checkLeaf_ok_iff_accepts (p := beFalse) rfl).trans beq_iff_eq
    | beGreaterThan =>
      exact checkLeaf_ok_iff_related (p := beGreaterThan) rfl fun _ _ => Binary64.greater_iff
    | beGreaterThanOrEqualTo =>
      exact checkLeaf_ok_iff_related (p := beGreaterThanOrEqualTo) rfl fun _ _ => Binary64.atLeast_iff
    | beLessThan => exact checkLeaf_ok_iff_related (p := beLessThan) rfl fun _ _ => Binary64.less_iff
    | beLessThanOrEqualTo =>
      exact checkLeaf_ok_iff_related (p := beLessThanOrEqualTo) rfl fun _ _ => Binary64.atMost_iff

/-- Where nothing stands under a path, one predicate passes and no other. -/
theorem check_none_iff {p : Predicate} {expected : String} :
    p.check none expected = .ok () ↔ p = notExist := check_ok_iff_holds

end Predicate

/-! ## What one expression contributes -/

/-- An assertion holds of what stands under its path. -/
def Assertion.Holds (a : Assertion) (observed : Observed) : Prop :=
  a.predicate.Holds (observed.get? a.path) a.expected

/-- An expression is an assertion, and it holds. -/
def Satisfied (observed : Observed) (expression : String) : Prop :=
  ∃ a, Assertion.parse expression = .ok a ∧ a.Holds observed

/-- The text of a failure. -/
def failureText (expression path : String) (m : Mismatch) : String :=
  s!"Assertion \"{expression}\" failed. {path}: {m.message}"

/-- What an expression contributes to a verdict: nothing iff it is satisfied, one error iff it is no
    assertion, and else one failure.  The texts say what is wrong. -/
structure Contribution (observed : Observed) (expression : String) (part : Verdict) : Prop where
  nothing : part = ⟨[], []⟩ ↔ Satisfied observed expression
  error : (∃ text, part = ⟨[text], []⟩) ↔ ∃ e, Assertion.parse expression = .error e
  failure : (∃ text, part = ⟨[], [text]⟩)
    ↔ ∃ a, Assertion.parse expression = .ok a ∧ ¬ a.Holds observed
  errorText : ∀ e, Assertion.parse expression = .error e → part.errors = [e.message]
  failureText : ∀ a m, Assertion.parse expression = .ok a →
    a.predicate.check (observed.get? a.path) a.expected = .error m →
      part.failures = [failureText expression a.path m]

section Judging

variable {observed : Observed} {expression : String}

/-- An expression that is none contributes an error. -/
theorem contribution_error {e : AssertionError} (unparsed : Assertion.parse expression = .error e) :
    Contribution observed expression ⟨[e.message], []⟩ := by
  constructor <;> simp [Satisfied, unparsed]

/-- One that holds contributes nothing. -/
theorem contribution_nothing {a : Assertion} (parsed : Assertion.parse expression = .ok a)
    (holds : a.Holds observed) : Contribution observed expression ⟨[], []⟩ := by
  constructor
  case failureText =>
    intro a' m parsed' mismatch
    cases parsed.symm.trans parsed'
    rw [Predicate.check_ok_iff_holds.2 holds] at mismatch
    cases mismatch
  all_goals simp [Satisfied, parsed, holds]

/-- One that does not hold contributes a failure with its mismatch. -/
theorem contribution_failure {a : Assertion} {m : Mismatch}
    (parsed : Assertion.parse expression = .ok a)
    (mismatch : a.predicate.check (observed.get? a.path) a.expected = .error m) :
    Contribution observed expression ⟨[], [failureText expression a.path m]⟩ := by
  -- the mismatch excludes that it holds, and so the other two forms
  have hfails : ¬ a.Holds observed := by
    intro holds
    rw [Predicate.check_ok_iff_holds.2 holds] at mismatch
    cases mismatch
  constructor
  case failureText =>
    intro a' m' parsed' mismatch'
    cases parsed.symm.trans parsed'
    cases mismatch.symm.trans mismatch'
    rfl
  all_goals simp [Satisfied, parsed, hfails]

/-- What judging an expression leaves is its contribution. -/
theorem contribution_judge : Contribution observed expression (judge observed expression).verdict := by
  rw [judge]
  split
  · rename_i e hparse
    exact contribution_error hparse
  · rename_i a hparse
    split
    · rename_i hcheck
      exact contribution_nothing hparse (Predicate.check_ok_iff_holds.1 hcheck)
    · rename_i m hcheck
      exact contribution_failure hparse hcheck

/-- An expression is judged satisfied iff it is an assertion that holds. -/
theorem judge_eq_satisfied_iff :
    judge observed expression = .satisfied ↔ Satisfied observed expression := by
  rw [← Judgement.verdict_isOk_iff, Verdict.isOk_iff]
  exact contribution_judge.nothing

/-! ## Lists of expressions -/

/-- The verdict on a list is put together from what judging each expression leaves, in order. -/
theorem judgeAll_eq_flatten (expressions : List String) :
    judgeAll observed expressions
      = ⟨(expressions.map fun e => (judge observed e).verdict.errors).flatten,
          (expressions.map fun e => (judge observed e).verdict.failures).flatten⟩ := by
  induction expressions with
  | nil => rfl
  | cons e rest ih =>
    rw [judgeAll, ih]
    rfl

/-- Two lists are judged one behind the other. -/
theorem judgeAll_append (xs ys : List String) :
    judgeAll observed (xs ++ ys) = judgeAll observed xs ++ judgeAll observed ys := by
  induction xs with
  | nil => rfl
  | cons e rest ih => rw [List.cons_append, judgeAll, judgeAll, ih, Verdict.append_assoc]

end Judging

/-- **A list of expressions is judged one by one.**  The defaults count if there are some and nothing is
    declared, else what is declared.  Each expression that counts contributes nothing, one error or one
    failure, and the verdict holds the contributions in order; it is clean iff all of them are satisfied.
    Two declared lists after another are judged like one.  A path under which there is nothing satisfies
    no predicate but the one that asks for its absence. -/
theorem evaluate_judges_each (observed : Observed) (declared : List String)
    (defaults : Option (List String)) :
    let counting := if declared = [] then defaults.getD [] else declared
    let verdict := evaluate observed declared defaults
    (∃ parts, List.Forall₂ (Contribution observed) counting parts
        ∧ verdict.errors = (parts.map Verdict.errors).flatten
        ∧ verdict.failures = (parts.map Verdict.failures).flatten)
      ∧ (verdict.isOk = true ↔ ∀ e ∈ counting, Satisfied observed e)
      ∧ (∀ more, declared ≠ [] → more ≠ [] →
          evaluate observed (declared ++ more) defaults
            = verdict ++ evaluate observed more defaults)
      ∧ ∀ (p : Predicate) (path expected : String), observed.get? path = none →
          (p.check (observed.get? path) expected = .ok () ↔ p = .notExist) := by
  intro counting verdict
  -- all is said of the list that counts
  have hverdict : verdict = judgeAll observed counting :=
    congrArg (judgeAll observed) (effective_eq declared defaults)
  refine ⟨⟨counting.map fun e => (judge observed e).verdict, ?_, ?_, ?_⟩, ?_, ?_, ?_⟩
  · rw [List.forall₂_map_right_iff, List.forall₂_same]
    exact fun e _ => contribution_judge
  · rw [hverdict, judgeAll_eq_flatten, List.map_map]
    rfl
  · rw [hverdict, judgeAll_eq_flatten, List.map_map]
    rfl
  · rw [hverdict, judgeAll_isOk_iff]
    exact forall₂_congr fun _ _ => judge_eq_satisfied_iff
  · intro more hdeclared hmore
    -- something is declared on either side, so the defaults count for neither
    have hboth : declared ++ more ≠ [] := List.append_ne_nil_of_left_ne_nil hdeclared more
    simp only [verdict, evaluate, effective_eq, if_neg hdeclared, if_neg hmore, if_neg hboth]
    exact judgeAll_append declared more
  · intro p path expected habsent
    rw [habsent]
    exact Predicate.check_none_iff

/-- Three expressions on a result with a status: one is no assertion, one holds, and the one that asks
    for something else than a missing path to be something fails. -/
theorem evaluate_judges_each_mixed :
    let observed := Observed.empty.insert "result.statuscode" (.number (.int 404))
    let declared := ["result.statusCode", "result.statusCode ShouldBeGreaterThan 4e2"]
    let more := ["result.err ShouldNotEqual x"]
    evaluate observed (declared ++ more) (some ["result.statusCode ShouldEqual 200"])
        = ⟨["Invalid assertion 'result.statusCode': expected '<path> <Predicate> [expected]'"],
            ["Assertion \"result.err ShouldNotEqual x\" failed. result.err: key not found in result"]⟩
      ∧ Predicate.notEqual.check (observed.get? "result.err") "x" ≠ .ok () := by
  intro observed declared more
  obtain ⟨_, _, happend, habsent⟩ :=
    evaluate_judges_each observed declared (some ["result.statusCode ShouldEqual 200"])
  constructor
  · rw [happend more (List.cons_ne_nil _ _) (List.cons_ne_nil _ _)]
    decide +kernel
  · rw [ne_eq, habsent .notEqual "result.err" "x" (by decide +kernel)]
    decide

end TestBench
