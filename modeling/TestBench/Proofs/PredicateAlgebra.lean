import Mathlib
import TestBench.Proofs.Judging
/-
  How the predicates complement each other on a value.

  1. Of a predicate and the one that denies it exactly one passes, as the two hold of opposite things
     (`exactlyOne_pair`).
  2. Texts are equal in two ways, by their letters or by the numbers they write.  The two ways do not get
     in each other's way: a text writes one number at most, so texts that share their letters share their
     number, and equality is an equivalence (`agree_equivalence`).  A text that writes no number, or the
     number that is none, is equal to itself alone.
  3. Where both texts write numbers, each predicate that compares them says something about two whole
     numbers, their ranks (`WritesRank.related_iff`, `WritesRank.agree_iff`), and whole numbers are
     ordered totally.  Where one of them does not, no order holds.
-/
namespace TestBench

open TestBench.Text TestBench.Decimal

/-! ## Texts that write numbers -/

/-- A text writes a number other than the one that is none. -/
def WritesNumber (s : String) : Prop := ∃ x, numberIn? s = some x ∧ x ≠ .nan

section Texts

variable {s t : String} {a b : Int} {R : Int → Int → Prop}

/-- The numbers that are numbers are those with a place in the order. -/
theorem writesNumber_iff : WritesNumber s ↔ ∃ rank, WritesRank s rank := by
  constructor
  · rintro ⟨x, hx, hreal⟩
    obtain ⟨rank, hrank⟩ := Option.ne_none_iff_exists'.1 (mt Binary64.rank?_eq_none_iff.1 hreal)
    exact ⟨rank, x, hx, hrank⟩
  · rintro ⟨rank, x, hx, hrank⟩
    refine ⟨x, hx, ?_⟩
    rintro rfl
    cases hrank

/-- A text writes one number at most. -/
theorem WritesRank.unique (ha : WritesRank s a) (hb : WritesRank s b) : a = b := by
  obtain ⟨x, hx, hrankx⟩ := ha
  obtain ⟨y, hy, hranky⟩ := hb
  obtain rfl : x = y := Option.some.inj (hx.symm.trans hy)
  exact Option.some.inj (hrankx.symm.trans hranky)

/-- Texts that write numbers are related as their numbers are. -/
theorem WritesRank.related_iff (ha : WritesRank s a) (hb : WritesRank t b) : Related R s t ↔ R a b := by
  constructor
  · rintro ⟨a', b', ha', hb', hab⟩
    rwa [ha.unique ha', hb.unique hb']
  · exact fun hab => ⟨a, b, ha, hb, hab⟩

/-- Between numbers equality is that of the values, also where the texts are the same. -/
theorem WritesRank.agree_iff (ha : WritesRank s a) (hb : WritesRank t b) : Agree s t ↔ a = b := by
  constructor
  · rintro (rfl | ⟨rank, hs, ht⟩)
    · exact ha.unique hb
    · rw [ha.unique hs, hb.unique ht]
  · rintro rfl
    exact .inr ⟨a, ha, hb⟩

/-- An order is about numbers. -/
theorem Related.writesNumber (h : Related R s t) : WritesNumber s ∧ WritesNumber t := by
  obtain ⟨a, b, ha, hb, -⟩ := h
  exact ⟨writesNumber_iff.2 ⟨a, ha⟩, writesNumber_iff.2 ⟨b, hb⟩⟩

end Texts

/-- Equality is an equivalence, although it mixes two ways of being equal. -/
theorem agree_equivalence : Equivalence Agree where
  refl _ := .inl rfl
  symm := by
    rintro s t (rfl | ⟨rank, hs, ht⟩)
    · exact .inl rfl
    · exact .inr ⟨rank, ht, hs⟩
  trans := by
    rintro s t u (rfl | ⟨a, hs, ht⟩) (rfl | ⟨b, ht', hu⟩)
    · exact .inl rfl
    · exact .inr ⟨b, ht', hu⟩
    · exact .inr ⟨a, hs, ht⟩
    · obtain rfl := ht.unique ht'
      exact .inr ⟨a, hs, hu⟩

/-! ## Passing -/

namespace Predicate

/-- A predicate passes on a value that is there. -/
def Passes (p : Predicate) (leaf : Json) (literal : String) : Prop :=
  p.check (some leaf) literal = .ok ()

/-- One of some predicates passes on a value, and no other of them. -/
def ExactlyOne (ps : List Predicate) (leaf : Json) (literal : String) : Prop :=
  ∃! p, p ∈ ps ∧ p.Passes leaf literal

section Passes

variable {p q : Predicate} {leaf : Json} {literal : String}

theorem passes_iff : p.Passes leaf literal ↔ p.HoldsOf leaf literal := check_ok_iff_holds

/-- One of some predicates holds, and each of them that holds is this one. -/
theorem exactlyOne_of_mem {ps : List Predicate} (mem : p ∈ ps) (holds : p.HoldsOf leaf literal)
    (only : ∀ q ∈ ps, q.HoldsOf leaf literal → q = p) : ExactlyOne ps leaf literal :=
  ⟨p, ⟨mem, passes_iff.2 holds⟩, fun q hq => only q hq.1 (passes_iff.1 hq.2)⟩

/-- A predicate and one that denies it. -/
theorem exactlyOne_pair (h : q.HoldsOf leaf literal ↔ ¬ p.HoldsOf leaf literal) :
    ExactlyOne [p, q] leaf literal := by
  by_cases hp : p.HoldsOf leaf literal
  · refine exactlyOne_of_mem List.mem_cons_self hp ?_
    rintro p' (_ | ⟨_, _ | ⟨_, ⟨⟩⟩⟩) hp'
    · rfl
    · exact absurd hp (h.1 hp')
  · refine exactlyOne_of_mem (List.mem_cons_of_mem _ List.mem_cons_self) (h.2 hp) ?_
    rintro p' (_ | ⟨_, _ | ⟨_, ⟨⟩⟩⟩) hp'
    · exact absurd hp' hp
    · rfl

/-- Equality looks at the text of a value and at nothing else of it. -/
theorem equal_passes_iff : equal.Passes leaf literal ↔ Agree leaf.plainText literal := passes_iff

end Passes

/-! ## Numbers -/

section Numbers

variable {leaf : Json} {literal : String} {a b : Int}

/-- Of two numbers one is greater or less, or they are equal. -/
theorem exactlyOne_order (ha : WritesRank leaf.plainText a) (hb : WritesRank literal b) :
    ExactlyOne [beGreaterThan, beLessThan, equal] leaf literal := by
  have hgreater : beGreaterThan.HoldsOf leaf literal ↔ b < a := ha.related_iff hb
  have hless : beLessThan.HoldsOf leaf literal ↔ a < b := ha.related_iff hb
  have hequal : equal.HoldsOf leaf literal ↔ a = b := ha.agree_iff hb
  -- whichever of the three holds, the other two are excluded by it
  rcases lt_trichotomy a b with h | h | h
  · refine exactlyOne_of_mem (p := beLessThan) (by decide) (hless.2 h) ?_
    rintro p (_ | ⟨_, _ | ⟨_, _ | ⟨_, ⟨⟩⟩⟩⟩) hp
    · exact absurd (hgreater.1 hp) h.asymm
    · rfl
    · exact absurd (hequal.1 hp) h.ne
  · refine exactlyOne_of_mem (p := equal) (by decide) (hequal.2 h) ?_
    rintro p (_ | ⟨_, _ | ⟨_, _ | ⟨_, ⟨⟩⟩⟩⟩) hp
    · exact absurd h (hgreater.1 hp).ne'
    · exact absurd h (hless.1 hp).ne
    · rfl
  · refine exactlyOne_of_mem (p := beGreaterThan) (by decide) (hgreater.2 h) ?_
    rintro p (_ | ⟨_, _ | ⟨_, _ | ⟨_, ⟨⟩⟩⟩⟩) hp
    · rfl
    · exact absurd (hless.1 hp) h.asymm
    · exact absurd (hequal.1 hp) h.ne'

/-- Of two orders of which one denies the other, one passes iff the other does not. -/
theorem passes_iff_not_passes {p q : Predicate} {R S : Int → Int → Prop}
    (hp : p.HoldsOf leaf literal ↔ Related R leaf.plainText literal)
    (hq : q.HoldsOf leaf literal ↔ Related S leaf.plainText literal)
    (denies : ∀ a b, R a b ↔ ¬ S a b) (ha : WritesRank leaf.plainText a)
    (hb : WritesRank literal b) : p.Passes leaf literal ↔ ¬ q.Passes leaf literal := by
  rw [passes_iff, passes_iff, hp, hq, ha.related_iff hb, ha.related_iff hb]
  exact denies a b

/-- A predicate that asks for an order passes on numbers only. -/
theorem writesNumber_of_passes {p : Predicate} (order : p.order? ≠ none)
    (h : p.Passes leaf literal) : WritesNumber leaf.plainText ∧ WritesNumber literal := by
  rw [passes_iff] at h
  cases p with
  | beGreaterThan => exact Related.writesNumber h
  | beGreaterThanOrEqualTo => exact Related.writesNumber h
  | beLessThan => exact Related.writesNumber h
  | beLessThanOrEqualTo => exact Related.writesNumber h
  | _ => exact absurd rfl order

end Numbers

/-- **The predicates complement each other.**  On every value exactly one passes of equality and its
    denial, of containment and its denial, and of emptiness and its denial.  Equality compares the text of
    the value, and is an equivalence of texts.  If value and literal both write numbers, exactly one of
    greater, less and equal passes, and the two weak orders deny the opposite strict ones; if one of them
    writes none, or the number that is none, no order passes. -/
theorem predicates_complement (leaf : Json) (literal : String) :
    ExactlyOne [equal, notEqual] leaf literal
      ∧ ExactlyOne [containSubstring, notContainSubstring] leaf literal
      ∧ ExactlyOne [beEmpty, notBeEmpty] leaf literal
      ∧ (equal.Passes leaf literal ↔ looselyEqual leaf.plainText literal = true)
      ∧ (Equivalence fun s t => looselyEqual s t = true)
      ∧ (WritesNumber leaf.plainText ∧ WritesNumber literal →
          ExactlyOne [beGreaterThan, beLessThan, equal] leaf literal
            ∧ (beGreaterThanOrEqualTo.Passes leaf literal ↔ ¬ beLessThan.Passes leaf literal)
            ∧ (beLessThanOrEqualTo.Passes leaf literal ↔ ¬ beGreaterThan.Passes leaf literal))
      ∧ (¬ (WritesNumber leaf.plainText ∧ WritesNumber literal) →
          ∀ p : Predicate, p.order? ≠ none → ¬ p.Passes leaf literal) := by
  refine ⟨exactlyOne_pair Iff.rfl, exactlyOne_pair Iff.rfl, exactlyOne_pair Iff.rfl,
    equal_passes_iff.trans looselyEqual_iff_agree.symm, ?_, ?_, ?_⟩
  · simp only [looselyEqual_iff_agree]
    exact agree_equivalence
  · rintro ⟨hleaf, hliteral⟩
    obtain ⟨a, ha⟩ := writesNumber_iff.1 hleaf
    obtain ⟨b, hb⟩ := writesNumber_iff.1 hliteral
    -- ranks are linearly ordered, so a weak order denies the strict one from the other side
    have hatLeast := passes_iff_not_passes (p := beGreaterThanOrEqualTo) (q := beLessThan)
      Iff.rfl Iff.rfl (fun _ _ => not_lt.symm) ha hb
    have hatMost := passes_iff_not_passes (p := beLessThanOrEqualTo) (q := beGreaterThan)
      Iff.rfl Iff.rfl (fun _ _ => not_lt.symm) ha hb
    exact ⟨exactlyOne_order ha hb, hatLeast, hatMost⟩
  · exact fun hnumbers p order hp => hnumbers (writesNumber_of_passes order hp)

/-- Zero and its negative are equal, so neither is less; texts that write one number are equal by way of
    each other; and a number that is none is in no order, although its text equals itself. -/
theorem predicates_complement_zero :
    ExactlyOne [beGreaterThan, beLessThan, equal] (.text "-0.0") "0"
      ∧ equal.Passes (.text "-0.0") "0" ∧ ¬ beLessThan.Passes (.text "-0.0") "0"
      ∧ looselyEqual "1e0" " 1" = true
      ∧ equal.Passes (.text "NaN") "NaN" ∧ ¬ beGreaterThanOrEqualTo.Passes (.text "NaN") "NaN" := by
  obtain ⟨_, _, _, hequal, equivalence, hnumbers, _⟩ := predicates_complement (.text "-0.0") "0"
  obtain ⟨hone, hatLeast, _⟩ := hnumbers
    ⟨⟨.zero true, by decide +kernel, by decide⟩, ⟨.zero false, by decide +kernel, by decide⟩⟩
  obtain ⟨_, _, _, hequal', _, _, hnone⟩ := predicates_complement (.text "NaN") "NaN"
  refine ⟨hone, hequal.2 (by decide +kernel), ?_, ?_, hequal'.2 (by decide +kernel), ?_⟩
  · exact hatLeast.1 (show check _ _ _ = _ by decide +kernel)
  · have hfirst : looselyEqual "1e0" "1.0" = true := by decide +kernel
    have hsecond : looselyEqual "1.0" " 1" = true := by decide +kernel
    exact equivalence.trans hfirst hsecond
  · refine hnone ?_ .beGreaterThanOrEqualTo (by decide)
    rintro ⟨⟨x, hx, hreal⟩, -⟩
    have hnan : numberIn? "NaN" = some .nan := by decide +kernel
    exact hreal (Option.some.inj (hx.symm.trans hnan))

end Predicate
end TestBench
