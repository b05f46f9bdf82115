import Mathlib
import TestBench.Assertion.Predicate
import TestBench.Proofs.LetterCase
import TestBench.Proofs.ReservedKeys
import TestBench.Proofs.Rounding
/-
  How whole numbers are compared.

  The value that was observed is an integer of at most 64 bits, the expected text writes one.

  1. `Text.WritesInteger` says which integer a text writes: digits behind at most one sign.  The text
     of an observed integer writes that integer, and no text writes two.
  2. Such a text is always read as a number, namely as the rounded integer (`numberIn?_writes`).
     So each of the six predicates that compare decides its relation between the two rounded
     integers, and a mismatch quotes both texts as they are (`check_rounded`).
  3. The six are right about the integers themselves iff rounding keeps these apart, as it does if one
     of them has at most 53 bits (`compared_right_iff`).
-/
namespace TestBench

open TestBench.Text TestBench.Decimal

/-! ## Integers in decimal -/

namespace Text

/-- An integer in decimal: digits behind at most one sign. -/
inductive WritesInteger : List Char → Int → Prop
  | positive {s : List Char} {n : Nat} (decimal : IsDecimal s n) : WritesInteger s n
  | negative {digits : List Char} (nonempty : digits ≠ []) (all : ∀ c ∈ digits, c.isDigit = true) :
      WritesInteger ('-' :: digits) (-(Nat.ofDigitChars 10 digits 0 : Nat))

/-- No digit is blank. -/
theorem isBlank_of_isDigit {c : Char} (h : c.isDigit = true) : isBlank c = false := by
  have hlow : 48 ≤ c.toNat := (Char.isDigit_iff_toNat.1 h).1
  have hhigh : c.toNat ≤ 57 := (Char.isDigit_iff_toNat.1 h).2
  simp only [isBlank, Bool.or_eq_false_iff, Bool.and_eq_false_iff, decide_eq_false_iff_not,
    beq_eq_false_iff_ne]
  omega

/-- Where there are no blanks, none are cut off. -/
theorem trim_eq_self {s : List Char} (h : ∀ c ∈ s, isBlank c = false) : trim s = s := by
  have hdrop (t : List Char) (ht : ∀ c ∈ t, isBlank c = false) : dropBlanks t = t := by
    rw [dropBlanks, List.dropWhile_eq_self_iff]
    intro hl
    rw [ht _ (List.getElem_mem hl)]
    exact Bool.false_ne_true
  rw [trim, hdrop s h, hdrop s.reverse fun c hc => h c (List.mem_reverse.1 hc), List.reverse_reverse]

/-- So nothing is cut from a text that writes an integer. -/
theorem WritesInteger.blanks {s : List Char} {z : Int} (h : WritesInteger s z) :
    ∀ c ∈ s, isBlank c = false := by
  cases h with
  | positive decimal =>
    obtain ⟨digits, rfl | rfl, _, hall, _⟩ := decimal
    · exact fun c hc => isBlank_of_isDigit (hall c hc)
    · exact List.forall_mem_cons.2 ⟨by decide, fun c hc => isBlank_of_isDigit (hall c hc)⟩
  | negative _ hall =>
    exact List.forall_mem_cons.2 ⟨by decide, fun c hc => isBlank_of_isDigit (hall c hc)⟩

/-- No text writes two integers. -/
theorem WritesInteger.unique {s : List Char} {a b : Int} (ha : WritesInteger s a)
    (hb : WritesInteger s b) : a = b := by
  -- a minus sign is no digit, so the sign tells the two ways to write apart
  have hminus {digits : List Char} {n : Nat} (h : IsDecimal ('-' :: digits) n) : False := by
    obtain ⟨ds, rfl | hs, _, hall, _⟩ := h
    · exact absurd (hall '-' List.mem_cons_self) (by decide)
    · injection hs with hsign _
      exact absurd hsign (by decide)
  cases ha with
  | positive ha =>
    cases hb with
    | positive hb => rw [ha.unique hb]
    | negative => exact (hminus ha).elim
  | negative =>
    cases hb with
    | positive hb => exact (hminus hb).elim
    | negative => rfl

/-- An integer is written by its usual text. -/
theorem writesInteger_toString (z : Int) : WritesInteger (toString z).toList z := by
  have hdigits (n : Nat) : ∀ c ∈ Nat.toDigits 10 n, c.isDigit = true :=
    fun c hc => Nat.isDigit_of_mem_toDigits (by decide) (by decide) hc
  cases z with
  | ofNat n =>
    have htext : (toString (Int.ofNat n)).toList = Nat.toDigits 10 n := by
      rw [Int.toString_eq_repr]
      exact Nat.toList_repr
    rw [htext]
    exact .positive ⟨_, .inl rfl, Nat.toDigits_ne_nil, hdigits n, Nat.ofDigitChars_ten_toDigits.symm⟩
  | negSucc n =>
    have htext : (toString (Int.negSucc n)).toList = '-' :: Nat.toDigits 10 (n + 1) := by
      rw [Int.toString_eq_repr, Int.repr, String.toList_append, Nat.toList_repr]
      rfl
    -- the digits behind the sign are those of the number without it
    have h := WritesInteger.negative (Nat.toDigits_ne_nil (n := n + 1) (b := 10)) (hdigits (n + 1))
    rw [Nat.ofDigitChars_ten_toDigits] at h
    rw [htext]
    exact h

end Text

/-! ## Reading them -/

namespace Decimal

/-- Digits are no word. -/
theorem lowerAscii_ne {digits word : List Char} (hall : ∀ c ∈ digits, c.isDigit = true)
    (hword : ¬ ∀ c ∈ word, c.isDigit = true) : lowerAscii digits ≠ word := by
  have hlower : lowerAscii digits = digits := by
    rw [lowerAscii, List.map_congr_left fun c hc => toLower_of_isDigit (hall c hc), List.map_id']
  rw [hlower]
  exact fun h => hword (h ▸ hall)

/-- Digits alone are read as the whole number that they write. -/
theorem magnitude?_digits {digits : List Char} (negative : Bool) (hne : digits ≠ [])
    (hall : ∀ c ∈ digits, c.isDigit = true) :
    magnitude? negative digits
      = some (Binary64.ofDecimal negative (Nat.ofDigitChars 10 digits 0) 0) := by
  have hspan : spanDigits digits = (digits, []) := by
    rw [spanDigits, List.takeWhile_eq_self_iff.2 hall, List.dropWhile_eq_nil_iff.2 hall]
  have hvalue : digitsValue (digits ++ []) = Nat.ofDigitChars 10 digits 0 := by
    rw [List.append_nil, digitsValue, digits?_ten.2 ⟨hne, hall, rfl⟩]
    rfl
  have hempty : digits.isEmpty = false := List.isEmpty_eq_false_iff.2 hne
  simp only [magnitude?, hspan, hvalue, hempty, Bool.false_and, Option.map_some, Bool.false_eq_true,
    if_false]
  rfl

/-- An integer is read as the decimal that it is. -/
theorem literal?_writes {s : List Char} {z : Int} (h : WritesInteger s z) :
    ∃ negative n, z = Binary64.signed negative n
      ∧ literal? s = some (Binary64.ofDecimal negative n 0) := by
  have body (negative : Bool) (digits : List Char) (hne : digits ≠ [])
      (hall : ∀ c ∈ digits, c.isDigit = true) :
      (if lowerAscii digits = "inf".toList ∨ lowerAscii digits = "infinity".toList
        then some (.infinite negative)
        else if lowerAscii digits = "nan".toList then some .nan else magnitude? negative digits)
        = some (Binary64.ofDecimal negative (Nat.ofDigitChars 10 digits 0) 0) := by
    have hinf : lowerAscii digits ≠ "inf".toList := lowerAscii_ne hall (by simp)
    have hinfinity : lowerAscii digits ≠ "infinity".toList := lowerAscii_ne hall (by simp)
    have hnan : lowerAscii digits ≠ "nan".toList := lowerAscii_ne hall (by simp)
    rw [if_neg (not_or.2 ⟨hinf, hinfinity⟩), if_neg hnan, magnitude?_digits negative hne hall]
  cases h with
  | positive decimal =>
    obtain ⟨digits, hs, hne, hall, rfl⟩ := decimal
    refine ⟨false, _, rfl, ?_⟩
    rcases hs with rfl | rfl
    · -- a digit is no sign
      unfold literal?
      split
      rename_i hsign
      split at hsign
      · exact absurd (hall '-' List.mem_cons_self) (by decide)
      · exact absurd (hall '+' List.mem_cons_self) (by decide)
      · injection hsign with hnegative hdigits
        rw [← hnegative, ← hdigits]
        exact body false _ hne hall
    · exact body false digits hne hall
  | @negative digits hne hall => exact ⟨true, _, rfl, body true digits hne hall⟩

/-- An integer of at most 64 bits is read as the number that is nearest to it. -/
theorem numberIn?_writes {s : String} {z : Int} (h : WritesInteger s.toList z)
    (fits : z.natAbs < 2 ^ 64) :
    ∃ x, numberIn? s = some x ∧ x.rank? = some (rounded z * Binary64.rankOfOne) := by
  obtain ⟨negative, n, rfl, hread⟩ := literal?_writes h
  have hn : n < 2 ^ 64 := by
    cases negative with
    | false => exact fits
    | true => rwa [Binary64.signed, if_pos rfl, Int.natAbs_neg] at fits
  refine ⟨Binary64.ofDecimal negative n 0, ?_, ?_⟩
  · rw [numberIn?, trim_eq_self h.blanks, hread]
  · rw [Binary64.ofDecimal_zero negative hn, Binary64.rank?_ofRatio negative hn, rounded_signed]

end Decimal

/-! ## The predicates -/

namespace Predicate

/-- The relation between integers that a predicate asks for, if it compares. -/
def compares? : Predicate → Option (Int → Int → Prop)
  | equal => some (· = ·)
  | notEqual => some (· ≠ ·)
  | beGreaterThan => some (· > ·)
  | beGreaterThanOrEqualTo => some (· ≥ ·)
  | beLessThan => some (· < ·)
  | beLessThanOrEqualTo => some (· ≤ ·)
  | _ => none

/-- All predicates that compare decide their relation between an observed integer and another one. -/
def CompareRight (observed expected : Int) (literal : String) : Prop :=
  ∀ p R, compares? p = some R
    → (p.check (some (.number (.int observed))) literal = .ok () ↔ R observed expected)

end Predicate

/-- An integer that a signed or an unsigned word of 64 bits holds. -/
def FitsWord (z : Int) : Prop := -2 ^ 63 ≤ z ∧ z < 2 ^ 64

/-- What fits a word, with a sign or without, is below `2 ^ 64` without its sign. -/
theorem FitsWord.natAbs_lt {z : Int} (h : FitsWord z) : z.natAbs < 2 ^ 64 := by
  obtain ⟨hlow, hhigh⟩ := h
  omega

open Predicate

section Checks

variable {a b : Int} {literal : String}

/-- Numbers that were read of integers are compared like the rounded integers. -/
theorem compared_iff_rounded {x y : Binary64}
    (hx : x.rank? = some (rounded a * Binary64.rankOfOne))
    (hy : y.rank? = some (rounded b * Binary64.rankOfOne)) :
    (x.same y = true ↔ rounded a = rounded b) ∧ (x.less y = true ↔ rounded a < rounded b)
      ∧ (x.atMost y = true ↔ rounded a ≤ rounded b) := by
  have hpos : (0 : Int) < Binary64.rankOfOne := Int.natCast_pos.2 Binary64.rankOfOne_pos
  simp only [Binary64.same, Binary64.less, Binary64.atMost, hx, hy, decide_eq_true_eq]
  exact ⟨Int.mul_eq_mul_right_iff hpos.ne', Int.mul_lt_mul_right hpos, Int.mul_le_mul_right hpos⟩

/-- An observed integer and a text are loosely equal iff the rounded integers are the same. -/
theorem looselyEqual_iff_rounded (ha : a.natAbs < 2 ^ 64) (hb : b.natAbs < 2 ^ 64)
    (writes : WritesInteger literal.toList b) :
    looselyEqual (toString a) literal = true ↔ rounded a = rounded b := by
  obtain ⟨x, hx, hrankx⟩ := numberIn?_writes (writesInteger_toString a) ha
  obtain ⟨y, hy, hranky⟩ := numberIn?_writes writes hb
  rw [looselyEqual, Bool.or_eq_true, beq_iff_eq, hx, hy]
  simp only [(compared_iff_rounded hrankx hranky).1]
  refine or_iff_right_of_imp fun htext => ?_
  -- one text writes one integer
  rw [(writesInteger_toString a).unique (htext ▸ writes)]

/-- An order predicate tests the two numbers, if both texts are read. -/
theorem check_of_order {p : Predicate} {holds : Binary64 → Binary64 → Bool} {leaf : Json}
    {x y : Binary64} (order : p.order? = some holds) (hx : numberIn? leaf.plainText = some x)
    (hy : numberIn? literal = some y) :
    p.check (some leaf) literal = if holds x y = true then .ok ()
      else .error (.gotExpected leaf.plainText p literal) := by
  have htakes : p.takesExpected = true := by
    cases p <;> first | rfl | cases order
  have hleaf : p.check (some leaf) literal = p.checkLeaf leaf literal := by
    cases p with
    | exist | notExist => cases order
    | _ => rfl
  rw [hleaf, checkLeaf, order, hx, hy, mismatch, htakes]
  rfl

/-- Each predicate that compares passes iff its relation holds between the rounded integers, and quotes
    both texts if not. -/
theorem check_rounded (ha : a.natAbs < 2 ^ 64) (hb : b.natAbs < 2 ^ 64)
    (writes : WritesInteger literal.toList b) {p : Predicate} {R : Int → Int → Prop}
    (compares : p.compares? = some R) :
    (R (rounded a) (rounded b) → p.check (some (.number (.int a))) literal = .ok ())
      ∧ (¬ R (rounded a) (rounded b) → p.check (some (.number (.int a))) literal
          = .error (.gotExpected (toString a) p literal)) := by
  obtain ⟨x, hx, hrankx⟩ := numberIn?_writes (writesInteger_toString a) ha
  obtain ⟨y, hy, hranky⟩ := numberIn?_writes writes hb
  obtain ⟨_, hless, hatMost⟩ := compared_iff_rounded hrankx hranky
  obtain ⟨_, hless', hatMost'⟩ := compared_iff_rounded hranky hrankx
  have hequal := looselyEqual_iff_rounded ha hb writes
  have hx : numberIn? (Json.plainText (.number (.int a))) = some x := hx
  -- a test of the relation leaves the two answers
  have answers {test : Bool} (hR : test = true ↔ R (rounded a) (rounded b))
      (hcheck : p.check (some (.number (.int a))) literal
        = if test = true then .ok () else .error (.gotExpected (toString a) p literal)) :
      (R (rounded a) (rounded b) → p.check (some (.number (.int a))) literal = .ok ())
        ∧ (¬ R (rounded a) (rounded b) → p.check (some (.number (.int a))) literal
            = .error (.gotExpected (toString a) p literal)) := by
    rw [hcheck]
    exact ⟨fun h => if_pos (hR.2 h), fun h => if_neg (mt hR.1 h)⟩
  cases p with
  | equal =>
    cases compares
    exact answers hequal rfl
  | notEqual =>
    cases compares
    have hunequal : (!looselyEqual (toString a) literal) = true ↔ rounded a ≠ rounded b := by
      rw [Bool.not_eq_true', ← Bool.not_eq_true]
      exact not_congr hequal
    exact answers hunequal rfl
  | beGreaterThan =>
    cases compares
    have hcheck := check_of_order (p := beGreaterThan) rfl hx hy
    exact answers hless' hcheck
  | beGreaterThanOrEqualTo =>
    cases compares
    have hcheck := check_of_order (p := beGreaterThanOrEqualTo) rfl hx hy
    exact answers hatMost' hcheck
  | beLessThan =>
    cases compares
    have hcheck := check_of_order (p := beLessThan) rfl hx hy
    exact answers hless hcheck
  | beLessThanOrEqualTo =>
    cases compares
    have hcheck := check_of_order (p := beLessThanOrEqualTo) rfl hx hy
    exact answers hatMost hcheck
  | _ => cases compares

/-- Where rounding keeps two integers apart, it keeps all relations between them. -/
theorem rounded_iff (apart : rounded a = rounded b → a = b) {p : Predicate} {R : Int → Int → Prop}
    (compares : p.compares? = some R) : R (rounded a) (rounded b) ↔ R a b := by
  have hle : a ≤ b → rounded a ≤ rounded b := rounded_mono
  have hge : b ≤ a → rounded b ≤ rounded a := rounded_mono
  cases p with
  | equal =>
    cases compares
    exact ⟨apart, congrArg rounded⟩
  | notEqual =>
    cases compares
    exact not_congr ⟨apart, congrArg rounded⟩
  -- rounding keeps the order in both directions, so a strict one is lost only if both become the same
  | beGreaterThan | beGreaterThanOrEqualTo | beLessThan | beLessThanOrEqualTo =>
    cases compares
    omega
  | _ => cases compares

/-- **Whole numbers are compared after rounding them to 53 bits.**  Each of the six predicates that
    compare passes iff its relation holds between the rounded integers, else it quotes both texts.
    All six are right about the integers themselves iff rounding keeps these apart, and so they are if
    one of them has at most 53 bits. -/
theorem Predicate.compared_right_iff (ha : FitsWord a) (hb : FitsWord b)
    (writes : WritesInteger literal.toList b) :
    (∀ p R, Predicate.compares? p = some R →
        (R (rounded a) (rounded b) → p.check (some (.number (.int a))) literal = .ok ())
          ∧ (¬ R (rounded a) (rounded b) → p.check (some (.number (.int a))) literal
              = .error (.gotExpected (toString a) p literal)))
      ∧ (Predicate.CompareRight a b literal ↔ (rounded a = rounded b → a = b))
      ∧ (a.natAbs < 2 ^ 53 ∨ b.natAbs < 2 ^ 53 → Predicate.CompareRight a b literal) := by
  have hchecked {p : Predicate} {R : Int → Int → Prop} (compares : p.compares? = some R) :=
    check_rounded ha.natAbs_lt hb.natAbs_lt writes compares
  -- a comparison that does not hold is an error, so passing is the relation itself
  have hpasses {p : Predicate} {R : Int → Int → Prop} (compares : p.compares? = some R) :
      p.check (some (.number (.int a))) literal = .ok () ↔ R (rounded a) (rounded b) := by
    refine ⟨fun hok => ?_, (hchecked compares).1⟩
    by_contra hR
    rw [(hchecked compares).2 hR] at hok
    cases hok
  have hright : Predicate.CompareRight a b literal ↔ (rounded a = rounded b → a = b) := by
    constructor
    · exact fun right hab => (right .equal _ rfl).1 ((hpasses rfl).2 hab)
    · exact fun apart p R compares => (hpasses compares).trans (rounded_iff apart compares)
  refine ⟨fun p R => hchecked, hright, fun hsmall => hright.2 fun hab => ?_⟩
  -- one of the two is not rounded, and rounding moves no other number to it
  rcases hsmall with hsmall | hsmall
  · exact rounded_inj hsmall hab
  · exact (rounded_inj hsmall hab.symm).symm

/-- Two neighbours above `2 ^ 53` count as equal. -/
theorem Predicate.compared_right_iff_neighbours :
    Predicate.equal.check (some (.number (.int 9007199254740993))) "9007199254740992" = .ok ()
      ∧ ¬ Predicate.CompareRight 9007199254740993 9007199254740992 "9007199254740992" := by
  have writes : WritesInteger "9007199254740992".toList 9007199254740992 := by
    have h := writesInteger_toString 9007199254740992
    exact h
  have hsame : rounded 9007199254740993 = rounded 9007199254740992 := by decide
  have h := Predicate.compared_right_iff (a := 9007199254740993) (b := 9007199254740992)
    ⟨by decide, by decide⟩ ⟨by decide, by decide⟩ writes
  refine ⟨(h.1 .equal _ rfl).1 hsame, fun right => ?_⟩
  exact absurd (h.2.1.1 right hsame) (by decide)

end Checks
end TestBench
