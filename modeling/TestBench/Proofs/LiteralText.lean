import Mathlib
import TestBench.Proofs.ExpressionGrammar
import TestBench.Proofs.Judging
import TestBench.Proofs.WholeNumbers
/-
  The text that an assertion compares with.

  1. An expression is written with single blanks between path, name and expected text (`written`).  It
     is read with the words of that text, single blanks between them (`parse_written`).
  2. So the expected text is compared as it is written iff its blanks are single ones.  If they are not,
     a value with that very text does not contain what is compared with it, and as no number holds a
     blank, it does not equal it either (`literal_compared_in_words`).
-/
namespace TestBench

open TestBench.Text TestBench.Decimal

/-! ## No number holds a blank -/

section NoBlanks

variable {s : List Char} {x : Binary64}

theorem noBlanks_of_lowerAscii {word : List Char} (hword : ∀ c ∈ word, isBlank c = false)
    (h : lowerAscii s = word) : ∀ c ∈ s, isBlank c = false := by
  intro c hc
  rcases toLower_cases c with hsame | ⟨hlow, hhigh, _⟩
  · exact hsame ▸ hword c.toLower (h ▸ List.mem_map_of_mem hc)
  · simp only [isBlank, Bool.or_eq_false_iff, Bool.and_eq_false_iff, decide_eq_false_iff_not,
      beq_eq_false_iff_ne]
    omega

theorem noBlanks_of_digits {digits : List Char} (h : ∀ c ∈ digits, c.isDigit = true) :
    ∀ c ∈ digits, isBlank c = false :=
  fun c hc => isBlank_of_isDigit (h c hc)

/-- An exponent holds no blanks. -/
theorem noBlanks_of_exponent? {power : Int} (h : exponent? s = some power) :
    ∀ c ∈ s, isBlank c = false := by
  unfold exponent? at h
  split at h
  rename_i negative digits hsign
  have hdigits : ∀ c ∈ digits, isBlank c = false := by
    cases hn : digits? 10 digits with
    | none =>
      rw [hn] at h
      cases h
    | some n => exact noBlanks_of_digits (digits?_ten.1 hn).2.1
  -- a sign in front is no blank, and digits are none
  split at hsign <;> cases hsign
  · exact List.forall_mem_cons.2 ⟨by decide, hdigits⟩
  · exact List.forall_mem_cons.2 ⟨by decide, hdigits⟩
  · exact hdigits

/-- Digits in front of a text without blanks. -/
theorem noBlanks_of_spanDigits {digits rest : List Char} (hspan : spanDigits s = (digits, rest))
    (hrest : ∀ c ∈ rest, isBlank c = false) : ∀ c ∈ s, isBlank c = false := by
  injection hspan with hdigits hdrop
  have happend : digits ++ rest = s := by
    rw [← hdigits, ← hdrop, List.takeWhile_append_dropWhile]
  rw [← happend, List.forall_mem_append]
  refine ⟨noBlanks_of_digits fun c hc => ?_, hrest⟩
  rw [← hdigits] at hc
  exact List.mem_takeWhile_imp hc

/-- A decimal numeral holds no blanks. -/
theorem noBlanks_of_magnitude? {negative : Bool} (h : magnitude? negative s = some x) :
    ∀ c ∈ s, isBlank c = false := by
  unfold magnitude? at h
  split at h
  rename_i whole rest hwhole
  split at h
  rename_i fraction last hfraction
  dsimp only at h
  split at h
  · cases h
  · obtain ⟨power, hpower, _⟩ := Option.map_eq_some_iff.1 h
    -- behind the digits stands nothing, or an exponent
    have hlast : ∀ c ∈ last, isBlank c = false := by
      split at hpower
      · exact fun c hc => absurd hc List.not_mem_nil
      · split at hpower
        · rename_i hmark
          refine List.forall_mem_cons.2 ⟨?_, noBlanks_of_exponent? hpower⟩
          rcases hmark with rfl | rfl <;> decide
        · cases hpower
    refine noBlanks_of_spanDigits hwhole ?_
    -- the fraction is there or not
    split at hfraction
    · exact List.forall_mem_cons.2 ⟨by decide, noBlanks_of_spanDigits hfraction hlast⟩
    · injection hfraction with _ hrest
      exact hrest ▸ hlast

/-- A text that writes a number holds no blanks: a text with blanks is compared as text. -/
theorem noBlanks_of_literal? (h : literal? s = some x) : ∀ c ∈ s, isBlank c = false := by
  -- behind the sign stands a word for infinity, one for no number, or a numeral
  have hbody {negative : Bool} {body : List Char}
      (h : (if lowerAscii body = "inf".toList ∨ lowerAscii body = "infinity".toList
        then some (.infinite negative)
        else if lowerAscii body = "nan".toList then some .nan else magnitude? negative body) = some x) :
      ∀ c ∈ body, isBlank c = false := by
    split at h
    · rename_i hword
      rcases hword with hword | hword
      · exact noBlanks_of_lowerAscii (by simp [isBlank]) hword
      · exact noBlanks_of_lowerAscii (by simp [isBlank]) hword
    · split at h
      · rename_i hword
        exact noBlanks_of_lowerAscii (by simp [isBlank]) hword
      · exact noBlanks_of_magnitude? h
  unfold literal? at h
  split at h
  rename_i hsign
  split at hsign <;> cases hsign
  · exact List.forall_mem_cons.2 ⟨by decide, hbody h⟩
  · exact List.forall_mem_cons.2 ⟨by decide, hbody h⟩
  · exact hbody h

/-- Nothing is cut off a text that neither begins nor ends with a blank. -/
theorem trim_of_unpadded (unpadded : Unpadded s) : trim s = s := by
  have hdrop (t : List Char) (ht : ∀ c ∈ t.head?, isBlank c = false) : dropBlanks t = t := by
    cases t with
    | nil => rfl
    | cons c t => exact List.dropWhile_cons_of_neg (Bool.eq_false_iff.1 (ht c rfl))
  have hlast : ∀ c ∈ s.reverse.head?, isBlank c = false := by
    rw [List.head?_reverse]
    exact unpadded.2
  rw [trim, hdrop s unpadded.1, hdrop s.reverse hlast, List.reverse_reverse]

/-- A text that neither begins nor ends with a blank and writes a number is single spaced, since there
    is no blank in it at all. -/
theorem singleSpaced_of_writesRank {e : String} {rank : Int} (unpadded : Unpadded e.toList)
    (h : WritesRank e rank) : SingleSpaced e.toList := by
  obtain ⟨x, hx, _⟩ := h
  rw [numberIn?, trim_of_unpadded unpadded] at hx
  have hnone := noBlanks_of_literal? hx
  have hempty : SingleSpaced (spaceOut []) :=
    singleSpaced_spaceOut fun _ hw => absurd hw List.not_mem_nil
  rw [← List.append_nil e.toList, singleSpaced_append hnone]
  exact hempty

end NoBlanks

/-! ## The text that is compared -/

/-- A text with single blanks between its words, and none around them. -/
def wordByWord (e : String) : String := String.ofList (spaceOut (words e.toList))

namespace Assertion

/-- An assertion as it is written, whatever the expected text is. -/
def written (path : String) (p : Predicate) (e : String) : String :=
  path ++ " " ++ p.name ++ " " ++ e

section Written

variable {path : String} {p : Predicate} {e : String}

/-- A text that is not empty and has no blanks at its ends has words. -/
theorem words_ne_nil_of_unpadded (nonempty : e ≠ "") (unpadded : Unpadded e.toList) :
    words e.toList ≠ [] := by
  intro hnil
  have hhead := (hnil ▸ spaced_words e.toList).head?_of_nil
  cases htext : e.toList with
  | nil => exact nonempty (String.toList_eq_nil_iff.1 htext)
  | cons c rest =>
    rw [htext] at hhead unpadded
    exact absurd hhead (Bool.eq_false_iff.1 (unpadded.1 c rfl))

/-- What is written is read with the words of the expected text. -/
theorem parse_written (word : IsWord path.toList) (nonempty : e ≠ "")
    (unpadded : Unpadded e.toList) :
    parse (written path p e) = .ok ⟨path, p, wordByWord e⟩ := by
  -- path and name are words, and the text behind them is spaced into its own
  have hmade : MadeOf (path :: p.name :: (words e.toList).map String.ofList) (written path p e) := by
    have hwords : Spaced ((path :: p.name :: (words e.toList).map String.ofList).map String.toList)
        (path.toList ++ ' ' :: (p.name.toList ++ ' ' :: e.toList)) := by
      rw [List.map_cons, List.map_cons, map_toList_map_ofList]
      exact .word word rfl (.blank rfl (.word p.isWord_name rfl (.blank rfl (spaced_words _))))
    rw [MadeOf, written]
    simpa using hwords
  have htext : " ".intercalate ((words e.toList).map String.ofList) = wordByWord e := by
    rw [wordByWord, ← String.toList_inj, toList_intercalate_blank, String.toList_ofList,
      map_toList_map_ofList]
  rw [← htext]
  refine parse_of_reading hmade (.accepted fun _ hnil => ?_)
  exact words_ne_nil_of_unpadded nonempty unpadded (List.map_eq_nil_iff.1 hnil)

/-- So the expected text is seen only word by word. -/
theorem judge_written_iff (word : IsWord path.toList) (nonempty : e ≠ "")
    (unpadded : Unpadded e.toList) (observed : Observed) :
    judge observed (written path p e) = .satisfied
      ↔ p.Holds (observed.get? path) (wordByWord e) := by
  rw [judge_eq_satisfied_iff, Satisfied, parse_written word nonempty unpadded]
  constructor
  · rintro ⟨a, ha, hholds⟩
    cases ha
    exact hholds
  · exact fun hholds => ⟨_, rfl, hholds⟩

/-- A text is its words with single blanks iff its blanks are single. -/
theorem wordByWord_eq_iff (unpadded : Unpadded e.toList) :
    wordByWord e = e ↔ SingleSpaced e.toList := by
  rw [← spaceOut_words_eq_iff unpadded, wordByWord, ← String.toList_inj, String.toList_ofList]

/-- A text agrees with its words iff its blanks are single: with others in it, it writes no number. -/
theorem agree_wordByWord_iff (unpadded : Unpadded e.toList) :
    Agree e (wordByWord e) ↔ SingleSpaced e.toList := by
  constructor
  · rintro (hsame | ⟨rank, hrank, _⟩)
    · exact (wordByWord_eq_iff unpadded).1 hsame.symm
    · exact singleSpaced_of_writesRank unpadded hrank
  · exact fun single => .inl ((wordByWord_eq_iff unpadded).2 single).symm

/-- A text contains its words with single blanks between them only if its own blanks are single. -/
theorem wordByWord_infix_iff (unpadded : Unpadded e.toList) :
    (wordByWord e).toList <:+: e.toList ↔ SingleSpaced e.toList := by
  rw [wordByWord, String.toList_ofList, spaceOut_words_infix_iff unpadded,
    spaceOut_words_eq_iff unpadded]

/-- **The expected text is compared word by word.**  Whatever text is written behind a predicate, its
    words with single blanks between them are compared, and so it is compared as it is written iff its
    blanks are single ones.  If they are, a value passes as one that does not contain the text only if it
    does not, and a value with this very text equals it.  If they are not, a value with this very text
    neither equals what is compared nor contains it. -/
theorem literal_compared_in_words (word : IsWord path.toList) (nonempty : e ≠ "")
    (unpadded : Unpadded e.toList) :
    parse (written path p e) = .ok ⟨path, p, wordByWord e⟩
      ∧ (wordByWord e = e ↔ SingleSpaced e.toList)
      ∧ ∀ observed : Observed,
        (judge observed (written path p e) = .satisfied
            ↔ p.Holds (observed.get? path) (wordByWord e))
          ∧ (∀ value, observed.get? path = some (.text value) → SingleSpaced e.toList →
              (judge observed (written path .notContainSubstring e) = .satisfied
                ↔ ¬ e.toList <:+: value.toList))
          ∧ (observed.get? path = some (.text e) →
              (judge observed (written path .equal e) = .satisfied ↔ SingleSpaced e.toList)
                ∧ (judge observed (written path .notContainSubstring e) = .satisfied
                  ↔ ¬ SingleSpaced e.toList)) := by
  have hequal := judge_written_iff (p := .equal) word nonempty unpadded
  have hapart := judge_written_iff (p := .notContainSubstring) word nonempty unpadded
  -- all that is said of values follows from what the two predicates hold of
  refine ⟨parse_written word nonempty unpadded, wordByWord_eq_iff unpadded, fun observed =>
    ⟨judge_written_iff word nonempty unpadded observed, fun value hvalue single => ?_,
      fun hvalue => ⟨?_, ?_⟩⟩⟩
  · rw [hapart, hvalue, (wordByWord_eq_iff unpadded).2 single]
    rfl
  · rw [hequal, hvalue]
    exact agree_wordByWord_iff unpadded
  · rw [hapart, hvalue]
    exact not_congr (wordByWord_infix_iff unpadded)

/-- Two words, with one blank between them and with two. -/
theorem literal_compared_in_words_greeting :
    let observed := Observed.empty.insert "result.body" (.text "hello  world")
    parse (written "result.body" .equal "hello world") = .ok ⟨"result.body", .equal, "hello world"⟩
      ∧ judge observed (written "result.body" .equal "hello  world") ≠ .satisfied
      ∧ judge observed (written "result.body" .notContainSubstring "hello world") = .satisfied := by
  intro observed
  have hword : IsWord "result.body".toList := by decide +kernel
  have hvalue : observed.get? "result.body" = some (.text "hello  world") := rfl
  have hsingle : SingleSpaced "hello world".toList := by decide +kernel
  obtain ⟨hparse, hsame, hseen⟩ := literal_compared_in_words (p := .equal) (e := "hello world") hword
    (by decide) (by decide +kernel)
  obtain ⟨_, _, hown⟩ := literal_compared_in_words (p := .equal) (e := "hello  world") hword
    (by decide) (by decide +kernel)
  refine ⟨hsame.2 hsingle ▸ hparse, ?_, ?_⟩
  · rw [ne_eq, ((hown observed).2.2 hvalue).1]
    decide +kernel
  · refine ((hseen observed).2.1 _ hvalue hsingle).2 ?_
    rw [← occursIn_iff]
    decide +kernel

/-- A text with two blanks in it is compared with one, so the value that has this very text passes as
    one that does not contain it and fails as one that equals it. -/
theorem literal_blanks_lost :
    let observed := Observed.ofJson (.object [("body", .text "a  b")])
    IsWord "result.body".toList ∧ Unpadded "a  b".toList
      ∧ parse "result.body ShouldNotContainSubstring a  b"
        = .ok ⟨"result.body", .notContainSubstring, "a b"⟩
      ∧ evaluate observed ["result.body ShouldNotContainSubstring a  b"] none = ⟨[], []⟩
      ∧ evaluate observed ["result.body ShouldEqual a  b"] none
        = ⟨[], ["Assertion \"result.body ShouldEqual a  b\" failed. result.body: got 'a  b', "
            ++ "expected ShouldEqual 'a b'"]⟩ := by
  intro observed
  exact ⟨by decide +kernel, by decide +kernel, by rfl, by decide +kernel, by decide +kernel⟩

end Written
end Assertion
end TestBench
