import Mathlib
import TestBench.Assertion.Expression
import TestBench.Proofs.SpacedWords
/-
  The grammar of assertions.

  1. An expression is judged by the words that it is made of (`parse_eq_ofWords`), so two texts of the
     same words are the same assertion, or are refused for the same reason (`parse_respaced`).
  2. `Reading` says for each answer which words lead to it.  There are three reasons to refuse an
     expression, and each of them comes before the next.
  3. What was accepted is written as a text by `rendering`, which is made of the same words, so it is
     accepted again as the same assertion.
-/
namespace TestBench

open TestBench.Text

/-- The words of an expression, with blanks between them. -/
def MadeOf (tokens : List String) (s : String) : Prop :=
  Spaced (tokens.map String.toList) s.toList

/-- A text is made of the words that are read of it. -/
theorem madeOf_iff {tokens : List String} {s : String} :
    MadeOf tokens s ↔ (words s.toList).map String.ofList = tokens := by
  rw [MadeOf, spaced_iff]
  constructor
  · intro h
    rw [h, map_ofList_map_toList]
  · rintro rfl
    rw [map_toList_map_ofList]

theorem MadeOf.isWord {tokens : List String} {s : String} (h : MadeOf tokens s) :
    ∀ t ∈ tokens, IsWord t.toList := by
  intro t ht
  have hmem : t.toList ∈ words s.toList := by
    rw [spaced_iff.1 h]
    exact List.mem_map_of_mem ht
  exact isWord_of_mem_words hmem

/-- Words joined with single blanks are a text of these words. -/
theorem madeOf_intercalate {tokens : List String} (h : ∀ t ∈ tokens, IsWord t.toList) :
    MadeOf tokens (" ".intercalate tokens) := by
  rw [MadeOf, toList_intercalate_blank]
  exact spaced_spaceOut (List.forall_mem_map.2 h)

/-- The text that joins words is empty only if there are none. -/
theorem intercalate_eq_empty_iff {tokens : List String} (h : ∀ t ∈ tokens, IsWord t.toList) :
    " ".intercalate tokens = "" ↔ tokens = [] := by
  refine ⟨fun hempty => ?_, fun hnil => hnil ▸ rfl⟩
  have hwords := madeOf_iff.1 (madeOf_intercalate h)
  rw [hempty] at hwords
  exact hwords.symm

/-- The same reason, given for another text. -/
def AssertionError.about (e : AssertionError) (expression : String) : AssertionError :=
  match e with
  | malformed _ => malformed expression
  | unknownPredicate name _ => unknownPredicate name expression
  | missingExpected _ => missingExpected expression

namespace Predicate

theorem isWord_name (p : Predicate) : IsWord p.name.toList := by
  cases p <;> decide +kernel

/-- A name that is not read is the name of no predicate. -/
theorem ofName?_eq_none_iff {name : String} : ofName? name = none ↔ ∀ p : Predicate, p.name ≠ name := by
  rw [ofName?, List.find?_eq_none]
  simp [mem_all]

end Predicate

namespace Assertion

/-- An assertion as a text. -/
def rendering (a : Assertion) : String :=
  " ".intercalate (a.path :: a.predicate.name :: if a.expected = "" then [] else [a.expected])

/-- Parsing looks at the words; at the text only to quote it. -/
theorem parse_eq_ofWords {tokens : List String} {s : String} (h : MadeOf tokens s) :
    parse s = ofWords s tokens := by
  rw [parse, madeOf_iff.1 h]

/-- The text itself only matters for what a refusal quotes. -/
theorem ofWords_about (s t : String) (tokens : List String) :
    ofWords t tokens = (ofWords s tokens).mapError (·.about t) := by
  unfold ofWords
  split
  · split
    · rfl
    · dsimp only
      split <;> rfl
  · rfl

/-- Texts that are made of the same words are the same assertion, or none for the same reason. -/
theorem parse_respaced {tokens : List String} {s t : String} (hs : MadeOf tokens s)
    (ht : MadeOf tokens t) : parse t = (parse s).mapError (·.about t) := by
  rw [parse_eq_ofWords hs, parse_eq_ofWords ht]
  exact ofWords_about s t tokens

/-- The answer to the words of an expression.  Each rule leaves no room for the others. -/
inductive Reading (s : String) : List String → Except AssertionError Assertion → Prop
  | tooShort {tokens : List String} (short : tokens.length < 2) :
      Reading s tokens (.error (.malformed s))
  | unknown {path name : String} {rest : List String} (unknown : ∀ p : Predicate, p.name ≠ name) :
      Reading s (path :: name :: rest) (.error (.unknownPredicate name s))
  | missing {path : String} {p : Predicate} (takes : p.takesExpected = true) :
      Reading s [path, p.name] (.error (.missingExpected s))
  | accepted {path : String} {p : Predicate} {rest : List String}
      (given : p.takesExpected = true → rest ≠ []) :
      Reading s (path :: p.name :: rest) (.ok ⟨path, p, " ".intercalate rest⟩)

/-- Two words or more, of which the second is the name of a predicate. -/
theorem ofWords_name (s path : String) (p : Predicate) {rest : List String}
    (h : ∀ t ∈ rest, IsWord t.toList) :
    ofWords s (path :: p.name :: rest) = if p.takesExpected = true ∧ rest = []
      then .error (.missingExpected s) else .ok ⟨path, p, " ".intercalate rest⟩ := by
  have hmissing : (p.takesExpected && (" ".intercalate rest).isEmpty) = true
      ↔ p.takesExpected = true ∧ rest = [] := by
    rw [Bool.and_eq_true, String.isEmpty_iff, intercalate_eq_empty_iff h]
  simp only [ofWords, Predicate.ofName?_name]
  exact if_congr hmissing rfl rfl

section Reading

variable {s : String} {tokens : List String}

/-- An expression has the answer that the grammar gives to its words. -/
theorem reading_parse (h : MadeOf tokens s) : Reading s tokens (parse s) := by
  rw [parse_eq_ofWords h]
  -- one case for each rule of the grammar: too few words, no predicate of that name, no expected text,
  -- accepted
  match tokens with
  | [] => exact .tooShort (by decide)
  | [path] => exact .tooShort (by simp)
  | path :: name :: rest =>
    cases hname : Predicate.ofName? name with
    | none =>
      rw [ofWords, hname]
      exact .unknown (Predicate.ofName?_eq_none_iff.1 hname)
    | some p =>
      have hrest : ∀ t ∈ rest, IsWord t.toList := fun t ht => h.isWord t (by simp [ht])
      rw [← Predicate.name_of_ofName? hname, ofWords_name s path p hrest]
      split
      · rename_i hmissing
        rw [hmissing.2]
        exact .missing hmissing.1
      · rename_i hgiven
        exact .accepted fun takes hnil => hgiven ⟨takes, hnil⟩

/-- The grammar gives no other answer. -/
theorem parse_of_reading (h : MadeOf tokens s) {answer : Except AssertionError Assertion}
    (reading : Reading s tokens answer) : parse s = answer := by
  rw [parse_eq_ofWords h]
  cases reading with
  | tooShort short =>
    match tokens with
    | [] => rfl
    | [path] => rfl
    | _ :: _ :: rest => simp at short
  | unknown hunknown => rw [ofWords, Predicate.ofName?_eq_none_iff.2 hunknown]
  | @missing path p takes =>
    rw [ofWords_name s path p (fun t ht => absurd ht List.not_mem_nil), if_pos ⟨takes, rfl⟩]
  | @accepted path p rest given =>
    have hrest : ∀ t ∈ rest, IsWord t.toList := fun t ht => h.isWord t (by simp [ht])
    rw [ofWords_name s path p hrest, if_neg fun hmissing => given hmissing.1 hmissing.2]

end Reading

/-! ## Writing an assertion -/

/-- An assertion that was accepted is written with the words that it was read of. -/
theorem madeOf_rendering {s : String} {path : String} {p : Predicate} {rest : List String}
    (h : MadeOf (path :: p.name :: rest) s) :
    MadeOf (path :: p.name :: rest) (rendering ⟨path, p, " ".intercalate rest⟩) := by
  have hrest : ∀ t ∈ rest, IsWord t.toList := fun t ht => h.isWord t (by simp [ht])
  have htext : rendering ⟨path, p, " ".intercalate rest⟩
      = " ".intercalate (path :: p.name :: rest) := by
    rw [rendering]
    dsimp only
    -- without an expected text nothing is written behind the name, no blank either
    cases rest with
    | nil => rfl
    | cons t rest =>
      have hgiven : " ".intercalate (t :: rest) ≠ "" :=
        mt (intercalate_eq_empty_iff hrest).1 (List.cons_ne_nil t rest)
      rw [if_neg hgiven]
      simp only [String.intercalate_cons_cons, String.intercalate_singleton]
  rw [htext]
  exact madeOf_intercalate h.isWord

/-- **Parsing accepts exactly the grammar.**  Every expression is made of one list of words, and its
    answer is the one that the grammar gives to them: there are too few, else no predicate has the name,
    else the expected text is missing, else they are an assertion.  Other blanks before, between or
    behind the words change nothing but the text that a refusal quotes.  What was accepted is accepted
    again from its rendering, as the same assertion. -/
theorem parse_iff_reading (s : String) :
    (∃! tokens, MadeOf tokens s)
      ∧ (∀ tokens, MadeOf tokens s → (∀ answer, parse s = answer ↔ Reading s tokens answer)
          ∧ ∀ t, MadeOf tokens t → parse t = (parse s).mapError (·.about t))
      ∧ (∀ front gap gap' back, s = front ++ gap ++ back → IsGap gap.toList → IsGap gap'.toList →
          parse (front ++ gap' ++ back) = (parse s).mapError (·.about (front ++ gap' ++ back)))
      ∧ ∀ a, parse s = .ok a → parse a.rendering = .ok a := by
  have hmade : MadeOf ((words s.toList).map String.ofList) s := madeOf_iff.2 rfl
  refine ⟨⟨_, hmade, fun tokens h => (madeOf_iff.1 h).symm⟩, fun tokens h => ⟨fun answer => ?_, ?_⟩,
    ?_, ?_⟩
  · exact ⟨fun hanswer => hanswer ▸ reading_parse h, parse_of_reading h⟩
  · exact fun t ht => parse_respaced h ht
  · intro front gap gap' back hs hgap hgap'
    -- any gap separates the words in front of it from those behind
    refine parse_respaced hmade (madeOf_iff.2 ?_)
    rw [hs]
    simp only [String.toList_append, words_append_blanks hgap, words_append_blanks hgap']
  · intro a ha
    have hreading := reading_parse hmade
    rw [ha] at hreading
    generalize (words s.toList).map String.ofList = tokens at hmade hreading
    -- only the rule that accepts gives an assertion
    cases hreading with
    | @accepted path p rest given =>
      exact parse_of_reading (madeOf_rendering hmade) (.accepted given)

/-- Four words with various blanks around them, and what is left of the same expression as words are
    taken away. -/
theorem parse_iff_reading_greeting :
    let s := "  result.body\tShouldContainSubstring hello \n world"
    parse s = .ok ⟨"result.body", .containSubstring, "hello world"⟩
      ∧ parse "result.body ShouldContainSubstring hello world"
        = .ok ⟨"result.body", .containSubstring, "hello world"⟩
      ∧ parse "result.body hello world"
        = .error (.unknownPredicate "hello" "result.body hello world")
      ∧ parse " ShouldContainSubstring" = .error (.malformed " ShouldContainSubstring") := by
  intro s
  have hmade : MadeOf ["result.body", "ShouldContainSubstring", "hello", "world"] s :=
    madeOf_iff.2 (by decide +kernel)
  have hread : parse s = .ok ⟨"result.body", .containSubstring, "hello world"⟩ :=
    (((parse_iff_reading s).2.1 _ hmade).1 _).2
      (.accepted (p := .containSubstring) fun _ => List.cons_ne_nil _ _)
  refine ⟨hread, (parse_iff_reading s).2.2.2 _ hread, ?_, ?_⟩
  · have hmade' : MadeOf ["result.body", "hello", "world"] "result.body hello world" :=
      madeOf_iff.2 (by decide +kernel)
    exact (((parse_iff_reading _).2.1 _ hmade').1 _).2 (.unknown fun p => by cases p <;> decide)
  · have hmade' : MadeOf ["ShouldContainSubstring"] " ShouldContainSubstring" :=
      madeOf_iff.2 (by decide +kernel)
    exact (((parse_iff_reading _).2.1 _ hmade').1 _).2 (.tooShort (by decide))

end Assertion
end TestBench
