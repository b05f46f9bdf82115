import Mathlib
import TestBench.Proofs.TextPieces
/-
  Words and the blanks around them.

  1. `Spaced` says which words a text is made of: in front of each word, behind it and between two of
     them there may be blanks, and between two of them there is at least one.  Every text is made of
     exactly one list of words (`spaced_iff`).
  2. So blanks can be exchanged for others without a change to the words (`words_append_blanks`).
  3. Words with single blanks between them are a normal form.  A text that neither begins nor ends with
     a blank is in it iff its blanks are single ones (`spaceOut_words_eq_iff`); if it is not, its normal
     form does not even occur in it (`spaceOut_words_infix_iff`), as there would have to be blanks
     around it.
-/
namespace TestBench.Text

/-! ## The words of a text -/

/-- Words with blanks between them, and perhaps in front of the first and behind the last. -/
inductive Spaced : List (List Char) → List Char → Prop
  | nil : Spaced [] []
  | blank {c : Char} {s : List Char} {ws : List (List Char)} (isBlank : isBlank c = true)
      (others : Spaced ws s) : Spaced ws (c :: s)
  | word {w s : List Char} {ws : List (List Char)} (isWord : IsWord w)
      (ends : s.head?.all isBlank = true) (others : Spaced ws s) : Spaced (w :: ws) (w ++ s)

theorem words_of_spaced {ws : List (List Char)} {s : List Char} (h : Spaced ws s) :
    words s = ws := by
  induction h with
  | nil => rfl
  | blank hc _ ih => rw [words, if_pos hc, ih]
  | word hw ends _ ih => rw [words_append hw ends, ih]

/-- A text without words begins with a blank, unless it is empty. -/
theorem Spaced.head?_of_nil {s : List Char} (h : Spaced [] s) : s.head?.all isBlank = true := by
  cases h with
  | nil => rfl
  | blank hc _ => exact hc

/-- A text is spaced into the words that are read of it. -/
theorem spaced_words (s : List Char) : Spaced (words s) s := by
  fun_induction words s with
  | case1 => exact .nil
  | case2 c rest hc ih => exact .blank hc ih
  | case3 c rest hc ends ih =>
    exact .word (w := [c]) ⟨List.cons_ne_nil c [], List.forall_mem_singleton.2 (Bool.eq_false_iff.2 hc)⟩
      ends ih
  | case4 c rest hc inside hnone ih =>
    -- a character that is no blank comes next, so there is a word behind
    exact absurd (hnone ▸ ih).head?_of_nil inside
  | case5 c rest hc inside w ws hwords ih =>
    rw [hwords] at ih
    cases ih with
    | blank hblank _ => exact absurd hblank inside
    | @word _ s _ hw ends others =>
      -- the word goes on, and takes one more character in front
      have hcw : IsWord (c :: w) :=
        ⟨List.cons_ne_nil c w, List.forall_mem_cons.2 ⟨Bool.eq_false_iff.2 hc, hw.2⟩⟩
      exact .word hcw ends others

/-- Every text is made of its words and of no others. -/
theorem spaced_iff {ws : List (List Char)} {s : List Char} : Spaced ws s ↔ words s = ws :=
  ⟨words_of_spaced, fun h => h ▸ spaced_words s⟩

/-- What is read as a word is one. -/
theorem isWord_of_mem_words {s w : List Char} (h : w ∈ words s) : IsWord w :=
  ⟨words_ne_nil h, words_not_blank h⟩

/-! ## Other blanks -/

/-- One or more blanks. -/
def IsGap (g : List Char) : Prop := g ≠ [] ∧ ∀ c ∈ g, isBlank c = true

/-- A blank ends a word, if there is one in front of it. -/
theorem words_append_blank {c : Char} (hc : isBlank c = true) (s t : List Char) :
    words (s ++ c :: t) = words s ++ words t := by
  fun_induction words s with
  | case1 => rw [List.nil_append, words, if_pos hc, List.nil_append]
  | case2 d rest hd ih => rw [List.cons_append, words, if_pos hd, ih]
  | case3 d rest hd ends ih =>
    -- at the end of `s` the blank ends the word, as the end of the text did before
    have hends : (rest ++ c :: t).head?.all isBlank = true := by
      cases rest with
      | nil => exact hc
      | cons e rest => exact ends
    rw [List.cons_append, words, if_neg hd, if_pos hends, ih, List.cons_append]
  | case4 d rest hd inside hnone _ =>
    exact absurd (hnone ▸ spaced_words rest).head?_of_nil inside
  | case5 d rest hd inside w ws hwords ih =>
    -- inside a word of `s` nothing changes
    have hinside : ¬ (rest ++ c :: t).head?.all isBlank = true := by
      cases rest with
      | nil => exact absurd rfl inside
      | cons e rest => exact inside
    rw [hwords] at ih
    rw [List.cons_append, words, if_neg hd, if_neg hinside, ih, List.cons_append, List.cons_append]

/-- Blanks stand between words and belong to none, however many they are. -/
theorem words_append_blanks {g : List Char} (gap : IsGap g) (s t : List Char) :
    words (s ++ g ++ t) = words s ++ words t := by
  obtain ⟨hne, hall⟩ := gap
  induction g generalizing s with
  | nil => exact absurd rfl hne
  | cons c g ih =>
    obtain ⟨hc, hg⟩ := List.forall_mem_cons.1 hall
    rw [List.append_assoc, List.cons_append, words_append_blank hc]
    -- the first blank ends a word; those behind it find no word begun
    cases g with
    | nil => rfl
    | cons d g =>
      have hrest := ih [] (List.cons_ne_nil d g) hg
      rw [List.nil_append] at hrest
      rw [hrest]
      rfl

/-! ## Single blanks -/

/-- Words with single blanks between them. -/
def spaceOut (ws : List (List Char)) : List Char := joinChar ' ' ws

theorem spaceOut_cons {w : List Char} {ws : List (List Char)} (h : ws ≠ []) :
    spaceOut (w :: ws) = w ++ ' ' :: spaceOut ws := by
  cases ws with
  | nil => exact absurd rfl h
  | cons v ws => rfl

/-- Lists of characters are texts and back again. -/
theorem map_toList_map_ofList (ws : List (List Char)) :
    (ws.map String.ofList).map String.toList = ws := by
  rw [List.map_map]
  exact (List.map_congr_left fun w _ => String.toList_ofList).trans (List.map_id ws)

theorem map_ofList_map_toList (tokens : List String) :
    (tokens.map String.toList).map String.ofList = tokens := by
  rw [List.map_map]
  exact (List.map_congr_left fun t _ => String.ofList_toList).trans (List.map_id tokens)

/-- Joined tokens are their characters, spaced out. -/
theorem toList_intercalate_blank (tokens : List String) :
    (" ".intercalate tokens).toList = spaceOut (tokens.map String.toList) := by
  rw [String.toList_intercalate]
  induction tokens with
  | nil => rfl
  | cons t rest ih =>
    cases rest with
    | nil => simp [spaceOut, joinChar]
    | cons u rest =>
      rw [List.map_cons, spaceOut_cons (by simp), ← ih]
      simp [List.intercalate]

theorem spaced_spaceOut {ws : List (List Char)} (h : ∀ w ∈ ws, IsWord w) :
    Spaced ws (spaceOut ws) := by
  induction ws with
  | nil => exact .nil
  | cons w ws ih =>
    obtain ⟨hw, hws⟩ := List.forall_mem_cons.1 h
    by_cases hnil : ws = []
    · rw [hnil]
      have hword : Spaced [w] (w ++ []) := .word hw rfl .nil
      rwa [List.append_nil] at hword
    · rw [spaceOut_cons hnil]
      exact .word hw rfl (.blank rfl (ih hws))

/-- Words are read again from where they are spaced out. -/
theorem words_spaceOut {ws : List (List Char)} (h : ∀ w ∈ ws, IsWord w) :
    words (spaceOut ws) = ws := words_of_spaced (spaced_spaceOut h)

/-- A text that neither begins nor ends with a blank. -/
def Unpadded (s : List Char) : Prop :=
  (∀ c ∈ s.head?, isBlank c = false) ∧ ∀ c ∈ s.getLast?, isBlank c = false

/-- All blanks are the usual one, and no two stand next to each other. -/
def SingleSpaced (s : List Char) : Prop :=
  (∀ c ∈ s, isBlank c = true → c = ' ') ∧ s.IsChain fun a b => isBlank a = false ∨ isBlank b = false

instance (s : List Char) : Decidable (Unpadded s) :=
  decidable_of_iff (s.head?.all (!isBlank ·) = true ∧ s.getLast?.all (!isBlank ·) = true)
    (by simp [Unpadded, Option.all_eq_true])

instance (s : List Char) : Decidable (SingleSpaced s) :=
  decidable_of_iff (s.all (fun c => !isBlank c || c = ' ') = true
      ∧ s.IsChain fun a b => isBlank a = false ∨ isBlank b = false)
    (by simp [SingleSpaced, List.all_eq_true, imp_iff_not_or])

/-- Single spacing is a matter of neighbours. -/
theorem singleSpaced_cons {c : Char} {s : List Char} : SingleSpaced (c :: s)
    ↔ (isBlank c = true → c = ' ') ∧ (∀ d ∈ s.head?, isBlank c = false ∨ isBlank d = false)
      ∧ SingleSpaced s := by
  rw [SingleSpaced, SingleSpaced, List.forall_mem_cons, List.isChain_cons]
  tauto

/-- What follows a word is single spaced if the whole is, and the other way round. -/
theorem singleSpaced_append {w s : List Char} (h : ∀ c ∈ w, isBlank c = false) :
    SingleSpaced (w ++ s) ↔ SingleSpaced s := by
  induction w with
  | nil => rfl
  | cons c w ih =>
    obtain ⟨hc, hw⟩ := List.forall_mem_cons.1 h
    rw [List.cons_append, singleSpaced_cons, ih hw]
    exact ⟨fun h => h.2.2,
      fun h => ⟨fun hblank => absurd hblank (Bool.eq_false_iff.1 hc), fun _ _ => .inl hc, h⟩⟩

theorem head?_spaceOut {ws : List (List Char)} (h : ∀ w ∈ ws, IsWord w) :
    ∀ c ∈ (spaceOut ws).head?, isBlank c = false := by
  intro c hc
  cases ws with
  | nil => cases hc
  | cons w ws =>
    obtain ⟨⟨hne, hw⟩, _⟩ := List.forall_mem_cons.1 h
    rw [spaceOut, joinChar_cons, List.head?_append_of_ne_nil _ hne] at hc
    exact hw c (List.mem_of_head? hc)

/-- Spaced out words have single blanks between them, and none elsewhere. -/
theorem singleSpaced_spaceOut {ws : List (List Char)} (h : ∀ w ∈ ws, IsWord w) :
    SingleSpaced (spaceOut ws) := by
  have hempty : SingleSpaced [] := ⟨fun _ hc => absurd hc List.not_mem_nil, .nil⟩
  induction ws with
  | nil => exact hempty
  | cons w ws ih =>
    obtain ⟨hw, hws⟩ := List.forall_mem_cons.1 h
    by_cases hnil : ws = []
    · have hword := (singleSpaced_append hw.2).2 hempty
      rw [List.append_nil] at hword
      rwa [hnil]
    · rw [spaceOut_cons hnil, singleSpaced_append hw.2, singleSpaced_cons]
      exact ⟨fun _ => rfl, fun d hd => .inr (head?_spaceOut hws d hd), ih hws⟩

/-- A single spaced text that does not end with a blank is in normal form, but for one blank that may
    stand in front. -/
theorem eq_spaceOut_or {ws : List (List Char)} {s : List Char} (spaced : Spaced ws s)
    (single : SingleSpaced s) (last : ∀ c ∈ s.getLast?, isBlank c = false) :
    s = spaceOut ws ∨ ws ≠ [] ∧ s = ' ' :: spaceOut ws := by
  induction spaced with
  | nil => exact .inl rfl
  | @blank c s ws hc others ih =>
    obtain ⟨hspace, hnext, hs⟩ := singleSpaced_cons.1 single
    cases s with
    | nil =>
      have hnot : isBlank c = false := last c rfl
      exact absurd hc (Bool.eq_false_iff.1 hnot)
    | cons d s =>
      rw [List.getLast?_cons_cons] at last
      have hd : isBlank d = false :=
        (hnext d rfl).resolve_left fun hnot => absurd hc (Bool.eq_false_iff.1 hnot)
      rcases ih hs last with hnormal | ⟨_, hpadded⟩
      · refine .inr ⟨?_, by rw [hspace hc, ← hnormal]⟩
        rintro rfl
        cases hnormal
      · injection hpadded with hspace
        exact absurd (hspace ▸ hd) (by decide)
  | @word w s ws hw ends others ih =>
    have hs := (singleSpaced_append hw.2).1 single
    cases s with
    | nil =>
      rw [← words_of_spaced others]
      exact .inl (List.append_nil w)
    | cons c s =>
      have hlast : ∀ d ∈ (c :: s).getLast?, isBlank d = false := fun d hd =>
        last d (by rw [List.getLast?_append_of_ne_nil w (List.cons_ne_nil c s)]; exact hd)
      rcases ih hs hlast with hnormal | ⟨hne, hpadded⟩
      · -- a normal form does not begin with a blank
        have hwords : ∀ v ∈ ws, IsWord v := fun v hv =>
          isWord_of_mem_words (words_of_spaced others ▸ hv)
        have hc : isBlank c = false := head?_spaceOut hwords c (by rw [← hnormal]; rfl)
        exact absurd ends (Bool.eq_false_iff.1 hc)
      · exact .inl (by rw [spaceOut_cons hne, hpadded])

/-- **A text is in normal form iff its blanks are single ones**, if it neither begins nor ends with a
    blank. -/
theorem spaceOut_words_eq_iff {s : List Char} (unpadded : Unpadded s) :
    spaceOut (words s) = s ↔ SingleSpaced s := by
  constructor
  · intro h
    exact h ▸ singleSpaced_spaceOut fun w hw => isWord_of_mem_words hw
  · intro single
    rcases eq_spaceOut_or (spaced_words s) single unpadded.2 with hnormal | ⟨_, hpadded⟩
    · exact hnormal.symm
    · have hblank : isBlank ' ' = false := unpadded.1 ' ' (by rw [hpadded]; rfl)
      exact absurd hblank (by decide)

/-- The words are what is left of a text without its blanks. -/
theorem flatten_words (s : List Char) : (words s).flatten = s.filter (!isBlank ·) := by
  have hspaced := spaced_words s
  generalize words s = ws at hspaced
  induction hspaced with
  | nil => rfl
  | blank hc _ ih => rw [List.filter_cons_of_neg (by simp [hc]), ih]
  | word hw _ _ ih =>
    have hword := List.filter_eq_self.2 fun c hc => congrArg not (hw.2 c hc)
    rw [List.flatten_cons, List.filter_append, hword, ih]

/-- **The normal form of a text occurs in the text only if it is the text**, if this neither begins nor
    ends with a blank. -/
theorem spaceOut_words_infix_iff {s : List Char} (unpadded : Unpadded s) :
    spaceOut (words s) <:+: s ↔ spaceOut (words s) = s := by
  refine ⟨?_, fun h => by rw [h]⟩
  rintro ⟨front, back, h⟩
  have hwords : words (spaceOut (words s)) = words s :=
    words_spaceOut fun w hw => isWord_of_mem_words hw
  -- both have the same characters that are no blanks, so only blanks can stand around the normal form
  have hsame : (spaceOut (words s)).filter (!isBlank ·) = s.filter (!isBlank ·) := by
    rw [← flatten_words, hwords, flatten_words]
  have hlength := congrArg (fun s => (s.filter (!isBlank ·)).length) h
  simp only [List.filter_append, List.length_append, hsame] at hlength
  have hblank (t : List Char) (ht : (t.filter (!isBlank ·)).length = 0) :
      ∀ c ∈ t, isBlank c = true := by
    intro c hc
    have := List.filter_eq_nil_iff.1 (List.length_eq_zero_iff.1 ht) c hc
    simpa using this
  have hfront : front = [] := by
    cases front with
    | nil => rfl
    | cons c front =>
      have hc : isBlank c = true := hblank (c :: front) (by omega) c List.mem_cons_self
      exact absurd hc (Bool.eq_false_iff.1 (unpadded.1 c (by rw [← h]; rfl)))
  have hback : back = [] := by
    by_contra hne
    have hlast : s.getLast? = some (back.getLast hne) := by
      rw [← h, List.getLast?_append_of_ne_nil _ hne, List.getLast?_eq_getLast_of_ne_nil hne]
    have hc : isBlank (back.getLast hne) = true :=
      hblank back (by omega) _ (List.getLast_mem hne)
    exact absurd hc (Bool.eq_false_iff.1 (unpadded.2 _ hlast))
  rw [hfront, hback, List.nil_append, List.append_nil] at h
  exact h

end TestBench.Text
