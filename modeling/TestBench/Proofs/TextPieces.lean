import Mathlib
import TestBench.Text.Blank
import TestBench.Text.Search
/-
  Texts in pieces.

  1. A text that was joined is split into the same pieces, as long as the character between them stands
     in none of them (`splitChar_joinChar`); so joined texts differ as soon as their pieces do.
  2. Texts with the character between them are split one by one (`splitChar_append`), and what does not
     hold the character stands in a text iff it stands in one of its pieces (`infix_iff_exists_piece`).
  3. A part occurs in a text iff something stands in front of it and something behind it.
  4. A text without blanks is one word, up to its end or to a blank (`words_append`).
-/
namespace TestBench.Text

/-! ## Joined and split -/

/-- Joined pieces are split again, if the separator stands in none of them. -/
theorem splitChar_joinChar (sep : Char) (piece : List Char) (pieces : List (List Char))
    (h : ∀ p ∈ piece :: pieces, sep ∉ p) :
    splitChar sep (joinChar sep (piece :: pieces)) = piece :: pieces := by
  -- characters that are no separator go into the first piece of what is behind
  have hpiece (p rest : List Char) (hp : sep ∉ p) (first : List Char) (more : List (List Char))
      (hrest : splitChar sep rest = first :: more) :
      splitChar sep (p ++ rest) = (p ++ first) :: more := by
    induction p with
    | nil => exact hrest
    | cons c p ih =>
      rw [List.mem_cons, not_or] at hp
      rw [List.cons_append, splitChar, if_neg (Ne.symm hp.1), ih hp.2]
      rfl
  induction pieces generalizing piece with
  | nil =>
    have hsplit := hpiece piece [] (h piece List.mem_cons_self) [] [] rfl
    rw [List.append_nil] at hsplit
    exact hsplit
  | cons next rest ih =>
    have hnext := ih next fun p hp => h p (List.mem_cons_of_mem _ hp)
    have hcut : splitChar sep (sep :: joinChar sep (next :: rest)) = [] :: next :: rest := by
      rw [splitChar, if_pos rfl, hnext]
    have hsplit := hpiece piece _ (h piece List.mem_cons_self) [] (next :: rest) hcut
    rw [List.append_nil] at hsplit
    exact hsplit

theorem joinChar_cons (sep : Char) (piece : List Char) (pieces : List (List Char)) :
    joinChar sep (piece :: pieces) = piece ++ pieces.flatMap (sep :: ·) := by
  induction pieces generalizing piece with
  | nil => rw [joinChar, List.flatMap_nil, List.append_nil]
  | cons next rest ih =>
    show piece ++ sep :: joinChar sep (next :: rest) = _
    rw [ih, List.flatMap_cons, List.cons_append]

/-- Pieces that are joined behind a text are known from the result. -/
theorem append_flatMap_inj {sep : Char} {piece : List Char} {xs ys : List (List Char)}
    (hpiece : sep ∉ piece) (hx : ∀ x ∈ xs, sep ∉ x) (hy : ∀ y ∈ ys, sep ∉ y)
    (h : piece ++ xs.flatMap (sep :: ·) = piece ++ ys.flatMap (sep :: ·)) : xs = ys := by
  rw [← joinChar_cons, ← joinChar_cons] at h
  have hsplit := congrArg (splitChar sep) h
  rw [splitChar_joinChar sep piece xs (List.forall_mem_cons.2 ⟨hpiece, hx⟩),
    splitChar_joinChar sep piece ys (List.forall_mem_cons.2 ⟨hpiece, hy⟩)] at hsplit
  exact (List.cons.inj hsplit).2

/-! ## Pieces -/

/-- What stands in joined pieces is the separator, or stands in one of them. -/
theorem mem_joinChar {sep c : Char} {pieces : List (List Char)} (h : c ∈ joinChar sep pieces) :
    c = sep ∨ ∃ p ∈ pieces, c ∈ p := by
  induction pieces with
  | nil => cases h
  | cons piece rest ih =>
    cases rest with
    | nil => exact .inr ⟨piece, List.mem_cons_self, h⟩
    | cons next rest =>
      simp only [joinChar, List.mem_append, List.mem_cons] at h
      rcases h with h | h | h
      · exact .inr ⟨piece, List.mem_cons_self, h⟩
      · exact .inl h
      · rcases ih h with hsep | ⟨p, hp, hc⟩
        · exact .inl hsep
        · exact .inr ⟨p, List.mem_cons_of_mem _ hp, hc⟩

/-- Between two groups of pieces there is one more separator. -/
theorem joinChar_append {sep : Char} {pieces more : List (List Char)} (h : pieces ≠ [])
    (hmore : more ≠ []) :
    joinChar sep (pieces ++ more) = joinChar sep pieces ++ sep :: joinChar sep more := by
  induction pieces with
  | nil => exact absurd rfl h
  | cons piece rest ih =>
    cases rest with
    | nil =>
      cases more with
      | nil => exact absurd rfl hmore
      | cons next more => rfl
    | cons next rest =>
      have hrest := ih (List.cons_ne_nil _ _)
      rw [List.cons_append] at hrest
      simp only [List.cons_append, joinChar, hrest, List.append_assoc]

/-- A separator splits the texts before and behind it. -/
theorem splitChar_append (sep : Char) (s t : List Char) :
    splitChar sep (s ++ sep :: t) = splitChar sep s ++ splitChar sep t := by
  induction s with
  | nil => exact if_pos rfl
  | cons c s ih =>
    rw [List.cons_append, splitChar, splitChar]
    split
    · rw [ih, List.cons_append]
    · rw [ih]
      cases hs : splitChar sep s with
      | nil => exact absurd hs (splitChar_ne_nil sep s)
      | cons piece pieces => rfl

/-- There is one more piece than separators. -/
theorem length_splitChar (sep : Char) (s : List Char) :
    (splitChar sep s).length = s.count sep + 1 := by
  induction s with
  | nil => rfl
  | cons c s ih =>
    rw [splitChar]
    split
    · rename_i heq
      rw [heq, List.count_cons_self, List.length_cons, ih]
    · rename_i hne
      rw [List.count_cons_of_ne hne, ← ih]
      cases hs : splitChar sep s with
      | nil => exact absurd hs (splitChar_ne_nil sep s)
      | cons piece pieces => rfl

/-- No piece holds the separator. -/
theorem notMem_of_mem_splitChar {sep : Char} {s piece : List Char} (h : piece ∈ splitChar sep s) :
    sep ∉ piece := by
  induction s generalizing piece with
  | nil =>
    rw [List.mem_singleton.1 h]
    exact List.not_mem_nil
  | cons c s ih =>
    rw [splitChar] at h
    split at h
    · rcases List.mem_cons.1 h with rfl | h
      · exact List.not_mem_nil
      · exact ih h
    · -- this character is no separator, and goes into the first piece
      rename_i hc
      split at h
      · rename_i hnil
        exact absurd hnil (splitChar_ne_nil sep s)
      · rename_i first rest hsplit
        rcases List.mem_cons.1 h with rfl | h
        · rw [List.mem_cons, not_or]
          exact ⟨Ne.symm hc, ih (hsplit ▸ List.mem_cons_self)⟩
        · exact ih (hsplit ▸ List.mem_cons_of_mem first h)

/-- Every piece stands in the text. -/
theorem infix_of_mem_splitChar {sep : Char} {s piece : List Char} (h : piece ∈ splitChar sep s) :
    piece <:+: s := by
  obtain ⟨before, after, hpieces⟩ := List.append_of_mem h
  have hjoined := joinChar_splitChar sep s
  rw [hpieces] at hjoined
  have hback : piece <:+: joinChar sep (piece :: after) := by
    rw [joinChar_cons]
    exact (List.prefix_append piece _).isInfix
  -- nothing stands in front of the first piece; in front of any other, those before and a separator
  cases before with
  | nil => exact hjoined ▸ hback
  | cons first before =>
    rw [joinChar_append (List.cons_ne_nil _ _) (List.cons_ne_nil _ _)] at hjoined
    exact hjoined ▸ hback.trans ((List.suffix_cons sep _).isInfix.trans
      (List.suffix_append _ _).isInfix)

theorem mem_of_mem_splitChar {sep c : Char} {s piece : List Char} (h : piece ∈ splitChar sep s)
    (hc : c ∈ piece) : c ∈ s := (infix_of_mem_splitChar h).subset hc

/-- What a text begins with is at the beginning of its first piece, unless it is cut. -/
theorem exists_prefix_piece {sep : Char} {mark s : List Char} (uncut : sep ∉ mark) (h : mark <+: s) :
    ∃ piece pieces, splitChar sep s = piece :: pieces ∧ mark <+: piece := by
  induction mark generalizing s with
  | nil =>
    obtain ⟨piece, pieces, hpieces⟩ := List.exists_cons_of_ne_nil (splitChar_ne_nil sep s)
    exact ⟨piece, pieces, hpieces, List.nil_prefix⟩
  | cons d mark ih =>
    rw [List.mem_cons, not_or] at uncut
    obtain ⟨rest, rfl⟩ := h
    obtain ⟨piece, pieces, hpieces, hprefix⟩ := ih uncut.2 (List.prefix_append mark rest)
    refine ⟨d :: piece, pieces, ?_, List.cons_prefix_cons.2 ⟨rfl, hprefix⟩⟩
    rw [List.cons_append, splitChar, if_neg (Ne.symm uncut.1), hpieces]

/-- A mark that is not cut stands in a text iff it stands in one of its pieces. -/
theorem infix_iff_exists_piece {sep : Char} {mark s : List Char} (uncut : sep ∉ mark)
    (hne : mark ≠ []) : mark <:+: s ↔ ∃ piece ∈ splitChar sep s, mark <:+: piece := by
  constructor
  · intro h
    induction s with
    | nil => exact absurd (List.infix_nil.1 h) hne
    | cons c s ih =>
      -- the mark stands at the beginning, and so in the first piece, or further behind
      rcases List.infix_cons_iff.1 h with hprefix | hrest
      · obtain ⟨piece, pieces, hpieces, hprefix⟩ := exists_prefix_piece uncut hprefix
        exact ⟨piece, hpieces ▸ List.mem_cons_self, hprefix.isInfix⟩
      · obtain ⟨piece, hpiece, hinfix⟩ := ih hrest
        rw [splitChar]
        split
        · exact ⟨piece, List.mem_cons_of_mem _ hpiece, hinfix⟩
        · split
          · rename_i hnil
            exact absurd hnil (splitChar_ne_nil sep s)
          · rename_i first rest hsplit
            rw [hsplit] at hpiece
            rcases List.mem_cons.1 hpiece with rfl | hpiece
            · exact ⟨c :: piece, List.mem_cons_self, hinfix.trans (List.suffix_cons c piece).isInfix⟩
            · exact ⟨piece, List.mem_cons_of_mem _ hpiece, hinfix⟩
  · rintro ⟨piece, hpiece, hinfix⟩
    exact hinfix.trans (infix_of_mem_splitChar hpiece)

/-! ## Parts of a text -/

theorem splitOnce_isSome_of_prefix {part s : List Char} (h : part <+: s) :
    (splitOnce part s).isSome = true := by
  cases s with
  | nil =>
    rw [List.prefix_nil.1 h]
    rfl
  | cons c rest =>
    rw [splitOnce, dropMark?, if_pos (List.isPrefixOf_iff_prefix.2 h)]
    rfl

/-- A part occurs in a text iff something stands in front of it and something after it. -/
theorem occursIn_iff {part s : List Char} : occursIn part s = true ↔ part <:+: s := by
  constructor
  · intro h
    obtain ⟨⟨before, after⟩, hsplit⟩ := Option.isSome_iff_exists.1 h
    exact ⟨before, after, (eq_of_splitOnce hsplit).symm⟩
  · rintro ⟨before, after, rfl⟩
    rw [List.append_assoc, occursIn]
    -- the search may find the part earlier than it was put, but it finds it
    induction before with
    | nil => exact splitOnce_isSome_of_prefix (List.prefix_append part after)
    | cons c before ih =>
      rw [List.cons_append, splitOnce]
      split
      · rfl
      · rw [Option.isSome_map]
        exact ih

/-! ## Words -/

/-- A text without blanks in it that is not empty. -/
def IsWord (s : List Char) : Prop := s ≠ [] ∧ ∀ c ∈ s, isBlank c = false

instance (s : List Char) : Decidable (IsWord s) :=
  decidable_of_iff (s ≠ [] ∧ s.all (!isBlank ·) = true) (by simp [IsWord])

/-- A word ends where the text does or where a blank follows. -/
theorem words_append {w rest : List Char} (word : IsWord w)
    (ends : rest.head?.all isBlank = true) : words (w ++ rest) = w :: words rest := by
  obtain ⟨hne, hall⟩ := word
  induction w with
  | nil => exact absurd rfl hne
  | cons c w ih =>
    obtain ⟨hc, hw⟩ := List.forall_mem_cons.1 hall
    rw [List.cons_append, words, if_neg (Bool.eq_false_iff.1 hc)]
    -- the last character ends the word; any other has one of the word behind it
    cases w with
    | nil => rw [List.nil_append, if_pos ends]
    | cons d w =>
      rw [List.cons_append, List.head?_cons, Option.all_some,
        if_neg (Bool.eq_false_iff.1 (hw d List.mem_cons_self)), ← List.cons_append,
        ih (List.cons_ne_nil d w) hw]

end TestBench.Text
