/-
  Searching in text, over lists of characters.

  `splitOnce` cuts at the first occurrence of a mark; all other searches follow from where the
  mark stands.
-/
namespace TestBench.Text

/-- What follows `mark` when the text begins with it. -/
def dropMark? (mark s : List Char) : Option (List Char) :=
  if mark.isPrefixOf s then some (s.drop mark.length) else none

/-- The text before and after the first occurrence of `mark`. -/
def splitOnce (mark : List Char) : List Char → Option (List Char × List Char)
  | [] => if mark.isEmpty then some ([], []) else none
  | c :: rest =>
    match dropMark? mark (c :: rest) with
    | some after => some ([], after)
    | none => (splitOnce mark rest).map fun (before, after) => (c :: before, after)

/-- Whether `part` occurs in `s`. -/
def occursIn (part s : List Char) : Bool := (splitOnce part s).isSome

/-- The pieces between the occurrences of one character; there is always at least one. -/
def splitChar (sep : Char) : List Char → List (List Char)
  | [] => [[]]
  | c :: rest =>
    if c = sep then [] :: splitChar sep rest
    else match splitChar sep rest with
      | [] => [[c]]
      | piece :: pieces => (c :: piece) :: pieces

/-- The pieces joined with a character between them. -/
def joinChar (sep : Char) : List (List Char) → List Char
  | [] => []
  | [piece] => piece
  | piece :: pieces => piece ++ sep :: joinChar sep pieces

theorem splitChar_ne_nil (sep : Char) (s : List Char) : splitChar sep s ≠ [] := by
  cases s with
  | nil => simp [splitChar]
  | cons c rest =>
    simp only [splitChar]
    split
    · simp
    · split <;> simp

theorem joinChar_splitChar (sep : Char) (s : List Char) : joinChar sep (splitChar sep s) = s := by
  induction s with
  | nil => rfl
  | cons c rest ih =>
    simp only [splitChar]
    split
    · next h =>
      subst h
      cases hs : splitChar c rest with
      | nil => exact absurd hs (splitChar_ne_nil c rest)
      | cons p ps => simp [joinChar, ← hs, ih]
    · cases hs : splitChar sep rest with
      | nil => exact absurd hs (splitChar_ne_nil sep rest)
      | cons p ps =>
        rw [hs] at ih
        cases ps <;> simp_all [joinChar]

/-- The first occurrence: the parts put together are the text. -/
theorem eq_of_splitOnce {mark s before after : List Char}
    (h : splitOnce mark s = some (before, after)) : s = before ++ mark ++ after := by
  induction s generalizing before after with
  | nil =>
    simp only [splitOnce] at h
    split at h
    · next hm => simp_all
    · simp at h
  | cons c rest ih =>
    simp only [splitOnce] at h
    split at h
    · next after' hd =>
      simp only [dropMark?] at hd
      split at hd
      · next hp =>
        obtain ⟨t, ht⟩ := List.isPrefixOf_iff_prefix.1 hp
        have hafter : t = after' := by simpa [← ht] using hd
        simp_all
      · simp at hd
    · obtain ⟨⟨b, a⟩, hr, he⟩ := Option.map_eq_some_iff.1 h
      simp at he
      rw [ih hr, ← he.1, ← he.2]
      simp

end TestBench.Text
