import Mathlib
import TestBench.Text.Lowercase
/-
  Letter case within ASCII.

  1. An ASCII text is lowered letter by letter (`lowercase_ascii`), and only capital letters are changed
     (`toLower_cases`): a digit stays, and a point comes from a point alone.
  2. So ASCII texts have one lower-case form iff they are the same up to the case of letters, and a text
     that is the same as an ASCII text up to that is one too.
  3. Decimals of naturals are ASCII texts that lowering leaves as they are.
-/
namespace TestBench.Text

/-! ## Characters and texts -/

/-- Only characters from the ASCII range. -/
def IsAscii (s : String) : Prop := ∀ c ∈ s.toList, c.toNat < 128

instance (s : String) : Decidable (IsAscii s) :=
  decidable_of_iff (s.toList.all (fun c => c.toNat < 128) = true) (by simp [IsAscii])

/-- ASCII texts are lowered character by character. -/
theorem lowercase_ascii {s : String} (h : IsAscii s) :
    (lowercase s).toList = s.toList.map Char.toLower := by
  rw [lowercase, lowerAfter_ascii h, String.toList_ofList]

/-- What stands before it does not change how an ASCII character is lowered. -/
theorem lowerAfter_cons {c : Char} (h : c.toNat < 128) (before t : List Char) :
    lowerAfter before (c :: t) = c.toLower :: lowerAfter (c :: before) t := by
  have hsigma : ¬ c.toNat = 0x3A3 := by omega
  rw [lowerAfter, if_neg hsigma, lowerChar, if_pos h]
  rfl

/-- An ASCII beginning is lowered letter by letter, whatever stands behind it. -/
theorem lowerAfter_append {s : List Char} (h : ∀ c ∈ s, c.toNat < 128) (before t : List Char) :
    lowerAfter before (s ++ t) = s.map Char.toLower ++ lowerAfter (s.reverse ++ before) t := by
  induction s generalizing before with
  | nil => rfl
  | cons c s ih =>
    obtain ⟨hc, hs⟩ := List.forall_mem_cons.1 h
    rw [List.cons_append, lowerAfter_cons hc, ih hs, List.reverse_cons, List.append_assoc]
    rfl

/-- A character is changed only if it is a capital letter. -/
theorem toLower_cases (c : Char) : c.toLower = c
    ∨ 65 ≤ c.toNat ∧ c.toNat ≤ 90 ∧ c.toLower.toNat = c.toNat + 32 := by
  rw [Char.toLower]
  split
  · rename_i h
    have hlow : 65 ≤ c.val.toNat := h.1
    have hhigh : c.val.toNat ≤ 90 := h.2
    have hstep : ('a'.val - 'A'.val).toNat = 32 := rfl
    refine .inr ⟨hlow, hhigh, ?_⟩
    show (c.val + ('a'.val - 'A'.val)).toNat = c.val.toNat + 32
    rw [UInt32.toNat_add]
    omega
  · exact .inl rfl

theorem eq_dot_of_toLower {c : Char} (h : c.toLower = '.') : c = '.' := by
  rcases toLower_cases c with hc | ⟨hlow, _, hc⟩
  · exact hc.symm.trans h
  · rw [h] at hc
    have hdot : '.'.toNat = 46 := rfl
    omega

/-- Digits are in small letters. -/
theorem toLower_of_isDigit {c : Char} (h : c.isDigit = true) : c.toLower = c := by
  have hhigh : c.toNat ≤ 57 := (Char.isDigit_iff_toNat.1 h).2
  rcases toLower_cases c with hc | ⟨hlow, _, _⟩
  · exact hc
  · omega

/-- Lowered by itself, no character outside of ASCII comes out like one inside. -/
theorem ascii_of_toLower {c d : Char} (h : c.toLower = d.toLower) (hd : d.toNat < 128) :
    c.toNat < 128 := by
  rcases toLower_cases c with hc | ⟨_, _, hc⟩ <;> rcases toLower_cases d with hd' | ⟨_, _, hd'⟩
  · rw [← hc, h, hd']
    exact hd
  · rw [← hc, h]
    omega
  · omega
  · omega

/-- ASCII texts are the same but for letter case iff their lower-case forms are the same. -/
theorem lowercase_eq_iff {s t : String} (hs : IsAscii s) (ht : IsAscii t) :
    lowercase s = lowercase t ↔ sameIgnoringCase s t = true := by
  rw [← String.toList_inj, lowercase_ascii hs, lowercase_ascii ht, sameIgnoringCase, beq_iff_eq]

/-- A text that is an ASCII text but for letter case is one itself. -/
theorem isAscii_of_sameIgnoringCase {s t : String} (h : sameIgnoringCase s t = true)
    (ht : IsAscii t) : IsAscii s := by
  rw [sameIgnoringCase, beq_iff_eq] at h
  intro c hc
  have hmem : c.toLower ∈ t.toList.map Char.toLower := h ▸ List.mem_map_of_mem hc
  obtain ⟨d, hd, hcd⟩ := List.mem_map.1 hmem
  exact ascii_of_toLower hcd.symm (ht d hd)

/-! ## Decimals -/

/-- The decimal of a position has digits only. -/
theorem isDigit_of_mem_toString {n : Nat} {c : Char} (h : c ∈ (toString n).toList) :
    c.isDigit = true := by
  rw [show toString n = n.repr from rfl, Nat.toList_repr] at h
  exact Nat.isDigit_of_mem_toDigits (by decide) (by decide) h

/-- Numerals are ASCII. -/
theorem isAscii_toString (n : Nat) : IsAscii (toString n) := fun _ hc =>
  ((Char.isDigit_iff_toNat.1 (isDigit_of_mem_toString hc)).2).trans_lt (by decide)

/-- The decimal of a position is not changed. -/
theorem lowercase_toString (n : Nat) : lowercase (toString n) = toString n := by
  rw [← String.toList_inj, lowercase_ascii (isAscii_toString n),
    List.map_congr_left fun c hc => toLower_of_isDigit (isDigit_of_mem_toString hc),
    List.map_id']

/-- Different naturals have different numerals. -/
theorem toString_inj {m n : Nat} (h : toString m = toString n) : m = n := by
  have hdigits := congrArg (fun s => Nat.ofDigitChars 10 s.toList 0) h
  simpa only [show ∀ k : Nat, toString k = k.repr from fun _ => rfl, Nat.toList_repr,
    Nat.ofDigitChars_ten_toDigits] using hdigits

end TestBench.Text
