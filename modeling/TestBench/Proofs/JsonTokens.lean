import Mathlib
import TestBench.Json.Printer
import TestBench.Json.Reader
import TestBench.Proofs.JsonInside
import TestBench.Proofs.WholeNumbers
/-
  Printed values, cut into tokens again.

  1. `Json.tokens` lists the tokens of a value.  A text spells tokens if it is cut into them wherever it
     begins between two tokens (`Spells`), and spells them out if it also ends there
     (`SpellsOut`): an atom ends only where something else begins.
  2. Texts that are spelled out can be put one behind another, and blanks count for nothing.  So a
     list of texts between marks, with commas and blanks between them, spells out the same tokens,
     whichever blanks these are (`spellsOut_enclosed`).
  3. Strings are spelled out, for every character is read back from the way in which it is written
     (`scan_stringChar`), and an integer of 64 bits is an atom again (`number?_toString`).
  4. Hence a value whose numbers are such integers is spelled by its text in one line and by its text in
     many (`spells_compact`, `spells_prettyAt`).
-/
namespace TestBench.Json

open TestBench.Text TestBench.Decimal

/-! ## Tokens -/

mutual

/-- The tokens of a value. -/
def tokens : Json → List Token
  | .array items => .mark '[' :: [Token.mark ','].intercalate (itemTokens items) ++ [.mark ']']
  | .object fields =>
    .mark '\x7b' :: [Token.mark ','].intercalate (fieldTokens fields) ++ [.mark '\x7d']
  | .text s => [.text s]
  | v => [.atom v]

/-- The tokens of each item. -/
def itemTokens : List Json → List (List Token)
  | [] => []
  | v :: rest => v.tokens :: itemTokens rest

/-- The tokens of each field: its key, a colon and its value. -/
def fieldTokens : List (String × Json) → List (List Token)
  | [] => []
  | (k, v) :: rest => (.text k :: .mark ':' :: v.tokens) :: fieldTokens rest

end

theorem tokens_array (items : List Json) : (array items).tokens
    = .mark '[' :: [Token.mark ','].intercalate (items.map tokens) ++ [.mark ']'] := by
  have hitems : itemTokens items = items.map tokens := by
    induction items with
    | nil => rfl
    | cons v rest ih => rw [itemTokens, ih, List.map_cons]
  rw [tokens, hitems]

theorem tokens_object (fields : List (String × Json)) : (object fields).tokens
    = .mark '\x7b' :: [Token.mark ','].intercalate
        (fields.map fun f => .text f.1 :: .mark ':' :: f.2.tokens) ++ [.mark '\x7d'] := by
  have hfields : fieldTokens fields
      = fields.map fun f => .text f.1 :: .mark ':' :: f.2.tokens := by
    induction fields with
    | nil => rfl
    | cons f rest ih => rw [fieldTokens, ih, List.map_cons]
  rw [tokens, hfields]

/-! ## Spelling -/

/-- The scanner is between two tokens, or in an atom that is complete if it does not go on. -/
inductive Behind : ScanState → List Token → Prop where
  | between (done : List Token) : Behind (.between, done) done
  | atom {cs : List Char} {v : Json} (complete : atom? cs.reverse = some v) (done : List Token) :
      Behind (.atom cs, done) (.atom v :: done)

/-- Where an atom cannot go on, the next token begins. -/
theorem Behind.scanChar {st : ScanState} {done : List Token} (h : Behind st done) {c : Char}
    (other : isAtomChar c = false) : scanChar st c = outside done c := by
  cases h with
  | between => rfl
  | atom complete =>
    rw [Json.scanChar, if_neg (Bool.eq_false_iff.1 other), complete]
    rfl

/-- A text is cut into tokens, wherever it begins between two. -/
def Spells (s : List Char) (ts : List Token) : Prop :=
  ∀ done, ∃ st, s.foldlM scanChar ((.between, done) : ScanState) = some st
    ∧ Behind st (ts.reverse ++ done)

/-- It ends between two tokens again. -/
def SpellsOut (s : List Char) (ts : List Token) : Prop :=
  ∀ done, s.foldlM scanChar ((.between, done) : ScanState) = some (.between, ts.reverse ++ done)

section Spelling

variable {s s' : List Char} {ts ts' : List Token}

theorem Spells.tokens?_eq (h : Spells s ts) : tokens? s = some ts := by
  obtain ⟨st, hscan, hbehind⟩ := h []
  rw [List.append_nil] at hbehind
  rw [tokens?, hscan]
  generalize hdone : ts.reverse = done at hbehind
  have hts : ts = done.reverse := by rw [← hdone, List.reverse_reverse]
  cases hbehind with
  | between => rw [hts]
  | atom complete =>
    rw [hts]
    simp only [complete, Option.map_some]

theorem SpellsOut.nil : SpellsOut [] [] := fun _ => rfl

/-- What spells tokens whatever follows spells them at the end. -/
theorem SpellsOut.spells (h : SpellsOut s ts) : Spells s ts :=
  fun done => ⟨_, h done, .between _⟩

/-- Tokens behind tokens, where the first ones are complete. -/
theorem SpellsOut.append_spells (h : SpellsOut s ts) (h' : Spells s' ts') :
    Spells (s ++ s') (ts ++ ts') := by
  intro done
  obtain ⟨st, hscan, hbehind⟩ := h' (ts.reverse ++ done)
  refine ⟨st, ?_, ?_⟩
  · rw [List.foldlM_append, h done]
    exact hscan
  · rw [List.reverse_append, List.append_assoc]
    exact hbehind

theorem SpellsOut.append (h : SpellsOut s ts) (h' : SpellsOut s' ts') :
    SpellsOut (s ++ s') (ts ++ ts') := by
  intro done
  rw [List.foldlM_append, h done, List.reverse_append, List.append_assoc]
  exact h' (ts.reverse ++ done)

/-- A mark ends what is in front of it and is a token by itself. -/
theorem outside_isMark {c : Char} (h : isMark c = true) :
    isAtomChar c = false ∧ ∀ done, outside done c = some (.between, .mark c :: done) := by
  have hmem : c ∈ ['[', ']', '\x7b', '\x7d', ':', ','] := List.contains_iff_mem.1 h
  simp only [List.mem_cons, List.not_mem_nil, or_false] at hmem
  rcases hmem with rfl | rfl | rfl | rfl | rfl | rfl
  all_goals exact ⟨by decide, fun _ => rfl⟩

/-- A mark ends whatever stands in front of it. -/
theorem Spells.append_mark {c : Char} (h : Spells s ts) (hc : isMark c = true) :
    SpellsOut (s ++ [c]) (ts ++ [.mark c]) := by
  obtain ⟨hother, hmark⟩ := outside_isMark hc
  intro done
  obtain ⟨st, hscan, hbehind⟩ := h done
  rw [List.foldlM_append, hscan, List.reverse_append]
  show (scanChar st c >>= pure) = _
  rw [hbehind.scanChar hother, hmark]
  rfl

theorem spellsOut_mark {c : Char} (hc : isMark c = true) : SpellsOut [c] [.mark c] :=
  SpellsOut.nil.spells.append_mark hc

/-- The blanks of a layout. -/
def IsGap (gap : List Char) : Prop := ∀ c ∈ gap, c = ' ' ∨ c = '\n'

/-- A blank ends what is in front of it and is nothing. -/
theorem outside_gap {c : Char} (h : c = ' ' ∨ c = '\n') :
    isAtomChar c = false ∧ ∀ done, outside done c = some (.between, done) := by
  rcases h with rfl | rfl
  all_goals exact ⟨by decide, fun _ => rfl⟩

theorem spellsOut_gap {gap : List Char} (h : IsGap gap) : SpellsOut gap [] := by
  induction gap with
  | nil => exact .nil
  | cons c rest ih =>
    obtain ⟨hc, hrest⟩ := List.forall_mem_cons.1 h
    intro done
    rw [List.foldlM_cons, (Behind.between done).scanChar (outside_gap hc).1, (outside_gap hc).2]
    exact ih hrest done

/-- Blanks behind a text that ends in a mark or not. -/
theorem Spells.append_gap {gap : List Char} (h : Spells s ts) (hgap : IsGap gap) :
    Spells (s ++ gap) ts := by
  cases gap with
  | nil => rwa [List.append_nil]
  | cons c rest =>
    obtain ⟨hc, hrest⟩ := List.forall_mem_cons.1 hgap
    intro done
    obtain ⟨st, hscan, hbehind⟩ := h done
    refine ⟨_, ?_, .between _⟩
    rw [List.foldlM_append, hscan]
    show (rest.foldlM scanChar =<< scanChar st c) = _
    rw [hbehind.scanChar (outside_gap hc).1, (outside_gap hc).2]
    exact spellsOut_gap hrest _

/-- Texts with commas and blanks between them. -/
theorem spells_intercalate {gap : List Char} (hgap : IsGap gap) {texts : List (List Char)}
    {units : List (List Token)} (h : List.Forall₂ Spells texts units) :
    Spells ((',' :: gap).intercalate texts) ([Token.mark ','].intercalate units) := by
  induction h with
  | nil => exact SpellsOut.nil.spells
  | @cons s ts texts units hs hrest ih =>
    cases hrest with
    | nil => rwa [List.intercalate_singleton, List.intercalate_singleton]
    | cons hs' hrest =>
      rw [List.intercalate_cons_cons, List.intercalate_cons_cons]
      -- an atom goes on until something ends it, and the comma does
      have hcomma : SpellsOut (s ++ [',']) (ts ++ [.mark ',']) := hs.append_mark (by decide)
      have hsep := hcomma.append (spellsOut_gap hgap)
      rw [List.append_assoc, List.append_nil] at hsep
      exact hsep.append_spells ih

/-- Texts between two marks, with commas and blanks between them. -/
theorem spellsOut_enclosed (opening closing : Char) (hopening : isMark opening = true)
    (hclosing : isMark closing = true) {gap gap' : List Char} (hgap : IsGap gap) (hgap' : IsGap gap')
    {texts : List (List Char)} {units : List (List Token)} (h : List.Forall₂ Spells texts units) :
    SpellsOut (opening :: gap ++ (',' :: gap).intercalate texts ++ gap' ++ [closing])
      (.mark opening :: [Token.mark ','].intercalate units ++ [.mark closing]) := by
  have hfront : SpellsOut (opening :: gap) [.mark opening] :=
    (spellsOut_mark hopening).append (spellsOut_gap hgap)
  exact ((hfront.append_spells (spells_intercalate hgap h)).append_gap hgap').append_mark hclosing

end Spelling

/-! ## Strings -/

theorem digitIn?_digitChar : ∀ n < 16, digitIn? 16 n.digitChar = some n := by decide

/-- A control has a code of two digits, behind two zeros. -/
theorem toList_controlCode : ∀ n < 0x20,
    ("\\u00" ++ (if n < 16 then "0" else "") ++ hexText n).toList
      = ['\\', 'u', '0', '0', (n / 16).digitChar, (n % 16).digitChar] := by decide

/-- A character inside of a string is read back from the way in which it is written. -/
theorem scan_stringChar (c : Char) (cs : List Char) (done : List Token) :
    (stringChar c).toList.foldlM scanChar ((.text cs, done) : ScanState)
      = some (.text (c :: cs), done) := by
  have escaped {e : Char} {s : String} (hs : s.toList = ['\\', e]) (he : e ≠ 'u')
      (hc : escape? e = some c) :
      s.toList.foldlM scanChar ((.text cs, done) : ScanState) = some (.text (c :: cs), done) := by
    have hescape : scanChar (.escape cs, done) e = some (.text (c :: cs), done) := by
      rw [scanChar, if_neg he, hc]
      rfl
    rw [hs]
    show (scanChar (.escape cs, done) e >>= pure) = _
    rw [hescape]
    rfl
  have ofCode {n : Nat} (hn : c.toNat = n) : Char.ofNat n = c := by rw [← hn, Char.ofNat_toNat]
  rw [stringChar]
  split
  · rename_i hc
    exact escaped rfl (by decide) (congrArg some hc.symm)
  split
  · rename_i hc
    exact escaped rfl (by decide) (congrArg some hc.symm)
  split
  · rename_i hc
    exact escaped rfl (by decide) (congrArg some hc.symm)
  split
  · rename_i hc
    exact escaped rfl (by decide) (congrArg some hc.symm)
  split
  · rename_i hc
    exact escaped rfl (by decide) (congrArg some hc.symm)
  split
  · rename_i hc
    exact escaped rfl (by decide) (congrArg some (ofCode hc))
  split
  · rename_i hc
    exact escaped rfl (by decide) (congrArg some (ofCode hc))
  split
  · -- a control is written with its code, of which only the last two digits are not zero
    rename_i hc
    have hhigh := digitIn?_digitChar (c.toNat / 16) (by omega)
    have hlow := digitIn?_digitChar (c.toNat % 16) (by omega)
    have hvalue : (0 * 16 + c.toNat / 16) * 16 + c.toNat % 16 = c.toNat := by omega
    have hcode : finishCode cs none c.toNat = some (.text (c :: cs)) := by
      rw [finishCode, if_neg (by omega), if_neg (by omega), Char.ofNat_toNat]
    rw [toList_controlCode c.toNat hc]
    show List.foldlM scanChar (.code cs none 2 0, done) [_, _] = _
    rw [List.foldlM_cons, scanChar, hhigh]
    show (scanChar (.code cs none 1 (0 * 16 + c.toNat / 16), done) _ >>= pure) = _
    rw [scanChar, hlow]
    show (((finishCode cs none ((0 * 16 + c.toNat / 16) * 16 + c.toNat % 16)).map (·, done))
      >>= pure) = _
    rw [hvalue, hcode]
    rfl
  · -- any other character stands for itself
    rename_i hquote hslash _ _ _ _ _ hcontrol
    rw [String.toList_singleton, List.foldlM_cons, scanChar, if_neg hquote, if_neg hslash,
      if_neg hcontrol]
    rfl

/-- Between quotes the characters of a string are read back one by one. -/
theorem scan_stringChars (s cs : List Char) (done : List Token) :
    (s.flatMap fun c => (stringChar c).toList).foldlM scanChar ((.text cs, done) : ScanState)
      = some (.text (s.reverse ++ cs), done) := by
  induction s generalizing cs with
  | nil => rfl
  | cons c rest ih =>
    rw [List.flatMap_cons, List.foldlM_append, scan_stringChar, List.reverse_cons, List.append_assoc]
    exact ih (c :: cs)

theorem toList_stringText (s : String) : (stringText s).toList
    = '"' :: (s.toList.flatMap fun c => (stringChar c).toList) ++ ['"'] := by
  rw [stringText, String.toList_append, String.toList_append, String.toList_join, List.flatMap_map]
  rfl

theorem spellsOut_stringText (s : String) : SpellsOut (stringText s).toList [.text s] := by
  intro done
  have hopen : scanChar (.between, done) '"' = some (.text [], done) := rfl
  rw [toList_stringText, List.cons_append, List.foldlM_cons, hopen]
  show (List.foldlM scanChar (.text [], done) _) = _
  rw [List.foldlM_append, scan_stringChars, List.append_nil]
  show some (Scan.between, Token.text (String.ofList s.toList.reverse.reverse) :: done) = _
  rw [List.reverse_reverse, String.ofList_toList]
  rfl

/-! ## Atoms -/

/-- The usual digits of a number have no zero in front, unless there is nothing else. -/
theorem paddedZero_toDigits (n : Nat) : paddedZero (Nat.toDigits 10 n) = false := by
  have head (n : Nat) (hn : 0 < n) : ∃ c rest, Nat.toDigits 10 n = c :: rest ∧ c ≠ '0' := by
    -- the first digit of a number is that of a tenth of it
    induction n using Nat.strong_induction_on with
    | _ n ih =>
      rcases Nat.lt_or_ge n 10 with hlt | hge
      · refine ⟨n.digitChar, [], Nat.toDigits_of_lt_base hlt, ?_⟩
        interval_cases n <;> decide
      · obtain ⟨c, rest, hdigits, hc⟩ := ih (n / 10) (by omega) (by omega)
        refine ⟨c, rest ++ [(n % 10).digitChar], ?_, hc⟩
        rw [Nat.toDigits_of_base_le (by decide) hge, hdigits, List.cons_append]
  rcases Nat.eq_zero_or_pos n with rfl | hn
  · rfl
  · obtain ⟨c, rest, hdigits, hc⟩ := head n hn
    rw [hdigits]
    unfold paddedZero
    split
    · rename_i h
      exact absurd (List.cons.inj h).1 hc
    · rfl

theorem ofDigitChars_ge {digits : List Char} : ∀ start, start ≤ Nat.ofDigitChars 10 digits start := by
  induction digits with
  | nil => exact fun _ => Nat.le_refl _
  | cons c rest ih =>
    intro start
    rw [Nat.ofDigitChars_cons]
    exact Nat.le_trans (by omega) (ih _)

/-- As long as the number fits, all of its digits are kept. -/
theorem push_of_lt {digits : List Char} : ∀ {start : Nat},
    Nat.ofDigitChars 10 digits start < wordLimit →
      Significand.push ⟨start, 0⟩ digits = ⟨Nat.ofDigitChars 10 digits start, 0⟩ := by
  induction digits with
  | nil => exact fun _ => rfl
  | cons c rest ih =>
    intro start h
    rw [Nat.ofDigitChars_cons, Nat.mul_comm] at h
    have hnext := Nat.lt_of_le_of_lt (ofDigitChars_ge _) h
    rw [Significand.push, if_pos ⟨rfl, hnext⟩, ih h, Nat.ofDigitChars_cons, Nat.mul_comm]

/-- Digits behind a sign, or alone, are read as the whole number that they write. -/
theorem number?_toDigits (negative : Bool) {n : Nat} (hn : n < wordLimit) :
    number? ((if negative then ['-'] else []) ++ Nat.toDigits 10 n) = whole? negative ⟨n, 0⟩ := by
  have hall : ∀ c ∈ Nat.toDigits 10 n, c.isDigit = true :=
    fun c hc => Nat.isDigit_of_mem_toDigits (by decide) (by decide) hc
  have hspan : spanDigits (Nat.toDigits 10 n) = (Nat.toDigits 10 n, []) := by
    rw [spanDigits, List.takeWhile_eq_self_iff.2 hall, List.dropWhile_eq_nil_iff.2 hall]
  have hempty : (Nat.toDigits 10 n).isEmpty = false := List.isEmpty_eq_false_iff.2 Nat.toDigits_ne_nil
  have hpush : Significand.push ⟨0, 0⟩ (Nat.toDigits 10 n) = ⟨n, 0⟩ := by
    rw [push_of_lt (Nat.ofDigitChars_ten_toDigits.symm ▸ hn), Nat.ofDigitChars_ten_toDigits]
  unfold number?
  split
  rename_i negative' body hsign
  have hbody : negative' = negative ∧ body = Nat.toDigits 10 n := by
    cases negative with
    | true =>
      injection hsign with hnegative hbody
      exact ⟨hnegative.symm, hbody.symm⟩
    | false =>
      split at hsign
      · -- a digit is no sign
        rename_i rest hdigits
        have hdigits : Nat.toDigits 10 n = '-' :: rest := hdigits
        exact absurd (hall '-' (hdigits ▸ List.mem_cons_self)) (by decide)
      · injection hsign with hnegative hbody
        exact ⟨hnegative.symm, hbody.symm⟩
  obtain ⟨rfl, rfl⟩ := hbody
  simp only [hspan, hpush, hempty, paddedZero_toDigits, Bool.or_false, Bool.false_eq_true, if_false,
    List.isEmpty_nil, if_true]

/-- An integer that fits a word is read back from its text. -/
theorem number?_toString {z : Int} (fits : FitsWord z) :
    number? (toString z).toList = some (.int z) := by
  obtain ⟨hlow, hhigh⟩ := fits
  cases z with
  | ofNat n =>
    have htext : (toString (Int.ofNat n)).toList = Nat.toDigits 10 n := by
      rw [Int.toString_eq_repr]
      exact Nat.toList_repr
    have hn : n < wordLimit := Int.ofNat_lt.1 hhigh
    have hread := number?_toDigits false hn
    rw [htext]
    exact hread
  | negSucc n =>
    have htext : (toString (Int.negSucc n)).toList = '-' :: Nat.toDigits 10 (n + 1) := by
      rw [Int.toString_eq_repr, Int.repr, String.toList_append, Nat.toList_repr]
      rfl
    -- there is one negative number more than positive ones
    have hfits : n + 1 ≤ Nat.pow 2 63 := by
      have hpow : Nat.pow 2 63 = 2 ^ 63 := rfl
      omega
    have hn : n + 1 < wordLimit := Nat.lt_of_le_of_lt hfits (by decide)
    have hread := number?_toDigits true hn
    rw [whole?, if_neg (not_not_intro rfl), if_pos rfl,
      if_neg (not_or.2 ⟨Nat.succ_ne_zero n, Nat.not_lt.2 hfits⟩)] at hread
    rw [htext]
    exact hread

theorem atom?_of_number? {s : List Char} {n : Number} (h : number? s = some n) :
    atom? s = some (.number n) := by
  -- a word is no number
  have hword {word : List Char} (hnone : number? word = none) : s ≠ word := by
    rintro rfl
    rw [h] at hnone
    cases hnone
  rw [atom?, if_neg (hword (by decide)), if_neg (hword (by decide)), if_neg (hword (by decide)), h]
  rfl

theorem outside_isAtomChar {c : Char} (h : isAtomChar c = true) (done : List Token) :
    outside done c = some (.atom [c], done) := by
  have hblank : ¬ (c = ' ' ∨ c = '\n' ∨ c = '\t' ∨ c = '\r') := by
    rintro (rfl | rfl | rfl | rfl)
    all_goals exact absurd h (by decide)
  have hmark : ¬ isMark c = true := by
    intro hmark
    rw [(outside_isMark hmark).1] at h
    cases h
  have hquote : ¬ c = '"' := by
    rintro rfl
    exact absurd h (by decide)
  rw [outside, if_neg hblank, if_neg hmark, if_neg hquote, if_pos h]

/-- An atom goes on as long as it can. -/
theorem scan_isAtomChar {s : List Char} (h : ∀ c ∈ s, isAtomChar c = true) (done : List Token) :
    ∀ cs, s.foldlM scanChar ((.atom cs, done) : ScanState) = some (.atom (s.reverse ++ cs), done) := by
  induction s with
  | nil => exact fun _ => rfl
  | cons c rest ih =>
    obtain ⟨hc, hrest⟩ := List.forall_mem_cons.1 h
    intro cs
    rw [List.foldlM_cons, scanChar, if_pos hc, List.reverse_cons, List.append_assoc]
    exact ih hrest (c :: cs)

theorem spells_atom {s : List Char} {v : Json} (all : ∀ c ∈ s, isAtomChar c = true)
    (complete : atom? s = some v) : Spells s [.atom v] := by
  cases s with
  | nil => cases complete
  | cons c rest =>
    obtain ⟨hc, hrest⟩ := List.forall_mem_cons.1 all
    have hreverse : (rest.reverse ++ [c]).reverse = c :: rest := by
      rw [List.reverse_append, List.reverse_reverse]
      rfl
    refine fun done =>
      ⟨(.atom (rest.reverse ++ [c]), done), ?_, .atom (hreverse.symm ▸ complete) done⟩
    rw [List.foldlM_cons, show scanChar (.between, done) c = outside done c from rfl, outside_isAtomChar hc]
    exact scan_isAtomChar hrest done [c]

theorem isAtomChar_of_mem_toString {z : Int} : ∀ c ∈ (toString z).toList, isAtomChar c = true := by
  have hdigit {c : Char} (hc : c.isDigit = true) : isAtomChar c = true := by
    rw [isAtomChar, Char.isAlphanum, hc, Bool.or_true]
    rfl
  have writes := writesInteger_toString z
  generalize (toString z).toList = s at writes
  cases writes with
  | positive decimal =>
    obtain ⟨digits, rfl | rfl, _, hall, _⟩ := decimal
    · exact fun c hc => hdigit (hall c hc)
    · exact List.forall_mem_cons.2 ⟨by decide, fun c hc => hdigit (hall c hc)⟩
  | negative _ hall => exact List.forall_mem_cons.2 ⟨by decide, fun c hc => hdigit (hall c hc)⟩

theorem spells_numberText {z : Int} (fits : FitsWord z) :
    Spells (numberText (.int z)).toList [.atom (.number (.int z))] :=
  spells_atom isAtomChar_of_mem_toString (atom?_of_number? (number?_toString fits))

theorem spells_null : Spells "null".toList [.atom .null] := by
  have hall : "null".toList.all isAtomChar = true := by decide
  exact spells_atom (List.all_eq_true.1 hall) (by rw [atom?, if_pos rfl])

theorem spells_bool (b : Bool) : Spells (if b then "true" else "false").toList [.atom (.bool b)] := by
  cases b with
  | true =>
    have hall : "true".toList.all isAtomChar = true := by decide
    have hatom : atom? "true".toList = some (.bool true) := by
      rw [atom?, if_neg (by decide), if_pos rfl]
    exact spells_atom (List.all_eq_true.1 hall) hatom
  | false =>
    have hall : "false".toList.all isAtomChar = true := by decide
    have hatom : atom? "false".toList = some (.bool false) := by
      rw [atom?, if_neg (by decide), if_neg (by decide), if_pos rfl]
    exact spells_atom (List.all_eq_true.1 hall) hatom

/-! ## Values -/

/-- All numbers in a value are integers of 64 bits, with a sign or without. -/
inductive Exact : Json → Prop where
  | null : Exact .null
  | bool (b : Bool) : Exact (.bool b)
  | int {z : Int} (fits : FitsWord z) : Exact (.number (.int z))
  | text (s : String) : Exact (.text s)
  | array {items : List Json} (all : ∀ v ∈ items, Exact v) : Exact (.array items)
  | object {fields : List (String × Json)} (all : ∀ f ∈ fields, Exact f.2) : Exact (.object fields)

theorem toList_compact_array (items : List Json) : (compact (.array items)).toList
    = '[' :: [','].intercalate (items.map fun v => v.compact.toList) ++ [']'] := by
  have hitems : compactItems items = items.map compact := by
    induction items with
    | nil => rfl
    | cons v rest ih => rw [compactItems, ih, List.map_cons]
  rw [compact, hitems, String.toList_append, String.toList_append, String.toList_intercalate,
    List.map_map]
  rfl

theorem toList_compact_object (fields : List (String × Json)) : (compact (.object fields)).toList
    = '\x7b' :: [','].intercalate (fields.map fun f => (stringText f.1).toList ++ [':']
        ++ f.2.compact.toList) ++ ['\x7d'] := by
  have hfields : (compactFields fields).map String.toList = fields.map fun f =>
      (stringText f.1).toList ++ [':'] ++ f.2.compact.toList := by
    induction fields with
    | nil => rfl
    | cons f rest ih =>
      rw [compactFields, List.map_cons, ih, String.toList_append, String.toList_append, List.map_cons]
      rfl
  rw [compact, String.toList_append, String.toList_append, String.toList_intercalate, hfields]
  rfl

/-- A key, a colon, and blanks in front of a value. -/
theorem spells_field (key : String) {gap s : List Char} (hgap : IsGap gap) {ts : List Token}
    (h : Spells s ts) : Spells ((stringText key).toList ++ (':' :: gap) ++ s)
      (.text key :: .mark ':' :: ts) := by
  have hcolon : SpellsOut (':' :: gap) [.mark ':'] :=
    (spellsOut_mark (by decide)).append (spellsOut_gap hgap)
  exact ((spellsOut_stringText key).append hcolon).append_spells h

theorem isGap_nil : IsGap [] := fun _ h => absurd h List.not_mem_nil

theorem isGap_newLine (level : Nat) : IsGap (newLine level).toList := by
  have htext : (newLine level).toList = '\n' :: List.replicate (2 * level) ' ' := by
    rw [newLine, String.toList_append]
    exact congrArg ('\n' :: ·) String.toList_ofList
  rw [htext]
  exact List.forall_mem_cons.2 ⟨.inr rfl, fun c hc => .inl (List.eq_of_mem_replicate hc)⟩

/-- Items, or fields, one by one. -/
theorem forall₂_spells {α : Type} {xs : List α} {text : α → List Char} {unit : α → List Token}
    (h : ∀ x ∈ xs, Spells (text x) (unit x)) : List.Forall₂ Spells (xs.map text) (xs.map unit) := by
  rw [List.forall₂_map_left_iff, List.forall₂_map_right_iff, List.forall₂_same]
  exact h

/-- **The text in one line spells its value.** -/
theorem spells_compact {v : Json} (exact : v.Exact) : Spells v.compact.toList v.tokens := by
  induction exact with
  | null =>
    rw [compact]
    exact spells_null
  | bool b =>
    rw [compact]
    exact spells_bool b
  | int fits => exact spells_numberText fits
  | text s => exact (spellsOut_stringText s).spells
  | array _ ih =>
    rw [toList_compact_array, tokens_array]
    have h := spellsOut_enclosed '[' ']' (by decide) (by decide) isGap_nil isGap_nil (forall₂_spells ih)
    rw [List.append_nil] at h
    exact h.spells
  -- lists and records differ in their marks and in what a part looks like
  | @object fields _ ih =>
    have hfields : ∀ f ∈ fields, Spells ((stringText f.1).toList ++ [':'] ++ f.2.compact.toList)
        (.text f.1 :: .mark ':' :: f.2.tokens) := fun f hf => spells_field f.1 isGap_nil (ih f hf)
    rw [toList_compact_object, tokens_object]
    have h := spellsOut_enclosed '\x7b' '\x7d' (by decide) (by decide) isGap_nil isGap_nil
      (forall₂_spells hfields)
    rw [List.append_nil] at h
    exact h.spells

/-- Lines between two marks. -/
theorem spells_block {opening closing : String} {c c' : Char} (hopening : opening.toList = [c])
    (hclosing : closing.toList = [c']) (hc : isMark c = true) (hc' : isMark c' = true) (level : Nat)
    {lines : List String} {units : List (List Token)}
    (h : List.Forall₂ Spells (lines.map String.toList) units) :
    Spells (block opening closing level lines).toList
      (.mark c :: [Token.mark ','].intercalate units ++ [.mark c']) := by
  rw [block]
  -- without lines the marks stand side by side, with no gap between them
  split
  · rename_i hempty
    rw [List.isEmpty_iff.1 hempty] at h
    cases h
    rw [String.toList_append, hopening, hclosing]
    exact ((spellsOut_mark hc).append (spellsOut_mark hc')).spells
  · have htext := spellsOut_enclosed c c' hc hc' (isGap_newLine (level + 1)) (isGap_newLine level) h
    simp only [String.toList_append, hopening, hclosing, String.toList_intercalate]
    exact htext.spells

theorem map_toList_prettyItems (level : Nat) (items : List Json) :
    (prettyItems level items).map String.toList
      = items.map fun v => (v.prettyAt level).toList := by
  induction items with
  | nil => rfl
  | cons v rest ih => rw [prettyItems, List.map_cons, ih, List.map_cons]

theorem map_toList_prettyFields (level : Nat) (fields : List (String × Json)) :
    (prettyFields level fields).map String.toList
      = fields.map fun f => (stringText f.1).toList ++ [':', ' '] ++ (f.2.prettyAt level).toList := by
  induction fields with
  | nil => rfl
  | cons f rest ih =>
    rw [prettyFields, List.map_cons, ih, String.toList_append, String.toList_append, List.map_cons]
    rfl

/-- **The text in many lines spells its value too.** -/
theorem spells_prettyAt {v : Json} (exact : v.Exact) :
    ∀ level, Spells (v.prettyAt level).toList v.tokens := by
  induction exact with
  | null =>
    intro level
    rw [prettyAt]
    exact spells_null
  | bool b =>
    intro level
    rw [prettyAt]
    exact spells_bool b
  | int fits => exact fun _ => spells_numberText fits
  | text s => exact fun _ => (spellsOut_stringText s).spells
  | @array items _ ih =>
    intro level
    have hspells := forall₂_spells fun v hv => ih v hv (level + 1)
    rw [prettyAt, tokens_array]
    exact spells_block rfl rfl (by decide) (by decide) level
      (map_toList_prettyItems (level + 1) items ▸ hspells)
  -- keys are followed by a blank, which is a gap; values are one level further in
  | @object fields _ ih =>
    intro level
    have hblank : IsGap [' '] := List.forall_mem_singleton.2 (.inl rfl)
    have hfields : ∀ f ∈ fields, Spells ((stringText f.1).toList ++ [':', ' ']
        ++ (f.2.prettyAt (level + 1)).toList) (.text f.1 :: .mark ':' :: f.2.tokens) :=
      fun f hf => spells_field f.1 hblank (ih f hf (level + 1))
    have hspells := forall₂_spells hfields
    rw [prettyAt, tokens_object]
    exact spells_block rfl rfl (by decide) (by decide) level
      (map_toList_prettyFields (level + 1) fields ▸ hspells)

end TestBench.Json
