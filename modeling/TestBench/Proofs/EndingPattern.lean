import Mathlib
import TestBench.Proofs.AcceptedPaths
/-
  Patterns that ask for an ending.

  1. Characters without a meaning of their own are read as they stand (`read_plain`), so a pattern of
     such characters with one `*` among them is characters, `*`, and characters again
     (`ofText_ending`).
  2. Characters match their bytes and nothing else, and `*` any bytes but slashes.  Only an ASCII
     character ends with its byte, so bytes that end with those of an ASCII text come from a text that
     ends with it.  Hence the pattern accepts the texts that begin and end like it, with anything but
     slashes in between (`accepts_ending`).
-/
namespace TestBench

open TestBench.Text

/-! ## Encoded endings -/

namespace Text.Utf8

/-- An ASCII character is one byte. -/
theorem encodeChar_ascii {c : Char} (h : c.toNat < 128) : encodeChar c = [byte c.toNat] := if_pos h

/-- Any other character ends with a byte that no ASCII character has. -/
theorem exists_encodeChar_eq_append {c : Char} (h : ¬ c.toNat < 128) :
    ∃ front last, encodeChar c = front ++ [last] ∧ 128 ≤ last.toNat := by
  have hlast : 128 ≤ (byte (0x80 + c.toNat % 64)).toNat := by
    rw [toNat_byte]
    omega
  rw [encodeChar, if_neg h]
  split_ifs
  · exact ⟨[_], _, rfl, hlast⟩
  · exact ⟨[_, _], _, rfl, hlast⟩
  · exact ⟨[_, _, _], _, rfl, hlast⟩

/-- A text ends with an ASCII text if its bytes end with those. -/
theorem exists_stem_of_encode {ending : List Char} (ascii : ∀ c ∈ ending, c.toNat < 128) :
    ∀ {s : List Char} {front : Bytes}, encode s = front ++ encode ending →
      ∃ stem, s = stem ++ ending ∧ encode stem = front := by
  induction ending using List.reverseRecOn with
  | nil => exact fun {s front} h => ⟨s, (List.append_nil s).symm, h.trans (List.append_nil front)⟩
  | append_singleton ending d ih =>
    intro s front h
    obtain ⟨hending, hd⟩ := List.forall_mem_append.1 ascii
    have hd : d.toNat < 128 := hd d List.mem_cons_self
    have hconcat (s : List Char) (c : Char) : encode (s ++ [c]) = encode s ++ encodeChar c := by
      rw [encode, encode, List.flatMap_append, List.flatMap_singleton]
    rw [hconcat, encodeChar_ascii hd, ← List.append_assoc] at h
    rcases List.eq_nil_or_concat s with rfl | ⟨s, c, rfl⟩
    · exact absurd h.symm (List.append_ne_nil_of_right_ne_nil _ (List.cons_ne_nil _ _))
    · rw [List.concat_eq_append, hconcat] at h
      -- the last byte is that of an ASCII character, so it ends no longer code
      by_cases hc : c.toNat < 128
      · rw [encodeChar_ascii hc] at h
        obtain ⟨hfront, hlast⟩ := List.append_inj' h rfl
        obtain ⟨stem, rfl, hstem⟩ := ih hending hfront
        have hsame : encodeChar c ++ [] = encodeChar d ++ [] := by
          rw [encodeChar_ascii hc, encodeChar_ascii hd, hlast]
        refine ⟨stem, ?_, hstem⟩
        rw [(encodeChar_append_inj hsame).1, List.concat_eq_append, List.append_assoc]
      · obtain ⟨bytes, last, hbytes, hlast⟩ := exists_encodeChar_eq_append hc
        rw [hbytes, ← List.append_assoc] at h
        have heq := List.cons.inj (List.append_inj' h rfl).2
        rw [heq.1, toNat_byte] at hlast
        omega

end Text.Utf8

/-! ## What characters and `*` match -/

namespace GlobPart

open Glob

/-- Characters that stand for themselves leave what stands behind them. -/
theorem mem_sequenceRests_chars {front : List Char} {parts : List GlobPart} {text rest : Utf8.Bytes} :
    rest ∈ sequenceRests (front.map .char ++ parts) text
      ↔ ∃ middle, text = Utf8.encode front ++ middle ∧ rest ∈ sequenceRests parts middle := by
  refine ⟨encode_of_mem_sequenceRests, ?_⟩
  rintro ⟨middle, rfl, hrest⟩
  induction front with
  | nil => exact hrest
  | cons c front ih =>
    refine mem_sequenceRests_cons.2 ⟨Utf8.encode front ++ middle, ?_, ih⟩
    -- the bytes of the first character come first
    have hprefix : (Utf8.encodeChar c).isPrefixOf (Utf8.encode (c :: front) ++ middle) = true := by
      rw [Utf8.encode, List.flatMap_cons, List.append_assoc]
      exact List.isPrefixOf_iff_prefix.2 (List.prefix_append _ _)
    rw [rests, afterPrefix, if_pos hprefix, Utf8.encode, List.flatMap_cons, List.append_assoc,
      List.drop_left]
    exact List.mem_singleton_self _

/-- Bytes that may be passed can be passed up to any of them. -/
theorem mem_afterMany_of_pass {pass : UInt8 → Bool} {front : Utf8.Bytes}
    (h : ∀ b ∈ front, pass b = true) (rest : Utf8.Bytes) : rest ∈ afterMany pass (front ++ rest) := by
  induction front with
  | nil => cases rest <;> exact List.mem_cons_self
  | cons b front ih =>
    obtain ⟨hb, hfront⟩ := List.forall_mem_cons.1 h
    rw [List.cons_append, afterMany, if_pos hb]
    exact List.mem_cons_of_mem _ (ih hfront)

end GlobPart

namespace Glob

open GlobPart

/-- The parts of a pattern with one `*` in it: the characters in front of it and behind it. -/
def endingParts (front ending : List Char) : List GlobPart :=
  front.map .char ++ .many :: ending.map .char

/-- Such a pattern accepts what begins and ends like it, with anything but slashes in between. -/
theorem accepts_ending {front ending : List Char} (ascii : ∀ c ∈ ending, c.toNat < 128) (path : String) :
    Glob.accepts ⟨endingParts front ending⟩ path = true
      ↔ ∃ stem, '/' ∉ stem ∧ path.toList = front ++ (stem ++ ending) := by
  -- a star between two texts is no pattern for everything
  have hnot : Glob.isEverything ⟨endingParts front ending⟩ = false := by
    cases front with
    | nil => rfl
    | cons c front => cases front <;> rfl
  have hslash (s : List Char) : (∀ b ∈ Utf8.encode s, (b ≠ slash : Bool) = true) ↔ '/' ∉ s := by
    rw [← List.count_eq_zero, ← Utf8.count_slash_encode, List.count_eq_zero]
    simp only [decide_eq_true_eq]
    exact ⟨fun h hmem => h slash hmem rfl, fun h b hb heq => h (heq ▸ hb)⟩
  -- what the ending leaves is nothing iff it is the rest of the path
  have hending (middle : Utf8.Bytes) :
      [] ∈ sequenceRests (ending.map .char) middle ↔ middle = Utf8.encode ending := by
    rw [← List.append_nil (ending.map GlobPart.char), mem_sequenceRests_chars]
    constructor
    · rintro ⟨rest, rfl, hrest⟩
      rw [sequenceRests] at hrest
      rw [← List.mem_singleton.1 hrest, List.append_nil]
    · rintro rfl
      exact ⟨[], (List.append_nil _).symm, List.mem_singleton_self _⟩
  have hempty (rests : List Utf8.Bytes) : rests.any (·.isEmpty) = true ↔ [] ∈ rests := by
    simp [List.any_eq_true]
  rw [Glob.accepts, hnot, Bool.false_or, hempty, endingParts, mem_sequenceRests_chars]
  constructor
  · rintro ⟨middle, htext, hmany⟩
    obtain ⟨rest, hrest, hmatch⟩ := mem_sequenceRests_cons.1 hmany
    rw [rests] at hrest
    obtain ⟨bytes, hbytes, rfl⟩ := mem_afterMany hrest
    rw [(hending rest).1 hmatch] at htext
    obtain ⟨s, hs⟩ := Utf8.exists_eq_append_of_encode htext
    rw [hs, Utf8.encode, List.flatMap_append] at htext
    obtain ⟨stem, rfl, rfl⟩ := Utf8.exists_stem_of_encode ascii (List.append_cancel_left htext)
    exact ⟨stem, (hslash stem).1 hbytes, hs⟩
  · rintro ⟨stem, hstem, hpath⟩
    refine ⟨Utf8.encode (stem ++ ending), ?_, ?_⟩
    · rw [hpath, Utf8.encode, Utf8.encode, List.flatMap_append]
      rfl
    · refine mem_sequenceRests_cons.2 ⟨Utf8.encode ending, ?_, (hending _).2 rfl⟩
      rw [rests, Utf8.encode, List.flatMap_append]
      exact mem_afterMany_of_pass ((hslash stem).2 hstem) _

/-! ## Reading -/

/-- A character that stands for itself wherever it stands. -/
def IsPlain (c : Char) : Prop := IsLiteral c ∧ c ≠ '\x7d'

/-- Characters that stand for themselves are read as they stand. -/
theorem read_plain {front : List Char} (hfront : ∀ c ∈ front, IsPlain c) (rest : List Char) :
    ∀ (branch : List GlobPart) (before : Option Char), ∃ before',
      read ⟨branch, []⟩ before (front ++ rest)
        = read ⟨(front.map .char).reverse ++ branch, []⟩ before' rest := by
  induction front with
  | nil => exact fun _ before => ⟨before, rfl⟩
  | cons c front ih =>
    intro branch before
    obtain ⟨⟨literal, hclose⟩, hrest⟩ := List.forall_mem_cons.1 hfront
    obtain ⟨before', hnext⟩ := ih hrest (.char c :: branch) (some c)
    refine ⟨before', ?_⟩
    rw [List.cons_append, read_char literal hclose, hnext, List.map_cons, List.reverse_cons, List.append_assoc]
    rfl

/-- A pattern with one `*` among characters that stand for themselves. -/
theorem ofText_ending {front ending : List Char} (hfront : ∀ c ∈ front, IsPlain c)
    (hending : ∀ c ∈ ending, IsPlain c) {text : String}
    (htext : text.toList = front ++ '*' :: ending) :
    ofText text = .ok ⟨endingParts front ending⟩ := by
  obtain ⟨before, hfirst⟩ := read_plain hfront ('*' :: ending) [] none
  obtain ⟨before', hlast⟩ := read_plain hending [] (.many :: (front.map .char).reverse) (some '*')
  simp only [List.append_nil] at hfirst hlast
  -- the star is a part of its own, for no second one follows
  have hstar : read ⟨(front.map .char).reverse, []⟩ before ('*' :: ending)
      = read ⟨.many :: (front.map .char).reverse, []⟩ (some '*') ending := by
    rw [read]
    · rfl
    · rintro rest rfl
      exact (hending '*' List.mem_cons_self).1.1 rfl
  have hread : read .start none text.toList
      = .ok ⟨(ending.map .char).reverse ++ .many :: (front.map .char).reverse, []⟩ := by
    calc read .start none text.toList
        = read ⟨(front.map .char).reverse, []⟩ before ('*' :: ending) := htext ▸ hfirst
      _ = read ⟨.many :: (front.map .char).reverse, []⟩ (some '*') ending := hstar
      _ = read ⟨(ending.map .char).reverse ++ .many :: (front.map .char).reverse, []⟩ before' [] := hlast
      _ = _ := by rw [read]
  have hfinish : Reading.finish ⟨(ending.map .char).reverse ++ .many :: (front.map .char).reverse, []⟩
      = .ok ⟨endingParts front ending⟩ := by
    rw [Reading.finish, if_pos (by rfl), endingParts]
    simp
  rw [ofText, hread]
  exact hfinish

end Glob

end TestBench
