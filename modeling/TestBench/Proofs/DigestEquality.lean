import Mathlib
import TestBench.Digest
import TestBench.Proofs.Judging
import TestBench.Proofs.WholeNumbers
/-
  How digests are compared.

  A digest is 32 hexadecimal digits.  Some digests write a decimal: those of decimal digits alone, and
  those with one `e` between decimal digits, behind which a power of ten stands.

  1. A digest is read as a number iff it writes a decimal, and then as the number that is nearest to the
     natural that it writes (`writesRank_iff`).  There is no sign and no point in it.
  2. So two digests are compared as texts, unless both write decimals.  Those that write one natural are
     equal whatever their digits are; those that write two are told apart as far as rounding does.
-/
namespace TestBench

open TestBench.Text TestBench.Decimal

/-! ## The shape of a digest -/

/-- Whether a character is a hexadecimal digit, letters in lower case. -/
def isHexDigit (c : Char) : Bool := c.isDigit || ('a' ≤ c && c ≤ 'f')

/-- The text of a digest: 32 hexadecimal digits. -/
def IsDigest (s : String) : Prop := s.toList.length = 32 ∧ ∀ c ∈ s.toList, isHexDigit c = true

instance (s : String) : Decidable (IsDigest s) :=
  decidable_of_iff (s.toList.length = 32 ∧ s.toList.all isHexDigit = true) (by simp [IsDigest])

/-- Digits below sixteen are written as hexadecimal digits. -/
theorem isHexDigit_digitChar {n : Nat} (h : n < 16) : isHexDigit (Nat.digitChar n) = true := by
  interval_cases n <;> decide

/-- A number is laid out in as many bytes as are asked for. -/
theorem length_littleEndian (width n : Nat) : (Digest.littleEndian width n).length = width := by
  induction width generalizing n with
  | zero => rfl
  | succ width ih => rw [Digest.littleEndian, List.length_cons, ih]

/-- What is computed of a message is a digest. -/
theorem isDigest_md5Text (message : Text.Utf8.Bytes) : IsDigest (Digest.md5Text message) := by
  have hlength : (Digest.md5 message).length = 16 := by
    simp [Digest.md5, Digest.wordBytes, length_littleEndian]
  constructor
  · -- two digits for each byte
    have hbytes (bytes : Text.Utf8.Bytes) :
        (bytes.flatMap Digest.hexByte).length = 2 * bytes.length := by
      rw [List.length_flatMap]
      simp [Digest.hexByte, Nat.mul_comm]
    rw [Digest.md5Text, String.toList_ofList, hbytes, hlength]
  · intro c hc
    rw [Digest.md5Text, String.toList_ofList, List.mem_flatMap] at hc
    obtain ⟨b, _, hc⟩ := hc
    have hb : b.toNat < 256 := b.toNat_lt
    simp only [Digest.hexByte, List.mem_cons, List.not_mem_nil, or_false] at hc
    rcases hc with rfl | rfl
    · exact isHexDigit_digitChar (by omega)
    · exact isHexDigit_digitChar (by omega)

/-! ## Hexadecimal digits in a literal -/

section HexDigit

variable {c : Char}

/-- A hexadecimal digit is no blank. -/
theorem isBlank_of_isHexDigit (h : isHexDigit c = true) : isBlank c = false := by
  have hrange : 48 ≤ c.toNat ∧ c.toNat ≤ 57 ∨ 97 ≤ c.toNat ∧ c.toNat ≤ 102 := by
    rw [isHexDigit, Bool.or_eq_true, Bool.and_eq_true, decide_eq_true_eq, decide_eq_true_eq] at h
    exact h.imp Char.isDigit_iff_toNat.1 id
  simp only [isBlank, Bool.or_eq_false_iff, Bool.and_eq_false_iff, decide_eq_false_iff_not,
    beq_eq_false_iff_ne]
  omega

/-- A hexadecimal digit is no sign and no point, and of the letters that may stand in front of a power
    it can only be the small one. -/
theorem ne_mark_of_isHexDigit (h : isHexDigit c = true) : c ≠ '-' ∧ c ≠ '+' ∧ c ≠ '.' ∧ c ≠ 'E' := by
  refine ⟨?_, ?_, ?_, ?_⟩ <;>
  · rintro rfl
    exact absurd h (by decide)

end HexDigit

/-! ## Decimals -/

namespace Text

/-- Decimal digits, or decimal digits with an `e` and a power of ten behind them. -/
inductive WritesDecimal : List Char → Nat → Nat → Prop
  | plain {digits : List Char} (nonempty : digits ≠ []) (all : ∀ c ∈ digits, c.isDigit = true) :
      WritesDecimal digits (Nat.ofDigitChars 10 digits 0) 0
  | scaled {digits power : List Char} (nonempty : digits ≠ [])
      (all : ∀ c ∈ digits, c.isDigit = true) (powered : power ≠ [])
      (allPower : ∀ c ∈ power, c.isDigit = true) :
      WritesDecimal (digits ++ 'e' :: power) (Nat.ofDigitChars 10 digits 0)
        (Nat.ofDigitChars 10 power 0)

/-- All characters of a decimal are decimal digits, one apart. -/
theorem WritesDecimal.chars {s : List Char} {digits power : Nat} (h : WritesDecimal s digits power) :
    ∀ c ∈ s, c.isDigit = true ∨ c = 'e' := by
  cases h with
  | plain _ all => exact fun c hc => .inl (all c hc)
  | scaled _ all _ allPower =>
    intro c hc
    rw [List.mem_append, List.mem_cons] at hc
    rcases hc with hc | hc | hc
    · exact .inl (all c hc)
    · exact .inr hc
    · exact .inl (allPower c hc)

/-- The natural that a text writes, by digits and a power of ten. -/
def WritesNatural (s : String) (n : Nat) : Prop :=
  ∃ digits power, WritesDecimal s.toList digits power ∧ n = digits * 10 ^ power

end Text

namespace Decimal

/-- Without a sign an exponent is its digits. -/
theorem exponent?_unsigned {s : List Char} (unsigned : ∀ c ∈ s, c ≠ '-' ∧ c ≠ '+') :
    exponent? s = (digits? 10 s).map Int.ofNat := by
  unfold exponent?
  split
  rename_i hsign
  split at hsign
  · exact absurd rfl (unsigned '-' List.mem_cons_self).1
  · exact absurd rfl (unsigned '+' List.mem_cons_self).2
  · injection hsign with hnegative hdigits
    rw [← hnegative, ← hdigits]
    cases digits? 10 s <;> rfl

/-- Digits have the value that they have in base ten. -/
theorem digitsValue_eq {digits : List Char} (nonempty : digits ≠ [])
    (all : ∀ c ∈ digits, c.isDigit = true) : digitsValue digits = Nat.ofDigitChars 10 digits 0 := by
  rw [digitsValue, digits?_ten.2 ⟨nonempty, all, rfl⟩]
  rfl

/-- The digits in front are all of them if no digit follows. -/
theorem spanDigits_append {digits rest : List Char} (all : ∀ c ∈ digits, c.isDigit = true)
    (ends : ∀ c ∈ rest.head?, c.isDigit = false) : spanDigits (digits ++ rest) = (digits, rest) := by
  have hrest : rest.takeWhile Char.isDigit = [] ∧ rest.dropWhile Char.isDigit = rest := by
    cases rest with
    | nil => exact ⟨rfl, rfl⟩
    | cons c rest =>
      have hc : ¬ c.isDigit = true := Bool.eq_false_iff.1 (ends c rfl)
      exact ⟨List.takeWhile_cons_of_neg hc, List.dropWhile_cons_of_neg hc⟩
  rw [spanDigits, List.takeWhile_append_of_pos all, List.dropWhile_append_of_pos all, hrest.1, hrest.2,
    List.append_nil]

/-- How a text is read whose decimal digits are followed by another hexadecimal digit. -/
theorem magnitude?_append {digits power : List Char} {c : Char}
    (all : ∀ d ∈ digits, d.isDigit = true) (ends : c.isDigit = false)
    (hex : ∀ d ∈ c :: power, isHexDigit d = true) :
    magnitude? false (digits ++ c :: power)
      = if digits = [] then none else if c = 'e' then (digits? 10 power).map fun p =>
          Binary64.ofDecimal false (digitsValue digits) (p : Nat) else none := by
  -- the digit behind the decimal ones ends them
  have hspan : spanDigits (digits ++ c :: power) = (digits, c :: power) := by
    refine spanDigits_append all fun d hd => ?_
    cases hd
    exact ends
  obtain ⟨_, _, hpoint, hcapital⟩ := ne_mark_of_isHexDigit (hex c List.mem_cons_self)
  have hpower : exponent? power = (digits? 10 power).map Int.ofNat := by
    refine exponent?_unsigned fun d hd => ?_
    have hmark := ne_mark_of_isHexDigit (hex d (List.mem_cons_of_mem c hd))
    exact ⟨hmark.1, hmark.2.1⟩
  simp only [magnitude?, hspan]
  split
  · rename_i hrest
    cases hrest
    exact absurd rfl hpoint
  · simp only [List.isEmpty_nil, Bool.and_true, List.isEmpty_iff, List.append_nil, or_iff_left hcapital,
      hpower, List.length_nil]
    -- only an e goes on to an exponent; a digest has neither a point nor a capital letter
    by_cases he : c = 'e'
    · simp only [if_pos he, Option.map_map]
      refine if_congr Iff.rfl rfl ?_
      cases digits? 10 power with
      | none => rfl
      | some p => exact congrArg (some <| Binary64.ofDecimal false _ ·) (Int.sub_zero _)
    · simp only [if_neg he, Option.map_none]

/-- What is read of hexadecimal digits: the decimal that they write, if they write one. -/
theorem magnitude?_hex {s : List Char} (hex : ∀ c ∈ s, isHexDigit c = true) {x : Binary64} :
    magnitude? false s = some x
      ↔ ∃ digits power, WritesDecimal s digits power ∧ x = Binary64.ofDecimal false digits power := by
  constructor
  · intro h
    have hall : ∀ c ∈ s.takeWhile Char.isDigit, c.isDigit = true := fun c hc =>
      List.mem_takeWhile_imp hc
    have hends : ∀ c ∈ (s.dropWhile Char.isDigit).head?, c.isDigit = false := by
      intro c hc
      rw [← List.find?_not_eq_head?_dropWhile] at hc
      have hnot := List.find?_some hc
      rwa [Bool.not_eq_true'] at hnot
    have happend : s.takeWhile Char.isDigit ++ s.dropWhile Char.isDigit = s :=
      List.takeWhile_append_dropWhile
    -- cut in front of the first character that is no decimal digit: it has to be the `e`
    generalize s.takeWhile Char.isDigit = digits at hall happend
    generalize s.dropWhile Char.isDigit = rest at hends happend
    subst happend
    cases rest with
    | nil =>
      rw [List.append_nil] at h
      by_cases hnil : digits = []
      · rw [hnil] at h
        cases h
      · rw [magnitude?_digits false hnil hall] at h
        rw [List.append_nil]
        exact ⟨_, _, .plain hnil hall, (Option.some.inj h).symm⟩
    | cons c power =>
      rw [magnitude?_append hall (hends c rfl) fun d hd => hex d (List.mem_append_right _ hd)] at h
      split at h
      · cases h
      · rename_i hnil
        split at h
        · rename_i he
          obtain ⟨p, hp, hx⟩ := Option.map_eq_some_iff.1 h
          obtain ⟨powered, allPower, rfl⟩ := digits?_ten.1 hp
          rw [digitsValue_eq hnil hall] at hx
          rw [he]
          exact ⟨_, _, .scaled hnil hall powered allPower, hx.symm⟩
        · cases h
  · rintro ⟨_, _, writes, rfl⟩
    cases writes with
    | plain nonempty all => exact magnitude?_digits false nonempty all
    | scaled nonempty all powered allPower =>
      rw [magnitude?_append all (by decide) fun c hc => hex c (List.mem_append_right _ hc),
        if_neg nonempty, if_pos rfl, digits?_ten.2 ⟨powered, allPower, rfl⟩,
        digitsValue_eq nonempty all]
      rfl

/-- A long text of hexadecimal digits has no sign and is none of the words for numbers. -/
theorem literal?_hex {s : List Char} (hex : ∀ c ∈ s, isHexDigit c = true) (long : 8 < s.length) :
    literal? s = magnitude? false s := by
  -- the words for infinity and for no number are shorter
  have hword (word : List Char) (hlength : word.length ≤ 8) : lowerAscii s ≠ word := by
    rintro rfl
    rw [lowerAscii, List.length_map] at hlength
    omega
  unfold literal?
  split
  rename_i hsign
  split at hsign
  · exact absurd rfl (ne_mark_of_isHexDigit (hex '-' List.mem_cons_self)).1
  · exact absurd rfl (ne_mark_of_isHexDigit (hex '+' List.mem_cons_self)).2.1
  · injection hsign with hnegative hbody
    rw [← hnegative, ← hbody]
    dsimp only
    rw [if_neg (not_or.2 ⟨hword _ (by decide), hword _ (by decide)⟩), if_neg (hword _ (by decide))]

end Decimal

/-! ## Digests as numbers -/

section Digests

variable {s e : String}

/-- A digest is read as the decimal that it writes, and as nothing if it writes none. -/
theorem numberIn?_digest (hs : IsDigest s) {x : Binary64} : numberIn? s = some x
    ↔ ∃ digits power, WritesDecimal s.toList digits power
      ∧ x = Binary64.ofDecimal false digits power := by
  obtain ⟨hlength, hex⟩ := hs
  rw [numberIn?, trim_eq_self fun c hc => isBlank_of_isHexDigit (hex c hc),
    literal?_hex hex (hlength ▸ by decide), magnitude?_hex hex]

/-- The rank of a digest is that of the number which is nearest to the natural that it writes. -/
theorem writesRank_iff (hs : IsDigest s) {rank : Int} : WritesRank s rank
    ↔ ∃ n, WritesNatural s n ∧ rank = Binary64.rankOfWhole false (nearest n) := by
  constructor
  · rintro ⟨x, hx, hrank⟩
    obtain ⟨digits, power, writes, rfl⟩ := (numberIn?_digest hs).1 hx
    rw [Binary64.rank?_ofDecimal_nat] at hrank
    exact ⟨_, ⟨digits, power, writes, rfl⟩, (Option.some.inj hrank).symm⟩
  · rintro ⟨n, ⟨digits, power, writes, hn⟩, hrank⟩
    rw [hrank, hn]
    exact ⟨_, (numberIn?_digest hs).2 ⟨digits, power, writes, rfl⟩,
      Binary64.rank?_ofDecimal_nat digits power⟩

/-- Rounding does not keep two naturals apart: the same number of 53 bits is nearest to both, or both
    are above the largest numbers. -/
def Merged (m n : Nat) : Prop :=
  nearest m = nearest n ∨ Binary64.overflow ≤ nearest m ∧ Binary64.overflow ≤ nearest n

/-- Two digests agree iff they are the same text or write naturals that rounding does not keep apart. -/
theorem agree_iff (hs : IsDigest s) (he : IsDigest e) :
    Agree s e ↔ s = e ∨ ∃ m n, WritesNatural s m ∧ WritesNatural e n ∧ Merged m n := by
  refine or_congr_right ?_
  constructor
  · rintro ⟨rank, hrank, hrank'⟩
    obtain ⟨m, hm, hrankm⟩ := (writesRank_iff hs).1 hrank
    obtain ⟨n, hn, hrankn⟩ := (writesRank_iff he).1 hrank'
    exact ⟨m, n, hm, hn, Binary64.rankOfWhole_eq_iff.1 (hrankm.symm.trans hrankn)⟩
  · rintro ⟨m, n, hm, hn, hmerged⟩
    refine ⟨_, (writesRank_iff hs).2 ⟨m, hm, rfl⟩, (writesRank_iff he).2 ⟨n, hn, ?_⟩⟩
    exact Binary64.rankOfWhole_eq_iff.2 hmerged

/-- Equality passes iff the texts agree. -/
theorem equal_passes_iff : Predicate.equal.check (some (.text s)) e = .ok () ↔ Agree s e :=
  Predicate.check_ok_iff_holds

/-- Its denial passes iff they do not. -/
theorem notEqual_passes_iff :
    Predicate.notEqual.check (some (.text s)) e = .ok () ↔ ¬ Agree s e :=
  Predicate.check_ok_iff_holds

/-- **Digests are compared as texts unless both write decimals.**  Two digests are equal if they are the
    same text or write the same natural.  They are different if they are different texts and write no
    naturals that rounding fails to keep apart; so if one of them writes no decimal at all, the texts
    decide.  The two predicates never agree. -/
theorem digests_equal_by_text_or_value (hs : IsDigest s) (he : IsDigest e) :
    (s = e ∨ (∃ n, WritesNatural s n ∧ WritesNatural e n) →
        Predicate.equal.check (some (.text s)) e = .ok ())
      ∧ (s ≠ e → (∀ m n, WritesNatural s m → WritesNatural e n → ¬ Merged m n) →
          Predicate.equal.check (some (.text s)) e = .error (.gotExpected s .equal e))
      ∧ ((∀ n, ¬ WritesNatural s n) ∨ (∀ n, ¬ WritesNatural e n) →
          (Predicate.equal.check (some (.text s)) e = .ok () ↔ s = e)
            ∧ (Predicate.notEqual.check (some (.text s)) e = .ok () ↔ s ≠ e))
      ∧ (Predicate.notEqual.check (some (.text s)) e = .ok ()
          ↔ Predicate.equal.check (some (.text s)) e ≠ .ok ()) := by
  -- two digests agree iff they are one text or write numbers that rounding merges
  have hagree := agree_iff hs he
  refine ⟨fun h => ?_, fun hne hapart => ?_, fun hnone => ?_, ?_⟩
  · rw [equal_passes_iff, hagree]
    exact h.imp id fun ⟨n, hm, hn⟩ => ⟨n, n, hm, hn, .inl rfl⟩
  · have hfails : ¬ Agree s e := by
      rw [hagree]
      rintro (htext | ⟨m, n, hm, hn, hmerged⟩)
      · exact hne htext
      · exact hapart m n hm hn hmerged
    show (if looselyEqual s e = true then _ else _) = _
    rw [if_neg (mt looselyEqual_iff_agree.1 hfails)]
    rfl
  · have htext : Agree s e ↔ s = e := by
      rw [hagree]
      refine or_iff_left ?_
      rintro ⟨m, n, hm, hn, _⟩
      exact hnone.elim (· m hm) (· n hn)
    rw [equal_passes_iff, notEqual_passes_iff, htext]
    exact ⟨Iff.rfl, Iff.rfl⟩
  · rw [notEqual_passes_iff, ne_eq, equal_passes_iff]

/-- The digest of nothing writes no decimal, and of two digests that write zero each equals the other. -/
theorem digests_equal_by_text_or_value_zero :
    Predicate.equal.check (some (.text (Digest.md5Text []))) "00000000000000000000000000000000"
        = .error (.gotExpected (Digest.md5Text []) .equal "00000000000000000000000000000000")
      ∧ Predicate.equal.check (some (.text "00000000000000000000000000000000"))
          "0e000000000000000000000000000000" = .ok () := by
  have hzeros : IsDigest "00000000000000000000000000000000" := by decide +kernel
  have hscaled : IsDigest "0e000000000000000000000000000000" := by decide +kernel
  constructor
  · have hnothing : Digest.md5Text [] = "d41d8cd98f00b204e9800998ecf8427e" := by decide +kernel
    have hletter : ∀ n, ¬ WritesNatural (Digest.md5Text []) n := by
      rintro n ⟨digits, power, writes, _⟩
      rw [hnothing] at writes
      exact absurd (writes.chars 'd' (by decide)) (by decide)
    exact (digests_equal_by_text_or_value (isDigest_md5Text []) hzeros).2.1
      (hnothing ▸ by decide) fun m n hm _ => absurd hm (hletter m)
  · have hzero : WritesNatural "00000000000000000000000000000000" 0 :=
      ⟨_, _, .plain (by decide) (List.all_eq_true.1 (by decide +kernel)), by decide⟩
    have hzero' : WritesNatural "0e000000000000000000000000000000" 0 :=
      ⟨_, _, @WritesDecimal.scaled ['0'] (List.replicate 30 '0') (by decide)
        (List.all_eq_true.1 (by decide)) (by decide) (List.all_eq_true.1 (by decide)), by decide⟩
    exact (digests_equal_by_text_or_value hzeros hscaled).1 (.inr ⟨0, hzero, hzero'⟩)

/-- Two different digests that are equal: both write zero. -/
theorem digests_differ_yet_equal :
    IsDigest "00000000000000000000000000000000" ∧ IsDigest "0e000000000000000000000000000000"
      ∧ "00000000000000000000000000000000" ≠ "0e000000000000000000000000000000"
      ∧ Predicate.equal.check (some (.text "00000000000000000000000000000000"))
          "0e000000000000000000000000000000" = .ok ()
      ∧ Predicate.notEqual.check (some (.text "00000000000000000000000000000000"))
          "0e000000000000000000000000000000" ≠ .ok () := by
  exact ⟨by decide +kernel, by decide +kernel, by decide, by decide +kernel, by decide +kernel⟩

end Digests
end TestBench
