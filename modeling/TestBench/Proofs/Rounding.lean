import Mathlib
import TestBench.Decimal.Binary64
/-
  Rounding of whole numbers to 53 bits.

  1. `roundHalfEven` goes to the whole number below or above a quotient; it keeps the order and the
     bounds that are whole.
  2. Around a natural the numbers of 53 bits are `spacing` apart, and `nearest` rounds to one of them.
     Rounding stays between the powers of two around the natural, on both sides of a power of
     two the grids are in order, so it keeps the order (`nearest_mono`).
  3. A natural is read as the number that is nearest to it, and as infinity if that is above the
     largest numbers (`Binary64.rank?_ofRatio_nat`).  The rank of a word, in which numbers are
     compared, is that many times the rank of one.
  4. `rounded` does the same to an integer.  Two integers are told apart after it if one of them has
     at most 53 bits (`rounded_inj`).
-/
namespace TestBench.Decimal

/-! ## Rounding to whole numbers -/

namespace Binary64

/-- Rounding goes to the next whole number below or above. -/
theorem roundHalfEven_cases (num den : Nat) :
    roundHalfEven num den = num / den ∧ 2 * (num % den) ≤ den
      ∨ roundHalfEven num den = num / den + 1 ∧ den ≤ 2 * (num % den) := by
  rw [roundHalfEven]
  split_ifs
  · exact .inl ⟨rfl, by omega⟩
  · exact .inr ⟨rfl, by omega⟩
  · exact .inl ⟨rfl, by omega⟩
  · exact .inr ⟨rfl, by omega⟩

/-- A whole number is its own quotient by one. -/
theorem roundHalfEven_one (n : Nat) : roundHalfEven n 1 = n := by
  have h := roundHalfEven_cases n 1
  rw [Nat.div_one, Nat.mod_one] at h
  omega

/-- Rounding keeps the order. -/
theorem roundHalfEven_mono {m n den : Nat} (h : m ≤ n) :
    roundHalfEven m den ≤ roundHalfEven n den := by
  rcases Nat.eq_or_lt_of_le (Nat.div_le_div_right (c := den) h) with hq | hq
  · -- the quotients are the same, so the remainders are in order
    have hm := Nat.div_add_mod m den
    have hn := Nat.div_add_mod n den
    rw [hq] at hm
    have hr : m % den ≤ n % den := by omega
    simp only [roundHalfEven, hq]
    split_ifs <;> omega
  · have hm := roundHalfEven_cases m den
    have hn := roundHalfEven_cases n den
    omega

/-- Rounding does not fall below a whole number that the quotient reaches. -/
theorem le_roundHalfEven {k num den : Nat} (hden : 0 < den) (h : k * den ≤ num) :
    k ≤ roundHalfEven num den := by
  have hq := (Nat.le_div_iff_mul_le hden).2 h
  have hcases := roundHalfEven_cases num den
  omega

/-- Nor does it pass one that the quotient stays below. -/
theorem roundHalfEven_le {k num den : Nat} (hden : 0 < den) (h : num < k * den) :
    roundHalfEven num den ≤ k := by
  have hq := (Nat.div_lt_iff_lt_mul hden).2 h
  have hcases := roundHalfEven_cases num den
  omega

end Binary64

/-! ## Rounding to 53 bits -/

/-- How far apart the numbers of 53 bits are at a natural. -/
def spacing (n : Nat) : Nat := 2 ^ (Nat.log2 n - 52)

/-- The number of 53 bits that is nearest to a natural, of two the one with an even mantissa. -/
def nearest (n : Nat) : Nat := Binary64.roundHalfEven n (spacing n) * spacing n

theorem spacing_pos (n : Nat) : 0 < spacing n := Nat.two_pow_pos _

/-- A number of at most 53 bits is its own nearest. -/
theorem nearest_eq_self {n : Nat} (h : n ≤ 2 ^ 53) : nearest n = n := by
  rcases Nat.eq_or_lt_of_le h with rfl | h
  · decide
  · have hlog : Nat.log2 n - 52 = 0 := by
      rcases Nat.eq_zero_or_pos n with rfl | hpos
      · rfl
      · have := (Nat.log2_lt (Nat.pos_iff_ne_zero.1 hpos)).2 h
        omega
    rw [nearest, spacing, hlog, Nat.pow_zero, Binary64.roundHalfEven_one, Nat.mul_one]

/-- Rounding stays between the powers of two around a natural. -/
theorem nearest_between {n : Nat} (h : n ≠ 0) :
    2 ^ Nat.log2 n ≤ nearest n ∧ nearest n ≤ 2 ^ (Nat.log2 n + 1) := by
  -- small numbers are not rounded at all, and for others both powers are on the grid
  rcases Nat.lt_or_ge (Nat.log2 n) 52 with hlog | hlog
  · have hn : n < 2 ^ (Nat.log2 n + 1) := Nat.lt_log2_self
    have hsmall : n ≤ 2 ^ 53 := hn.le.trans (Nat.pow_le_pow_right (by decide) (by omega))
    rw [nearest_eq_self hsmall]
    exact ⟨Nat.log2_self_le h, hn.le⟩
  · have hspacing : 2 ^ 52 * spacing n = 2 ^ Nat.log2 n := by
      rw [spacing, ← Nat.pow_add, Nat.add_sub_cancel' hlog]
    have hspacing' : 2 ^ 53 * spacing n = 2 ^ (Nat.log2 n + 1) := by
      rw [Nat.pow_succ 2 (Nat.log2 n), ← hspacing]
      omega
    constructor
    · rw [← hspacing]
      exact Nat.mul_le_mul_right _
        (Binary64.le_roundHalfEven (spacing_pos n) (hspacing ▸ Nat.log2_self_le h))
    · rw [← hspacing']
      exact Nat.mul_le_mul_right _
        (Binary64.roundHalfEven_le (spacing_pos n) (hspacing' ▸ Nat.lt_log2_self))

/-- Rounding keeps the order. -/
theorem nearest_mono {m n : Nat} (h : m ≤ n) : nearest m ≤ nearest n := by
  rcases Nat.eq_zero_or_pos m with rfl | hm
  · exact (show nearest 0 = 0 by decide) ▸ Nat.zero_le _
  · have hm := Nat.pos_iff_ne_zero.1 hm
    have hn : n ≠ 0 := by omega
    have hlog : Nat.log2 m ≤ Nat.log2 n := (Nat.le_log2 hn).2 ((Nat.log2_self_le hm).trans h)
    rcases Nat.eq_or_lt_of_le hlog with hlog | hlog
    · -- both are rounded on the same grid
      rw [nearest, nearest, spacing, spacing, hlog]
      exact Nat.mul_le_mul_right _ (Binary64.roundHalfEven_mono h)
    · calc nearest m ≤ 2 ^ (Nat.log2 m + 1) := (nearest_between hm).2
        _ ≤ 2 ^ Nat.log2 n := Nat.pow_le_pow_right (by decide) hlog
        _ ≤ nearest n := (nearest_between hn).1

/-! ## What is read of a whole number -/

namespace Binary64

/-- For a whole number the first guess holds. -/
theorem floorLog2_one {n : Nat} (h : n ≠ 0) : floorLog2 n 1 = Nat.log2 n := by
  have hreaches : reaches n 1 (Nat.log2 n : Int) = true := by
    show decide (1 * Nat.pow 2 (Nat.log2 n) ≤ n) = true
    rw [Nat.one_mul]
    exact decide_eq_true (Nat.log2_self_le h)
  rw [floorLog2, show Nat.log2 1 = 0 by decide, Int.natCast_zero, Int.sub_zero]
  exact if_pos hreaches

/-- A natural with a sign. -/
def signed (negative : Bool) (n : Nat) : Int := if negative then -(n : Int) else n

/-- The rank of one: so many units of the last place of the smallest numbers. -/
def rankOfOne : Nat := 2 ^ (-lowestExponent).toNat

theorem rankOfOne_pos : 0 < rankOfOne := by
  rw [rankOfOne]
  exact Nat.two_pow_pos _

/-- A finite number of a whole value has that multiple of the rank of one. -/
theorem rank?_finite {negative : Bool} {m n : Nat} {e : Int}
    (h : m * 2 ^ (e - lowestExponent).toNat = n * rankOfOne) :
    (finite negative m e).rank? = some (signed negative n * rankOfOne) := by
  have hunits : (m * Nat.pow 2 (e - lowestExponent).toNat : Nat) = n * rankOfOne := h
  rw [rank?, hunits, signed, Int.natCast_mul]
  cases negative with
  | false => simp only [Bool.false_eq_true, if_false]
  | true => simp only [if_true, Int.neg_mul]

/-- What stands for a mantissa at an exponent: beyond the largest numbers it is infinite. -/
def limited (negative : Bool) (m : Nat) (e : Int) : Binary64 :=
  if highestExponent < e then .infinite negative else .finite negative m e

/-- The power of two above the largest numbers. -/
def overflow : Nat := 2 ^ (highestExponent + 53).toNat

theorem overflow_pos : 0 < overflow := Nat.two_pow_pos _

/-- The rank of what stands for a whole value: above the largest numbers it is infinite. -/
def rankOfWhole (negative : Bool) (v : Nat) : Int :=
  if v < overflow then signed negative v * rankOfOne
  else if negative then -infiniteRank else infiniteRank

/-- A mantissa of 53 bits is beyond the largest numbers iff its value is. -/
theorem rank?_limited (negative : Bool) {m k : Nat} (low : 2 ^ 52 ≤ m) (high : m < 2 ^ 53) :
    (limited negative m k).rank? = some (rankOfWhole negative (m * 2 ^ k)) := by
  rw [limited, rankOfWhole, highestExponent]
  -- 971 is how far a mantissa of 53 bits can be shifted before it overflows
  by_cases hk : k ≤ 971
  · have hvalue : m * 2 ^ k < overflow :=
      calc m * 2 ^ k < 2 ^ 53 * 2 ^ k := Nat.mul_lt_mul_of_pos_right high (Nat.two_pow_pos k)
        _ = 2 ^ (53 + k) := (Nat.pow_add ..).symm
        _ ≤ overflow := Nat.pow_le_pow_right (by decide) (by rw [highestExponent]; omega)
    rw [if_neg (by omega), if_pos hvalue]
    refine rank?_finite ?_
    rw [rankOfOne, Nat.mul_assoc, ← Nat.pow_add, lowestExponent,
      show ((k : Int) - -1074).toNat = k + (- -1074).toNat by omega]
  · have hvalue : overflow ≤ m * 2 ^ k :=
      calc overflow ≤ 2 ^ (52 + k) :=
            Nat.pow_le_pow_right (by decide) (by rw [highestExponent]; omega)
        _ = 2 ^ 52 * 2 ^ k := Nat.pow_add ..
        _ ≤ m * 2 ^ k := Nat.mul_le_mul_right _ low
    rw [if_pos (by omega), if_neg (Nat.not_lt.2 hvalue)]
    rfl

/-- Rounding gives a mantissa at an exponent, carried to the next power of two if it is too long. -/
theorem ofRatio_eq {n : Nat} {e : Int} {m : Nat} (negative : Bool) (hn : n ≠ 0)
    (he : max (floorLog2 n 1 - 52) lowestExponent = e) (hm : scaled n 1 e = m) (hpos : m ≠ 0) :
    ofRatio negative n 1
      = if m = 2 ^ 53 then limited negative (2 ^ 52) (e + 1) else limited negative m e := by
  simp only [ofRatio, if_neg hn, he, hm]
  have hpow : Nat.pow 2 53 = 2 ^ 53 := rfl
  rw [hpow]
  -- only a mantissa that was rounded up to a power of two is too long by one bit
  by_cases h : m = 2 ^ 53
  · rw [if_pos h, if_pos h]
    dsimp only
    rw [if_neg (Nat.two_pow_pos 52).ne']
    rfl
  · rw [if_neg h, if_neg h]
    dsimp only
    rw [if_neg hpos]
    rfl

/-- A number of at most 52 bits is brought up to 53 bits. -/
theorem rank?_ofRatio_small (negative : Bool) {n : Nat} (hn : n ≠ 0) (hsmall : Nat.log2 n < 52) :
    (ofRatio negative n 1).rank? = some (signed negative (nearest n) * rankOfOne) := by
  obtain ⟨j, hj⟩ : ∃ j, Nat.log2 n + (j + 1) = 52 := ⟨51 - Nat.log2 n, by omega⟩
  have he : max (floorLog2 n 1 - 52) lowestExponent = Int.negSucc j := by
    rw [floorLog2_one hn, lowestExponent]
    omega
  -- the mantissa is the number itself, moved by so many bits
  have hm : scaled n 1 (Int.negSucc j) = n * 2 ^ (j + 1) := by
    rw [scaled]
    exact roundHalfEven_one _
  have hlt : n * 2 ^ (j + 1) < 2 ^ 53 := by
    calc n * 2 ^ (j + 1) < 2 ^ (Nat.log2 n + 1) * 2 ^ (j + 1) :=
          Nat.mul_lt_mul_of_pos_right Nat.lt_log2_self (Nat.two_pow_pos _)
      _ = 2 ^ 53 := by rw [← Nat.pow_add, show Nat.log2 n + 1 + (j + 1) = 53 by omega]
  have hne : n * 2 ^ (j + 1) ≠ 0 := Nat.mul_ne_zero hn (Nat.two_pow_pos _).ne'
  have hself : n ≤ 2 ^ 53 := (Nat.le_mul_of_pos_right n (Nat.two_pow_pos _)).trans hlt.le
  rw [ofRatio_eq negative hn he hm hne, if_neg hlt.ne, nearest_eq_self hself, limited,
    if_neg (by rw [highestExponent]; omega)]
  refine rank?_finite ?_
  rw [rankOfOne, Nat.mul_assoc, ← Nat.pow_add, lowestExponent,
    show j + 1 + (Int.negSucc j - -1074).toNat = (- -1074).toNat by omega]

/-- A longer one is rounded to its grid, and may be carried to the next power of two. -/
theorem rank?_ofRatio_large (negative : Bool) {n : Nat} (hn : n ≠ 0) (hlarge : 52 ≤ Nat.log2 n) :
    (ofRatio negative n 1).rank? = some (rankOfWhole negative (nearest n)) := by
  obtain ⟨k, hk⟩ : ∃ k, Nat.log2 n = k + 52 := ⟨Nat.log2 n - 52, by omega⟩
  have he : max (floorLog2 n 1 - 52) lowestExponent = (k : Int) := by
    rw [floorLog2_one hn, lowestExponent]
    omega
  have hspacing : spacing n = 2 ^ k := by rw [spacing, hk, Nat.add_sub_cancel]
  have hm : scaled n 1 (k : Int) = roundHalfEven n (spacing n) := by
    rw [hspacing, ← Nat.one_mul (2 ^ k)]
    rfl
  -- the mantissa has 53 bits, or is the power of two above them
  have hbetween := nearest_between hn
  rw [nearest, hspacing, hk, Nat.add_right_comm, Nat.pow_add 2 k 52, Nat.pow_add 2 k 53,
    Nat.mul_comm (2 ^ k), Nat.mul_comm (2 ^ k)] at hbetween
  have hlow : 2 ^ 52 ≤ roundHalfEven n (2 ^ k) :=
    Nat.le_of_mul_le_mul_right hbetween.1 (Nat.two_pow_pos k)
  have hhigh : roundHalfEven n (2 ^ k) ≤ 2 ^ 53 :=
    Nat.le_of_mul_le_mul_right hbetween.2 (Nat.two_pow_pos k)
  rw [hspacing] at hm
  rw [ofRatio_eq negative hn he hm (by omega), nearest, hspacing]
  by_cases hcarry : roundHalfEven n (2 ^ k) = 2 ^ 53
  · rw [if_pos hcarry, hcarry]
    have hcarried : 2 ^ 53 * 2 ^ k = 2 ^ 52 * 2 ^ (k + 1) := by
      rw [← Nat.pow_add, ← Nat.pow_add, show 53 + k = 52 + (k + 1) by omega]
    rw [hcarried]
    exact rank?_limited negative (k := k + 1) le_rfl (by decide)
  · rw [if_neg hcarry]
    exact rank?_limited negative hlow (by omega)

/-- Below half of what overflows nothing is rounded up to it. -/
theorem nearest_lt_overflow {n : Nat} (hlog : Nat.log2 n < 1023) : nearest n < overflow := by
  rcases Nat.eq_zero_or_pos n with rfl | hpos
  · exact (show nearest 0 = 0 by decide) ▸ overflow_pos
  · exact (nearest_between (Nat.pos_iff_ne_zero.1 hpos)).2.trans_lt
      (Nat.pow_lt_pow_right (by decide) (by rw [highestExponent]; omega))

/-- A natural of any size is read as the number that is nearest to it. -/
theorem rank?_ofRatio_nat (negative : Bool) (n : Nat) :
    (ofRatio negative n 1).rank? = some (rankOfWhole negative (nearest n)) := by
  rcases Nat.eq_zero_or_pos n with rfl | hpos
  · rw [ofRatio, if_pos rfl, zero, show nearest 0 = 0 by decide, rankOfWhole,
      if_pos overflow_pos]
    exact rank?_finite (by rw [Nat.zero_mul, Nat.zero_mul])
  have hn : n ≠ 0 := Nat.pos_iff_ne_zero.1 hpos
  rcases Nat.lt_or_ge (Nat.log2 n) 52 with hsmall | hlarge
  · have hlt : nearest n < overflow := nearest_lt_overflow (by omega)
    rw [rank?_ofRatio_small negative hn hsmall, rankOfWhole, if_pos hlt]
  · exact rank?_ofRatio_large negative hn hlarge

/-- A word is far below the largest numbers. -/
theorem rank?_ofRatio (negative : Bool) {n : Nat} (h : n < 2 ^ 64) :
    (ofRatio negative n 1).rank? = some (signed negative (nearest n) * rankOfOne) := by
  have hlog : Nat.log2 n < 1023 := by
    rcases Nat.eq_zero_or_pos n with rfl | hpos
    · decide
    · exact ((Nat.log2_lt (Nat.pos_iff_ne_zero.1 hpos)).2 h).trans (by decide)
  rw [rank?_ofRatio_nat, rankOfWhole, if_pos (nearest_lt_overflow hlog)]

/-- A decimal without point and power is read like the whole number that it writes. -/
theorem ofDecimal_zero (negative : Bool) {n : Nat} (h : n < 2 ^ 64) :
    ofDecimal negative n 0 = ofRatio negative n 1 := by
  rcases Nat.eq_zero_or_pos n with rfl | hpos
  · simp only [ofDecimal, ofRatio, true_or, if_true]
  · have hn := Nat.pos_iff_ne_zero.1 hpos
    have hlog : Nat.log2 n < 64 := (Nat.log2_lt hn).2 h
    simp only [ofDecimal]
    rw [if_neg (by omega), if_neg (by omega)]
    show ofRatio negative (n * 1) 1 = _
    rw [Nat.mul_one]

/-- The ranks of finite whole values stay below that of infinity. -/
theorem mul_rankOfOne_lt {v : Nat} (h : v < overflow) : (v * rankOfOne : Int) < infiniteRank := by
  have hshift (k : Nat) : (2 : Int).shiftLeft k = (2 * 2 ^ k : Nat) :=
    congrArg Int.ofNat (Nat.shiftLeft_eq 2 k)
  have hlt (k : Nat) (hk : (highestExponent + 53).toNat + (-lowestExponent).toNat ≤ k + 1) :
      v * rankOfOne < 2 * 2 ^ k :=
    calc v * rankOfOne < overflow * rankOfOne := Nat.mul_lt_mul_of_pos_right h rankOfOne_pos
      _ = 2 ^ ((highestExponent + 53).toNat + (-lowestExponent).toNat) := by
        rw [overflow, rankOfOne, ← Nat.pow_add]
      _ ≤ 2 ^ (k + 1) := Nat.pow_le_pow_right (by decide) hk
      _ = 2 * 2 ^ k := Nat.pow_succ'
  rw [infiniteRank, hshift, ← Int.natCast_mul]
  exact Int.ofNat_lt.2 (hlt 2100 (by decide))

/-- Two whole values have one rank iff they are the same or both are above the largest numbers. -/
theorem rankOfWhole_eq_iff {a b : Nat} :
    rankOfWhole false a = rankOfWhole false b ↔ a = b ∨ overflow ≤ a ∧ overflow ≤ b := by
  have hone : (rankOfOne : Int) ≠ 0 := Int.natCast_ne_zero.2 rankOfOne_pos.ne'
  have hsigned (v : Nat) : signed false v = v := rfl
  simp only [rankOfWhole, hsigned, Bool.false_eq_true, if_false]
  -- below, ranks are multiples of that of one; above, all are that of infinity
  rcases Nat.lt_or_ge a overflow with ha | ha <;> rcases Nat.lt_or_ge b overflow with hb | hb
  · rw [if_pos ha, if_pos hb, Int.mul_eq_mul_right_iff hone]
    omega
  · rw [if_pos ha, if_neg (Nat.not_lt.2 hb)]
    exact iff_of_false (mul_rankOfOne_lt ha).ne (by omega)
  · rw [if_neg (Nat.not_lt.2 ha), if_pos hb]
    exact iff_of_false (mul_rankOfOne_lt hb).ne' (by omega)
  · rw [if_neg (Nat.not_lt.2 ha), if_neg (Nat.not_lt.2 hb)]
    exact iff_of_true rfl (.inr ⟨ha, hb⟩)

/-- A whole number with a power of ten is read as the number that is nearest to their product. -/
theorem rank?_ofDecimal_nat (digits power : Nat) : (ofDecimal false digits power).rank?
    = some (rankOfWhole false (nearest (digits * 10 ^ power))) := by
  rcases Nat.eq_zero_or_pos digits with rfl | hpos
  · simp only [ofDecimal, true_or, if_true, Nat.zero_mul]
    rw [← rank?_ofRatio_nat false 0, ofRatio, if_pos rfl]
  have hdigits := Nat.pos_iff_ne_zero.1 hpos
  simp only [ofDecimal]
  rw [if_neg (by omega)]
  split
  · -- the count of digits alone decides that the product is too large
    have hten : 2 ^ (3 * power) ≤ 10 ^ power := by
      rw [Nat.pow_mul]
      exact Nat.pow_le_pow_left (by decide) power
    have hproduct : 2 ^ (Nat.log2 digits + 3 * power) ≤ digits * 10 ^ power := by
      rw [Nat.pow_add]
      exact Nat.mul_le_mul (Nat.log2_self_le hdigits) hten
    have hne : digits * 10 ^ power ≠ 0 := Nat.mul_ne_zero hdigits (Nat.pow_pos (by decide)).ne'
    have hlog : Nat.log2 digits + 3 * power ≤ Nat.log2 (digits * 10 ^ power) :=
      (Nat.le_log2 hne).2 hproduct
    have hlarge : overflow ≤ nearest (digits * 10 ^ power) :=
      calc overflow ≤ 2 ^ Nat.log2 (digits * 10 ^ power) :=
            Nat.pow_le_pow_right (by decide) (by rw [highestExponent]; omega)
        _ ≤ nearest (digits * 10 ^ power) := (nearest_between hne).1
    rw [rankOfWhole, if_neg (Nat.not_lt.2 hlarge)]
    rfl
  · exact rank?_ofRatio_nat false (digits * 10 ^ power)

end Binary64

/-! ## Integers -/

/-- The 53-bit number that is nearest to an integer. -/
def rounded (z : Int) : Int := Binary64.signed (z < 0) (nearest z.natAbs)

/-- Rounding leaves the sign alone. -/
theorem rounded_signed (negative : Bool) (n : Nat) :
    rounded (Binary64.signed negative n) = Binary64.signed negative (nearest n) := by
  cases negative with
  | false =>
    have hn : ¬ (Binary64.signed false n < 0) := by
      rw [Binary64.signed]
      exact Int.not_lt.2 (Int.natCast_nonneg n)
    rw [rounded, decide_eq_false hn]
    rfl
  | true =>
    rcases Nat.eq_zero_or_pos n with rfl | hpos
    · rfl
    · have hn : Binary64.signed true n < 0 := by
        rw [Binary64.signed, if_pos rfl]
        omega
      rw [rounded, decide_eq_true hn, Binary64.signed, Binary64.signed, if_pos rfl, if_pos rfl,
        Int.natAbs_neg, Int.natAbs_natCast]
      rfl

/-- Integers up to `2 ^ 53` are not rounded. -/
theorem rounded_eq_self {z : Int} (h : z.natAbs ≤ 2 ^ 53) : rounded z = z := by
  simp only [rounded, nearest_eq_self h, Binary64.signed, decide_eq_true_eq]
  split_ifs <;> omega

/-- Rounding keeps the order of integers. -/
theorem rounded_mono {a b : Int} (h : a ≤ b) : rounded a ≤ rounded b := by
  simp only [rounded, Binary64.signed, decide_eq_true_eq]
  split_ifs with ha hb hb
  · have := nearest_mono (show b.natAbs ≤ a.natAbs by omega)
    omega
  · omega
  · omega
  · have := nearest_mono (show a.natAbs ≤ b.natAbs by omega)
    omega

/-- Two integers of which one has at most 53 bits are rounded to the same number only if they are the
    same. -/
theorem rounded_inj {a b : Int} (h : a.natAbs < 2 ^ 53) (hab : rounded a = rounded b) : a = b := by
  rw [rounded_eq_self h.le] at hab
  by_cases hb : b.natAbs ≤ 2 ^ 53
  · rwa [rounded_eq_self hb] at hab
  · exfalso
    rcases Int.lt_or_lt_of_ne (show b ≠ 0 by omega) with hneg | hpos
    · have hle := rounded_mono (show b ≤ -2 ^ 53 by omega)
      rw [rounded_eq_self (z := -2 ^ 53) (by decide)] at hle
      omega
    · have hle := rounded_mono (show 2 ^ 53 ≤ b by omega)
      rw [rounded_eq_self (z := 2 ^ 53) (by decide)] at hle
      omega

end TestBench.Decimal
