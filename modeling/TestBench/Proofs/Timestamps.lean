import Mathlib
import TestBench.Timestamp
import TestBench.Proofs.DigestEquality
/-
  Points in time, written and read back.

  1. A day of an era is so many centuries, groups of four years, years, and days of a year that begins
     in March (`DayOfEra`).  There is one such way to count each day (`exists_dayOfEra`), and the
     formulas of `civil` find it (`yearOfEra_eq`).
  2. So a date that stands for a number of days exists (`isDate_civil`) and leads back to that number
     (`daysBefore_civil`).
  3. Numbers that are filled with zeros, fractions of a second and years are read back from their texts,
     as long as no digit follows (`number?_padded`, `fraction?_fractionText`, `year?_yearText`).
  4. Hence a timestamp that there is (`Valid`) is read back from its text, and whatever is read is such a
     timestamp; so these are exactly the ones that are read back (`parse?_text_iff`).
-/
namespace TestBench.Timestamp

open TestBench.Text TestBench.Decimal

/-! ## Days of an era -/

/-- Day `n` of an era of 400 years, counted in centuries, groups of four years, years, and days.  Only
    the last year of a group has one day more, and the last group of a century only in the last
    century. -/
structure DayOfEra (n c g y d : Nat) : Prop where
  count : n = 36524 * c + 1461 * g + 365 * y + d
  centuries : c ≤ 3
  groups : g ≤ 24
  years : y ≤ 3
  days : d ≤ 365
  leap : d = 365 → y = 3 ∧ (g = 24 → c = 3)

/-- Every day of an era is counted in this way. -/
theorem exists_dayOfEra {n : Nat} (h : n < 146097) : ∃ c g y d, DayOfEra n c g y d := by
  -- the last day of an era, and that of a group, would begin a fifth century or year, so one is taken off
  let c := n / 36524 - n / 146096
  let ofCentury := n - 36524 * c
  let g := ofCentury / 1461
  let ofGroup := ofCentury - 1461 * g
  let y := ofGroup / 365 - ofGroup / 1460
  have hc : c ≤ 3 ∧ 36524 * c ≤ n ∧ ofCentury ≤ 36524 ∧ (ofCentury = 36524 → c = 3) := by
    omega
  have hg : g ≤ 24 ∧ 1461 * g ≤ ofCentury ∧ ofGroup ≤ 1460 := by omega
  have hy : y ≤ 3 ∧ 365 * y ≤ ofGroup ∧ ofGroup - 365 * y ≤ 365
      ∧ (ofGroup - 365 * y = 365 → ofGroup = 1460) := by omega
  refine ⟨c, g, y, ofGroup - 365 * y, ?_, hc.1, hg.1, hy.1, hy.2.2.1, ?_⟩
  · omega
  · intro hlast
    omega

/-- The year of the era that a day is in, as `civil` finds it. -/
theorem DayOfEra.yearOfEra_eq {n c g y d : Nat} (h : DayOfEra n c g y d) :
    (n - n / 1460 + n / 36524 - n / 146096) / 365 = 100 * c + 4 * g + y := by
  obtain ⟨hcount, hc, hg, hy, hd, hleap⟩ := h
  -- only the last day of the era lies behind its centuries
  have hlast : n < 36524 * (c + 1) ∨ c = 3 ∧ n = 146096 := by omega
  have hcentury : n / 36524 = c + n / 146096 := by
    rcases hlast with hlt | ⟨rfl, rfl⟩
    · have hquotient : n / 36524 = c := Nat.div_eq_of_lt_le (by omega) (by omega)
      omega
    · rfl
  -- the fourth part of a day by which a year is too long makes up one day at most
  have hday : n / 1460 = 25 * c + g ∧ d ≤ 364
      ∨ n / 1460 = 25 * c + g + 1 ∧ 1 ≤ d := by omega
  omega

/-- The years before it have as many days as `civil` counts. -/
theorem DayOfEra.daysOfYears_eq {n c g y d : Nat} (h : DayOfEra n c g y d) :
    (100 * c + 4 * g + y) * 365 + (100 * c + 4 * g + y) / 4 - (100 * c + 4 * g + y) / 100 + d = n := by
  obtain ⟨hcount, hc, hg, hy, hd, hleap⟩ := h
  omega

/-- The month in which a day of a year lies, counted from March, and the days of the year before it. -/
theorem exists_month {d : Nat} (h : d ≤ 365) : ∃ m, (5 * d + 2) / 153 = m ∧ m ≤ 11
    ∧ (153 * m + 2) / 5 ≤ d ∧ d < (153 * (m + 1) + 2) / 5 := by
  refine ⟨_, rfl, ?_⟩
  omega

section Date

variable {days era : Int} {n c g y d : Nat}

/-- The date of a day, from the way in which it is counted. -/
theorem civil_of_dayOfEra (h : DayOfEra n c g y d) (hdays : days + 719468 = era * 146097 + n) :
    let m := (5 * d + 2) / 153
    let month := if m < 10 then m + 3 else m - 9
    civil days = ((100 * c + 4 * g + y : Nat) + era * 400 + (if month ≤ 2 then 1 else 0), month,
      d - (153 * m + 2) / 5 + 1) := by
  have hn : n < 146097 := by
    obtain ⟨hcount, hc, hg, hy, hd, hleap⟩ := h
    omega
  have hera : Int.fdiv (days + 719468) 146097 = era := by
    rw [Int.fdiv_eq_ediv_of_nonneg _ (by decide), hdays]
    omega
  have hofEra : (days + 719468 - era * 146097).toNat = n := by omega
  -- a century has one day less than its groups, and an era one more than its centuries
  have hofYear : n - (365 * (100 * c + 4 * g + y) + (100 * c + 4 * g + y) / 4
      - (100 * c + 4 * g + y) / 100) = d := by
    have hcount := h.daysOfYears_eq
    omega
  simp only [civil, hera, hofEra, h.yearOfEra_eq, hofYear]

/-- That date stands for the day. -/
theorem daysBefore_of_dayOfEra (h : DayOfEra n c g y d) (hdays : days + 719468 = era * 146097 + n) :
    daysBefore (civil days).1 (civil days).2.1 (civil days).2.2 = days := by
  have hcount := h.daysOfYears_eq
  have hy : 100 * c + 4 * g + y < 400 := by
    obtain ⟨_, hc, hg, hy, _, _⟩ := h
    omega
  obtain ⟨m, hm, hm11, hfront, hback⟩ := exists_month h.days
  rw [civil_of_dayOfEra h hdays, hm]
  generalize 100 * c + 4 * g + y = yearOfEra at hcount hy
  have hera : Int.fdiv (yearOfEra + era * 400) 400 = era := by
    rw [Int.fdiv_eq_ediv_of_nonneg _ (by decide)]
    omega
  have hofEra : ((yearOfEra : Int) + era * 400 - era * 400).toNat = yearOfEra := by omega
  have hofYear : (153 * m + 2) / 5 + (d - (153 * m + 2) / 5 + 1) - 1 = d := by omega
  rw [daysBefore]
  -- years are counted from March, so the last two months belong to the next one
  rcases Nat.lt_or_ge m 10 with hspring | hwinter
  · have hmonth : ¬ m + 3 ≤ 2 := by omega
    have hmonth' : 2 < m + 3 := by omega
    simp only [hspring, hmonth, hmonth', if_true, if_false, add_zero, Nat.add_sub_cancel, hera, hofEra,
      hofYear]
    omega
  · have hspring : ¬ m < 10 := by omega
    have hmonth : m - 9 ≤ 2 := by omega
    have hmonth' : ¬ 2 < m - 9 := by omega
    have hback : m - 9 + 9 = m := by omega
    simp only [hspring, hmonth, hmonth', if_true, if_false, add_sub_cancel_right, hback, hera, hofYear]
    omega

/-- The year after a group of years with a day more is a leap year. -/
theorem isLeapYear_of_last (h : DayOfEra n c g y 365) :
    isLeapYear ((100 * c + 4 * g + y : Nat) + era * 400 + 1) = true := by
  obtain ⟨_, hc, hg, _, _, hleap⟩ := h
  obtain ⟨rfl, hlast⟩ := hleap rfl
  rw [isLeapYear, Bool.and_eq_true, Bool.or_eq_true, decide_eq_true_iff, decide_eq_true_iff,
    decide_eq_true_iff]
  refine ⟨by omega, ?_⟩
  rcases Nat.lt_or_ge g 24 with hlt | hge
  · exact .inl (by omega)
  · exact .inr (by omega)

end Date

/-- A number of days counts up to some day of some era. -/
theorem exists_era (days : Int) :
    ∃ era n c g y d, DayOfEra n c g y d ∧ days + 719468 = era * 146097 + n := by
  obtain ⟨c, g, y, d, h⟩ := exists_dayOfEra (n := ((days + 719468) % 146097).toNat) (by omega)
  exact ⟨(days + 719468) / 146097, _, c, g, y, d, h, by omega⟩

/-- **Every number of days leads to a date, and the date back to the number.** -/
theorem daysBefore_civil (days : Int) :
    daysBefore (civil days).1 (civil days).2.1 (civil days).2.2 = days := by
  obtain ⟨era, n, c, g, y, d, h, hdays⟩ := exists_era days
  exact daysBefore_of_dayOfEra h hdays

/-- A date that there is. -/
structure IsDate (year : Int) (month day : Nat) : Prop where
  isMonth : 1 ≤ month ∧ month ≤ 12
  isDay : 1 ≤ day ∧ day ≤ monthLength year month

/-- The months from March to January have the lengths that `civil` gives them. -/
theorem monthLength_eq {m : Nat} (h : m < 11) (year : Int) :
    (153 * m + 2) / 5 + monthLength year (if m < 10 then m + 3 else m - 9) = (153 * (m + 1) + 2) / 5 := by
  interval_cases m <;> rfl

/-- The date of a day is a date that there is. -/
theorem isDate_civil (days : Int) : IsDate (civil days).1 (civil days).2.1 (civil days).2.2 := by
  obtain ⟨era, n, c, g, y, d, h, hdays⟩ := exists_era days
  obtain ⟨m, hm, hm11, hfront, hback⟩ := exists_month h.days
  rw [civil_of_dayOfEra h hdays, hm]
  refine ⟨?_, Nat.succ_pos _, ?_⟩
  · dsimp only
    split <;> omega
  · rcases Nat.lt_or_ge m 11 with hlt | hge
    · have hlength := monthLength_eq hlt
        ((100 * c + 4 * g + y : Nat) + era * 400 + if (if m < 10 then m + 3 else m - 9) ≤ 2 then 1 else 0)
      dsimp only
      omega
    · -- February is the last month
      obtain rfl : m = 11 := by omega
      have hd := h.days
      show d - 337 + 1 ≤ if isLeapYear ((100 * c + 4 * g + y : Nat) + era * 400 + 1) then 29 else 28
      rcases Nat.lt_or_ge d 365 with hd' | hd'
      · split <;> omega
      · obtain rfl : d = 365 := by omega
        rw [if_pos (isLeapYear_of_last h)]

/-! ## Numbers -/

section Numbers

variable {width n : Nat} {digits rest : List Char}

theorem isSpace_of_isDigit {c : Char} (h : c.isDigit = true) : isSpace c = false := by
  have hlow : 48 ≤ c.toNat := (Char.isDigit_iff_toNat.1 h).1
  have hblank : ¬ c = ' ' := by
    rintro rfl
    exact absurd h (by decide)
  have hcontrol : ¬ c ≤ '\r' := fun hle => absurd (show c.toNat ≤ 13 from hle) (by omega)
  simp only [isSpace, hblank, hcontrol, decide_false, Bool.and_false, Bool.or_false]

/-- No blanks are skipped in front of a digit. -/
theorem skipSpaces_digits (nonempty : digits ≠ []) (all : ∀ c ∈ digits, c.isDigit = true) :
    skipSpaces (digits ++ rest) = digits ++ rest := by
  cases digits with
  | nil => exact absurd rfl nonempty
  | cons c digits =>
    refine List.dropWhile_cons_of_neg ?_
    rw [isSpace_of_isDigit (all c List.mem_cons_self)]
    exact Bool.false_ne_true

/-- Digits that are as many as asked for, or less, are a number if no digit follows. -/
theorem number?_digits (nonempty : digits ≠ []) (all : ∀ c ∈ digits, c.isDigit = true)
    (fits : digits.length ≤ width) (ends : ∀ c ∈ rest.head?, c.isDigit = false) :
    number? width (digits ++ rest) = some (Nat.ofDigitChars 10 digits 0, rest) := by
  -- the front of what follows is no digit either, also where the width cuts it
  have hends : ∀ c ∈ (rest.take (width - digits.length)).head?, c.isDigit = false := by
    intro c hc
    rw [List.head?_take] at hc
    split at hc
    · cases hc
    · exact ends c hc
  have htake : ((digits ++ rest).take width).takeWhile Char.isDigit = digits := by
    rw [List.take_append, List.take_of_length_le fits]
    exact congrArg Prod.fst (spanDigits_append all hends)
  have hread : digits? 10 digits = some (Nat.ofDigitChars 10 digits 0) :=
    digits?_ten.2 ⟨nonempty, all, rfl⟩
  rw [number?]
  simp only [skipSpaces_digits nonempty all, htake, hread, Option.map_some, List.drop_left]

theorem toList_padded (width n : Nat) : (padded width n).toList
    = List.replicate (width - (Nat.toDigits 10 n).length) '0' ++ Nat.toDigits 10 n := by
  have htext : (toString n).toList = Nat.toDigits 10 n := Nat.toList_repr
  have hlength : (toString n).length = (Nat.toDigits 10 n).length := by
    rw [← String.length_toList, htext]
  rw [padded, String.toList_append, String.toList_ofList, htext, hlength]

/-- A number that is filled with zeros has digits only. -/
theorem isDigit_of_mem_padded : ∀ c ∈ (padded width n).toList, c.isDigit = true := by
  rw [toList_padded]
  refine List.forall_mem_append.2 ⟨fun c hc => ?_, fun c hc => ?_⟩
  · rw [List.eq_of_mem_replicate hc]
    decide
  · exact Nat.isDigit_of_mem_toDigits (by decide) (by decide) hc

/-- Zeros in front make no difference. -/
theorem ofDigitChars_padded : Nat.ofDigitChars 10 (padded width n).toList 0 = n := by
  rw [toList_padded, Nat.ofDigitChars_append, Nat.ofDigitChars_replicate_zero, Nat.mul_zero,
    Nat.ofDigitChars_ten_toDigits]

theorem padded_ne_nil : (padded width n).toList ≠ [] := by
  rw [toList_padded]
  exact List.append_ne_nil_of_right_ne_nil _ Nat.toDigits_ne_nil

/-- A number that is not too long is filled up to the width. -/
theorem length_padded (pos : 0 < width) (fits : n < 10 ^ width) :
    (padded width n).toList.length = width := by
  have hle := (Nat.length_toDigits_le_iff (b := 10) (by decide) pos).2 fits
  rw [toList_padded, List.length_append, List.length_replicate]
  omega

/-- A number that is filled up to the width is read back. -/
theorem number?_padded (pos : 0 < width) (fits : n < 10 ^ width)
    (ends : ∀ c ∈ rest.head?, c.isDigit = false) :
    number? width ((padded width n).toList ++ rest) = some (n, rest) := by
  rw [number?_digits padded_ne_nil isDigit_of_mem_padded (length_padded pos fits).le ends,
    ofDigitChars_padded]

/-- Digits are a year without a sign. -/
theorem year?_digits (nonempty : digits ≠ []) (all : ∀ c ∈ digits, c.isDigit = true) :
    year? (digits ++ rest) = (number? 4 (digits ++ rest)).map fun (n, r) => ((n : Int), r) := by
  unfold year?
  rw [skipSpaces_digits nonempty all]
  -- a digit in front is no sign
  have hfirst {c : Char} {s : List Char} (h : digits ++ rest = c :: s) : c.isDigit = true := by
    cases digits with
    | nil => exact absurd rfl nonempty
    | cons d digits => exact (List.cons.inj h).1 ▸ all d List.mem_cons_self
  split
  · rename_i h
    exact absurd (hfirst h) (by decide)
  · rename_i h
    exact absurd (hfirst h) (by decide)
  · rfl

theorem year?_minus (s : List Char) :
    year? ('-' :: s) = (number? s.length s).map fun (n, r) => (-(n : Int), r) := rfl

theorem year?_plus (s : List Char) :
    year? ('+' :: s) = (number? s.length s).map fun (n, r) => ((n : Int), r) := rfl

/-- A year is read back. -/
theorem year?_yearText (year : Int) (ends : ∀ c ∈ rest.head?, c.isDigit = false) :
    year? ((yearText year).toList ++ rest) = some (year, rest) := by
  -- behind a sign there may be any number of digits
  have signed (n : Nat) : number? ((padded 4 n).toList ++ rest).length ((padded 4 n).toList ++ rest)
      = some (n, rest) := by
    have hle : (padded 4 n).toList.length ≤ ((padded 4 n).toList ++ rest).length := by
      rw [List.length_append]
      exact Nat.le_add_right _ _
    rw [number?_digits padded_ne_nil isDigit_of_mem_padded hle ends, ofDigitChars_padded]
  rw [yearText]
  split
  · rename_i hplain
    obtain ⟨n, rfl⟩ := Int.eq_ofNat_of_zero_le hplain.1
    have hn : n < 10 ^ 4 := by
      have hle := hplain.2
      omega
    rw [Int.toNat_natCast, year?_digits padded_ne_nil isDigit_of_mem_padded,
      number?_padded (by decide) hn ends]
    rfl
  · rw [String.toList_append]
    split
    · rename_i hnegative
      have hyear : -((year.natAbs : Nat) : Int) = year := by omega
      have htext : "-".toList ++ (padded 4 year.natAbs).toList ++ rest
        = '-' :: ((padded 4 year.natAbs).toList ++ rest) := rfl
      rw [htext, year?_minus, signed]
      exact congrArg (fun year => some (year, rest)) hyear
    · rename_i hplain hpositive
      have hyear : ((year.natAbs : Nat) : Int) = year := by omega
      have htext : "+".toList ++ (padded 4 year.natAbs).toList ++ rest
        = '+' :: ((padded 4 year.natAbs).toList ++ rest) := rfl
      rw [htext, year?_plus, signed]
      exact congrArg (fun year => some (year, rest)) hyear

/-- A fraction that digits write is read in nanoseconds, if no digit follows. -/
theorem fraction?_digits (nonempty : digits ≠ []) (all : ∀ c ∈ digits, c.isDigit = true)
    (fits : digits.length ≤ 9) (ends : ∀ c ∈ rest.head?, c.isDigit = false) :
    fraction? ('.' :: (digits ++ rest))
      = some (Nat.ofDigitChars 10 digits 0 * Nat.pow 10 (9 - digits.length), rest) := by
  have hdigits : (digits ++ rest).takeWhile Char.isDigit = digits :=
    congrArg Prod.fst (spanDigits_append all ends)
  have hread : digits? 10 digits = some (Nat.ofDigitChars 10 digits 0) :=
    digits?_ten.2 ⟨nonempty, all, rfl⟩
  rw [fraction?]
  simp only [hdigits, List.take_of_length_le fits, hread, Option.map_some, List.drop_left]

/-- A fraction of a few digits counts in the unit that these digits have. -/
theorem fraction?_padded {n : Nat} (pos : 0 < width) (fits : width ≤ 9) (h : n < 10 ^ width)
    (ends : ∀ c ∈ rest.head?, c.isDigit = false) :
    fraction? ((("." ++ padded width n).toList) ++ rest)
      = some (n * Nat.pow 10 (9 - width), rest) := by
  have hlength := length_padded pos h
  have hread := fraction?_digits padded_ne_nil isDigit_of_mem_padded (hlength.trans_le fits) ends
  rw [ofDigitChars_padded, hlength] at hread
  rw [String.toList_append]
  exact hread

/-- A fraction of a second is read back, if no digit follows. -/
theorem fraction?_fractionText {nanos : Nat} (h : nanos < 1000000000) :
    fraction? ((fractionText nanos).toList ++ ['Z']) = some (nanos, ['Z']) := by
  have ends : ∀ c ∈ ['Z'].head?, c.isDigit = false := by
    intro c hc
    cases hc
    decide
  rw [fractionText]
  -- nothing, or as few groups of three digits as show it all
  split
  · rename_i hzero
    rw [hzero]
    rfl
  split
  · rename_i hmilli
    have hnanos : nanos / 1000000 * Nat.pow 10 (9 - 3) = nanos :=
      Nat.div_mul_cancel (Nat.dvd_of_mod_eq_zero hmilli)
    rw [fraction?_padded (by decide) (by decide) (by omega) ends, hnanos]
  split
  · rename_i hmicro
    have hnanos : nanos / 1000 * Nat.pow 10 (9 - 6) = nanos :=
      Nat.div_mul_cancel (Nat.dvd_of_mod_eq_zero hmicro)
    rw [fraction?_padded (by decide) (by decide) (by omega) ends, hnanos]
  · have hnanos : nanos * Nat.pow 10 (9 - 9) = nanos := Nat.mul_one nanos
    rw [fraction?_padded (by decide) (by decide) (by omega) ends, hnanos]

/-- Digits write less than the power of ten above them. -/
theorem ofDigitChars_lt {digits : List Char} (all : ∀ c ∈ digits, c.isDigit = true) :
    ∀ start, Nat.ofDigitChars 10 digits start < (start + 1) * 10 ^ digits.length := by
  induction digits with
  | nil =>
    intro start
    rw [Nat.ofDigitChars_nil, List.length_nil]
    omega
  | cons c rest ih =>
    intro start
    obtain ⟨hc, hrest⟩ := List.forall_mem_cons.1 all
    have hdigit : c.toNat - '0'.toNat ≤ 9 := Nat.sub_le_sub_right (Char.isDigit_iff_toNat.1 hc).2 _
    have hstep : 10 * start + (c.toNat - '0'.toNat) + 1 ≤ (start + 1) * 10 := by omega
    rw [Nat.ofDigitChars_cons, List.length_cons, Nat.pow_succ', ← Nat.mul_assoc]
    exact (ih hrest _).trans_le (Nat.mul_le_mul_right _ hstep)

/-- A fraction is less than a second. -/
theorem lt_of_fraction? {s rest : List Char} {n : Nat} (h : fraction? s = some (n, rest)) :
    n < 1000000000 := by
  unfold fraction? at h
  split at h
  · rename_i digits
    obtain ⟨k, hk, hread⟩ := Option.map_eq_some_iff.1 h
    obtain ⟨-, hdigits, rfl⟩ := digits?_ten.1 hk
    have hlt := ofDigitChars_lt hdigits 0
    have hlength := List.length_take_le 9 (digits.takeWhile Char.isDigit)
    generalize (digits.takeWhile Char.isDigit).take 9 = kept at *
    rw [Nat.zero_add, Nat.one_mul] at hlt
    -- what is cut off behind nine digits is lost, and what is missing is filled up
    have hnine : 10 ^ kept.length * 10 ^ (9 - kept.length) = 1000000000 := by
      rw [← Nat.pow_add, Nat.add_sub_cancel' hlength]
    obtain ⟨rfl, -⟩ := Prod.mk.inj hread
    exact (Nat.mul_lt_mul_of_pos_right hlt (Nat.pow_pos (by decide))).trans_eq hnine
  · cases h
    decide

end Numbers

/-! ## Timestamps -/

/-- A timestamp that there is: its year is one, and only the last second of a minute may be followed by
    a leap second. -/
structure Valid (t : Timestamp) : Prop where
  isYear : isYear t.year = true
  nanos : t.nanos < 1000000000 ∨ t.seconds % 60 = 59 ∧ t.nanos < 2000000000

instance (t : Timestamp) : Decidable t.Valid :=
  decidable_of_iff (Timestamp.isYear t.year = true
      ∧ (t.nanos < 1000000000 ∨ t.seconds % 60 = 59 ∧ t.nanos < 2000000000))
    ⟨fun h => ⟨h.1, h.2⟩, fun h => ⟨h.isYear, h.nanos⟩⟩

/-- The parts of a text, one after another. -/
theorem toList_text (t : Timestamp) :
    let days := Int.fdiv t.seconds 86400
    let ofDay := (t.seconds - days * 86400).toNat
    let date := civil days
    t.text.toList = (yearText date.1).toList ++ '-' :: ((padded 2 date.2.1).toList ++ '-' ::
      ((padded 2 date.2.2).toList ++ 'T' :: ((padded 2 (ofDay / 3600)).toList ++ ':' ::
      ((padded 2 (ofDay / 60 % 60)).toList ++ ':' ::
      ((padded 2 (ofDay % 60 + t.nanos / 1000000000)).toList
        ++ ((fractionText (t.nanos % 1000000000)).toList ++ ['Z'])))))) := by
  intro days ofDay date
  have hself (s : String) : toString s = s := rfl
  have hdash : "-".toList = ['-'] := rfl
  have hT : "T".toList = ['T'] := rfl
  have hcolon : ":".toList = [':'] := rfl
  have hZ : "Z".toList = ['Z'] := rfl
  simp only [text, hself, hdash, hT, hcolon, hZ, String.toList_append, List.append_assoc,
    List.cons_append, List.nil_append, days, ofDay, date]

theorem ends_cons {c : Char} {s : List Char} (h : c.isDigit = false) :
    ∀ d ∈ (c :: s).head?, d.isDigit = false := by
  rintro d ⟨⟩
  exact h

theorem ends_fractionText (nanos : Nat) :
    ∀ c ∈ ((fractionText nanos).toList ++ ['Z']).head?, c.isDigit = false := by
  rw [fractionText]
  split
  · exact ends_cons (by decide)
  split
  · rw [String.toList_append]
    exact ends_cons (by decide)
  split
  · rw [String.toList_append]
    exact ends_cons (by decide)
  · rw [String.toList_append]
    exact ends_cons (by decide)

theorem afterMark?_cons {c : Char} (h : isSpace c = false) (s : List Char) :
    afterMark? c (c :: s) = some s := by
  have hskip : skipSpaces (c :: s) = c :: s := List.dropWhile_cons_of_neg (Bool.eq_false_iff.1 h)
  rw [afterMark?, hskip]
  exact if_pos rfl

/-- No month has more days than fit two digits. -/
theorem monthLength_le (year : Int) (month : Nat) : monthLength year month ≤ 31 := by
  unfold monthLength
  split
  · split <;> omega
  all_goals omega

/-- How a text is read whose parts are a date and a time in universal time. -/
theorem parse?_of_parts {text : String} {year : Int} {month day hour minute second nanos : Nat}
    {s₁ s₂ s₃ s₄ s₅ s₆ : List Char} (hyear : year? text.toList = some (year, '-' :: s₁))
    (hmonth : number? 2 s₁ = some (month, '-' :: s₂)) (hday : number? 2 s₂ = some (day, 'T' :: s₃))
    (hhour : number? 2 s₃ = some (hour, ':' :: s₄)) (hminute : number? 2 s₄ = some (minute, ':' :: s₅))
    (hsecond : number? 2 s₅ = some (second, s₆)) (hnanos : fraction? s₆ = some (nanos, ['Z']))
    (isYear : isYear year = true) (isDate : IsDate year month day) (isHour : hour ≤ 23)
    (isMinute : minute ≤ 59) (isSecond : second ≤ 60) :
    parse? text =
      let t : Timestamp := ⟨daysBefore year month day * 86400 + hour * 3600 + minute * 60
        + (if second = 60 then 59 else second : Nat), nanos + if second = 60 then 1000000000 else 0⟩
      if Timestamp.isYear t.year then some t else none := by
  have hT (s : List Char) : separator? ('T' :: s) = some s := rfl
  have hZ : offset? (skipSpaces ['Z']) = some (0, []) := rfl
  have hdash (s : List Char) : afterMark? '-' ('-' :: s) = some s := afterMark?_cons (by decide) s
  have hcolon (s : List Char) : afterMark? ':' (':' :: s) = some s := afterMark?_cons (by decide) s
  obtain ⟨hmonths, hdays⟩ := isDate
  -- each part is read off the front, so the steps of the reader are taken one by one
  have next {α β : Type} {x : Option α} {a : α} (h : x = some a) (f : α → Option β) :
      (x >>= f) = f a := h ▸ rfl
  rw [parse?]
  refine (next hyear _).trans ?_
  refine (next (hdash s₁) _).trans ((next hmonth _).trans ?_)
  refine (next (hdash s₂) _).trans ((next hday _).trans ?_)
  refine (next (hT s₃) _).trans ((next hhour _).trans ?_)
  refine (next (hcolon s₄) _).trans ((next hminute _).trans ?_)
  refine (next (hcolon s₅) _).trans ((next hsecond _).trans ?_)
  refine (next hnanos _).trans ((next hZ _).trans ((if_neg ?_).trans ?_))
  · have hrest : (skipSpaces []).isEmpty = true := rfl
    simp only [hrest, isYear, Bool.or_eq_true, decide_eq_true_iff, Bool.not_true, Bool.false_eq_true,
      false_or, or_false]
    omega
  · dsimp only
    rw [sub_zero]

/-- **A timestamp is read back from its text.** -/
theorem parse?_text {t : Timestamp} (valid : t.Valid) : parse? t.text = some t := by
  obtain ⟨hyear, hnanos⟩ := valid
  have hdate := isDate_civil (Int.fdiv t.seconds 86400)
  have hback := daysBefore_civil (Int.fdiv t.seconds 86400)
  have hlength := monthLength_le (civil (Int.fdiv t.seconds 86400)).1
    (civil (Int.fdiv t.seconds 86400)).2.1
  obtain ⟨hmonth, hday⟩ := hdate
  have hdays : Int.fdiv t.seconds 86400 = t.seconds / 86400 := Int.fdiv_eq_ediv_of_nonneg _ (by decide)
  have hread := parse?_of_parts
    ((congrArg year? (toList_text t)).trans (year?_yearText _ (ends_cons (by decide))))
    (number?_padded (by decide) (by omega) (ends_cons (by decide)))
    (number?_padded (by decide) (by omega) (ends_cons (by decide)))
    (number?_padded (by decide) (by omega) (ends_cons (by decide)))
    (number?_padded (by decide) (by omega) (ends_cons (by decide)))
    (number?_padded (by decide) (by omega) (ends_fractionText _))
    (fraction?_fractionText (Nat.mod_lt _ (by decide))) hyear ⟨hmonth, hday⟩ (by omega) (by omega)
    (by omega)
  rw [hread, hback, hdays]
  -- what is left is the time of the day, whose last second may be a leap second
  generalize hofDay : (t.seconds - t.seconds / 86400 * 86400).toNat = ofDay
  have hnone : ofDay % 60 + t.nanos / 1000000000 = 60 ↔ 1000000000 ≤ t.nanos := by omega
  have hsame : (⟨t.seconds / 86400 * 86400 + (ofDay / 3600 : Nat) * 3600 + (ofDay / 60 % 60 : Nat) * 60
      + (if ofDay % 60 + t.nanos / 1000000000 = 60 then 59
        else ofDay % 60 + t.nanos / 1000000000 : Nat),
      t.nanos % 1000000000
        + if ofDay % 60 + t.nanos / 1000000000 = 60 then 1000000000 else 0⟩ : Timestamp) = t := by
    obtain ⟨seconds, nanos⟩ := t
    dsimp only at *
    split
    · rw [Timestamp.mk.injEq]
      omega
    · rw [Timestamp.mk.injEq]
      omega
  simp only [hsame, hyear, if_true]

/-- An offset is a number of minutes. -/
theorem dvd_of_offset? {s rest : List Char} {offset : Int} (h : offset? s = some (offset, rest)) :
    60 ∣ offset := by
  unfold offset? at h
  split at h
  · cases h
    exact dvd_zero _
  split at h
  · cases h
    exact dvd_zero _
  · cases h
    exact dvd_zero _
  · extract_lets signed at h
    -- hours and minutes of an offset are both a number of minutes
    have hsigned (sign : Int) (h : signed sign = some (offset, rest)) : 60 ∣ offset := by
      obtain ⟨⟨hours, _⟩, -, h⟩ := Option.bind_eq_some_iff.1 h
      obtain ⟨⟨minutes, _⟩, -, h⟩ := Option.bind_eq_some_iff.1 h
      obtain ⟨-, h⟩ := Option.ite_none_left_eq_some.1 h
      obtain ⟨rfl, -⟩ := Prod.mk.inj (Option.some.inj h)
      exact Dvd.dvd.mul_left (by omega) _
    split at h
    · exact hsigned 1 h
    split at h
    · exact hsigned (-1) h
    · cases h
  · cases h

/-- **Whatever is read is a timestamp that there is.** -/
theorem valid_of_parse? {text : String} {t : Timestamp} (h : parse? text = some t) : t.Valid := by
  unfold parse? at h
  obtain ⟨⟨year, _⟩, -, h⟩ := Option.bind_eq_some_iff.1 h
  obtain ⟨_, -, h⟩ := Option.bind_eq_some_iff.1 h
  obtain ⟨⟨month, _⟩, -, h⟩ := Option.bind_eq_some_iff.1 h
  obtain ⟨_, -, h⟩ := Option.bind_eq_some_iff.1 h
  obtain ⟨⟨day, _⟩, -, h⟩ := Option.bind_eq_some_iff.1 h
  obtain ⟨_, -, h⟩ := Option.bind_eq_some_iff.1 h
  obtain ⟨⟨hour, _⟩, -, h⟩ := Option.bind_eq_some_iff.1 h
  obtain ⟨_, -, h⟩ := Option.bind_eq_some_iff.1 h
  obtain ⟨⟨minute, _⟩, -, h⟩ := Option.bind_eq_some_iff.1 h
  obtain ⟨_, -, h⟩ := Option.bind_eq_some_iff.1 h
  obtain ⟨⟨second, _⟩, -, h⟩ := Option.bind_eq_some_iff.1 h
  obtain ⟨⟨nanos, _⟩, hnanos, h⟩ := Option.bind_eq_some_iff.1 h
  obtain ⟨⟨offset, _⟩, hoffset, h⟩ := Option.bind_eq_some_iff.1 h
  obtain ⟨-, h⟩ := Option.ite_none_left_eq_some.1 h
  obtain ⟨hyear, h⟩ := Option.ite_none_right_eq_some.1 h
  obtain rfl := Option.some.inj h
  have hfraction := lt_of_fraction? hnanos
  have hminutes := dvd_of_offset? hoffset
  refine ⟨hyear, ?_⟩
  -- a leap second is kept as part of the second before it
  by_cases hleap : second = 60
  · simp only [if_pos hleap]
    omega
  · simp only [if_neg hleap]
    omega

/-- The timestamps that there are, are exactly those that are read back from their texts. -/
theorem parse?_text_iff (t : Timestamp) : parse? t.text = some t ↔ t.Valid :=
  ⟨valid_of_parse?, parse?_text⟩

end TestBench.Timestamp
