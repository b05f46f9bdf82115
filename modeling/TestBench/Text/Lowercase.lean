import TestBench.Text.CaseTable
/-
  Lower case for all of Unicode.

  1. A character is lowered by the row of the table that holds it, or stays as it is; the dotted
     capital I is the one character that becomes two.
  2. A capital sigma at the end of a word becomes the final form: a cased character stands before
     it and none after it, with case-ignorable characters skipped on both sides.
  3. Texts equal up to the case of ASCII letters alone have their own test (`sameIgnoringCase`).
-/
namespace TestBench.Text

/-- Whether a code point lies in one of the ranges. -/
def inRanges (ranges : List (Nat × Nat)) (n : Nat) : Bool :=
  ranges.any fun (first, last) => first ≤ n && n ≤ last

def isCased (c : Char) : Bool :=
  if c.toNat < 128 then c.isAlpha else inRanges casedRanges c.toNat

def isCaseIgnorable (c : Char) : Bool := inRanges ignorableRanges c.toNat

/-- Whether the first character that is not case-ignorable is cased. -/
def leadsWithCased (s : List Char) : Bool :=
  (s.dropWhile isCaseIgnorable).head?.any isCased

/-- The lower-case form of one character, outside any context. -/
def lowerChar (c : Char) : List Char :=
  let n := c.toNat
  if n < 128 then [c.toLower]
  else if n = 0x130 then ['i', Char.ofNat 0x307]
  else match lowerRows.find? fun (first, last, step, _) =>
      first ≤ n && n ≤ last && (n - first) % step == 0 with
    | some (_, _, _, offset) => [Char.ofNat ((n : Int) + offset).toNat]
    | none => [c]

/-- Lowers the rest of a text; `before` is what was read so far, last character first. -/
def lowerAfter (before : List Char) : List Char → List Char
  | [] => []
  | c :: rest =>
    let lowered :=
      if c.toNat = 0x3A3 then
        if leadsWithCased before && !leadsWithCased rest then [Char.ofNat 0x3C2]
        else [Char.ofNat 0x3C3]
      else lowerChar c
    lowered ++ lowerAfter (c :: before) rest

/-- The lower-case form of a text. -/
def lowercase (s : String) : String := String.ofList (lowerAfter [] s.toList)

/-- Equality up to the case of ASCII letters. -/
def sameIgnoringCase (s t : String) : Bool :=
  s.toList.map Char.toLower == t.toList.map Char.toLower

/-- On ASCII text lowering is letter by letter. -/
theorem lowerAfter_ascii {s : List Char} (h : ∀ c ∈ s, c.toNat < 128) (before : List Char) :
    lowerAfter before s = s.map Char.toLower := by
  induction s generalizing before with
  | nil => rfl
  | cons c rest ih =>
    have hc := h c (by simp)
    have hs : c.toNat ≠ 0x3A3 := by omega
    simp [lowerAfter, lowerChar, hc, hs, ih fun d hd => h d (by simp [hd])]

end TestBench.Text
