/-
  Blank characters: the Unicode property White_Space.

  1. `isBlank` is the property itself, as the ten ranges the standard lists.
  2. `trim` cuts blanks from both ends; `words` are the maximal runs of other characters.
  3. `words` never yields an empty word and no word holds a blank (`words_ne_nil`,
     `words_not_blank`), so joining the words with single blanks is a normal form.
-/
namespace TestBench.Text

/-! ## The property -/

/-- The characters with the Unicode property White_Space. -/
def isBlank (c : Char) : Bool :=
  let n := c.toNat
  (9 ≤ n && n ≤ 13) || n == 0x20 || n == 0x85 || n == 0xA0 || n == 0x1680
    || (0x2000 ≤ n && n ≤ 0x200A) || n == 0x2028 || n == 0x2029 || n == 0x202F
    || n == 0x205F || n == 0x3000

/-! ## Trimming -/

def dropBlanks (s : List Char) : List Char := s.dropWhile isBlank

/-- Cuts blanks from both ends. -/
def trim (s : List Char) : List Char := (dropBlanks (dropBlanks s).reverse).reverse

/-! ## Words -/

/-- The maximal runs of non-blank characters, in order. -/
def words : List Char → List (List Char)
  | [] => []
  | c :: rest =>
    if isBlank c then words rest
    else if rest.head?.all isBlank then [c] :: words rest
    else match words rest with
      | [] => [[c]]
      | w :: ws => (c :: w) :: ws

theorem words_ne_nil {s w : List Char} (h : w ∈ words s) : w ≠ [] := by
  fun_induction words s <;> grind

theorem words_not_blank {s w : List Char} (h : w ∈ words s) : ∀ c ∈ w, isBlank c = false := by
  fun_induction words s generalizing w <;> grind

end TestBench.Text
