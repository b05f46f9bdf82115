import TestBench.Shell.Octets
/-
  Patterns of the shell.

  1. A pattern is read from glyphs: a character that was quoted stands for itself.
  2. A star stands for any text, a question mark for any character, and brackets for one of the
     characters that they list, or for any other one if the list begins with `!` or `^`.  A bracket
     that is not closed stands for itself.
  3. `trimFront` and `trimBack` cut what a pattern stands for from either end of a text.
-/
namespace TestBench.Shell

/-- A character of an expanded word, and whether quotes took its meaning away. -/
structure Glyph where
  char : Char
  isQuoted : Bool
  deriving Repr, DecidableEq, Inhabited

/-- The named classes of characters, which know the first 128 characters only. -/
def characterClass? (name : String) : Option (Char → Bool) :=
  match name with
  | "alpha" => some Char.isAlpha
  | "digit" => some Char.isDigit
  | "alnum" => some Char.isAlphanum
  | "upper" => some Char.isUpper
  | "lower" => some Char.isLower
  | "space" => some isSpace
  | "blank" => some fun c => c = ' ' || c = '\t'
  | "cntrl" => some fun c => c.toNat < 32 || c.toNat = 127
  | "print" => some fun c => 32 ≤ c.toNat && c.toNat < 127
  | "graph" => some fun c => 32 < c.toNat && c.toNat < 127
  | "punct" => some fun c => 32 < c.toNat && c.toNat < 127 && !c.isAlphanum
  | "xdigit" => some fun c => c.isDigit || ('a' ≤ c && c ≤ 'f') || ('A' ≤ c && c ≤ 'F')
  | _ => none

/-- What stands between brackets. -/
inductive BracketItem where
  | range (low high : Char)
  | named (name : String)
  deriving Repr, DecidableEq, Inhabited

def BracketItem.accepts (c : Char) : BracketItem → Bool
  | range low high => low ≤ c && c ≤ high
  | named name => (characterClass? name).any (· c)

inductive PatternItem where
  | literal (c : Char)
  | anyOne
  | anyRun
  | oneOf (isNegated : Bool) (items : List BracketItem)
  deriving Repr, DecidableEq, Inhabited

abbrev Pattern := List PatternItem

namespace Pattern

/-- The name of a class between colons, and what is behind its bracket. -/
def className? (s : List Glyph) : Option (String × List Glyph) :=
  let name := (s.map (·.char)).takeWhile Char.isAlpha
  match (s.drop name.length).map (·.char) with
  | ':' :: ']' :: _ => some (String.ofList name, s.drop (name.length + 2))
  | _ => none

/-- The items up to the closing bracket, and what is behind it; a bracket that comes first is an item. -/
def bracket? : Nat → Bool → List Glyph → Option (List BracketItem × List Glyph)
  | 0, _, _ => none
  | _, _, [] => none
  | fuel + 1, isFirst, g :: rest =>
    if g.char = ']' && !g.isQuoted && !isFirst then some ([], rest)
    else
      let named : Option (String × List Glyph) := match rest with
        | ⟨':', false⟩ :: behind =>
          if g.char = '[' && !g.isQuoted then className? behind else none
        | _ => none
      match named, rest with
      | some (name, behind), _ =>
        (bracket? fuel false behind).map fun (items, rest) => (.named name :: items, rest)
      | none, ⟨'-', false⟩ :: high :: behind =>
        if high.char = ']' && !high.isQuoted then
          (bracket? fuel false rest).map fun (items, rest) => (.range g.char g.char :: items, rest)
        else
          (bracket? fuel false behind).map fun (items, rest) =>
            (.range g.char high.char :: items, rest)
      | none, _ =>
        (bracket? fuel false rest).map fun (items, rest) => (.range g.char g.char :: items, rest)

/-- Reads a pattern. -/
def ofGlyphsBounded : Nat → List Glyph → Pattern
  | 0, _ => []
  | _, [] => []
  | fuel + 1, g :: rest =>
    if g.isQuoted then .literal g.char :: ofGlyphsBounded fuel rest
    else match g.char with
      | '*' => .anyRun :: ofGlyphsBounded fuel rest
      | '?' => .anyOne :: ofGlyphsBounded fuel rest
      | '[' =>
        let (isNegated, inside) := match rest with
          | ⟨'!', false⟩ :: behind => (true, behind)
          | ⟨'^', false⟩ :: behind => (true, behind)
          | _ => (false, rest)
        match bracket? (inside.length + 1) true inside with
        | some (items, behind) => .oneOf isNegated items :: ofGlyphsBounded fuel behind
        | none => .literal '[' :: ofGlyphsBounded fuel rest
      | '\\' =>
        match rest with
        | next :: behind => .literal next.char :: ofGlyphsBounded fuel behind
        | [] => [.literal '\\']
      | c => .literal c :: ofGlyphsBounded fuel rest

def ofGlyphs (s : List Glyph) : Pattern := ofGlyphsBounded (s.length + 1) s

/-- Whether a pattern stands for a text. -/
def accepts : Pattern → Octets → Bool
  | [], s => s.isEmpty
  | .anyRun :: p, [] => accepts p []
  | .anyRun :: p, c :: s => accepts p (c :: s) || accepts (.anyRun :: p) s
  | _ :: _, [] => false
  | .literal a :: p, c :: s => a = c && accepts p s
  | .anyOne :: p, _ :: s => accepts p s
  | .oneOf isNegated items :: p, c :: s =>
    (items.any (·.accepts c) ^^ isNegated) && accepts p s
  termination_by p s => p.length + s.length

/-- The text without the shortest or longest beginning that the pattern stands for. -/
def trimFront (p : Pattern) (longest : Bool) (s : Octets) : Octets :=
  let cuts := List.range (s.length + 1)
  match (if longest then cuts.reverse else cuts).find? fun n => accepts p (s.take n) with
  | some n => s.drop n
  | none => s

/-- The text without the shortest or longest ending that the pattern stands for. -/
def trimBack (p : Pattern) (longest : Bool) (s : Octets) : Octets :=
  let cuts := List.range (s.length + 1)
  match (if longest then cuts else cuts.reverse).find? fun n => accepts p (s.drop n) with
  | some n => s.take n
  | none => s

/-- Whether a word has a character with a meaning in patterns. -/
def isWild (s : List Glyph) : Bool :=
  s.any fun g => !g.isQuoted && (g.char = '*' || g.char = '?' || g.char = '[')

end Pattern
end TestBench.Shell
