/-
  Columns of fixed width, counted in characters.

  `padRight width s` is exactly `width` characters long: a longer text is cut, a shorter one is
  filled with blanks on the right.  `padLeft width s` fills on the left and never cuts.
-/
namespace TestBench.Text

/-- Fills with blanks on the right, or cuts, to exactly `width` characters. -/
def padRight (width : Nat) (s : String) : String :=
  let cs := s.toList.take width
  String.ofList (cs ++ List.replicate (width - cs.length) ' ')

/-- Fills with blanks on the left to at least `width` characters. -/
def padLeft (width : Nat) (s : String) : String :=
  String.ofList (List.replicate (width - s.length) ' ' ++ s.toList)

end TestBench.Text
