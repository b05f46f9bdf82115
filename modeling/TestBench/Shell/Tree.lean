import TestBench.Shell.Octets
/-
  Scripts as trees.

  1. A word is a list of parts: text, and what is put in its place when the word is expanded.  A part
     knows whether it stands between quotes, for then its characters have no meaning.
  2. A command is simple, or made of other commands; redirections stand with either.
-/
namespace TestBench.Shell

/-- What is done with the value of a parameter; `colon` says that an empty value counts as none. -/
inductive ParameterUse where
  | value
  | length
  | orDefault (colon : Bool)
  | orAssign (colon : Bool)
  | orFail (colon : Bool)
  | ifSet (colon : Bool)
  | dropFront (longest : Bool)
  | dropBack (longest : Bool)
  | bad
  deriving Repr, DecidableEq, Inhabited

inductive RedirectionKind where
  | input
  | output
  | append
  | both
  | duplicate
  /-- A document that stands behind the line, by its number. -/
  | document (index : Nat)
  deriving Repr, DecidableEq, Inhabited

mutual

inductive WordPart where
  | text (inQuotes : Bool) (chars : Octets)
  | parameter (inQuotes : Bool) (name : String) (use : ParameterUse) (word : List WordPart)
  | output (inQuotes : Bool) (body : Command)
  | arithmetic (inQuotes : Bool) (word : List WordPart)

/-- A command; `line` is the number of the line where it starts. -/
inductive Command where
  | nothing
  | simple (line : Nat) (assignments : List (String × List WordPart)) (words : List (List WordPart))
      (redirections : List (Nat × RedirectionKind × List WordPart))
  | redirected (body : Command) (redirections : List (Nat × RedirectionKind × List WordPart))
  | pipe (stages : List Command)
  | negate (body : Command)
  | both (first second : Command)
  | either (first second : Command)
  | inOrder (first second : Command)
  | background (body : Command)
  | subshell (body : Command)
  | choice (condition yes no : Command)
  /-- Runs the body as long as the condition succeeds, or fails if `untilDone`. -/
  | loop (untilDone : Bool) (condition body : Command)
  /-- Runs the body for each word, or for each argument if no words are given. -/
  | each (line : Nat) (name : String) (words : Option (List (List WordPart))) (body : Command)
  | select (line : Nat) (subject : List WordPart)
      (branches : List (List (List WordPart) × Command))
  | define (name : String) (body : Command)

end

instance : Inhabited WordPart := ⟨.text false []⟩
instance : Inhabited Command := ⟨.nothing⟩

abbrev Word := List WordPart

abbrev Redirection := Nat × RedirectionKind × Word

/-- The text of a word without quotes and expansions, if it is such a word. -/
def bareText? : Word → Option Octets
  | [] => some []
  | .text false chars :: rest => (bareText? rest).map (chars ++ ·)
  | _ => none

end TestBench.Shell
