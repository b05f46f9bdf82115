import TestBench.Glob.Basic
/-
  Reading patterns.

  1. Characters are read one after another into the branch at hand; an opening brace puts the branch
     aside and a closing one takes it up again with the branches between the braces as one part
     (`Open`).  A backslash takes the meaning from the character behind it.
  2. `**` stands for directories only where it is a whole piece of the path; elsewhere it is no more
     than `*`.  It takes the slashes around it with it.
  3. In a class a bracket or dash counts as itself where it could have no other meaning.
-/
namespace TestBench

/-- Why a text is no pattern. -/
inductive GlobError where
  | unclosedClass
  | invalidRange (first last : Char)
  | unopenedBraces
  | unclosedBraces
  | danglingBackslash
  deriving Repr, DecidableEq, Inhabited

namespace GlobError

def text : GlobError → String
  | unclosedClass => "unclosed character class; missing ']'"
  | invalidRange first last => s!"invalid range; '{first}' > '{last}'"
  | unopenedBraces =>
    "unopened alternate group; missing '\x7b' (maybe escape '\x7d' with '[\x7d]'?)"
  | unclosedBraces =>
    "unclosed alternate group; missing '\x7d' (maybe escape '\x7b' with '[\x7b]'?)"
  | danglingBackslash => "dangling '\\'"

def message (pattern : String) (e : GlobError) : String :=
  s!"error parsing glob '{pattern}': {e.text}"

end GlobError

namespace Glob

/-! ## Classes -/

/-- The ranges of a class with the last one ended by a character. -/
def endRange (c : Char) : List (Char × Char) → Except GlobError (List (Char × Char))
  | [] => .ok []
  | (first, _) :: rest =>
    if c < first then .error (.invalidRange first c) else .ok ((first, c) :: rest)

/-- Reads the rest of a class; the ranges so far stand last one first, and `open` says that a dash
    stands behind them.  Gives the rest of the pattern as well. -/
def readClass : List (Char × Char) → Bool → List Char →
    Except GlobError (List (Char × Char) × List Char)
  | _, _, [] => .error .unclosedClass
  | ranges, isOpen, c :: rest =>
    if ranges.isEmpty then readClass [(c, c)] false rest
    else if c = ']' then .ok ((if isOpen then ('-', '-') :: ranges else ranges).reverse, rest)
    else if isOpen then do readClass (← endRange c ranges) false rest
    else if c = '-' then readClass ranges true rest
    else readClass ((c, c) :: ranges) false rest

theorem readClass_length {ranges : List (Char × Char)} {isOpen : Bool} {s rest : List Char}
    {out : List (Char × Char)} (h : readClass ranges isOpen s = .ok (out, rest)) :
    rest.length < s.length := by
  induction s generalizing ranges isOpen with
  | nil => simp [readClass] at h
  | cons c s ih =>
    simp only [readClass] at h
    split at h
    · have := ih h; simp; omega
    · split at h
      · simp at h; simp [h.2]
      · split at h
        · cases he : endRange c ranges with
          | error e => simp [he, bind, Except.bind] at h
          | ok r =>
            simp only [he, bind, Except.bind] at h
            have := ih h; simp; omega
        · split at h
          · have := ih h; simp; omega
          · have := ih h; simp; omega

/-- Reads a class behind its opening bracket. -/
def readBrackets : List Char → Except GlobError (GlobPart × List Char)
  | '!' :: rest => (readClass [] false rest).map fun (ranges, rest) => (.oneOf true ranges, rest)
  | '^' :: rest => (readClass [] false rest).map fun (ranges, rest) => (.oneOf true ranges, rest)
  | rest => (readClass [] false rest).map fun (ranges, rest) => (.oneOf false ranges, rest)

theorem readBrackets_length {s rest : List Char} {part : GlobPart}
    (h : readBrackets s = .ok (part, rest)) : rest.length < s.length := by
  have key : ∀ {negated : Bool} {t : List Char}, (readClass [] false t).map
      (fun (ranges, rest) => (GlobPart.oneOf negated ranges, rest)) = .ok (part, rest) →
      rest.length < t.length := by
    intro negated t ht
    cases hr : readClass [] false t with
    | error e => simp [hr, Except.map] at ht
    | ok out => simp [hr, Except.map] at ht; exact ht.2 ▸ readClass_length hr
  unfold readBrackets at h
  split at h
  · have := key h; simp; omega
  · have := key h; simp; omega
  · exact key h

/-! ## Branches and braces -/

/-- A branch that is put aside while braces are open, and the branches between them so far. -/
structure Open where
  before : List GlobPart
  branches : List (List GlobPart)

/-- What was read so far: the branch at hand, last part first, and the braces that are open,
    innermost first. -/
structure Reading where
  branch : List GlobPart
  opened : List Open

namespace Reading

def start : Reading := ⟨[], []⟩

def push (r : Reading) (part : GlobPart) : Reading := { r with branch := part :: r.branch }

/-- Puts a part in the place of the last one, unless that one covers directories itself. -/
def replaceLast (r : Reading) (part : GlobPart) : Reading :=
  match r.branch with
  | .directoriesFirst :: _ => r
  | .everythingBelow :: _ => r
  | _ :: rest => { r with branch := part :: rest }
  | [] => r

def openBraces (r : Reading) : Reading := ⟨[], ⟨r.branch, []⟩ :: r.opened⟩

def nextBranch (r : Reading) : Reading :=
  match r.opened with
  | [] => r.push (.char ',')
  | o :: rest => ⟨[], { o with branches := r.branch.reverse :: o.branches } :: rest⟩

def closeBraces (r : Reading) : Except GlobError Reading :=
  match r.opened with
  | [] => .error .unopenedBraces
  | o :: rest =>
    .ok ⟨.alternatives (r.branch.reverse :: o.branches).reverse :: o.before, rest⟩

/-- The pattern, once its text is at an end. -/
def finish (r : Reading) : Except GlobError Glob :=
  if r.opened.isEmpty then .ok ⟨r.branch.reverse⟩ else .error .unclosedBraces

/-- Reads `**`, given the character before it and the rest behind it; gives the rest behind the part
    that it becomes. -/
def doubleStar (r : Reading) (before : Option Char) (rest : List Char) : Reading × List Char :=
  let stars := (r.push .many).push .many
  let atStart := r.branch.isEmpty
  let inBraces := !r.opened.isEmpty
  let mayFollow :=
    before == some '/' || (inBraces && (before == some ',' || before == some '\x7b'))
  match rest with
  | [] =>
    if atStart then (r.push .directoriesFirst, [])
    else if mayFollow then (r.replaceLast .everythingBelow, [])
    else (stars, [])
  | c :: behind =>
    if c = '/' then
      if atStart then (r.push .directoriesFirst, behind)
      else if mayFollow then (r.replaceLast .directories, behind)
      else (stars, rest)
    else if !atStart && mayFollow && inBraces && (c = ',' || c = '\x7d') then
      (r.replaceLast .everythingBelow, rest)
    else (stars, rest)

theorem doubleStar_length (r : Reading) (before : Option Char) (rest : List Char) :
    (r.doubleStar before rest).2.length ≤ rest.length := by
  unfold doubleStar
  split
  · dsimp only; split <;> (try split) <;> simp
  · dsimp only
    split
    · split <;> (try split) <;> simp
    · split <;> simp

end Reading

/-- Reads the rest of a pattern behind a character. -/
def read (r : Reading) (before : Option Char) : List Char → Except GlobError Reading
  | [] => .ok r
  | '*' :: '*' :: rest =>
    let out := r.doubleStar before rest
    have := r.doubleStar_length before rest
    read out.1 (some (if out.2.length < rest.length then '/' else '*')) out.2
  | '*' :: rest => read (r.push .many) (some '*') rest
  | '?' :: rest => read (r.push .any) (some '?') rest
  | '\x7b' :: rest => read r.openBraces (some '\x7b') rest
  | '\x7d' :: rest =>
    match r.closeBraces with
    | .error e => .error e
    | .ok r => read r (some '\x7d') rest
  | ',' :: rest => read r.nextBranch (some ',') rest
  | '\\' :: [] => .error .danglingBackslash
  | '\\' :: c :: rest => read (r.push (.char c)) (some c) rest
  | '[' :: rest =>
    match h : readBrackets rest with
    | .error e => .error e
    | .ok (part, behind) =>
      have := readBrackets_length h
      read (r.push part) (some ']') behind
  | c :: rest => read (r.push (.char c)) (some c) rest
termination_by s => s.length
decreasing_by
  all_goals simp_wf
  all_goals omega

/-- The pattern that a text writes. -/
def ofText (text : String) : Except GlobError Glob := do
  (← read .start none text.toList).finish

end Glob
end TestBench
