import Mathlib
import TestBench.Discovery
import TestBench.Proofs.AcceptedPaths
/-
  Paths without marks.

  1. A text without `*`, `?`, `[` and an opening brace is read character by character.  Only two things
     can stop that: a closing brace, for none is open, and a backslash at the end.  Behind a backslash
     no character means anything (`refusal?`, `read_unmarked`).
  2. Such a text is compiled before it is looked up as the path that it is, so it stands for itself
     exactly if nothing stops its reading (`unmarked_stands_for_itself_iff`).
-/
namespace TestBench

open TestBench.Text

/-! ## Reading -/

namespace Glob

/-- Why a text without marks is no pattern, if it is none. -/
def refusal? : List Char → Option GlobError
  | [] => none
  | ['\\'] => some .danglingBackslash
  | '\\' :: _ :: rest => refusal? rest
  | '\x7d' :: _ => some .unopenedBraces
  | _ :: rest => refusal? rest

theorem isLiteral_of_unmarked {c : Char} (unmarked : isGlobMark c = false) (noEscape : c ≠ '\\') :
    IsLiteral c := by
  simp only [isGlobMark, Bool.or_eq_false_iff, decide_eq_false_iff_not] at unmarked
  obtain ⟨⟨⟨hstar, hany⟩, hclass⟩, hbraces⟩ := unmarked
  exact ⟨hstar, hany, hclass, hbraces, noEscape⟩

/-- A text without marks is read to its end, or up to what stops it. -/
theorem read_unmarked {s : List Char} (unmarked : ∀ c ∈ s, isGlobMark c = false) :
    ∀ (branch : List GlobPart) (before : Option Char),
      (refusal? s = none → ∃ parts, read ⟨branch, []⟩ before s = .ok ⟨parts, []⟩)
        ∧ ∀ e, refusal? s = some e → read ⟨branch, []⟩ before s = .error e := by
  -- one case for each thing that can be met: the end, a backslash there, an escape, a closing brace, any
  -- other character
  fun_induction refusal? s with
  | case1 =>
    intro branch before
    refine ⟨fun _ => ⟨branch, by rw [read]⟩, fun e h => ?_⟩
    cases h
  | case2 =>
    intro branch before
    refine ⟨fun h => ?_, fun e h => ?_⟩
    · cases h
    · cases h
      rw [read]
  | case3 c rest ih =>
    intro branch before
    have hrest := fun d hd => unmarked d (List.mem_cons_of_mem _ (List.mem_cons_of_mem _ hd))
    rw [read]
    exact ih hrest _ _
  | case4 rest =>
    intro branch before
    refine ⟨fun h => ?_, fun e h => ?_⟩
    · cases h
    · cases h
      rw [read]
      rfl
  | case5 c rest hdangling hescape hbrace ih =>
    intro branch before
    obtain ⟨hc, hrest⟩ := List.forall_mem_cons.1 unmarked
    have noEscape : c ≠ '\\' := by
      rintro rfl
      cases rest with
      | nil => exact hdangling rfl rfl
      | cons d rest => exact hescape d rest rfl rfl
    rw [read_char (isLiteral_of_unmarked hc noEscape) hbrace]
    exact ih hrest _ _

/-- A text without marks is a pattern unless something stops its reading. -/
theorem ofText_unmarked {text : String} (unmarked : hasGlobMark text = false) :
    (refusal? text.toList = none → ∃ glob, ofText text = .ok glob)
      ∧ ∀ e, refusal? text.toList = some e → ofText text = .error e := by
  have hchars : ∀ c ∈ text.toList, isGlobMark c = false := by
    intro c hc
    exact Bool.eq_false_iff.2 (List.any_eq_false.1 unmarked c hc)
  obtain ⟨hread, hstop⟩ := read_unmarked hchars [] none
  constructor
  · intro h
    obtain ⟨parts, hparts⟩ := hread h
    exact ⟨⟨parts.reverse⟩, by rw [ofText, Reading.start, hparts]; rfl⟩
  · intro e h
    rw [ofText, Reading.start, hstop e h]
    rfl

end Glob

/-! ## Expanding -/

/-- A path stands for a file iff it leads to one. -/
theorem Files.isFile_iff {files : Files} {path : String} :
    files.isFile path = true ↔ ∃ bytes mode, files.node path = .ok (.file bytes mode) := by
  rw [isFile]
  constructor
  · intro h
    split at h
    · rename_i node hnode
      cases node with
      | file bytes mode => exact ⟨bytes, mode, hnode⟩
      | _ => cases h
    · cases h
  · rintro ⟨bytes, mode, hnode⟩
    rw [hnode]
    rfl

section Unmarked

variable {files : Files} {path : String} (unmarked : hasGlobMark path = false)
include unmarked

/-- A pattern without marks is looked up, if it can be read. -/
theorem expandPattern_unmarked (legible : Glob.refusal? path.toList = none) :
    expandPattern files path = .ok (if files.isFile path then [path] else []) := by
  obtain ⟨glob, hglob⟩ := (Glob.ofText_unmarked unmarked).1 legible
  rw [expandPattern, hglob]
  exact if_neg (Bool.eq_false_iff.1 unmarked)

/-- What stops its reading is reported, whatever the tree holds. -/
theorem expandPattern_refused {e : GlobError} (h : Glob.refusal? path.toList = some e) :
    expandPattern files path = .error (.pattern path e) := by
  rw [expandPattern, (Glob.ofText_unmarked unmarked).2 e h]

/-- It gives what it is supposed to exactly if nothing stops its reading. -/
theorem expandPattern_unmarked_iff {found : List String}
    (h : (if files.isFile path then [path] else []) = found) :
    expandPattern files path = .ok found ↔ Glob.refusal? path.toList = none := by
  cases hrefusal : Glob.refusal? path.toList with
  | none =>
    rw [expandPattern_unmarked unmarked hrefusal, h]
    exact iff_of_true rfl rfl
  | some e =>
    rw [expandPattern_refused unmarked hrefusal]
    exact iff_of_false (fun hok => nomatch hok) (fun hnone => nomatch hnone)

omit unmarked in
/-- Discovery takes for a pattern what is no directory. -/
theorem discover_eq_expandPattern (h : files.isDirectory path = false) :
    discover files path = expandPattern files path := by
  rw [discover, if_neg (Bool.eq_false_iff.1 h)]

/-- **A path without marks stands for itself exactly if it can be read as a pattern.**  If it leads to a
    file, both discovery and the pattern give that path alone, and if it leads to nothing, they give
    nothing, exactly if no closing brace stands in it and no backslash at its end, each but for a
    backslash in front.  Otherwise both end with that as the error, whatever is there. -/
theorem unmarked_stands_for_itself_iff :
    (files.isFile path = true → discover files path = expandPattern files path
        ∧ (expandPattern files path = .ok [path] ↔ Glob.refusal? path.toList = none))
      ∧ ((∀ node, files.node path ≠ .ok node) → discover files path = expandPattern files path
        ∧ (expandPattern files path = .ok [] ↔ Glob.refusal? path.toList = none))
      ∧ ∀ e, Glob.refusal? path.toList = some e → expandPattern files path = .error (.pattern path e) := by
  refine ⟨fun isFile => ⟨?_, ?_⟩, fun missing => ⟨?_, ?_⟩, fun e => expandPattern_refused unmarked⟩
  · -- where a file is, there is no directory; and where nothing is, neither
    obtain ⟨bytes, mode, hnode⟩ := Files.isFile_iff.1 isFile
    refine discover_eq_expandPattern ?_
    rw [Files.isDirectory, hnode]
    rfl
  · exact expandPattern_unmarked_iff unmarked (if_pos isFile)
  · refine discover_eq_expandPattern ?_
    rw [Files.isDirectory]
    split
    · rename_i node hnode
      exact absurd hnode (missing node)
    · rfl
  · refine expandPattern_unmarked_iff unmarked (if_neg fun isFile => ?_)
    obtain ⟨bytes, mode, hnode⟩ := Files.isFile_iff.1 isFile
    exact missing _ hnode

end Unmarked

/-- A comma and a closing bracket mean nothing, and neither does a closing brace behind a backslash; a
    closing brace alone is refused, though the file is there. -/
theorem unmarked_stands_for_itself_iff_brace :
    let file : FileNode := .file [] FileNode.standardMode
    let files : Files := ⟨.directory [("a,].yml", file), ("a\\\x7d.yml", file), ("a\x7d.yml", file)], []⟩
    hasGlobMark "a,].yml" = false ∧ hasGlobMark "a\\\x7d.yml" = false ∧ hasGlobMark "a\x7d.yml" = false
      ∧ discover files "a,].yml" = .ok ["a,].yml"]
      ∧ discover files "a\\\x7d.yml" = .ok ["a\\\x7d.yml"]
      ∧ files.isFile "a\x7d.yml" = true
      ∧ discover files "a\x7d.yml" = .error (.pattern "a\x7d.yml" .unopenedBraces) := by
  intro file files
  have hcomma : hasGlobMark "a,].yml" = false := by decide
  have hescaped : hasGlobMark "a\\\x7d.yml" = false := by decide
  have hbrace : hasGlobMark "a\x7d.yml" = false := by decide
  have hfile (path : String) (h : path ∈ ["a,].yml", "a\\\x7d.yml", "a\x7d.yml"]) :
      files.isFile path = true := by
    fin_cases h <;> decide +kernel
  obtain ⟨hsame, hfound⟩ := (unmarked_stands_for_itself_iff hcomma).1 (hfile _ (by decide))
  obtain ⟨hsame', hfound'⟩ := (unmarked_stands_for_itself_iff hescaped).1 (hfile _ (by decide))
  obtain ⟨hpath, _, hrefused⟩ := @unmarked_stands_for_itself_iff files _ hbrace
  refine ⟨hcomma, hescaped, hbrace, hsame.trans (hfound.2 (by decide)),
    hsame'.trans (hfound'.2 (by decide)), hfile _ (by decide), ?_⟩
  exact (hpath (hfile _ (by decide))).1.trans (hrefused _ (by decide))

end TestBench
