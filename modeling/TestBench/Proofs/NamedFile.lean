import Mathlib
import TestBench.Proofs.FileTable
import TestBench.Run.Suite
/-
  A step that names one file.

  1. A step gives exactly a text iff it says a path, finds files, and these have this text together
     (`readsExactly_iff`); all else that can go wrong shows as an error.
  2. The path is looked for behind the directory of the suite, as a pattern.  If neither has a mark, it
     stands for itself as soon as it can be read as a pattern; but a mark in the directory makes it stand
     for whatever it accepts (`named_file_read_iff`).
-/
namespace TestBench

open TestBench.Text

/-- Joined paths have the marks of both, for a separator is none. -/
theorem hasGlobMark_join {directory path : String} (hdirectory : hasGlobMark directory = false)
    (hpath : hasGlobMark path = false) : hasGlobMark (Path.join directory path) = false := by
  rw [hasGlobMark] at hdirectory hpath ⊢
  rw [Path.join]
  split_ifs
  · exact hpath
  · rw [String.toList_append, List.any_append, hdirectory, hpath]
    rfl
  · rw [String.toList_append, String.toList_append, List.any_append, List.any_append, hdirectory,
      hpath]
    rfl

namespace ReadFile

open Observed

variable {files : Files} {call : Call} {p : ReadFile} {text : List Char}

/-- The step gives a text and no error. -/
def ReadsExactly (p : ReadFile) (call : Call) (files : Files) (text : List Char) : Prop :=
  ∃ observed, p.outcome call files = .ok observed
    ∧ observed.get? "result.content" = some (.text (String.ofList text))
    ∧ observed.get? "result.err" = none

/-- **It gives a text iff it says a path and finds files that have this text together.** -/
theorem readsExactly_iff (sound : files.Sound) : p.ReadsExactly call files text
    ↔ (trim p.path.toList).isEmpty = false
      ∧ ∃ paths, targets files (p.target call) = .ok paths
        ∧ paths.flatMap files.charsAt = text := by
  constructor
  · rintro ⟨observed, houtcome, hcontent, herr⟩
    -- a blank path ends in an error before anything is read
    have named : (trim p.path.toList).isEmpty = false := by
      rw [← Bool.not_eq_true]
      intro hblank
      rw [outcome, if_pos hblank] at houtcome
      cases houtcome
    obtain rfl := Except.ok.inj ((outcome_eq named call files).symm.trans houtcome)
    refine ⟨named, ?_⟩
    rw [FilesRead.get?_err, Option.map_eq_none_iff] at herr
    cases matched : targets files (p.target call) with
    | error e =>
      rw [error_of_targets matched] at herr
      cases herr
    | ok paths =>
      rw [FilesRead.get?_content, read_eq sound matched] at hcontent
      exact ⟨paths, rfl, String.ofList_inj.1 (Json.text.inj (Option.some.inj hcontent))⟩
  · rintro ⟨named, paths, matched, rfl⟩
    refine ⟨_, outcome_eq named call files, ?_, ?_⟩
    · rw [FilesRead.get?_content, read_eq sound matched]
      rfl
    · rw [FilesRead.get?_err, read_eq sound matched]
      rfl

/-- Where a file is, the path is a pattern. -/
theorem targets_of_file {target : String} {bytes : Utf8.Bytes} {mode : Nat}
    (there : files.node target = .ok (.file bytes mode)) {paths : List String} :
    targets files target = .ok paths ↔ expandPattern files target = .ok paths ∧ paths ≠ [] := by
  have hfile : files.isDirectory target = false := by
    rw [Files.isDirectory, there]
    rfl
  rw [targets, if_neg (Bool.eq_false_iff.1 hfile)]
  cases expandPattern files target with
  | error e =>
    constructor
    · intro h
      cases h
    · rintro ⟨h, _⟩
      cases h
  | ok found =>
    show (if found.isEmpty then _ else Except.ok found) = _ ↔ _
    -- a pattern that finds nothing ends in an error, whatever else is true of it
    cases found with
    | nil =>
      constructor
      · intro h
        cases h
      · rintro ⟨h, hne⟩
        exact absurd (Except.ok.inj h).symm hne
    | cons path rest =>
      rw [if_neg (by simp)]
      constructor
      · intro h
        obtain rfl := Except.ok.inj h
        exact ⟨rfl, List.cons_ne_nil _ _⟩
      · rintro ⟨h, _⟩
        rw [Except.ok.inj h]

/-- **When a step that names a file gives that file.**  Take a step whose path has no mark and leads from
    the directory of the suite to a file with a text.  It gives the text and no error exactly if it says
    its path and the files that the joined path stands for as a pattern have this text together.  If the
    directory has no mark either, they do exactly if the joined path can be read as a pattern. -/
theorem named_file_read_iff (sound : files.Sound)
    (unmarked : hasGlobMark (call.aliases.expand p.path) = false) {bytes : Utf8.Bytes} {mode : Nat}
    (there : files.node (p.target call) = .ok (.file bytes mode))
    (utf8 : Utf8.decode? bytes = some text) :
    (p.ReadsExactly call files text ↔ (trim p.path.toList).isEmpty = false
        ∧ ∃ found, expandPattern files (p.target call) = .ok found
          ∧ found ≠ [] ∧ found.flatMap files.charsAt = text)
      ∧ (hasGlobMark call.workdir = false → (p.ReadsExactly call files text
        ↔ (trim p.path.toList).isEmpty = false
          ∧ Glob.refusal? (p.target call).toList = none)) := by
  have hfound : p.ReadsExactly call files text ↔ (trim p.path.toList).isEmpty = false
      ∧ ∃ found, expandPattern files (p.target call) = .ok found
        ∧ found ≠ [] ∧ found.flatMap files.charsAt = text := by
    rw [readsExactly_iff sound]
    refine and_congr_right fun _ => exists_congr fun found => ?_
    rw [targets_of_file there, and_assoc]
  -- without a mark the joined path stands for itself or is refused
  refine ⟨hfound, fun plain => hfound.trans (and_congr_right fun _ => ?_)⟩
  have hmark : hasGlobMark (p.target call) = false := hasGlobMark_join plain unmarked
  have hfile : files.isFile (p.target call) = true :=
    Files.isFile_iff.2 ⟨bytes, mode, there⟩
  constructor
  · rintro ⟨found, hexpand, _⟩
    cases hrefusal : Glob.refusal? (p.target call).toList with
    | none => rfl
    | some e =>
      rw [expandPattern_refused hmark hrefusal] at hexpand
      cases hexpand
  · intro legible
    refine ⟨[p.target call], ?_, List.cons_ne_nil _ _, ?_⟩
    · rw [expandPattern_unmarked hmark legible, if_pos hfile]
    · rw [List.flatMap_singleton, Files.charsAt, Files.bytesAt, there]
      exact Utf8.decodeLossy_of_decode? utf8

/-- Two suites with a file each beside them: the one in `s` gets its file, the one in `s[1]` does not. -/
theorem named_file_read_iff_bracket :
    let content : FileNode := .directory [("data.txt", .file [120] FileNode.standardMode)]
    let files : Files := ⟨.directory [("s", content), ("s[1]", content)], []⟩
    let call : String → Call := fun package =>
      { aliases := Aliases.empty, suite := "s", case := "c", workdir := suiteDirectory package }
    ReadsExactly ⟨"data.txt"⟩ (call "s/suite.yml") files ['x']
      ∧ ¬ ReadsExactly ⟨"data.txt"⟩ (call "s[1]/suite.yml") files ['x'] := by
  intro content files call
  have hname (n : String) (h : n ∈ ["s", "s[1]", "data.txt"]) : IsName n := by
    fin_cases h <;> exact ⟨by decide, by decide, by decide, by decide⟩
  have hcontent : content.Sound := .directory (by decide)
    (List.forall_mem_singleton.2 (hname _ (by simp))) (List.forall_mem_singleton.2 (.file _ _))
  have sound : files.Sound := .directory (by decide)
    (List.forall_mem_cons.2 ⟨hname _ (by simp), List.forall_mem_singleton.2 (hname _ (by simp))⟩)
    (List.forall_mem_cons.2 ⟨hcontent, List.forall_mem_singleton.2 hcontent⟩)
  have htarget : ReadFile.target ⟨"data.txt"⟩ (call "s/suite.yml") = "s/data.txt"
      ∧ ReadFile.target ⟨"data.txt"⟩ (call "s[1]/suite.yml") = "s[1]/data.txt" := by decide +kernel
  have unmarked : hasGlobMark (Aliases.empty.expand "data.txt") = false := by decide +kernel
  have utf8 : Utf8.decode? [120] = some ['x'] := by decide +kernel
  constructor
  · have there : files.node (ReadFile.target ⟨"data.txt"⟩ (call "s/suite.yml"))
        = .ok (.file [120] FileNode.standardMode) := htarget.1 ▸ rfl
    obtain ⟨_, hplain⟩ := named_file_read_iff (p := ⟨"data.txt"⟩) sound unmarked there utf8
    exact (hplain (by decide +kernel)).2 ⟨by decide, htarget.1 ▸ by decide +kernel⟩
  · have there : files.node (ReadFile.target ⟨"data.txt"⟩ (call "s[1]/suite.yml"))
        = .ok (.file [120] FileNode.standardMode) := htarget.2 ▸ rfl
    rw [(named_file_read_iff (p := ⟨"data.txt"⟩) sound unmarked there utf8).1, htarget.2]
    rintro ⟨_, found, hexpand, hne, _⟩
    have hread : ((Glob.ofText "s[1]/data.txt").toOption.any fun glob =>
        ((candidates files "s[1]/data.txt").filter glob.accepts).isEmpty) = true := by decide +kernel
    obtain ⟨glob, hglob, hnothing⟩ := (Option.any_eq_true _ _).1 hread
    rw [expandPattern_marked (ok_of_toOption hglob) (by decide), List.isEmpty_iff.1 hnothing] at hexpand
    exact hne ((Except.ok.inj hexpand).symm.trans List.mergeSort_nil)

end ReadFile

end TestBench
