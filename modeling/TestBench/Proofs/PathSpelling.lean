import Mathlib
import TestBench.Proofs.IdlePieces
/-
  Two spellings of one path as patterns.

  1. Without marks a pattern stands for itself, so two spellings stand for the same file, if they stand
     for one: only a piece at the end that does not count asks for a directory (`isFile_eq_iff`).
  2. With marks both are walked alike, and they find the same files iff their texts accept the same paths
     of the walk; for paths of the walk are the same only if their texts are (`found_same_iff`).
  3. Of two different spellings one has an idle piece.  So without brackets and braces one of them finds
     nothing, unless it is `**` and accepts everything (`same_path_found_iff`).
-/
namespace TestBench

open TestBench.Text

section Spelling

variable {files : Files} {p q : String}

/-- Two spellings of a path lead to a file both or not, unless one of them alone asks for a directory. -/
theorem isFile_eq_iff (same : Path.segments p = Path.segments q) : files.isFile p = files.isFile q
    ↔ (files.isFile p = true ∨ files.isFile q = true → Path.endsOpen p = Path.endsOpen q) := by
  -- a file is never where a path asks for a directory
  have hclosed {path : String} (h : files.isFile path = true) : Path.endsOpen path = false := by
    rw [← Bool.not_eq_true]
    intro hopen
    rw [Files.isFile_of_endsOpen hopen] at h
    cases h
  constructor
  · rintro heq (h | h)
    · rw [hclosed h, hclosed (heq ▸ h)]
    · rw [hclosed h, hclosed (heq ▸ h)]
  · intro h
    cases hp : files.isFile p with
    | true => rw [← hp, Files.isFile_congr same (h (.inl hp))]
    | false =>
      cases hq : files.isFile q with
      | false => rfl
      | true => rw [← hq, ← hp, Files.isFile_congr same (h (.inr hq))]

/-- Two patterns find the same among the paths of a walk iff they accept the same ones. -/
theorem found_same_iff (sound : files.Sound) {accepts accepts' : String → Bool} :
    (sortPaths ((candidates files p).filter accepts)).map Path.segments
        = (sortPaths ((candidates files p).filter accepts')).map Path.segments
      ↔ ∀ path ∈ candidates files p, accepts path = accepts' path := by
  -- a path of the walk that one of them finds is found by the other one, in the same spelling
  have hfound {accepts accepts' : String → Bool}
      (h : (sortPaths ((candidates files p).filter accepts)).map Path.segments
        = (sortPaths ((candidates files p).filter accepts')).map Path.segments)
      {path : String} (hpath : path ∈ candidates files p) (haccepts : accepts path = true) :
      accepts' path = true := by
    have hmem := List.mem_map_of_mem (f := Path.segments)
      (mem_sortPaths.2 (List.mem_filter.2 ⟨hpath, haccepts⟩))
    rw [h] at hmem
    obtain ⟨other, hother, hsame⟩ := List.mem_map.1 hmem
    obtain ⟨hcandidate, haccepts'⟩ := List.mem_filter.1 (mem_sortPaths.1 hother)
    rw [← Path.eq_of_allCount (allCount_of_mem_candidates sound hcandidate).1
      (allCount_of_mem_candidates sound hpath).1 hsame]
    exact haccepts'
  constructor
  · intro h path hpath
    exact Bool.eq_iff_iff.2 ⟨hfound h hpath, hfound h.symm hpath⟩
  · intro h
    rw [List.filter_congr h]

/-- A pattern with a piece that does not count finds nothing, if it has no brackets or braces and does not
    accept everything. -/
theorem found_nothing (sound : files.Sound) {glob : Glob} (compiles : Glob.ofText p = .ok glob)
    (special : glob.isEverything = false) (hall : ¬ Path.AllCount p)
    (plain : ∀ c ∈ p.toList, c ≠ '[' ∧ c ≠ '\x7b') :
    (candidates files p).filter glob.accepts = [] := by
  rw [Path.allCount_iff, not_not] at hall
  obtain ⟨front, rest, hpattern, hidle⟩ := hall
  have hfront : ∀ c ∈ front, c ≠ '[' ∧ c ≠ '\x7b' :=
    fun c hc => plain c (hpattern ▸ List.mem_append_left _ hc)
  refine List.filter_eq_nil_iff.2 fun path hpath => Bool.not_eq_true _ ▸ ?_
  exact not_accepts_of_idle sound compiles special hpattern hidle
    (fun hmem => (hfront _ hmem).1 rfl) (fun hmem => (hfront _ hmem).2 rfl) hpath

/-- **When two spellings of a path stand for the same files.**  Without marks they do, unless one of them
    alone asks for a directory.  With marks they do iff their texts accept the same paths of their walk;
    and without brackets and braces, one of two different spellings finds nothing, unless one of them
    accepts everything. -/
theorem same_path_found_iff (sound : files.Sound) {glob glob' : Glob}
    (compiles : Glob.ofText p = .ok glob) (compiles' : Glob.ofText q = .ok glob')
    (same : Path.segments p = Path.segments q) :
    ∃ found found', expandPattern files p = .ok found ∧ expandPattern files q = .ok found'
      ∧ (found.map Path.segments = found'.map Path.segments
        ↔ if hasGlobMark p then
            ∀ path ∈ candidates files p, glob.accepts path = glob'.accepts path
          else files.isFile p = true ∨ files.isFile q = true → Path.endsOpen p = Path.endsOpen q)
      ∧ (hasGlobMark p = true → p ≠ q → glob.isEverything = false → glob'.isEverything = false →
        (∀ c ∈ p.toList ++ q.toList, c ≠ '[' ∧ c ≠ '\x7b') → found = [] ∨ found' = []) := by
  cases hmark : hasGlobMark p with
  | true =>
    refine ⟨sortPaths ((candidates files p).filter glob.accepts),
      sortPaths ((candidates files p).filter glob'.accepts), expandPattern_marked compiles hmark,
      ?_, ?_, ?_⟩
    · rw [candidates_congr same]
      exact expandPattern_marked compiles' (hasGlobMark_congr same ▸ hmark)
    · rw [found_same_iff sound, if_pos rfl]
    · intro _ hne special special' plain
      obtain ⟨hp, hq⟩ := List.forall_mem_append.1 plain
      -- if all pieces of both counted, segments would tell them apart
      have hsome : ¬ Path.AllCount p ∨ ¬ Path.AllCount q := by
        by_contra hall
        rw [not_or, not_not, not_not] at hall
        exact hne (Path.eq_of_allCount hall.1 hall.2 same)
      refine hsome.imp (fun hall => ?_) (fun hall => ?_)
      · rw [found_nothing sound compiles special hall hp]
        exact List.mergeSort_nil
      · rw [candidates_congr same, found_nothing sound compiles' special' hall hq]
        exact List.mergeSort_nil
  | false =>
    refine ⟨if files.isFile p then [p] else [], if files.isFile q then [q] else [], ?_, ?_, ?_,
      fun h => by cases h⟩
    · rw [expandPattern, compiles, hmark]
      rfl
    · rw [expandPattern, compiles', ← hasGlobMark_congr same, hmark]
      rfl
    · rw [if_neg Bool.false_ne_true, ← isFile_eq_iff same]
      -- without marks either path is found alone or nothing is
      cases files.isFile p <;> cases files.isFile q <;> simp [same]

end Spelling

/-- A second slash loses the file that the pattern finds without it. -/
theorem same_path_found_iff_slashes :
    let files : Files :=
      ⟨.directory [("s", .directory [("a.yml", .file [] FileNode.standardMode)])], []⟩
    Path.segments "s/*.yml" = Path.segments "s//*.yml"
      ∧ expandPattern files "s/*.yml" = .ok ["s/a.yml"] ∧ expandPattern files "s//*.yml" = .ok [] := by
  intro files
  have same : Path.segments "s/*.yml" = Path.segments "s//*.yml" := by decide +kernel
  have hname (n : String) (h : n ∈ ["s", "a.yml"]) : IsName n := by
    fin_cases h <;> exact ⟨by decide, by decide, by decide, by decide⟩
  have sound : files.Sound := by
    refine .directory (by decide) (List.forall_mem_singleton.2 (hname _ (by simp)))
      (List.forall_mem_singleton.2 ?_)
    exact .directory (by decide) (List.forall_mem_singleton.2 (hname _ (by simp)))
      (List.forall_mem_singleton.2 (.file _ _))
  have hread (text : String) (h : text ∈ ["s/*.yml", "s//*.yml"]) :
      ∃ glob, Glob.ofText text = .ok glob ∧ glob.isEverything = false
        ∧ (text = "s/*.yml" → glob.accepts "s/a.yml" = true) := by
    have hread : ((Glob.ofText text).toOption.any fun glob =>
        !glob.isEverything && (text != "s/*.yml" || glob.accepts "s/a.yml")) = true := by
      fin_cases h <;> decide +kernel
    obtain ⟨glob, hglob, htests⟩ := (Option.any_eq_true _ _).1 hread
    exact ⟨glob, ok_of_toOption hglob, by simpa [imp_iff_not_or] using htests⟩
  obtain ⟨glob, compiles, special, haccepts⟩ := hread "s/*.yml" (by decide)
  obtain ⟨glob', compiles', special', _⟩ := hread "s//*.yml" (by decide)
  obtain ⟨found, found', hfound, hfound', _, hnothing⟩ :=
    same_path_found_iff sound compiles compiles' same
  have hcandidates : candidates files "s/*.yml" = ["s/a.yml"] := by decide +kernel
  have hfile : expandPattern files "s/*.yml" = .ok ["s/a.yml"] := by
    rw [expandPattern_marked compiles (by decide), hcandidates,
      List.filter_cons_of_pos (haccepts rfl), List.filter_nil, sortPaths, List.mergeSort_singleton]
  obtain rfl := Except.ok.inj (hfile.symm.trans hfound)
  have plain : ∀ c ∈ "s/*.yml".toList ++ "s//*.yml".toList, c ≠ '[' ∧ c ≠ '\x7b' := by
    simp
  rcases hnothing (by decide) (by decide) special special' plain with h | rfl
  · cases h
  · exact ⟨same, hfound, hfound'⟩

end TestBench
