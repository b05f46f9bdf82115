import Mathlib
import TestBench.Proofs.DirectoryPattern
import TestBench.Proofs.UnmarkedPaths
/-
  What is found is there.

  1. A walk goes on from where its path leads, at each entry of a directory: the joined path leads to the
     entry, or to where its link leads.  So every path that a walk gives leads to a file
     (`isFile_of_mem_walkNode`), in trees with links as well.
  2. From the working directory a path leads where it leads behind a dot, so that leaving out the dot
     changes nothing (`isFile_of_mem_candidates`).  Hence a directory and a pattern give files only, and
     they give them in order.
-/
namespace TestBench

open TestBench.Text

namespace Files

variable {files : Files}

/-- At an entry a walk goes on from where the joined path leads. -/
theorem exists_of_mem_walkEntry {depth : Nat} {inside : List Place} {path : String} {spot : Spot}
    {entries : List (String × FileNode)} (hlocate : files.locate path = .ok spot)
    (hnode : spot.node? = some (.directory entries)) (distinct : (entries.map Prod.fst).Nodup)
    {e : String × FileNode} (he : e ∈ entries) (hname : IsName e.1) {r : String}
    (hr : r ∈ files.walkEntry depth inside path spot e) :
    ∃ aim, files.locate (Path.join path e.1) = .ok aim
      ∧ r ∈ files.walkNode depth (spot.place :: inside) (Path.join path e.1) aim := by
  have hjoin := locate_join hlocate hname
  rw [enter_entry hnode hname, lookup_of_mem distinct he] at hjoin
  obtain ⟨name, node⟩ := e
  -- a link leads the walk where the joined path leads, unless the walk has been there
  cases node with
  | file bytes mode => exact ⟨_, hjoin, hr⟩
  | directory nodes => exact ⟨_, hjoin, hr⟩
  | link target =>
    dsimp only at hjoin
    rw [walkEntry] at hr
    dsimp only at hr
    cases hfollow : files.follow linkLimit spot.place target with
    | error e =>
      rw [hfollow] at hr
      cases hr
    | ok aim =>
      rw [hfollow] at hr hjoin
      dsimp only at hr
      split at hr
      · cases hr
      · exact ⟨aim, hjoin, hr⟩

/-- **A walk gives paths that lead to files.** -/
theorem isFile_of_mem_walkNode (sound : files.Sound) (depth : Nat) :
    ∀ (inside : List Place) (path : String) (spot : Spot), files.locate path = .ok spot →
      ∀ r ∈ files.walkNode depth inside path spot, files.isFile r = true := by
  -- what a walk gives at a file is its own path
  have start {path r : String} {spot : Spot} {bytes : Utf8.Bytes} {mode : Nat}
      (hlocate : files.locate path = .ok spot) (hnode : spot.node? = some (.file bytes mode))
      (hr : r ∈ [path]) : files.isFile r = true := by
    rw [List.mem_singleton.1 hr, isFile_of_locate hlocate, hnode]
    rfl
  induction depth with
  | zero =>
    intro inside path spot hlocate r hr
    rw [walkNode] at hr
    split at hr
    · rename_i hnode
      exact start hlocate hnode hr
    · cases hr
    · cases hr
  | succ depth ih =>
    intro inside path spot hlocate r hr
    cases hnode : spot.node? with
    | none =>
      rw [walkNode, hnode] at hr
      cases hr
    | some node =>
      cases follow_sound sound _ _ _ spot hlocate node hnode with
      | file bytes mode =>
        rw [walkNode, hnode] at hr
        exact start hlocate hnode hr
      | link target =>
        rw [walkNode, hnode] at hr
        cases hr
      | directory distinct names nodes =>
        rw [walkNode_directory hnode] at hr
        obtain ⟨e, he, hr⟩ := List.mem_flatMap.1 hr
        obtain ⟨aim, hjoin, hr⟩ :=
          exists_of_mem_walkEntry hlocate hnode distinct he (names e he) hr
        exact ih _ _ aim hjoin r hr

/-- So does a walk from any start. -/
theorem isFile_of_mem_walk (sound : files.Sound) {depth? : Option Nat} {start r : String}
    (h : r ∈ files.walk depth? start) : files.isFile r = true := by
  rw [walk] at h
  split at h
  · cases h
  · rename_i spot hspot
    exact isFile_of_mem_walkNode sound _ _ _ spot hspot r h

/-! ## The working directory -/

/-- A dot leads to the working directory, if that is a directory. -/
theorem locate_here {spot : Spot} (h : files.locate "." = .ok spot) :
    spot = files.spotAt files.base ∧ ∃ entries, spot.node? = some (.directory entries) := by
  have hpath : files.locate "." = _ :=
    @locate_spelled files true [] (fun _ hn => absurd hn List.not_mem_nil) (.inl rfl)
  rw [hpath] at h
  obtain ⟨next, henter, hnext⟩ := ok_of_bind_ok h
  cases hnext
  -- the dot can be entered in a directory only
  rw [enter] at henter
  split at henter
  · cases henter
  · rename_i entries hnode
    rw [if_pos (.inr rfl)] at henter
    cases henter
    exact ⟨rfl, entries, hnode⟩
  · cases henter

/-- Behind a dot, names lead where they lead without it. -/
theorem locate_spelled_dotted {spot : Spot} (h : files.locate "." = .ok spot) {names : List String}
    (hnames : ∀ n ∈ names, IsName n) (hne : names ≠ []) :
    files.locate (spelled true names) = files.locate (spelled false names) := by
  obtain ⟨rfl, entries, hnode⟩ := locate_here h
  have henter : files.enter (files.follow linkLimit) (files.spotAt files.base) "."
      = .ok (files.spotAt files.base) := by
    rw [enter, hnode]
    exact if_pos (.inr rfl)
  rw [locate_spelled hnames (.inl rfl), locate_spelled hnames (.inr hne)]
  show List.foldlM _ _ ("." :: names) = _
  rw [List.foldlM_cons, henter]
  rfl

end Files

/-! ## Directories and patterns -/

section Found

variable {files : Files}

/-- What a pattern may stand for is a file: a path of the walk, or what stands behind its dot. -/
theorem isFile_of_mem_candidates (sound : files.Sound) {pattern path : String}
    (h : path ∈ candidates files pattern) : files.isFile path = true := by
  rw [candidates] at h
  split at h
  · obtain ⟨r, hr, rfl⟩ := List.mem_map.1 h
    have hfile := Files.isFile_of_mem_walk sound hr
    obtain ⟨names, hnames, rfl⟩ := Files.names_of_mem_walk sound hr
    obtain ⟨spot, hspot⟩ : ∃ spot, files.locate "." = .ok spot := by
      rw [Files.walk] at hr
      split at hr
      · cases hr
      · rename_i spot hspot
        exact ⟨spot, hspot⟩
    cases names with
    | nil =>
      -- the dot itself leads to a directory
      obtain ⟨_, entries, hnode⟩ := Files.locate_here hspot
      rw [List.foldl_nil, Files.isFile_of_locate hspot, hnode] at hfile
      cases hfile
    | cons name names =>
      have hdotted : (name :: names).foldl Path.join "." = spelled true (name :: names) :=
        @foldl_join_eq_spelled true _ hnames
      rw [hdotted] at hfile ⊢
      rw [below?_spelled hnames (List.cons_ne_nil _ _), Files.isFile, Files.node,
        ← Files.locate_spelled_dotted hspot hnames (List.cons_ne_nil _ _)]
      exact hfile
  · exact Files.isFile_of_mem_walk sound h

theorem expandPattern_marked {pattern : String} {glob : Glob} (compiles : Glob.ofText pattern = .ok glob)
    (marked : hasGlobMark pattern = true) : expandPattern files pattern
      = .ok (sortPaths ((candidates files pattern).filter glob.accepts)) := by
  rw [expandPattern, compiles]
  exact if_pos marked

/-- Sorting changes the order only. -/
theorem mem_sortPaths {paths : List String} {path : String} : path ∈ sortPaths paths ↔ path ∈ paths :=
  List.mem_mergeSort

/-- **A pattern stands for files only**, which come in order. -/
theorem expandPattern_found (sound : files.Sound) {pattern : String} {found : List String}
    (h : expandPattern files pattern = .ok found) :
    (∀ path ∈ found, files.isFile path = true) ∧ found.Pairwise (Path.le · · = true) := by
  rw [expandPattern] at h
  split at h
  · cases h
  · split at h
    · cases h
      -- with marks, what is found is among the candidates, which are files
      refine ⟨fun path hpath => ?_, sortPaths_pairwise _⟩
      exact isFile_of_mem_candidates sound (List.mem_of_mem_filter (mem_sortPaths.1 hpath))
    · cases h
      split
      · rename_i hfile
        exact ⟨List.forall_mem_singleton.2 hfile, List.pairwise_singleton _ _⟩
      · exact ⟨fun _ hpath => absurd hpath List.not_mem_nil, List.Pairwise.nil⟩

/-- A directory lists files only, in order. -/
theorem filesIn_found {directory : String} {extension? : Option String} {found : List String}
    (h : filesIn files directory extension? = .ok found) :
    (∀ path ∈ found, files.isFile path = true) ∧ found.Pairwise (Path.le · · = true) := by
  rw [filesIn] at h
  split at h
  · cases h
  · cases h
    refine ⟨fun path hpath => ?_, sortPaths_pairwise _⟩
    exact (Bool.and_eq_true_iff.1 (List.mem_filter.1 (mem_sortPaths.1 hpath)).2).1

end Found

end TestBench
