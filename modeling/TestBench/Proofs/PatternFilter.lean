import Mathlib
import TestBench.Proofs.AcceptedPaths
import TestBench.Proofs.PathOrder
import TestBench.Proofs.WalkedFiles
/-
  A pattern stands for the files that it accepts.

  1. A pattern in plain spelling is names of its own, with marks in some of them (`PlainPattern`).  Its
     walk starts behind the names without marks and goes down no further than there are names left.
  2. A path that the pattern accepts begins with the names without marks (`begins_of_accepts`), and
     it has no more slashes than the pattern, unless that holds `**` (`slashes_ofText`).  So neither the
     start nor the depth of the walk loses a file that the pattern accepts (`mem_candidates`).
-/
namespace TestBench

open TestBench.Text

/-! ## Patterns in plain spelling -/

/-- A pattern that is spelled like names, without escapes and classes but with some other mark. -/
structure PlainPattern (dotted : Bool) (pieces : List String) (pattern : String) : Prop where
  eq_spelled : pattern = spelled dotted pieces
  names : ∀ p ∈ pieces, IsName p
  noEscape : '\\' ∉ pattern.toList
  noClass : '[' ∉ pattern.toList
  marked : ∃ c ∈ pattern.toList, c = '*' ∨ c = '?' ∨ c = '\x7b'

/-- The names in front of the first one with a mark. -/
def literalNames (pieces : List String) : List String := pieces.takeWhile fun p => !hasGlobMark p

/-- The segments of what stands in front of names. -/
def leadSegments (dotted : Bool) : List Segment := if dotted then [.here] else []

/-- A name is a segment of its own, wherever it stands. -/
theorem ofPiece?_name {name : String} (h : IsName name) (first : Bool) :
    Segment.ofPiece? first name.toList = some (.name name) := by
  rw [Segment.ofPiece?, if_neg (mt List.isEmpty_iff.1 h.nonempty), if_neg h.notHere, if_neg h.notUp,
    String.ofList_toList]

/-- The segments of spelled names are the names, with the dot in front that is written. -/
theorem segments_spelled {dotted : Bool} {names : List String} (hnames : ∀ n ∈ names, IsName n)
    (start : dotted = true ∨ names ≠ []) :
    Path.segments (spelled dotted names) = leadSegments dotted ++ names.map .name := by
  have hrest (names : List String) (hnames : ∀ n ∈ names, IsName n) :
      (names.map String.toList).filterMap (Segment.ofPiece? false) = names.map .name := by
    rw [List.filterMap_map, ← List.filterMap_eq_map]
    exact List.filterMap_congr fun n hn => ofPiece?_name (hnames n hn) false
  rw [Path.segments, isAbsolute_spelled hnames start, splitChar_spelled hnames start]
  -- a dot counts only at the beginning, and so the first piece is read apart
  cases dotted with
  | true => exact congrArg (List.cons _) (hrest names hnames)
  | false =>
    cases names with
    | nil => exact (start.resolve_left Bool.false_ne_true rfl).elim
    | cons name names =>
      have hname := ofPiece?_name (hnames name List.mem_cons_self) true
      show ((some name.toList).bind (Segment.ofPiece? true)).toList
        ++ (names.map String.toList).filterMap (Segment.ofPiece? false) = _
      rw [Option.bind_some, hname, hrest names fun n hn => hnames n (List.mem_cons_of_mem _ hn)]
      rfl

/-- A spelled path has a slash between any two names. -/
theorem count_slash_spelled (dotted : Bool) {names : List String} (hnames : ∀ n ∈ names, IsName n)
    (start : dotted = true ∨ names ≠ []) :
    (spelled dotted names).toList.count '/' + 1 = (lead dotted).length + names.length := by
  rw [← length_splitChar, splitChar_spelled hnames start, List.length_map, List.length_append]

/-- A path of names without marks is spelled without marks. -/
theorem isGlobMark_of_mem_spelled {dotted : Bool} {names : List String}
    (unmarked : ∀ n ∈ names, hasGlobMark n = false) {c : Char}
    (hc : c ∈ (spelled dotted names).toList) : isGlobMark c = false := by
  rw [spelled, String.toList_ofList] at hc
  -- a character of the path is a slash, or stands in a name
  rcases mem_joinChar hc with rfl | ⟨p, hp, hcp⟩
  · rfl
  · obtain ⟨n, hn, rfl⟩ := List.mem_map.1 hp
    have hplain : hasGlobMark n = false := by
      rcases List.mem_append.1 hn with hlead | hname
      · cases dotted with
        | false => cases hlead
        | true =>
          rw [List.mem_singleton.1 hlead]
          rfl
      · exact unmarked n hname
    rw [hasGlobMark, List.any_eq_false] at hplain
    exact Bool.eq_false_iff.2 (hplain c hcp)

namespace PlainPattern

variable {dotted : Bool} {pieces : List String} {pattern : String}
  (h : PlainPattern dotted pieces pattern)
include h

/-- A pattern with a marked name is marked. -/
theorem hasGlobMark : hasGlobMark pattern = true := by
  obtain ⟨c, hc, hmark⟩ := h.marked
  refine List.any_eq_true.2 ⟨c, hc, ?_⟩
  rcases hmark with rfl | rfl | rfl <;> decide

/-- Some name has a mark. -/
theorem exists_marked : ∃ p rest, pieces = literalNames pieces ++ p :: rest := by
  cases hdrop : pieces.dropWhile fun p => !TestBench.hasGlobMark p with
  | cons p rest => exact ⟨p, rest, by rw [← hdrop]; exact List.takeWhile_append_dropWhile.symm⟩
  | nil =>
    have hnone : ∀ n ∈ pieces, TestBench.hasGlobMark n = false := fun n hn =>
      Bool.not_eq_true' _ ▸ List.dropWhile_eq_nil_iff.1 hdrop n hn
    obtain ⟨c, hc, hmark⟩ := h.marked
    have hglob := isGlobMark_of_mem_spelled hnone (h.eq_spelled ▸ hc)
    rcases hmark with rfl | rfl | rfl <;> cases hglob

theorem pieces_ne_nil : pieces ≠ [] := by
  obtain ⟨p, rest, hpieces⟩ := h.exists_marked
  rw [hpieces]
  exact List.append_ne_nil_of_right_ne_nil _ (List.cons_ne_nil p rest)

/-- What stands in front of the first mark are names. -/
theorem literal_isName : ∀ n ∈ literalNames pieces, IsName n :=
  fun n hn => h.names n (List.takeWhile_subset _ hn)

theorem segments : Path.segments pattern = leadSegments dotted ++ pieces.map .name := by
  rw [h.eq_spelled]
  exact segments_spelled h.names (.inr h.pieces_ne_nil)

/-- The segments in front of the first mark are those names. -/
theorem literalSegments : literalSegments pattern
    = leadSegments dotted ++ (literalNames pieces).map .name := by
  have htake : (pieces.map Segment.name).takeWhile isLiteral = (literalNames pieces).map .name := by
    rw [List.takeWhile_map]
    rfl
  rw [TestBench.literalSegments, h.segments, ← htake]
  cases dotted <;> rfl

/-- So the walk starts where these names are spelled. -/
theorem spell_literalSegments :
    spell (TestBench.literalSegments pattern) = spelled dotted (literalNames pieces) := by
  rw [spell, h.literalSegments, ← foldl_join_eq_spelled h.literal_isName, List.foldl_append,
    List.foldl_map]
  cases dotted <;> rfl

/-- The walk goes down one level for each piece that is left, or without an end if two stars stand
    together. -/
theorem walkDepth? : walkDepth? pattern = if occursIn ['*', '*'] pattern.toList then none
    else some (pieces.length - (literalNames pieces).length) := by
  rw [TestBench.walkDepth?, h.segments, h.literalSegments, List.length_append, List.length_append,
    List.length_map, List.length_map, Nat.add_sub_add_left]

/-- Unless the walk starts at the working directory without a dot, the pattern begins with the names in
    front of its first mark, and a slash. -/
theorem exists_front (start : dotted = true ∨ literalNames pieces ≠ []) :
    ∃ rest, pattern.toList = (spelled dotted (literalNames pieces)).toList ++ '/' :: rest := by
  obtain ⟨p, rest, hpieces⟩ := h.exists_marked
  have hne : (lead dotted ++ literalNames pieces).map String.toList ≠ [] := by
    rw [Ne, List.map_eq_nil_iff, List.append_eq_nil_iff]
    rintro ⟨hlead, hliteral⟩
    rcases start with rfl | hstart
    · cases hlead
    · exact hstart hliteral
  have hmore : (p :: rest).map String.toList ≠ [] := List.cons_ne_nil _ _
  refine ⟨joinChar '/' ((p :: rest).map String.toList), ?_⟩
  rw [h.eq_spelled, spelled, spelled, String.toList_ofList, String.toList_ofList,
    ← joinChar_append hne hmore, ← List.map_append, List.append_assoc, ← hpieces]

/-- These names are read as they stand. -/
theorem front_isLiteral (start : dotted = true ∨ literalNames pieces ≠ []) :
    ∀ c ∈ (spelled dotted (literalNames pieces)).toList, Glob.IsLiteral c := by
  intro c hc
  obtain ⟨rest, hfront⟩ := h.exists_front start
  -- it is no escape by the spelling, and no mark since the first marked piece stands behind
  have hescape : c ≠ '\\' := by
    rintro rfl
    exact h.noEscape (hfront ▸ List.mem_append_left _ hc)
  have hplain : isGlobMark c = false := by
    refine isGlobMark_of_mem_spelled (fun n hn => ?_) hc
    have hn := List.mem_takeWhile_imp hn
    rwa [Bool.not_eq_true'] at hn
  simp only [isGlobMark, Bool.or_eq_false_iff, decide_eq_false_iff_not] at hplain
  obtain ⟨⟨⟨hstar, hany⟩, hclass⟩, hbraces⟩ := hplain
  exact ⟨hstar, hany, hclass, hbraces, hescape⟩

/-- An accepted path of names begins with the names in front of the first mark. -/
theorem exists_below {glob : Glob} (compiles : Glob.ofText pattern = .ok glob) {names : List String}
    (hnames : ∀ n ∈ names, IsName n) (hne : names ≠ [])
    (accepts : glob.accepts (spelled dotted names) = true) :
    ∃ below, names = literalNames pieces ++ below := by
  -- without a dot and without names in front there is nothing that a path must begin with
  by_cases start : dotted = true ∨ literalNames pieces ≠ []
  · obtain ⟨rest, hfront⟩ := h.exists_front start
    obtain ⟨more, hmore⟩ := Glob.begins_of_accepts
      (Glob.beginWith_ofText compiles hfront (h.front_isLiteral start)) accepts
    have hsplit := congrArg (splitChar '/') hmore
    rw [splitChar_append, splitChar_spelled hnames (.inr hne),
      splitChar_spelled h.literal_isName start] at hsplit
    obtain ⟨front, below, hlist, hfront, _⟩ := List.map_eq_append_iff.1 hsplit
    rw [List.map_injective_iff.2 (fun _ _ => String.toList_inj.1) hfront, List.append_assoc] at hlist
    exact ⟨below, List.append_cancel_left hlist⟩
  · rw [not_or, not_not] at start
    exact ⟨names, by rw [start.2]; rfl⟩

/-- An accepted path has no more names than the pattern, unless that holds `**`. -/
theorem length_le {glob : Glob} (compiles : Glob.ofText pattern = .ok glob)
    (flat : occursIn ['*', '*'] pattern.toList = false) {names : List String}
    (hnames : ∀ n ∈ names, IsName n) (hne : names ≠ [])
    (accepts : glob.accepts (spelled dotted names) = true) : names.length ≤ pieces.length := by
  have hcount := (Glob.count_slash_of_accepts accepts).trans
    (Glob.slashes_ofText compiles flat h.noClass)
  rw [Nat.cast_le] at hcount
  have hpath := count_slash_spelled dotted hnames (.inr hne)
  have hpattern := count_slash_spelled dotted h.names (.inr h.pieces_ne_nil)
  rw [← h.eq_spelled] at hpattern
  omega

end PlainPattern

/-! ## Candidates -/

/-- Below the working directory, a dot in front is left out. -/
theorem below?_spelled {names : List String} (hnames : ∀ n ∈ names, IsName n) (hne : names ≠ []) :
    (Path.below? "." (spelled true names)).getD (spelled true names) = spelled false names := by
  cases names with
  | nil => exact absurd rfl hne
  | cons name rest =>
    have hbelow := Path.below?_here name rest hnames
    rw [← foldl_join_eq_spelled hnames, if_pos rfl, hbelow]
    rfl

section Candidates

variable {files : Files} (plain : files.Plain) {dotted : Bool} {pieces : List String}
  {pattern : String} (h : PlainPattern dotted pieces pattern)
include plain h

/-- The walk of a pattern meets all files that begin with the names in front of its first mark and have
    no more names than the pattern, if it does not hold `**`. -/
theorem mem_candidates (path : String) : path ∈ candidates files pattern
    ↔ ∃ below : List String,
        (occursIn ['*', '*'] pattern.toList = false →
          below.length ≤ pieces.length - (literalNames pieces).length)
        ∧ files.root.HasFile (files.base ++ (literalNames pieces ++ below))
        ∧ path = spelled dotted (literalNames pieces ++ below) := by
  have hdepth (below : List String) : (∀ d, walkDepth? pattern = some d → below.length ≤ d)
      ↔ (occursIn ['*', '*'] pattern.toList = false →
          below.length ≤ pieces.length - (literalNames pieces).length) := by
    rw [h.walkDepth?]
    cases occursIn ['*', '*'] pattern.toList <;> simp
  rw [candidates, h.spell_literalSegments]
  by_cases start : dotted = true ∨ literalNames pieces ≠ []
  · rw [if_neg (mt String.isEmpty_iff.1 (spelled_ne_empty h.literal_isName start)),
      Files.mem_walk plain h.literal_isName start]
    simp only [hdepth]
  · -- the walk starts at a dot that the pattern does not have
    obtain ⟨hdotted, hliteral⟩ := not_or.1 start
    rw [not_not] at hliteral
    rw [Bool.not_eq_true] at hdotted
    subst hdotted
    have hwalk (r : String) : r ∈ files.walk (walkDepth? pattern) (spelled true []) ↔ _ :=
      Files.mem_walk plain (fun _ hn => absurd hn List.not_mem_nil) (.inl rfl) _ r
    rw [hliteral, if_pos (show (spelled false []).isEmpty = true from rfl), List.mem_map]
    rw [hliteral] at hdepth
    constructor
    · rintro ⟨r, hr, rfl⟩
      obtain ⟨below, hlength, hfile, rfl⟩ := (hwalk r).1 hr
      obtain ⟨hne, hnames⟩ := plain.names_of_hasFile hfile
      exact ⟨below, (hdepth below).1 hlength, hfile, below?_spelled hnames hne⟩
    · rintro ⟨below, hlength, hfile, rfl⟩
      obtain ⟨hne, hnames⟩ := plain.names_of_hasFile hfile
      exact ⟨spelled true below, (hwalk _).2 ⟨below, (hdepth below).2 hlength, hfile, rfl⟩,
        below?_spelled hnames hne⟩

/-- **A pattern stands for the files that it accepts.**  For a pattern in plain spelling, seen from a
    directory of a tree without links, these are exactly the files below whose paths, spelled with a dot
    in front iff the pattern is, it accepts; they come in strict order.  The walk always has a level
    to go down. -/
theorem expandPattern_filters {glob : Glob} (compiles : Glob.ofText pattern = .ok glob) :
    (literalSegments pattern).length < (Path.segments pattern).length
      ∧ ∃ found, expandPattern files pattern = .ok found
        ∧ (∀ path, path ∈ found ↔ glob.accepts path = true ∧ ∃ names, names ≠ []
            ∧ files.root.HasFile (files.base ++ names) ∧ path = spelled dotted names)
        ∧ found.Pairwise fun p q => Path.le p q = true ∧ Path.le q p = false := by
  have hmem (path : String) : path ∈ (candidates files pattern).filter glob.accepts
      ↔ glob.accepts path = true ∧ ∃ names, names ≠ []
        ∧ files.root.HasFile (files.base ++ names) ∧ path = spelled dotted names := by
    rw [List.mem_filter, mem_candidates plain h, and_comm]
    refine and_congr_right fun accepts => ?_
    constructor
    · -- a file that the walk meets is a file of the tree
      rintro ⟨below, _, hfile, hpath⟩
      exact ⟨_, (plain.names_of_hasFile hfile).1, hfile, hpath⟩
    · -- an accepted file lies below the start, and the slashes that the pattern can pass bound its
      -- depth
      rintro ⟨names, hne, hfile, rfl⟩
      have hnames := (plain.names_of_hasFile hfile).2
      obtain ⟨below, rfl⟩ := h.exists_below compiles hnames hne accepts
      refine ⟨below, fun flat => ?_, hfile, rfl⟩
      have hlength := h.length_le compiles flat hnames hne accepts
      rw [List.length_append] at hlength
      omega
  have hexpand : expandPattern files pattern
      = .ok (sortPaths ((candidates files pattern).filter glob.accepts)) := by
    rw [expandPattern, compiles]
    exact if_pos h.hasGlobMark
  refine ⟨?_, _, hexpand, fun path => ?_, sortPaths_strict ?_ ?_⟩
  · obtain ⟨p, rest, hpieces⟩ := h.exists_marked
    -- there is a marked piece, which is no literal one
    have hlength := congrArg List.length hpieces
    rw [List.length_append, List.length_cons] at hlength
    rw [h.literalSegments, h.segments, List.length_append, List.length_append, List.length_map,
      List.length_map]
    omega
  · rw [sortPaths, (List.mergeSort_perm _ _).mem_iff, hmem]
  · exact (candidates_nodup plain.sound pattern).filter _
  · -- different names are different segments, so no two paths stand at the same place in the order
    intro p hp q hq heq
    obtain ⟨_, names, hne, hfile, rfl⟩ := (hmem p).1 hp
    obtain ⟨_, names', hne', hfile', rfl⟩ := (hmem q).1 hq
    rw [segments_spelled (plain.names_of_hasFile hfile).2 (.inr hne),
      segments_spelled (plain.names_of_hasFile hfile').2 (.inr hne')] at heq
    rw [List.map_injective_iff.2 (fun _ _ => Segment.name.inj) (List.append_cancel_left heq)]

end Candidates

/-- Braces with a slash between them: the walk starts at the directory in front of them, and goes two
    levels down. -/
theorem expandPattern_filters_braces :
    let file : FileNode := .file [] FileNode.standardMode
    let files : Files := ⟨.directory [
      ("a", .directory [("b.yml", file), ("c", .directory [("d.yml", file)])]), ("x.yml", file)], []⟩
    let pattern := "./a/\x7bb,c/*\x7d.yml"
    ∃ found, expandPattern files pattern = .ok found ∧ "./a/b.yml" ∈ found ∧ "./a/c/d.yml" ∈ found
      ∧ "./x.yml" ∉ found := by
  intro file files pattern
  have hname (name : String)
      (h : name ∈ ["a", "b.yml", "c", "d.yml", "x.yml", "\x7bb,c", "*\x7d.yml"]) : IsName name := by
    fin_cases h <;> exact ⟨by decide, by decide, by decide, by decide⟩
  have leaf : file.Sound ∧ file.Unlinked := ⟨.file _ _, .file _ _⟩
  have inner : (FileNode.directory [("d.yml", file)]).Sound
      ∧ (FileNode.directory [("d.yml", file)]).Unlinked := by
    constructor
    · exact .directory (by decide) (List.forall_mem_singleton.2 (hname _ (by simp)))
        (List.forall_mem_singleton.2 leaf.1)
    · exact .directory (List.forall_mem_singleton.2 leaf.2)
  have outer : (FileNode.directory [("b.yml", file), ("c", .directory [("d.yml", file)])]).Sound
      ∧ (FileNode.directory [("b.yml", file), ("c", .directory [("d.yml", file)])]).Unlinked := by
    constructor
    · exact .directory (by decide) (List.forall_mem_cons.2 ⟨hname _ (by simp),
        List.forall_mem_singleton.2 (hname _ (by simp))⟩)
        (List.forall_mem_cons.2 ⟨leaf.1, List.forall_mem_singleton.2 inner.1⟩)
    · exact .directory (List.forall_mem_cons.2 ⟨leaf.2, List.forall_mem_singleton.2 inner.2⟩)
  have plain : files.Plain := by
    refine ⟨.directory (by decide) (List.forall_mem_cons.2 ⟨hname _ (by simp),
      List.forall_mem_singleton.2 (hname _ (by simp))⟩)
      (List.forall_mem_cons.2 ⟨outer.1, List.forall_mem_singleton.2 leaf.1⟩),
      .directory (List.forall_mem_cons.2 ⟨outer.2, List.forall_mem_singleton.2 leaf.2⟩), _, rfl⟩
  have spelling : PlainPattern true ["a", "\x7bb,c", "*\x7d.yml"] pattern :=
    ⟨rfl, fun n hn => hname n (by simp at hn ⊢; tauto), by decide, by decide,
      '*', by decide, by decide⟩
  have haccepts : (match Glob.ofText pattern with
      | .ok glob => glob.accepts "./a/b.yml" && glob.accepts "./a/c/d.yml" && !glob.accepts "./x.yml"
      | .error _ => false) = true := by decide +kernel
  -- the pattern compiles, as evaluating it shows; the theorem tells the files
  cases compiles : Glob.ofText pattern with
  | error e =>
    rw [compiles] at haccepts
    cases haccepts
  | ok glob =>
    rw [compiles] at haccepts
    simp only [Bool.and_eq_true, Bool.not_eq_true'] at haccepts
    obtain ⟨⟨hb, hd⟩, hx⟩ := haccepts
    obtain ⟨_, found, hfound, hmem, _⟩ := expandPattern_filters plain spelling compiles
    refine ⟨found, hfound, (hmem _).2 ⟨hb, ["a", "b.yml"], by decide, ⟨_, _, rfl⟩, rfl⟩,
      (hmem _).2 ⟨hd, ["a", "c", "d.yml"], by decide, ⟨_, _, rfl⟩, rfl⟩, fun h => ?_⟩
    rw [((hmem _).1 h).1] at hx
    cases hx

end TestBench
