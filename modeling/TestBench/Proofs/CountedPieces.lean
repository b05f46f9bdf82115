import Mathlib
import TestBench.Proofs.FoundFiles
/-
  The pieces of a path that count.

  1. Behind the first piece of a path, an empty piece and a dot make no segment (`Path.counts`).  The
     segments are made from the first piece and the others that count, each from its own piece, so two
     paths with the same segments have the same pieces (`segments_eq_map`, `countedPieces_congr`).
  2. Marks stand in pieces that count.  So patterns that are the same as paths both have a mark or none,
     and their walks meet the same candidates (`candidates_congr`).
  3. A piece that does not count is entered like its own directory: in front of another piece it changes
     nothing, but at the end it asks for a directory, so that no file is there (`isFile_congr`,
     `isFile_of_endsOpen`).
  4. A walk spells its paths without pieces that do not count (`allCount_of_mem_candidates`), so
     different candidates are different as paths.
-/
namespace TestBench

open TestBench.Text

/-! ## Segments -/

/-- The segment that a piece makes where it counts; an empty piece counts in front only. -/
def Segment.ofCounted (piece : List Char) : Segment :=
  if piece = [] then .root
  else if piece = ['.'] then .here
  else if piece = ['.', '.'] then .up
  else .name (String.ofList piece)

/-- Pieces are told apart by their segments. -/
theorem Segment.ofCounted_injective : Function.Injective Segment.ofCounted := by
  intro piece piece' h
  rw [ofCounted, ofCounted] at h
  split_ifs at h <;> simp_all [String.ofList_inj]

namespace Path

/-- Whether a piece counts behind the first one. -/
def counts (piece : List Char) : Bool := piece ≠ [] && piece ≠ ['.']

/-- The first piece of a path and the others that count. -/
def countedPieces (path : String) : List (List Char) :=
  (splitChar '/' path.toList).take 1 ++ (splitChar '/' path.toList).tail.filter counts

/-- Whether all pieces behind the first one count. -/
def AllCount (path : String) : Prop := ∀ piece ∈ (splitChar '/' path.toList).tail, counts piece = true

/-- Whether a path ends with a piece that does not count. -/
def endsOpen (path : String) : Bool := (splitChar '/' path.toList).tail.getLast?.any (!counts ·)

theorem counts_iff {piece : List Char} : counts piece = true ↔ piece ≠ [] ∧ piece ≠ ['.'] := by
  simp [counts]

/-- Behind the first piece, those that count are the segments. -/
theorem ofPiece?_false (piece : List Char) : Segment.ofPiece? false piece
    = if counts piece then some (Segment.ofCounted piece) else none := by
  rw [Segment.ofPiece?, Segment.ofCounted]
  by_cases hnil : piece = []
  · subst hnil
    rfl
  · by_cases hdot : piece = ['.']
    · subst hdot
      rfl
    · rw [if_pos (counts_iff.2 ⟨hnil, hdot⟩), if_neg (mt List.isEmpty_iff.1 hnil), if_neg hdot,
        if_neg hnil, if_neg hdot]
      split_ifs <;> rfl

/-- The first piece is a segment, also a dot. -/
theorem ofPiece?_true {piece : List Char} (hne : piece ≠ []) :
    Segment.ofPiece? true piece = some (Segment.ofCounted piece) := by
  rw [Segment.ofPiece?, Segment.ofCounted, if_neg (mt List.isEmpty_iff.1 hne), if_neg hne]
  by_cases hdot : piece = ['.']
  · subst hdot
    rfl
  · rw [if_neg hdot, if_neg hdot]
    split_ifs <;> rfl

/-- A path begins with a separator iff its first piece is empty. -/
theorem head_eq_slash_iff {path : String} (hne : path ≠ "") {first : List Char}
    {rest : List (List Char)} (h : splitChar '/' path.toList = first :: rest) :
    (path.toList.head? == some '/') = true ↔ first = [] := by
  cases hlist : path.toList with
  | nil => exact absurd (String.toList_eq_nil_iff.1 hlist) hne
  | cons c s =>
    rw [hlist, splitChar] at h
    rw [List.head?_cons, beq_iff_eq, Option.some_inj]
    split at h
    · rename_i hc
      exact iff_of_true hc (List.cons.inj h).1.symm
    · rename_i hc
      split at h <;> exact iff_of_false hc fun hnil => List.cons_ne_nil c _ ((List.cons.inj h).1.trans hnil)

/-- **Segments are made from the pieces that count.** -/
theorem segments_eq_map {path : String} (hne : path ≠ "") :
    segments path = (countedPieces path).map Segment.ofCounted := by
  obtain ⟨first, rest, hpieces⟩ := List.exists_cons_of_ne_nil (splitChar_ne_nil '/' path.toList)
  have hrest : rest.filterMap (Segment.ofPiece? false)
      = (rest.filter counts).map Segment.ofCounted := by
    rw [← List.filterMap_eq_map, List.filterMap_filter]
    exact List.filterMap_congr fun piece _ => ofPiece?_false piece
  rw [segments_of_pieces hpieces, hrest, countedPieces, hpieces]
  by_cases hfirst : first = []
  · rw [if_pos ((head_eq_slash_iff hne hpieces).2 hfirst), hfirst]
    rfl
  · rw [if_neg (mt (head_eq_slash_iff hne hpieces).1 hfirst), ofPiece?_true hfirst]
    rfl

theorem countedPieces_ne_nil (path : String) : countedPieces path ≠ [] := by
  obtain ⟨first, rest, hpieces⟩ := List.exists_cons_of_ne_nil (splitChar_ne_nil '/' path.toList)
  rw [countedPieces, hpieces]
  exact List.cons_ne_nil _ _

/-- Only the empty path has no segments. -/
theorem segments_eq_nil_iff {path : String} : segments path = [] ↔ path = "" := by
  constructor
  · intro h
    by_contra hne
    rw [segments_eq_map hne, List.map_eq_nil_iff] at h
    exact countedPieces_ne_nil path h
  · rintro rfl
    rfl

/-- **Paths are the same iff their pieces that count are.** -/
theorem countedPieces_congr {p q : String} (h : segments p = segments q) :
    countedPieces p = countedPieces q := by
  by_cases hp : p = ""
  · subst hp
    rw [segments_eq_nil_iff.1 (h.symm.trans rfl)]
  · have hq : q ≠ "" := fun hq => hp (segments_eq_nil_iff.1 (h.trans (segments_eq_nil_iff.2 hq)))
    rw [segments_eq_map hp, segments_eq_map hq] at h
    exact List.map_injective_iff.2 Segment.ofCounted_injective h

/-- A path whose pieces all count is known from its segments. -/
theorem eq_of_allCount {p q : String} (hp : AllCount p) (hq : AllCount q)
    (h : segments p = segments q) : p = q := by
  have hpieces {path : String} (hall : AllCount path) :
      countedPieces path = splitChar '/' path.toList := by
    rw [countedPieces, List.filter_eq_self.2 hall]
    exact (List.drop_one ▸ List.take_append_drop 1 _)
  have heq := countedPieces_congr h
  rw [hpieces hp, hpieces hq] at heq
  rw [← String.toList_inj, ← joinChar_splitChar '/' p.toList, heq, joinChar_splitChar]

/-- What an empty piece and a dot do not have stands in a piece that counts, if in any. -/
theorem exists_countedPiece {path : String} {P : List Char → Prop} (hnil : ¬ P []) (hdot : ¬ P ['.']) :
    (∃ piece ∈ splitChar '/' path.toList, P piece) ↔ ∃ piece ∈ countedPieces path, P piece := by
  obtain ⟨first, rest, hpieces⟩ := List.exists_cons_of_ne_nil (splitChar_ne_nil '/' path.toList)
  have hcounted : countedPieces path = first :: rest.filter counts := by
    rw [countedPieces, hpieces]
    rfl
  rw [hpieces, hcounted, List.exists_mem_cons_iff, List.exists_mem_cons_iff]
  -- the first piece counts anyway; of the others those are dropped that do not have the property
  refine or_congr_right (exists_congr fun piece => ?_)
  rw [List.mem_filter, and_assoc]
  refine and_congr_right fun _ => (and_iff_right_of_imp fun hpiece => counts_iff.2 ⟨?_, ?_⟩).symm
  · rintro rfl
    exact hnil hpiece
  · rintro rfl
    exact hdot hpiece

end Path

/-! ## Candidates -/

section Same

variable {p q : String} (same : Path.segments p = Path.segments q)
include same

/-- Spellings with the same segments are marked alike. -/
theorem hasGlobMark_congr : hasGlobMark p = hasGlobMark q := by
  have hmark (path : String) : hasGlobMark path = true
      ↔ ∃ piece ∈ Path.countedPieces path, ∃ c ∈ piece, isGlobMark c = true := by
    rw [← Path.exists_countedPiece (by simp) (by simp [isGlobMark]), hasGlobMark, List.any_eq_true]
    constructor
    · rintro ⟨c, hc, hmark⟩
      rw [← joinChar_splitChar '/' path.toList] at hc
      rcases mem_joinChar hc with rfl | ⟨piece, hpiece, hc⟩
      · cases hmark
      · exact ⟨piece, hpiece, c, hc, hmark⟩
    · rintro ⟨piece, hpiece, c, hc, hmark⟩
      exact ⟨c, mem_of_mem_splitChar hpiece hc, hmark⟩
  rw [Bool.eq_iff_iff, hmark, hmark, Path.countedPieces_congr same]

/-- And their walks go equally far down. -/
theorem walkDepth?_congr : walkDepth? p = walkDepth? q := by
  have hstars (path : String) : occursIn ['*', '*'] path.toList = true
      ↔ ∃ piece ∈ Path.countedPieces path, ['*', '*'] <:+: piece := by
    rw [← Path.exists_countedPiece (by decide) (by decide), occursIn_iff]
    exact infix_iff_exists_piece (by decide) (by decide)
  have hoccurs : occursIn ['*', '*'] p.toList = occursIn ['*', '*'] q.toList := by
    rw [Bool.eq_iff_iff, hstars, hstars, Path.countedPieces_congr same]
  rw [walkDepth?, walkDepth?, literalSegments, literalSegments, hoccurs, same]

/-- **Patterns that are the same as paths are walked alike.** -/
theorem candidates_congr (files : Files) : candidates files p = candidates files q := by
  rw [candidates, candidates, walkDepth?_congr same, literalSegments, literalSegments, same]

end Same

/-! ## Following -/

namespace Files

variable {files : Files} {follow : Place → String → Except FileError Spot}

/-- A piece that does not count is entered like an empty one. -/
theorem enter_uncounted {piece : List Char} (h : Path.counts piece = false) (spot : Spot) :
    files.enter follow spot (String.ofList piece) = files.enter follow spot "" := by
  have hidle : String.ofList piece = "" ∨ String.ofList piece = "." := by
    by_contra hne
    rw [not_or] at hne
    refine Bool.eq_false_iff.1 h (Path.counts_iff.2 ⟨?_, ?_⟩)
    · rintro rfl
      exact hne.1 rfl
    · rintro rfl
      exact hne.2 rfl
  rw [enter, enter]
  split
  · rfl
  · exact (if_pos hidle).trans (if_pos (.inl rfl)).symm
  · rfl

/-- In front of another piece it changes nothing, for only a directory can be left as well. -/
theorem foldlM_enter_empty (spot : Spot) (piece : String) (rest : List String) :
    ("" :: piece :: rest).foldlM (files.enter follow) spot
      = (piece :: rest).foldlM (files.enter follow) spot := by
  rw [List.foldlM_cons]
  -- where there is no directory both fail alike; in one, the empty piece stays
  cases hnode : spot.node? with
  | none =>
    have hnext (next : String) : files.enter follow spot next = .error .missing := by
      rw [enter, hnode]
    rw [List.foldlM_cons, hnext, hnext]
    rfl
  | some node =>
    cases node with
    | directory entries =>
      have hstay : files.enter follow spot "" = .ok spot := by
        rw [enter, hnode]
        exact if_pos (.inl rfl)
      rw [hstay]
      rfl
    | _ =>
      have hnext (next : String) : files.enter follow spot next = .error .notDirectory := by
        rw [enter, hnode]
      rw [List.foldlM_cons, hnext, hnext]
      rfl

/-- Pieces lead where those that count lead, with an empty one behind them if the last does not. -/
theorem foldlM_enter_counted (rest : List (List Char)) : ∀ spot : Spot,
    (rest.map String.ofList).foldlM (files.enter follow) spot
      = ((rest.filter Path.counts).map String.ofList
          ++ if rest.getLast?.any (!Path.counts ·) then [""] else []).foldlM (files.enter follow)
        spot := by
  induction rest with
  | nil => exact fun spot => rfl
  | cons piece rest ih =>
    intro spot
    -- a piece that counts is entered on both sides; one that does not is skipped, unless it is the last
    cases hcounts : Path.counts piece with
    | true =>
      have hlast : (piece :: rest).getLast?.any (!Path.counts ·)
          = rest.getLast?.any (!Path.counts ·) := by
        cases rest with
        | nil => simp [hcounts]
        | cons next rest => rw [List.getLast?_cons_cons]
      rw [hlast, List.filter_cons_of_pos hcounts, List.map_cons, List.map_cons, List.cons_append,
        List.foldlM_cons, List.foldlM_cons]
      exact bind_congr fun next => ih next
    | false =>
      rw [List.filter_cons_of_neg (Bool.eq_false_iff.1 hcounts), List.map_cons, List.foldlM_cons,
        enter_uncounted hcounts, ← List.foldlM_cons]
      cases rest with
      | nil => simp [hcounts]
      | cons next rest =>
        rw [List.getLast?_cons_cons, ← ih, List.map_cons, foldlM_enter_empty]

/-- A path leads where its pieces that count lead. -/
theorem locate_counted {path : String} {first : List Char} {rest : List (List Char)}
    (hne : path ≠ "") (h : Path.countedPieces path = first :: rest) : files.locate path
      = ((first :: rest).map String.ofList ++ if Path.endsOpen path then [""] else []).foldlM
          (files.enter (files.follow linkLimit))
          (files.spotAt (if first = [] then [] else files.base)) := by
  obtain ⟨first', rest', hpieces⟩ := List.exists_cons_of_ne_nil (splitChar_ne_nil '/' path.toList)
  have hcounted : first' :: rest'.filter Path.counts = first :: rest := by
    rw [← h, Path.countedPieces, hpieces]
    rfl
  obtain ⟨rfl, rfl⟩ := List.cons.inj hcounted
  -- an empty first piece is what makes a path absolute
  have habsolute : (Path.isAbsolute path = true) = (first' = []) := by
    rw [Path.isAbsolute_eq]
    exact propext (Path.head_eq_slash_iff hne hpieces)
  rw [locate_eq hne, pieces, Path.endsOpen, hpieces, List.map_cons, List.map_cons, List.cons_append,
    List.foldlM_cons, List.foldlM_cons]
  simp only [habsolute]
  exact bind_congr fun spot => foldlM_enter_counted rest' spot

/-- **Paths that are the same lead to a file both or not**, if none or both end with a piece that does
    not count. -/
theorem isFile_congr {p q : String} (same : Path.segments p = Path.segments q)
    (ends : Path.endsOpen p = Path.endsOpen q) : files.isFile p = files.isFile q := by
  by_cases hp : p = ""
  · subst hp
    rw [Path.segments_eq_nil_iff.1 (same.symm.trans rfl)]
  · have hq : q ≠ "" := fun hq =>
      hp (Path.segments_eq_nil_iff.1 (same.trans (Path.segments_eq_nil_iff.2 hq)))
    obtain ⟨first, rest, hcounted⟩ := List.exists_cons_of_ne_nil (Path.countedPieces_ne_nil p)
    rw [isFile, isFile, node, node, locate_counted hp hcounted,
      locate_counted hq (Path.countedPieces_congr same ▸ hcounted), ends]

/-- No file is where a piece at the end asks for a directory. -/
theorem isFile_of_endsOpen {path : String} (h : Path.endsOpen path = true) :
    files.isFile path = false := by
  have hne : path ≠ "" := by
    rintro rfl
    cases h
  obtain ⟨first, rest, hcounted⟩ := List.exists_cons_of_ne_nil (Path.countedPieces_ne_nil path)
  cases hlocate : files.locate path with
  | error e => exact isFile_of_error hlocate
  | ok spot =>
    have hfollow := hlocate
    rw [locate_counted hne hcounted, if_pos h, List.foldlM_append] at hfollow
    -- the empty piece at the end is entered from the last place, which has to be a directory
    obtain ⟨last, _, hlast⟩ := ok_of_bind_ok hfollow
    obtain ⟨aim, henter, haim⟩ := ok_of_bind_ok hlast
    cases haim
    rw [enter] at henter
    split at henter
    · cases henter
    · rename_i entries hnode
      rw [if_pos (.inl rfl)] at henter
      cases henter
      rw [isFile_of_locate hlocate, hnode]
      rfl
    · cases henter

end Files

/-! ## Spelled paths -/

namespace Path

/-- A path that names can be joined to: the root, or one without a separator at its end whose pieces all
    count behind the first one. -/
def IsSpelled (path : String) : Prop :=
  path = "/" ∨ (path ≠ "" ∧ path.toList.getLast? ≠ some '/' ∧ AllCount path)

/-- A piece that is a path alone. -/
theorem isSpelled_piece {piece : List Char} (hne : piece ≠ []) (hslash : '/' ∉ piece) :
    IsSpelled (String.ofList piece) := by
  refine .inr ⟨fun h => hne (String.ofList_eq_empty_iff.1 h), ?_, ?_⟩
  · rw [String.toList_ofList]
    exact fun h => hslash (List.mem_of_getLast? h)
  · have hsplit : splitChar '/' piece = [piece] :=
      splitChar_joinChar '/' piece [] (List.forall_mem_singleton.2 hslash)
    rw [AllCount, String.toList_ofList, hsplit]
    exact fun _ h => absurd h List.not_mem_nil

/-- **A piece that counts can be joined.** -/
theorem IsSpelled.join {path : String} (h : IsSpelled path) {name : String}
    (hcounts : counts name.toList = true) (hslash : '/' ∉ name.toList) :
    IsSpelled (Path.join path name) := by
  have hpiece : splitChar '/' name.toList = [name.toList] :=
    splitChar_joinChar '/' name.toList [] (List.forall_mem_singleton.2 hslash)
  have hname : name.toList ≠ [] := (counts_iff.1 hcounts).1
  have hlist := toList_join_of_notMem hslash path
  refine .inr ⟨fun hempty => ?_, ?_, ?_⟩
  · rw [hempty] at hlist
    exact hname (List.append_eq_nil_iff.1 hlist.symm).2
  · rw [hlist, List.getLast?_append_of_ne_nil _ hname]
    exact fun hlast => hslash (List.mem_of_getLast? hlast)
  · rw [AllCount, hlist]
    -- behind the root no separator is added, behind any other path one
    rcases h with rfl | ⟨hne, hlast, hall⟩
    · have hsplit : splitChar '/' (before "/" ++ name.toList) = [[], name.toList] := by
        show splitChar '/' ([] ++ '/' :: name.toList) = _
        rw [splitChar_append, hpiece]
        rfl
      rw [hsplit]
      exact List.forall_mem_singleton.2 hcounts
    · have hbefore : before path ++ name.toList = path.toList ++ '/' :: name.toList := by
        rw [before, if_neg (mt String.isEmpty_iff.1 hne), if_neg (by simpa using hlast),
          List.append_assoc]
        rfl
      rw [hbefore, splitChar_append, hpiece,
        List.tail_append_of_ne_nil (splitChar_ne_nil '/' path.toList)]
      exact List.forall_mem_append.2 ⟨hall, List.forall_mem_singleton.2 hcounts⟩

theorem IsSpelled.foldl_join {names : List String} (hnames : ∀ n ∈ names, IsName n) :
    ∀ {path : String}, IsSpelled path → IsSpelled (names.foldl Path.join path) := by
  induction names with
  | nil => exact fun h => h
  | cons name names ih =>
    intro path h
    obtain ⟨hname, hrest⟩ := List.forall_mem_cons.1 hnames
    exact ih hrest (h.join (counts_iff.2 ⟨hname.nonempty, hname.notHere⟩) hname.noSlash)

/-- Segments of pieces that count are spelled so. -/
theorem isSpelled_spell {first : List Char} {rest : List (List Char)} (hfirst : '/' ∉ first)
    (hrest : ∀ piece ∈ rest, counts piece = true ∧ '/' ∉ piece) :
    IsSpelled (spell ((first :: rest).map Segment.ofCounted)) := by
  -- the first piece may be empty, and spells the root then
  have hstart : IsSpelled (spell [Segment.ofCounted first]) := by
    by_cases hnil : first = []
    · subst hnil
      exact .inl rfl
    · have hspell : spell [Segment.ofCounted first] = String.ofList first := by
        rw [Segment.ofCounted, if_neg hnil]
        split_ifs with hhere hup
        · subst hhere; rfl
        · subst hup; rfl
        · show Path.join "" (String.ofList first) = _
          exact if_pos (by simp)
      rw [hspell]
      exact isSpelled_piece hnil hfirst
  -- every piece behind it counts, and is joined by its own text
  have hall : ∀ (pieces : List (List Char)) (segments : List Segment), IsSpelled (spell segments) →
      (∀ piece ∈ pieces, counts piece = true ∧ '/' ∉ piece) →
        IsSpelled (spell (segments ++ pieces.map Segment.ofCounted)) := by
    intro pieces
    induction pieces with
    | nil => exact fun segments h _ => (List.append_nil segments).symm ▸ h
    | cons piece pieces ih =>
      intro segments h hpieces
      obtain ⟨⟨hcounts, hslash⟩, hpieces⟩ := List.forall_mem_cons.1 hpieces
      obtain ⟨hnil, hdot⟩ := counts_iff.1 hcounts
      have hjoin : spell (segments ++ [Segment.ofCounted piece])
          = Path.join (spell segments) (String.ofList piece) := by
        rw [spell, List.foldl_append, Segment.ofCounted, if_neg hnil, if_neg hdot]
        split_ifs with hup
        · subst hup; rfl
        · rfl
      rw [List.map_cons, ← List.singleton_append, ← List.append_assoc]
      refine ih _ ?_ hpieces
      rw [hjoin]
      exact h.join (String.toList_ofList.symm ▸ hcounts) (String.toList_ofList.symm ▸ hslash)
  exact hall rest [Segment.ofCounted first] hstart hrest

end Path

/-! ## How a walk spells its paths -/

/-- The segments in front of the first mark are made from pieces that count as well. -/
theorem literalSegments_eq_map {pattern : String} (hne : pattern ≠ "") :
    literalSegments pattern
      = ((Path.countedPieces pattern).takeWhile fun piece => isLiteral (Segment.ofCounted piece)).map
          Segment.ofCounted := by
  rw [literalSegments, Path.segments_eq_map hne, List.takeWhile_map]
  rfl

/-- A walk starts at a path that names can be joined to. -/
theorem isSpelled_start {pattern : String} (h : literalSegments pattern ≠ []) :
    Path.IsSpelled (spell (literalSegments pattern)) := by
  have hne : pattern ≠ "" := by
    rintro rfl
    exact h rfl
  obtain ⟨first, rest, hpieces⟩ := List.exists_cons_of_ne_nil (splitChar_ne_nil '/' pattern.toList)
  have hcounted : Path.countedPieces pattern = first :: rest.filter Path.counts := by
    rw [Path.countedPieces, hpieces]
    rfl
  have hslash : ∀ piece ∈ first :: rest, '/' ∉ piece :=
    fun piece hpiece => notMem_of_mem_splitChar (hpieces ▸ hpiece)
  have hliteral := literalSegments_eq_map hne
  rw [hcounted, List.takeWhile_cons] at hliteral
  -- the first piece is marked, or the walk starts where it and those behind it lead
  split at hliteral
  · rw [hliteral]
    refine Path.isSpelled_spell (hslash first List.mem_cons_self) fun piece hpiece => ?_
    obtain ⟨hmem, hcounts⟩ := List.mem_filter.1 ((List.takeWhile_sublist _).subset hpiece)
    exact ⟨hcounts, hslash piece (List.mem_cons_of_mem first hmem)⟩
  · exact absurd hliteral h

/-- **What a pattern may stand for has only pieces that count**, from the first one on if no segment of
    the pattern is in front of its marks. -/
theorem allCount_of_mem_candidates {files : Files} (sound : files.Sound) {pattern path : String}
    (h : path ∈ candidates files pattern) :
    Path.AllCount path ∧ (literalSegments pattern = [] →
      ∀ piece ∈ splitChar '/' path.toList, Path.counts piece = true) := by
  have hfile := isFile_of_mem_candidates sound h
  by_cases hnil : literalSegments pattern = []
  · have hcount : ∀ piece ∈ splitChar '/' path.toList, Path.counts piece = true := by
      rw [candidates, hnil] at h
      -- nothing in front: the walk starts at the dot, which its paths lose
      obtain ⟨r, hr, rfl⟩ := List.mem_map.1 h
      obtain ⟨names, hnames, rfl⟩ := Files.names_of_mem_walk sound hr
      cases names with
      | nil =>
        -- of the dot alone nothing is left, and that is no file
        have hempty : (Path.below? "." ".").getD "." = "" := by decide +kernel
        rw [List.foldl_nil, hempty, Files.isFile_of_error rfl] at hfile
        cases hfile
      | cons name names =>
        have hdotted : (name :: names).foldl Path.join "." = spelled true (name :: names) :=
          @foldl_join_eq_spelled true _ hnames
        rw [hdotted, below?_spelled hnames (List.cons_ne_nil _ _),
          splitChar_spelled hnames (.inr (List.cons_ne_nil _ _))]
        intro piece hpiece
        obtain ⟨n, hn, rfl⟩ := List.mem_map.1 hpiece
        exact Path.counts_iff.2 ⟨(hnames n hn).nonempty, (hnames n hn).notHere⟩
    exact ⟨fun piece hpiece => hcount piece (List.mem_of_mem_tail hpiece), fun _ => hcount⟩
  · refine ⟨?_, fun hempty => absurd hempty hnil⟩
    have hstart := isSpelled_start hnil
    have hnonempty : ¬ (spell (literalSegments pattern)).isEmpty = true := by
      rw [String.isEmpty_iff]
      rcases hstart with hroot | ⟨hne, _⟩
      · rw [hroot]
        decide
      · exact hne
    rw [candidates, if_neg hnonempty] at h
    obtain ⟨names, hnames, rfl⟩ := Files.names_of_mem_walk sound h
    rcases Path.IsSpelled.foldl_join hnames hstart with hroot | ⟨_, _, hall⟩
    · rw [hroot, Files.isFile_of_endsOpen rfl] at hfile
      cases hfile
    · exact hall

end TestBench
