import Mathlib
import TestBench.Proofs.EndingPattern
import TestBench.Proofs.PatternFilter
/-
  A directory stands for the files that end like suite files.

  1. A directory is listed, and its files are asked for their extension.  A pattern is walked, from the
     directory in front of its first mark, and asked what it accepts.
  2. A path that is joined from a directory and a name leads where the name leads from the directory
     (`locate_join`); so a walk one level down meets the entries whose joined paths lead to files, links
     to files among them (`walk_one`).
  3. A name has the extension iff it is something with the ending behind it (`extensionOf?_eq_some_iff`),
     and the pattern accepts it iff it is anything with the ending behind it (`accepts_ending`).  These
     differ for one name, the ending itself.
  4. Sorted paths with different segments are known from which they are (`filter_sortPaths`), so both
     ways give the same list as soon as they keep the same files.

  This is about directories that may be listed and entered, as all in a tree may.  One that may not is
  refused by its name, while a walk passes over it and finds nothing.
-/
namespace TestBench

open TestBench.Text

/-! ## Joined paths -/

namespace Path

/-- A path that is spelled as its segments are: no separator twice or at the end, and no dot inside. -/
def IsPlain (path : String) : Prop := spell (segments path) = path

instance (path : String) : Decidable (IsPlain path) :=
  inferInstanceAs (Decidable (spell (segments path) = path))

/-- What stands in front of a separator that a directory has at its end, or gets there. -/
theorem exists_before (directory : String) (hne : directory ≠ "") : ∃ front,
    before directory = front ++ ['/']
      ∧ (directory.toList = front ∨ directory.toList = front ++ ['/']) := by
  rw [before, if_neg (mt String.isEmpty_iff.1 hne)]
  split
  · rename_i hlast
    obtain ⟨front, hfront⟩ := List.getLast?_eq_some_iff.1 (beq_iff_eq.1 hlast)
    exact ⟨front, hfront, .inr hfront⟩
  · exact ⟨directory.toList, rfl, .inl rfl⟩

theorem isAbsolute_eq (path : String) : isAbsolute path = (path.toList.head? == some '/') := rfl

/-- The segments of a path are those of its first piece, or the root, and those of the other pieces. -/
theorem segments_of_pieces {path : String} {piece : List Char} {pieces : List (List Char)}
    (h : splitChar '/' path.toList = piece :: pieces) : segments path
      = (if path.toList.head? == some '/' then some .root else Segment.ofPiece? true piece).toList
        ++ pieces.filterMap (Segment.ofPiece? false) := by
  rw [segments, h]
  rfl

/-- The segments in front of a separator do not depend on what stands behind it. -/
theorem segments_of_toList_eq {path : String} {front rest : List Char}
    (h : path.toList = front ++ '/' :: rest) : segments path
      = segments (String.ofList (front ++ ['/']))
        ++ (splitChar '/' rest).filterMap (Segment.ofPiece? false) := by
  obtain ⟨piece, pieces, hpieces⟩ := List.exists_cons_of_ne_nil (splitChar_ne_nil '/' front)
  have hpath : splitChar '/' path.toList = piece :: (pieces ++ splitChar '/' rest) := by
    rw [h, splitChar_append, hpieces, List.cons_append]
  have hfront : splitChar '/' (String.ofList (front ++ ['/'])).toList = piece :: (pieces ++ [[]]) := by
    rw [String.toList_ofList, splitChar_append, hpieces]
    rfl
  -- whether the path is absolute is told by the front, which holds a character at least or ends at the
  -- separator
  have hhead : (front ++ '/' :: rest).head? = (front ++ ['/']).head? := by cases front <;> rfl
  rw [segments_of_pieces hpath, segments_of_pieces hfront, String.toList_ofList, h, hhead,
    List.filterMap_append, List.filterMap_append, List.append_assoc, List.append_assoc]
  rfl

/-- A separator at the end makes no segment. -/
theorem segments_of_front {path : String} {front : List Char} (hne : path ≠ "")
    (h : path.toList = front ∨ path.toList = front ++ ['/']) :
    segments path = segments (String.ofList (front ++ ['/'])) := by
  -- the separator is added here, or was there before
  rcases h with rfl | h
  · obtain ⟨piece, pieces, hpieces⟩ := List.exists_cons_of_ne_nil (splitChar_ne_nil '/' path.toList)
    have hfront : splitChar '/' (String.ofList (path.toList ++ ['/'])).toList
        = piece :: (pieces ++ [[]]) := by
      rw [String.toList_ofList, splitChar_append, hpieces]
      rfl
    have hhead : (path.toList ++ ['/']).head? = path.toList.head? := by
      cases hlist : path.toList with
      | nil => exact absurd (String.toList_eq_nil_iff.1 hlist) hne
      | cons c cs => rfl
    rw [segments_of_pieces hpieces, segments_of_pieces hfront, String.toList_ofList, hhead,
      List.filterMap_append]
    exact congrArg _ (List.append_nil _).symm
  · rw [← h, String.ofList_toList]

/-- A joined path is not empty. -/
theorem join_ne_empty {name : String} (hname : IsName name) (directory : String) :
    join directory name ≠ "" := by
  intro hempty
  have hlist := toList_join hname directory
  rw [hempty] at hlist
  exact hname.nonempty (List.append_eq_nil_iff.1 hlist.symm).2

section Join

variable {directory name : String} (hne : directory ≠ "") (hname : IsName name)
include hne hname

/-- Joining a name leaves a path absolute or relative. -/
theorem isAbsolute_join : isAbsolute (join directory name) = isAbsolute directory := by
  obtain ⟨front, hbefore, hfront⟩ := exists_before directory hne
  rw [isAbsolute_eq, isAbsolute_eq, toList_join hname, hbefore]
  rcases hfront with hfront | hfront
  · cases front with
    | nil => exact absurd (String.toList_eq_nil_iff.1 hfront) hne
    | cons c front => rw [hfront]; rfl
  · rw [hfront]
    cases front <;> rfl

/-- A name that is joined is one segment more. -/
theorem segments_join : segments (join directory name) = segments directory ++ [.name name] := by
  obtain ⟨front, hbefore, hfront⟩ := exists_before directory hne
  have hlist : (join directory name).toList = front ++ '/' :: name.toList := by
    rw [toList_join hname, hbefore, List.append_assoc]
    rfl
  have hpiece : splitChar '/' name.toList = [name.toList] :=
    splitChar_joinChar '/' name.toList [] (List.forall_mem_singleton.2 hname.noSlash)
  rw [segments_of_toList_eq hlist, segments_of_front hne hfront, hpiece, List.filterMap_cons,
    ofPiece?_name hname false]
  rfl

/-- The name joined is the file name. -/
theorem fileName?_join : fileName? (join directory name) = some name := by
  rw [fileName?, segments_join hne hname, List.getLast?_concat]

/-- So its extension is the extension of the path. -/
theorem extension?_join : extension? (join directory name) = extensionOf? name := by
  rw [extension?, fileName?_join hne hname]
  rfl

end Join

/-- Joined names are told apart by the segments. -/
theorem name_eq_of_segments_join {directory name name' : String} (hne : directory ≠ "")
    (hname : IsName name) (hname' : IsName name')
    (h : segments (join directory name) = segments (join directory name')) : name = name' := by
  rw [segments_join hne hname, segments_join hne hname'] at h
  exact Segment.name.inj (List.singleton_inj.1 (List.append_cancel_left h))

/-- A path without marks has no segment with one. -/
theorem isLiteral_of_mem_segments {path : String} (h : ∀ c ∈ path.toList, isGlobMark c = false) :
    ∀ s ∈ segments path, isLiteral s = true := by
  -- a segment is a piece of the path, and holds no other characters
  have hpiece (first : Bool) (piece : List Char) (hmem : piece ∈ splitChar '/' path.toList)
      (s : Segment) (hs : Segment.ofPiece? first piece = some s) : isLiteral s = true := by
    rw [Segment.ofPiece?] at hs
    split_ifs at hs
    · cases hs; rfl
    · cases hs; rfl
    · cases hs
      rw [isLiteral, Bool.not_eq_true', hasGlobMark, String.toList_ofList, List.any_eq_false]
      exact fun c hc => Bool.eq_false_iff.1 (h c (mem_of_mem_splitChar hmem hc))
  intro s hs
  rw [segments, List.mem_append, Option.mem_toList] at hs
  rcases hs with hs | hs
  · split at hs
    · cases hs; rfl
    · obtain ⟨piece, hmem, hs⟩ := Option.bind_eq_some_iff.1 hs
      exact hpiece true piece (List.mem_of_head? hmem) s hs
  · obtain ⟨piece, hmem, hs⟩ := List.mem_filterMap.1 hs
    exact hpiece false piece (List.mem_of_mem_tail hmem) s hs

/-! ## Extensions -/

/-- A name has an extension iff it is something with a dot and the extension behind it. -/
theorem extensionOf?_eq_some_iff {name extension : String} (plain : '.' ∉ extension.toList) :
    extensionOf? name = some extension
      ↔ ∃ stem, stem ≠ [] ∧ name.toList = stem ++ '.' :: extension.toList := by
  have hpass : ∀ c ∈ extension.toList.reverse, decide (c ≠ '.') = true := by
    intro c hc
    refine decide_eq_true fun heq => plain ?_
    exact heq ▸ List.mem_reverse.1 hc
  constructor
  · intro h
    rw [extensionOf?] at h
    split at h
    · cases h
    · rename_i hlong
      have hending : name.toList.reverse.takeWhile (· ≠ '.') = extension.toList.reverse := by
        rw [← Option.some_inj.1 h, String.toList_ofList, List.reverse_reverse]
      have hsplit := List.takeWhile_append_dropWhile (p := (· ≠ '.')) (l := name.toList.reverse)
      rw [hending] at hsplit hlong
      cases hrest : name.toList.reverse.dropWhile (· ≠ '.') with
      | nil =>
        -- without a dot the name is no longer than what stands behind its last one
        rw [hrest, List.append_nil] at hsplit
        exact absurd (hsplit ▸ Nat.le_succ _) hlong
      | cons c stem =>
        have hdot : c = '.' := by
          have hhead := List.head?_dropWhile_not (· ≠ '.') name.toList.reverse
          rw [hrest] at hhead
          simpa using hhead
        subst hdot
        rw [hrest] at hsplit
        refine ⟨stem.reverse, ?_, ?_⟩
        · rintro hnil
          rw [List.reverse_eq_nil_iff] at hnil
          rw [← hsplit, hnil, List.length_append] at hlong
          exact hlong le_rfl
        · rw [← List.reverse_reverse name.toList, ← hsplit]
          simp
  · rintro ⟨stem, hstem, hname⟩
    have hreversed : name.toList.reverse = extension.toList.reverse ++ '.' :: stem.reverse := by
      rw [hname]
      simp
    have hending : name.toList.reverse.takeWhile (· ≠ '.') = extension.toList.reverse := by
      rw [hreversed, List.takeWhile_append_of_pos hpass, List.takeWhile_cons_of_neg (by decide),
        List.append_nil]
    have hlong : ¬ name.toList.reverse.length ≤ extension.toList.reverse.length + 1 := by
      have hpos := List.length_pos_iff.2 hstem
      rw [hreversed, List.length_append, List.length_cons, List.length_reverse, List.length_reverse]
      omega
    rw [extensionOf?, hending, if_neg hlong, List.reverse_reverse, String.ofList_toList]

end Path

/-! ## One level down -/

/-- The paths to the entries of a directory. -/
def entryPaths (directory : String) (entries : List (String × FileNode)) : List String :=
  entries.map fun e => Path.join directory e.1

namespace Files

variable {files : Files} {directory : String} {spot : Spot} {entries : List (String × FileNode)}

/-- The empty path leads nowhere. -/
theorem ne_empty_of_locate {path : String} (h : files.locate path = .ok spot) : path ≠ "" := by
  rintro rfl
  cases h

/-- A path leads from the root or the base through its pieces. -/
theorem locate_eq {path : String} (hne : path ≠ "") : files.locate path
    = (pieces path).foldlM (files.enter (files.follow linkLimit))
      (files.spotAt (if Path.isAbsolute path then [] else files.base)) := by
  rw [locate, follow, if_neg (mt String.isEmpty_iff.1 hne)]

/-- Nothing can be entered but a directory, and a directory is not left through an empty piece. -/
theorem eq_of_enter_empty {follow : Place → String → Except FileError Spot} {from' : Spot}
    (h : files.enter follow from' "" = .ok spot) : from' = spot := by
  rw [enter] at h
  split at h
  · cases h
  · rw [if_pos (.inl rfl)] at h
    exact Except.ok.inj h
  · cases h

/-- **A joined name is looked for in the directory.** -/
theorem locate_join (hlocate : files.locate directory = .ok spot) {name : String}
    (hname : IsName name) : files.locate (Path.join directory name)
      = files.enter (files.follow linkLimit) spot name := by
  have hne := ne_empty_of_locate hlocate
  obtain ⟨front, hbefore, hfront⟩ := Path.exists_before directory hne
  have hlist : (Path.join directory name).toList = front ++ '/' :: name.toList := by
    rw [Path.toList_join hname, hbefore, List.append_assoc]
    rfl
  have hsplit : splitChar '/' name.toList = [name.toList] :=
    splitChar_joinChar '/' name.toList [] (List.forall_mem_singleton.2 hname.noSlash)
  have hpieces : pieces (Path.join directory name)
      = (splitChar '/' front).map String.ofList ++ [name] := by
    rw [pieces, hlist, splitChar_append, hsplit, List.map_append, List.map_singleton,
      String.ofList_toList]
  rw [locate_eq hne] at hlocate
  rw [locate_eq (Path.join_ne_empty hname directory), Path.isAbsolute_join hne hname, hpieces,
    List.foldlM_append]
  generalize files.spotAt _ = start at hlocate ⊢
  -- the directory is where the pieces in front lead, whether or not a separator stands behind them
  have hstart : ((splitChar '/' front).map String.ofList).foldlM
      (files.enter (files.follow linkLimit)) start = .ok spot := by
    rcases hfront with hfront | hfront
    · rw [pieces, hfront] at hlocate
      exact hlocate
    · rw [pieces, hfront, splitChar_append, List.map_append, List.foldlM_append] at hlocate
      obtain ⟨from', hfrom, hlast⟩ := ok_of_bind_ok hlocate
      obtain ⟨last, henter, hlast⟩ := ok_of_bind_ok hlast
      rw [hfrom, eq_of_enter_empty henter]
      exact hlast
  rw [hstart]
  show (files.enter (files.follow linkLimit) spot name >>= fun aim => pure aim) = _
  exact bind_pure _

/-- The node of a path is what stands where it leads. -/
theorem node_of_locate {path : String} {aim : Spot} (h : files.locate path = .ok aim) :
    files.node path = aim.node?.elim (.error .missing) .ok := by
  obtain ⟨place, node?⟩ := aim
  rw [node, h]
  cases node? <;> rfl

/-- A path stands for a file iff one is where it leads. -/
theorem isFile_of_locate {path : String} {aim : Spot} (h : files.locate path = .ok aim) :
    files.isFile path = aim.node?.any (·.isFile) := by
  rw [isFile, node_of_locate h]
  cases aim.node? <;> rfl

/-- A path that leads nowhere stands for no file. -/
theorem isFile_of_error {path : String} {e : FileError} (h : files.locate path = .error e) :
    files.isFile path = false := by
  rw [isFile, node, h]
  rfl

/-- A name leads from a directory to its entry of that name; a link is followed on. -/
theorem enter_entry {follow : Place → String → Except FileError Spot}
    (hnode : spot.node? = some (.directory entries)) {name : String} (hname : IsName name) :
    files.enter follow spot name = match Json.lookup name entries with
      | some (.link target) => follow spot.place target
      | node? => .ok ⟨spot.place ++ [name], node?⟩ := by
  -- a name is none of the pieces with a meaning of their own
  have hhere : ¬ (name = "" ∨ name = ".") := by
    rintro (rfl | rfl)
    · exact hname.nonempty rfl
    · exact hname.notHere rfl
  have hup : name ≠ ".." := by
    rintro rfl
    exact hname.notUp rfl
  rw [enter, hnode]
  exact (if_neg hhere).trans (if_neg hup)

/-- A walk that may go no further gives the file that it stands at. -/
theorem walkNode_zero (inside : List Place) (path : String) (aim : Spot) :
    files.walkNode 0 inside path aim = if aim.node?.any (·.isFile) then [path] else [] := by
  rw [walkNode]
  cases aim.node? with
  | none => rfl
  | some node => cases node <;> rfl

/-- One level down, an entry gives its path if that leads to a file. -/
theorem walkEntry_zero (hlocate : files.locate directory = .ok spot)
    (hnode : spot.node? = some (.directory entries)) (distinct : (entries.map Prod.fst).Nodup)
    {e : String × FileNode} (he : e ∈ entries) (hname : IsName e.1) (inside : List Place) :
    files.walkEntry 0 inside directory spot e
      = if files.isFile (Path.join directory e.1) then [Path.join directory e.1] else [] := by
  have hjoin := locate_join hlocate hname
  rw [enter_entry hnode hname, lookup_of_mem distinct he] at hjoin
  obtain ⟨name, node⟩ := e
  cases node with
  | file bytes mode =>
    rw [isFile_of_locate hjoin]
    exact walkNode_zero _ _ _
  | directory nodes =>
    rw [isFile_of_locate hjoin]
    exact walkNode_zero _ _ _
  | link target =>
    dsimp only at hjoin
    rw [walkEntry]
    dsimp only
    cases hfollow : files.follow linkLimit spot.place target with
    | error e =>
      rw [hfollow] at hjoin
      rw [isFile_of_error hjoin]
      rfl
    | ok aim =>
      rw [hfollow] at hjoin
      rw [isFile_of_locate hjoin]
      dsimp only
      split
      · -- what the walk is inside of already is a directory
        rename_i hinside
        have hdirectory := (Bool.and_eq_true_iff.1 hinside).1
        have hnotFile : aim.node?.any (·.isFile) = false := by
          cases haim : aim.node? with
          | none => rfl
          | some node =>
            rw [haim] at hdirectory
            cases node with
            | directory nodes => rfl
            | _ => cases hdirectory
        rw [hnotFile]
        rfl
      · exact walkNode_zero _ _ _

/-- **A walk one level down gives the files of a directory.** -/
theorem walk_one (sound : files.Sound) (hlocate : files.locate directory = .ok spot)
    (hnode : spot.node? = some (.directory entries)) : files.walk (some 1) directory
      = (entryPaths directory entries).filter files.isFile := by
  -- going through the entries and keeping files is filtering
  have hkeep (paths : List String) :
      paths.flatMap (fun path => if files.isFile path then [path] else []) = paths.filter files.isFile := by
    induction paths with
    | nil => rfl
    | cons path rest ih =>
      rw [List.flatMap_cons, List.filter_cons, ih]
      split <;> rfl
  have hsound := follow_sound sound _ _ _ spot hlocate _ hnode
  cases hsound with
  | directory distinct names nodes =>
    rw [walk, hlocate]
    show files.walkNode 1 [] directory spot = _
    rw [walkNode_directory hnode, ← hkeep, entryPaths, List.flatMap_map]
    exact List.flatMap_congr fun e he =>
      walkEntry_zero hlocate hnode distinct he (names e he) []

end Files

/-! ## Sorted paths -/

/-- Leaving out some of sorted paths is the same as sorting the others. -/
theorem filter_sortPaths {paths : List String} (nodup : paths.Nodup)
    (distinct : ∀ p ∈ paths, ∀ q ∈ paths, Path.segments p = Path.segments q → p = q)
    (keep : String → Bool) : (sortPaths paths).filter keep = sortPaths (paths.filter keep) := by
  have hsub : ∀ p ∈ paths.filter keep, p ∈ paths := fun p hp => List.mem_of_mem_filter hp
  have hperm : ((sortPaths paths).filter keep).Perm (sortPaths (paths.filter keep)) :=
    ((List.mergeSort_perm paths _).filter keep).trans (List.mergeSort_perm _ _).symm
  have hstrict := sortPaths_strict (nodup.filter keep) fun p hp q hq =>
    distinct p (hsub p hp) q (hsub q hq)
  refine hperm.eq_of_pairwise ?_ ((sortPaths_strict nodup distinct).filter keep) hstrict
  rintro p q _ _ ⟨hle, _⟩ ⟨_, hnot⟩
  rw [hle] at hnot
  cases hnot

/-! ## Suite files -/

/-- The pattern that a directory stands for. -/
def suitePattern (directory : String) : String := Path.join directory "*.yml"

/-- A file directly inside a directory, or a link to one, whose name is something with the ending of suite
    files behind it. -/
def Files.IsSuiteFile (files : Files) (directory path : String) : Prop :=
  ∃ stem : String, stem ≠ "" ∧ '/' ∉ stem.toList ∧ path = Path.join directory (stem ++ ".yml")
    ∧ files.isFile path = true

section Pattern

variable {directory name : String}

theorem isName_star : IsName "*.yml" := ⟨by decide, by decide, by decide, by decide⟩

theorem isName_ending : IsName ".yml" := ⟨by decide, by decide, by decide, by decide⟩

theorem toList_ending : ".yml".toList = ['.', 'y', 'm', 'l'] := rfl

theorem isAscii_ending : ∀ c ∈ ".yml".toList, c.toNat < 128 := by simp [toList_ending]

theorem isPlain_ending : ∀ c ∈ ".yml".toList, Glob.IsPlain c := by
  simp [toList_ending, Glob.IsPlain, Glob.IsLiteral]

/-- The pattern is the directory, a star and the ending. -/
theorem toList_suitePattern (directory : String) :
    (suitePattern directory).toList = Path.before directory ++ '*' :: ".yml".toList :=
  Path.toList_join isName_star directory

/-- A name that is something with the ending behind it. -/
theorem isName_of_stem {stem : String} (hslash : '/' ∉ stem.toList) : IsName (stem ++ ".yml") := by
  have hlast (s : List Char) (hs : (stem ++ ".yml").toList = s) : s.getLast? = some 'l' := by
    rw [← hs, String.toList_append]
    exact List.getLast?_append_of_ne_nil _ (by decide)
  refine ⟨?_, ?_, ?_, ?_⟩
  · intro h
    cases hlast _ h
  · rw [String.toList_append, List.mem_append, not_or]
    exact ⟨hslash, by decide⟩
  · intro h
    exact absurd (hlast _ h) (by decide)
  · intro h
    exact absurd (hlast _ h) (by decide)

/-- A suite file has a stem in front of the ending: the bare ending is no extension. -/
theorem extension?_join_iff (hne : directory ≠ "") (hname : IsName name) :
    (Path.extension? (Path.join directory name) == some suiteExtension) = true
      ↔ ∃ stem, stem ≠ [] ∧ name.toList = stem ++ ".yml".toList := by
  have hending : ".yml".toList = '.' :: suiteExtension.toList := rfl
  rw [beq_iff_eq, Path.extension?_join hne hname, hending]
  exact Path.extensionOf?_eq_some_iff (by decide)

/-- The pattern accepts a name with the ending, with a stem or without. -/
theorem accepts_join_iff (hname : IsName name) :
    Glob.accepts ⟨Glob.endingParts (Path.before directory) ".yml".toList⟩ (Path.join directory name) = true
      ↔ ∃ stem, name.toList = stem ++ ".yml".toList := by
  rw [Glob.accepts_ending isAscii_ending, Path.toList_join hname]
  constructor
  · rintro ⟨stem, _, h⟩
    exact ⟨stem, List.append_cancel_left h⟩
  · rintro ⟨stem, h⟩
    refine ⟨stem, fun hslash => hname.noSlash ?_, by rw [h]⟩
    rw [h]
    exact List.mem_append_left _ hslash

variable (unmarked : ∀ c ∈ directory.toList, Glob.IsPlain c) (hne : directory ≠ "")
include unmarked hne

/-- The separator is as plain as the directory. -/
theorem isPlain_before : ∀ c ∈ Path.before directory, Glob.IsPlain c := by
  obtain ⟨front, hbefore, hfront⟩ := Path.exists_before directory hne
  have hslash : Glob.IsPlain '/' := by simp [Glob.IsPlain, Glob.IsLiteral]
  rw [hbefore]
  refine List.forall_mem_append.2 ⟨fun c hc => unmarked c ?_, List.forall_mem_singleton.2 hslash⟩
  rcases hfront with hfront | hfront
  · exact hfront ▸ hc
  · exact hfront ▸ List.mem_append_left _ hc

/-- The pattern compiles. -/
theorem ofText_suitePattern : Glob.ofText (suitePattern directory)
    = .ok ⟨Glob.endingParts (Path.before directory) ".yml".toList⟩ :=
  Glob.ofText_ending (isPlain_before unmarked hne) isPlain_ending (toList_suitePattern directory)

/-- Its walk starts at the directory. -/
theorem literalSegments_suitePattern :
    literalSegments (suitePattern directory) = Path.segments directory := by
  have hliteral : ∀ s ∈ Path.segments directory, isLiteral s = true := by
    refine Path.isLiteral_of_mem_segments fun c hc => ?_
    obtain ⟨⟨hstar, hany, hclass, hbraces, _⟩, _⟩ := unmarked c hc
    simp [isGlobMark, hstar, hany, hclass, hbraces]
  rw [literalSegments, suitePattern, Path.segments_join hne isName_star,
    List.takeWhile_append_of_pos hliteral, List.takeWhile_cons_of_neg (by decide), List.append_nil]

/-- The walk of the pattern goes one level down. -/
theorem walkDepth?_suitePattern : walkDepth? (suitePattern directory) = some 1 := by
  have hstars : occursIn ['*', '*'] (suitePattern directory).toList = false := by
    rw [Bool.eq_false_iff, Ne, occursIn_iff, toList_suitePattern]
    intro hpart
    have hcount := hpart.sublist.count_le '*'
    have hnone : (Path.before directory).count '*' = 0 :=
      List.count_eq_zero.2 fun hmem => (isPlain_before unmarked hne _ hmem).1.1 rfl
    rw [List.count_append, hnone] at hcount
    exact absurd hcount (by decide)
  rw [walkDepth?, hstars, literalSegments_suitePattern unmarked hne, suitePattern,
    Path.segments_join hne isName_star, List.length_append, Nat.add_sub_cancel_left]
  rfl

end Pattern

/-! ## The two ways -/

section Listed

variable {files : Files} {directory : String} {spot : Spot} {entries : List (String × FileNode)}

/-- A directory is somewhere, and has entries. -/
theorem exists_spot_of_isDirectory (h : files.isDirectory directory = true) :
    ∃ spot entries, files.locate directory = .ok spot ∧ spot.node? = some (.directory entries) := by
  rw [Files.isDirectory] at h
  cases hlocate : files.locate directory with
  | error e =>
    rw [Files.node, hlocate] at h
    cases h
  | ok spot =>
    rw [Files.node_of_locate hlocate] at h
    cases hnode : spot.node? with
    | none =>
      rw [hnode] at h
      cases h
    | some node =>
      rw [hnode] at h
      cases node with
      | directory entries => exact ⟨spot, entries, rfl, hnode⟩
      | _ => cases h

variable (hlocate : files.locate directory = .ok spot)
  (hnode : spot.node? = some (.directory entries))
include hlocate hnode

/-- Discovery of a directory lists the entries that are files with the extension. -/
theorem discover_directory : discover files directory
    = .ok (sortPaths ((entryPaths directory entries).filter fun path =>
        files.isFile path && Path.extension? path == some suiteExtension)) := by
  have hfound : files.node directory = .ok (.directory entries) := by
    rw [Files.node_of_locate hlocate, hnode]
    rfl
  have hdirectory : files.isDirectory directory = true := by
    rw [Files.isDirectory, hfound]
    rfl
  have hlist : files.list directory = .ok entries := by
    rw [Files.list, hfound]
    rfl
  rw [discover, if_pos hdirectory, filesIn, hlist]
  rfl

/-- Discovery of the pattern keeps the entries that it accepts and that are files. -/
theorem discover_suitePattern (sound : files.Sound) (plain : Path.IsPlain directory)
    (unmarked : ∀ c ∈ directory.toList, Glob.IsPlain c)
    (free : files.isDirectory (suitePattern directory) = false) :
    discover files (suitePattern directory)
      = .ok (sortPaths ((entryPaths directory entries).filter fun path =>
          Glob.accepts ⟨Glob.endingParts (Path.before directory) ".yml".toList⟩ path
            && files.isFile path)) := by
  have hne := Files.ne_empty_of_locate hlocate
  have hmark : hasGlobMark (suitePattern directory) = true := by
    refine List.any_eq_true.2 ⟨'*', ?_, rfl⟩
    rw [toList_suitePattern]
    exact List.mem_append_right _ List.mem_cons_self
  -- the walk goes one level down from the directory
  have hcandidates : candidates files (suitePattern directory)
      = (entryPaths directory entries).filter files.isFile := by
    rw [candidates, literalSegments_suitePattern unmarked hne, plain]
    rw [if_neg (mt String.isEmpty_iff.1 hne), walkDepth?_suitePattern unmarked hne,
      Files.walk_one sound hlocate hnode]
  rw [discover, if_neg (Bool.eq_false_iff.1 free), expandPattern, ofText_suitePattern unmarked hne]
  dsimp only
  rw [if_pos hmark, hcandidates, List.filter_filter]

/-- A name directly inside a directory leads to a file only if there is an entry of that name. -/
theorem exists_entry_of_isFile {name : String} (hname : IsName name)
    (h : files.isFile (Path.join directory name) = true) : ∃ e ∈ entries, e.1 = name := by
  cases hlookup : Json.lookup name entries with
  | some node => exact ⟨_, mem_of_lookup hlookup, rfl⟩
  | none =>
    have hjoin := Files.locate_join hlocate hname
    rw [Files.enter_entry hnode hname, hlookup] at hjoin
    rw [Files.isFile_of_locate hjoin] at h
    cases h

end Listed

section Entries

variable {directory : String} {entries : List (String × FileNode)} (hne : directory ≠ "")
  (hnames : ∀ e ∈ entries, IsName e.1)
include hne hnames

/-- Different entries are at different places in the order. -/
theorem entryPaths_distinct : ∀ p ∈ entryPaths directory entries, ∀ q ∈ entryPaths directory entries,
    Path.segments p = Path.segments q → p = q := by
  intro p hp q hq hsame
  obtain ⟨e, he, rfl⟩ := List.mem_map.1 hp
  obtain ⟨e', he', rfl⟩ := List.mem_map.1 hq
  rw [Path.name_eq_of_segments_join hne (hnames e he) (hnames e' he') hsame]

/-- No entry has two paths. -/
theorem entryPaths_nodup (distinct : (entries.map Prod.fst).Nodup) :
    (entryPaths directory entries).Nodup := by
  refine distinct.of_map.map_on fun e he e' he' hsame => ?_
  refine List.inj_on_of_nodup_map distinct he he' ?_
  exact Path.name_eq_of_segments_join hne (hnames e he) (hnames e' he') (congrArg _ hsame)

/-- Apart from the bare ending, what has the extension is what the pattern accepts. -/
theorem extension_eq_accepts {path : String} (hpath : path ∈ entryPaths directory entries)
    (other : path ≠ Path.join directory ".yml") :
    (Path.extension? path == some suiteExtension)
      = Glob.accepts ⟨Glob.endingParts (Path.before directory) ".yml".toList⟩ path := by
  obtain ⟨e, he, rfl⟩ := List.mem_map.1 hpath
  rw [Bool.eq_iff_iff, extension?_join_iff hne (hnames e he), accepts_join_iff (hnames e he)]
  refine exists_congr fun stem => and_iff_right_of_imp ?_
  rintro hending rfl
  exact other (congrArg (Path.join directory) (String.toList_inj.1 hending))

end Entries

/-- What is listed, apart from the bare ending, are the suite files. -/
theorem mem_listed_iff {files : Files} {directory path : String} {spot : Spot}
    {entries : List (String × FileNode)} (hlocate : files.locate directory = .ok spot)
    (hnode : spot.node? = some (.directory entries)) (hne : directory ≠ "")
    (hnames : ∀ e ∈ entries, IsName e.1) :
    (path ∈ (entryPaths directory entries).filter fun path =>
        files.isFile path && Path.extension? path == some suiteExtension)
      ∧ path ≠ Path.join directory ".yml" ↔ files.IsSuiteFile directory path := by
  rw [List.mem_filter, Bool.and_eq_true]
  constructor
  · -- a listed path has a stem in front of the ending
    rintro ⟨⟨hpath, hfile, hextension⟩, _⟩
    obtain ⟨e, he, rfl⟩ := List.mem_map.1 hpath
    obtain ⟨stem, hstem, hname⟩ := (extension?_join_iff hne (hnames e he)).1 hextension
    have htext : (String.ofList stem).toList = stem := String.toList_ofList
    have hentry : e.1 = String.ofList stem ++ ".yml" :=
      String.toList_inj.1 (by rw [hname, String.toList_append, htext])
    refine ⟨String.ofList stem, fun hempty => hstem ?_, fun hslash => ?_, by rw [hentry], hfile⟩
    · rw [← htext, hempty]
      rfl
    · refine (hnames e he).noSlash ?_
      rw [hname]
      exact List.mem_append_left _ (htext ▸ hslash)
  · -- a suite file is an entry, and its name is longer than the ending
    rintro ⟨stem, hstem, hslash, rfl, hfile⟩
    have hname := isName_of_stem hslash
    have hchars : stem.toList ≠ [] := mt String.toList_eq_nil_iff.1 hstem
    obtain ⟨e, he, heq⟩ := exists_entry_of_isFile hlocate hnode hname hfile
    refine ⟨⟨List.mem_map.2 ⟨e, he, by rw [heq]⟩, hfile, ?_⟩, fun hsame => hchars ?_⟩
    · exact (extension?_join_iff hne hname).2 ⟨stem.toList, hchars, String.toList_append⟩
    · have hbare := Path.name_eq_of_segments_join hne hname isName_ending (congrArg _ hsame)
      exact List.append_left_eq_self.1 (String.toList_append.symm.trans (congrArg String.toList hbare))

/-- **A directory is listed as its pattern is expanded.**  Take an existing directory whose path is plainly
    spelled, without characters that mean something in patterns, and in which no directory has the name
    `*.yml`.  Leaving out a file that is named like the bare ending, the directory and the pattern stand for
    the same files in the same order: those directly inside whose name is something with the ending
    behind it, in strict order.  As everywhere, the directories of a tree may be listed and entered. -/
theorem directory_listed_as_pattern {files : Files} (sound : files.Sound) {directory : String}
    (isDirectory : files.isDirectory directory = true) (plain : Path.IsPlain directory)
    (unmarked : ∀ c ∈ directory.toList, Glob.IsPlain c)
    (free : files.isDirectory (suitePattern directory) = false) :
    ∃ listed matched, discover files directory = .ok listed
      ∧ discover files (suitePattern directory) = .ok matched
      ∧ listed.filter (· ≠ Path.join directory ".yml")
          = matched.filter (· ≠ Path.join directory ".yml")
      ∧ (∀ path, path ∈ listed.filter (· ≠ Path.join directory ".yml")
          ↔ files.IsSuiteFile directory path)
      ∧ (listed.Pairwise fun p q => Path.le p q = true ∧ Path.le q p = false)
      ∧ matched.Pairwise fun p q => Path.le p q = true ∧ Path.le q p = false := by
  obtain ⟨spot, entries, hlocate, hnode⟩ := exists_spot_of_isDirectory isDirectory
  have hne := Files.ne_empty_of_locate hlocate
  obtain ⟨distinct, hnames⟩ : (entries.map Prod.fst).Nodup ∧ ∀ e ∈ entries, IsName e.1 := by
    cases follow_sound sound _ _ _ spot hlocate _ hnode with
    | directory distinct names nodes => exact ⟨distinct, names⟩
  have hdistinct (keep : String → Bool) : ∀ p ∈ (entryPaths directory entries).filter keep,
      ∀ q ∈ (entryPaths directory entries).filter keep, Path.segments p = Path.segments q → p = q :=
    fun p hp q hq => entryPaths_distinct hne hnames p (List.mem_of_mem_filter hp) q
      (List.mem_of_mem_filter hq)
  have hnodup (keep : String → Bool) : ((entryPaths directory entries).filter keep).Nodup :=
    (entryPaths_nodup hne hnames distinct).filter keep
  refine ⟨_, _, discover_directory hlocate hnode,
    discover_suitePattern hlocate hnode sound plain unmarked free, ?_, fun path => ?_,
    sortPaths_strict (hnodup _) (hdistinct _), sortPaths_strict (hnodup _) (hdistinct _)⟩
  · rw [filter_sortPaths (hnodup _) (hdistinct _), filter_sortPaths (hnodup _) (hdistinct _),
      List.filter_filter, List.filter_filter]
    congr 1
    -- sorted alike, the lists are the same as soon as they keep the same paths
    refine List.filter_congr fun path hpath => ?_
    by_cases other : path = Path.join directory ".yml"
    · rw [decide_eq_false (not_not.2 other), Bool.false_and, Bool.false_and]
    · rw [extension_eq_accepts hne hnames hpath other, Bool.and_comm (files.isFile path)]
  · rw [List.mem_filter, decide_eq_true_eq, sortPaths, (List.mergeSort_perm _ _).mem_iff]
    exact mem_listed_iff hlocate hnode hne hnames

/-- Of a suite file, another file and a directory, both stand for the first. -/
theorem directory_listed_as_pattern_nightly :
    let file : FileNode := .file [] FileNode.standardMode
    let files : Files := ⟨.directory [("nightly", .directory
      [("a.yml", file), ("b.txt", file), ("c.yml", .directory [("d.yml", file)])])], []⟩
    files.Sound ∧ files.isDirectory "nightly" = true ∧ Path.IsPlain "nightly"
      ∧ (∀ c ∈ "nightly".toList, Glob.IsPlain c)
      ∧ files.isDirectory (suitePattern "nightly") = false
      ∧ discover files "nightly" = .ok ["nightly/a.yml"]
      ∧ discover files (suitePattern "nightly") = .ok ["nightly/a.yml"]
      ∧ ∀ path, path ∈ ["nightly/a.yml"] ↔ files.IsSuiteFile "nightly" path := by
  intro file files
  have sound : files.Sound := by
    have hname (name : String) (h : name ∈ ["nightly", "a.yml", "b.txt", "c.yml", "d.yml"]) :
        IsName name := by
      refine ⟨?_, ?_, ?_, ?_⟩ <;> revert name <;> decide
    have inner : FileNode.Sound (.directory [("d.yml", file)]) := by
      refine .directory (by decide) ?_ ?_
      · exact List.forall_mem_singleton.2 (hname _ (by decide))
      · exact List.forall_mem_singleton.2 (.file _ _)
    have nightly : FileNode.Sound (.directory
        [("a.yml", file), ("b.txt", file), ("c.yml", .directory [("d.yml", file)])]) := by
      refine .directory (by decide) ?_ ?_
      · refine fun e he => hname _ ?_
        have hnames := List.mem_map_of_mem (f := Prod.fst) he
        exact List.mem_cons_of_mem _ (List.mem_append_left ["d.yml"] hnames)
      · exact List.forall_mem_cons.2 ⟨.file _ _, List.forall_mem_cons.2
          ⟨.file _ _, List.forall_mem_singleton.2 inner⟩⟩
    refine .directory (by decide) ?_ ?_
    · exact List.forall_mem_singleton.2 (hname _ (by decide))
    · exact List.forall_mem_singleton.2 nightly
  have hdirectory : files.isDirectory "nightly" = true := by decide +kernel
  have plain : Path.IsPlain "nightly" := by decide +kernel
  have unmarked : ∀ c ∈ "nightly".toList, Glob.IsPlain c := by
    simp [Glob.IsPlain, Glob.IsLiteral]
  have free : files.isDirectory (suitePattern "nightly") = false := by decide +kernel
  have hfound : discover files "nightly" = .ok ["nightly/a.yml"] := by decide +kernel
  have hmatched : discover files (suitePattern "nightly") = .ok ["nightly/a.yml"] := by decide +kernel
  refine ⟨sound, hdirectory, plain, unmarked, free, hfound, hmatched, ?_⟩
  obtain ⟨listed, _, hlisted, _, _, hfiles, _⟩ :=
    directory_listed_as_pattern sound hdirectory plain unmarked free
  have heq := Except.ok.inj (hlisted.symm.trans hfound)
  rw [heq] at hfiles
  exact hfiles

/-- A directory that has the name `*.yml` is itself what the pattern stands for; and a file that is named
    like the bare ending has no extension, so only the pattern stands for it. -/
theorem directory_listed_unlike_pattern :
    let file : FileNode := .file [] FileNode.standardMode
    let starred : Files := ⟨.directory [("s", .directory
      [("*.yml", .directory [("b.yml", file)]), ("a.yml", file)])], []⟩
    let bare : Files := ⟨.directory [("s", .directory [(".yml", file)])], []⟩
    (starred.isDirectory "s" = true ∧ discover starred "s" = .ok ["s/a.yml"]
        ∧ discover starred (suitePattern "s") = .ok ["s/*.yml/b.yml"])
      ∧ bare.isDirectory "s" = true ∧ discover bare "s" = .ok []
        ∧ discover bare (suitePattern "s") = .ok ["s/.yml"] := by
  refine ⟨⟨?_, ?_, ?_⟩, ?_, ?_, ?_⟩ <;> decide +kernel

end TestBench
