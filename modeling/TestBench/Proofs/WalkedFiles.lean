import Mathlib
import TestBench.Proofs.DistinctFiles
/-
  Which files a walk meets in a tree without links.

  1. In such a tree a path of names leads to the node at the place of these names, and nowhere else
     (`locate_spelled`).
  2. By induction on its depth, a walk gives the files at all places that are no more names away than
     it is deep (`mem_walkNode`).  No place is as long as a tree has nodes, so a walk without a limit
     gives all of them (`mem_walk`).
-/
namespace TestBench

open TestBench.Text

/-! ## Trees without links -/

/-- Where keys are distinct, what is there is found. -/
theorem lookup_of_mem {α : Type} {fields : List (String × α)} {e : String × α}
    (distinct : (fields.map Prod.fst).Nodup) (he : e ∈ fields) :
    Json.lookup e.1 fields = some e.2 := by
  induction fields with
  | nil => cases he
  | cons f rest ih =>
    obtain ⟨hnew, distinct⟩ := List.nodup_cons.1 distinct
    rw [Json.lookup]
    rcases List.mem_cons.1 he with rfl | he
    · exact if_pos rfl
    · have hne : f.1 ≠ e.1 := fun heq => hnew (heq ▸ List.mem_map_of_mem he)
      rw [if_neg hne]
      exact ih distinct he

namespace FileNode

/-- A tree without links. -/
inductive Unlinked : FileNode → Prop where
  | file (bytes : Utf8.Bytes) (mode : Nat) : Unlinked (.file bytes mode)
  | directory {entries : List (String × FileNode)} (nodes : ∀ e ∈ entries, e.2.Unlinked) :
      Unlinked (.directory entries)

/-- There is a file at a place. -/
def HasFile (node : FileNode) (place : Place) : Prop :=
  ∃ bytes mode, node.at? place = some (.file bytes mode)

/-- A place is reached by way of any place on the way to it. -/
theorem at?_append (node : FileNode) (place place' : Place) :
    node.at? (place ++ place') = (node.at? place).bind (·.at? place') := by
  induction place generalizing node with
  | nil => rfl
  | cons name rest ih =>
    rw [List.cons_append, at?, at?, Option.bind_assoc]
    exact Option.bind_congr fun child _ => ih child

/-- In a tree without links no link is reached. -/
theorem Unlinked.at? {node found : FileNode} (unlinked : node.Unlinked) {place : Place}
    (h : node.at? place = some found) : found.Unlinked := by
  induction place generalizing node with
  | nil =>
    injection h with h
    exact h ▸ unlinked
  | cons name rest ih =>
    rw [FileNode.at?] at h
    obtain ⟨child, hchild, hrest⟩ := Option.bind_eq_some_iff.1 h
    cases unlinked with
    | file => cases hchild
    | directory nodes => exact ih (nodes _ (mem_of_lookup hchild)) hrest

/-- Only names lead to a node of a sound tree. -/
theorem Sound.isName {node found : FileNode} (sound : node.Sound) {place : Place}
    (h : node.at? place = some found) : ∀ n ∈ place, IsName n := by
  induction place generalizing node with
  | nil => exact fun _ hn => absurd hn List.not_mem_nil
  | cons name rest ih =>
    rw [FileNode.at?] at h
    obtain ⟨child, hchild, hrest⟩ := Option.bind_eq_some_iff.1 h
    cases sound with
    | file => cases hchild
    | link => cases hchild
    | directory _ names nodes =>
      have hmem := mem_of_lookup hchild
      exact List.forall_mem_cons.2 ⟨names _ hmem, ih (nodes _ hmem) hrest⟩

/-- An entry is counted among the entries. -/
theorem count_le_countEntries {entries : List (String × FileNode)} {e : String × FileNode}
    (he : e ∈ entries) : e.2.count ≤ countEntries entries := by
  induction entries with
  | nil => cases he
  | cons first rest ih =>
    rw [countEntries]
    rcases List.mem_cons.1 he with rfl | he
    · exact Nat.le_add_right _ _
    · exact (ih he).trans (Nat.le_add_left _ _)

/-- Every name on the way to a node takes one more node. -/
theorem length_add_count_le {node found : FileNode} {place : Place}
    (h : node.at? place = some found) : place.length + found.count ≤ node.count := by
  induction place generalizing node with
  | nil =>
    injection h with h
    subst h
    exact Nat.le_of_eq (Nat.zero_add _)
  | cons name rest ih =>
    rw [at?] at h
    obtain ⟨child, hchild, hrest⟩ := Option.bind_eq_some_iff.1 h
    -- the name leads to an entry, and the directory counts one node more than its entries
    cases node with
    | directory entries =>
      have hbelow := ih hrest
      have hentry : child.count ≤ countEntries entries :=
        count_le_countEntries (mem_of_lookup hchild)
      rw [count, List.length_cons]
      omega
    | _ => cases hchild

/-- In a file there is nothing but the file. -/
theorem hasFile_file_iff {bytes : Utf8.Bytes} {mode : Nat} {names : List String} :
    (file bytes mode).HasFile names ↔ names = [] := by
  constructor
  · rintro ⟨_, _, h⟩
    cases names with
    | nil => rfl
    | cons name names => cases h
  · rintro rfl
    exact ⟨bytes, mode, rfl⟩

/-- A file in a directory is one in an entry of it. -/
theorem hasFile_directory_iff {entries : List (String × FileNode)}
    (distinct : (entries.map Prod.fst).Nodup) {names : List String} :
    (directory entries).HasFile names
      ↔ ∃ e ∈ entries, ∃ rest, names = e.1 :: rest ∧ e.2.HasFile rest := by
  constructor
  · rintro ⟨bytes, mode, h⟩
    cases names with
    | nil => cases h
    | cons name rest =>
      obtain ⟨child, hchild, h⟩ := Option.bind_eq_some_iff.1 h
      exact ⟨(name, child), mem_of_lookup hchild, rest, rfl, bytes, mode, h⟩
  · rintro ⟨e, he, rest, rfl, bytes, mode, h⟩
    refine ⟨bytes, mode, ?_⟩
    rw [FileNode.at?, FileNode.entries, lookup_of_mem distinct he]
    exact h

end FileNode

/-! ## Walks -/

namespace Files

variable {files : Files}

/-- Where nothing is a link, a walk goes on at each entry. -/
theorem walkEntry_of_unlinked (depth : Nat) (inside : List Place) (path : String) (spot : Spot)
    {e : String × FileNode} (unlinked : e.2.Unlinked) :
    files.walkEntry depth inside path spot e
      = files.walkNode depth (spot.place :: inside) (Path.join path e.1)
        ⟨spot.place ++ [e.1], some e.2⟩ := by
  obtain ⟨name, node⟩ := e
  cases unlinked <;> rfl

/-- A walk that comes to a file gives its path and ends. -/
theorem mem_walkNode_file {depth : Nat} {inside : List Place} {path : String} {spot : Spot}
    {bytes : Utf8.Bytes} {mode : Nat} (h : spot.node? = some (.file bytes mode)) (r : String) :
    r ∈ files.walkNode depth inside path spot
      ↔ ∃ names : List String, names.length ≤ depth ∧ (FileNode.file bytes mode).HasFile names
          ∧ r = names.foldl Path.join path := by
  rw [walkNode, h, List.mem_singleton]
  simp only [FileNode.hasFile_file_iff]
  constructor
  · rintro rfl
    exact ⟨[], Nat.zero_le _, rfl, rfl⟩
  · rintro ⟨_, _, rfl, rfl⟩
    rfl

/-- A walk meets the files that are no more names away than it is deep. -/
theorem mem_walkNode (depth : Nat) : ∀ (inside : List Place) (path : String) (spot : Spot)
    (node : FileNode), spot.node? = some node → node.Sound → node.Unlinked → ∀ r,
      (r ∈ files.walkNode depth inside path spot
        ↔ ∃ names : List String, names.length ≤ depth ∧ node.HasFile names
            ∧ r = names.foldl Path.join path) := by
  induction depth with
  | zero =>
    intro inside path spot node h sound unlinked r
    cases unlinked with
    | file => exact mem_walkNode_file h r
    | directory nodes =>
      cases sound with
      | directory distinct =>
        -- every file is at least one name away
        rw [walkNode, h]
        refine iff_of_false List.not_mem_nil ?_
        rintro ⟨names, hlength, hfile, _⟩
        obtain ⟨e, _, rest, rfl, _⟩ := (FileNode.hasFile_directory_iff distinct).1 hfile
        cases hlength
  | succ depth ih =>
    intro inside path spot node h sound unlinked r
    cases unlinked with
    | file => exact mem_walkNode_file h r
    | @directory entries nodes =>
      cases sound with
      | directory distinct hnames sounds =>
        have entry (e : String × FileNode) (he : e ∈ entries) :
            r ∈ files.walkEntry depth inside path spot e
              ↔ ∃ names : List String, names.length ≤ depth ∧ e.2.HasFile names
                ∧ r = names.foldl Path.join (Path.join path e.1) := by
          rw [walkEntry_of_unlinked depth inside path spot (nodes e he)]
          exact ih _ _ _ e.2 rfl (sounds e he) (nodes e he) r
        rw [walkNode_directory h, List.mem_flatMap]
        simp only [FileNode.hasFile_directory_iff distinct]
        constructor
        · rintro ⟨e, he, hr⟩
          obtain ⟨rest, hlength, hfile, hr⟩ := (entry e he).1 hr
          exact ⟨e.1 :: rest, Nat.succ_le_succ hlength, ⟨e, he, rest, rfl, hfile⟩, hr⟩
        · rintro ⟨_, hlength, ⟨e, he, rest, rfl, hfile⟩, hr⟩
          exact ⟨e, he, (entry e he).2 ⟨rest, Nat.le_of_succ_le_succ hlength, hfile, hr⟩⟩

end Files

/-! ## Following names -/

/-- A sound tree without links, seen from one of its directories. -/
structure Files.Plain (files : Files) : Prop where
  sound : files.Sound
  unlinked : files.root.Unlinked
  base : ∃ entries, files.root.at? files.base = some (.directory entries)

namespace Files

variable {files : Files}

/-- Behind the working directory only names lead to a file, and at least one. -/
theorem Plain.names_of_hasFile (plain : files.Plain) {names : List String}
    (h : files.root.HasFile (files.base ++ names)) : names ≠ [] ∧ ∀ n ∈ names, IsName n := by
  obtain ⟨bytes, mode, h⟩ := h
  constructor
  · rintro rfl
    obtain ⟨entries, hbase⟩ := plain.base
    rw [List.append_nil, hbase] at h
    cases h
  · exact fun n hn => plain.sound.isName h n (List.mem_append_right _ hn)

/-- A name leads from a directory without links to its entry of that name, if there is one. -/
theorem enter_name {follow : Place → String → Except FileError Spot} {name : String}
    (hname : IsName name) {spot : Spot} {entries : List (String × FileNode)}
    (hnode : spot.node? = some (.directory entries)) (unlinked : ∀ e ∈ entries, e.2.Unlinked) :
    files.enter follow spot name = .ok ⟨spot.place ++ [name], Json.lookup name entries⟩ := by
  -- a name is none of the pieces with a meaning of their own
  have hhere : ¬ (name = "" ∨ name = ".") := by
    rintro (rfl | rfl)
    · exact hname.nonempty rfl
    · exact hname.notHere rfl
  have hup : name ≠ ".." := by
    rintro rfl
    exact hname.notUp rfl
  rw [enter, hnode]
  dsimp only
  rw [if_neg hhere, if_neg hup]
  cases hchild : Json.lookup name entries with
  | none => rfl
  | some child => cases unlinked _ (mem_of_lookup hchild) <;> rfl

/-- Names are followed from a node to the node at their place. -/
theorem foldlM_enter {follow : Place → String → Except FileError Spot} {names : List String}
    (hnames : ∀ n ∈ names, IsName n) : ∀ (spot : Spot),
      (∀ node, spot.node? = some node → node.Unlinked) → ∀ node,
        ((∃ aim, names.foldlM (files.enter follow) spot = .ok aim ∧ aim.node? = some node)
          ↔ spot.node?.bind (·.at? names) = some node) := by
  induction names with
  | nil =>
    intro spot _ node
    have hself : spot.node?.bind (·.at? []) = spot.node? := by cases spot.node? <;> rfl
    rw [hself]
    constructor
    · rintro ⟨aim, hend, haim⟩
      injection hend with hend
      exact hend ▸ haim
    · exact fun h => ⟨spot, rfl, h⟩
  | cons name rest ih =>
    intro spot unlinked node
    rw [List.foldlM_cons]
    -- only directories can be entered, and only they have something below them
    have stuck (e : FileError) (henter : files.enter follow spot name = .error e)
        (hnone : spot.node?.bind (·.at? (name :: rest)) = none) :
        (∃ aim, (files.enter follow spot name >>= fun next => rest.foldlM (files.enter follow) next)
            = .ok aim ∧ aim.node? = some node)
          ↔ spot.node?.bind (·.at? (name :: rest)) = some node := by
      rw [henter, hnone]
      exact iff_of_false (fun ⟨_, h, _⟩ => nomatch h) (fun h => nomatch h)
    cases hnode : spot.node? with
    | none => exact hnode ▸ stuck .missing (by rw [enter, hnode]) (by rw [hnode]; rfl)
    | some here =>
      cases unlinked here hnode with
      | file bytes mode =>
        exact hnode ▸ stuck .notDirectory (by rw [enter, hnode]) (by rw [hnode]; rfl)
      | @directory entries nodes =>
        rw [enter_name (hnames name List.mem_cons_self) hnode nodes]
        exact ih (fun n hn => hnames n (List.mem_cons_of_mem _ hn)) _
          (fun child hchild => nodes _ (mem_of_lookup hchild)) node

end Files

/-! ## Spelling names -/

/-- The dot that stands in front of names, or nothing. -/
def lead (dotted : Bool) : List String := if dotted then ["."] else []

/-- Names with slashes between them; `dotted` says that a dot stands in front. -/
def spelled (dotted : Bool) (names : List String) : String :=
  String.ofList (joinChar '/' ((lead dotted ++ names).map String.toList))

section Spelled

variable {dotted : Bool} {names : List String} (hnames : ∀ n ∈ names, IsName n)
include hnames

theorem foldl_join_eq_spelled :
    names.foldl Path.join (if dotted then "." else "") = spelled dotted names := by
  rw [spelled, ← String.toList_inj, String.toList_ofList]
  cases names with
  | nil => cases dotted <;> rfl
  | cons name rest =>
    rw [Path.toList_foldl_join name rest hnames]
    cases dotted <;> rfl

/-- Joining names one by one spells them all. -/
theorem foldl_join_spelled {below : List String} (hbelow : ∀ n ∈ below, IsName n) :
    below.foldl Path.join (spelled dotted names) = spelled dotted (names ++ below) := by
  rw [← foldl_join_eq_spelled hnames, ← List.foldl_append,
    foldl_join_eq_spelled (List.forall_mem_append.2 ⟨hnames, hbelow⟩)]

/-- Split at its slashes, a spelled path is its names again. -/
theorem splitChar_spelled (start : dotted = true ∨ names ≠ []) :
    splitChar '/' (spelled dotted names).toList = (lead dotted ++ names).map String.toList := by
  have hslash : ∀ n ∈ lead dotted ++ names, '/' ∉ n.toList := by
    refine List.forall_mem_append.2 ⟨?_, fun n hn => (hnames n hn).noSlash⟩
    cases dotted <;> decide
  -- there is at least a piece, since nothing at all would be spelled as the empty path
  have hne : lead dotted ++ names ≠ [] := by
    rcases start with rfl | hne
    · exact List.cons_ne_nil _ _
    · exact fun h => hne (List.append_eq_nil_iff.1 h).2
  rw [spelled, String.toList_ofList]
  generalize lead dotted ++ names = pieces at hslash hne
  cases pieces with
  | nil => exact absurd rfl hne
  | cons piece rest =>
    refine Text.splitChar_joinChar '/' piece.toList (rest.map String.toList) ?_
    simpa using hslash

/-- Nothing is left empty between two slashes, nor in front of the first one. -/
theorem nil_notMem_splitChar_spelled (start : dotted = true ∨ names ≠ []) :
    [] ∉ splitChar '/' (spelled dotted names).toList := by
  have hpieces : ∀ n ∈ lead dotted ++ names, n.toList ≠ [] := by
    refine List.forall_mem_append.2 ⟨?_, fun n hn => (hnames n hn).nonempty⟩
    cases dotted <;> decide
  rw [splitChar_spelled hnames start, List.mem_map]
  rintro ⟨n, hn, hnil⟩
  exact hpieces n hn hnil

theorem spelled_ne_empty (start : dotted = true ∨ names ≠ []) : spelled dotted names ≠ "" := by
  intro hempty
  refine nil_notMem_splitChar_spelled hnames start ?_
  rw [hempty]
  exact List.mem_singleton_self []

/-- A path spelled of names is relative. -/
theorem isAbsolute_spelled (start : dotted = true ∨ names ≠ []) :
    Path.isAbsolute (spelled dotted names) = false := by
  rw [Path.isAbsolute, beq_eq_false_iff_ne]
  intro hhead
  obtain ⟨rest, hrest⟩ := List.head?_eq_some_iff.1 hhead
  refine nil_notMem_splitChar_spelled hnames start ?_
  rw [hrest, splitChar, if_pos rfl]
  exact List.mem_cons_self

end Spelled

namespace Files

variable {files : Files}

/-- Spelled names are followed from the working directory, one by one. -/
theorem locate_spelled {dotted : Bool} {names : List String} (hnames : ∀ n ∈ names, IsName n)
    (start : dotted = true ∨ names ≠ []) :
    files.locate (spelled dotted names)
      = (lead dotted ++ names).foldlM (files.enter (files.follow linkLimit))
        (files.spotAt files.base) := by
  have hnonempty : ¬ (spelled dotted names).isEmpty = true :=
    mt String.isEmpty_iff.1 (spelled_ne_empty hnames start)
  have hpieces : pieces (spelled dotted names) = lead dotted ++ names := by
    rw [pieces, splitChar_spelled hnames start, List.map_map]
    exact List.map_id'' (fun _ => String.ofList_toList) _
  rw [locate, follow, if_neg hnonempty, isAbsolute_spelled hnames start, hpieces]
  rfl

/-- They lead to the node at their place. -/
theorem node_of_spelled (plain : files.Plain) {dotted : Bool} {names : List String}
    (hnames : ∀ n ∈ names, IsName n) (start : dotted = true ∨ names ≠ []) (node : FileNode) :
    (∃ aim, files.locate (spelled dotted names) = .ok aim ∧ aim.node? = some node)
      ↔ files.root.at? (files.base ++ names) = some node := by
  obtain ⟨entries, hbase⟩ := plain.base
  have hspot : (files.spotAt files.base).node? = some (.directory entries) := hbase
  have unlinked : ∀ node, (files.spotAt files.base).node? = some node → node.Unlinked :=
    fun node h => plain.unlinked.at? h
  -- a dot in front leads from the base to the base
  have hdot : (lead dotted ++ names).foldlM (files.enter (files.follow linkLimit))
        (files.spotAt files.base)
      = names.foldlM (files.enter (files.follow linkLimit)) (files.spotAt files.base) := by
    cases dotted with
    | false => rfl
    | true =>
      have henter : files.enter (files.follow linkLimit) (files.spotAt files.base) "."
          = .ok (files.spotAt files.base) := by
        rw [enter, hspot]
        exact if_pos (.inr rfl)
      show List.foldlM _ _ ("." :: names) = _
      rw [List.foldlM_cons, henter]
      rfl
  rw [locate_spelled hnames start, hdot, foldlM_enter hnames _ unlinked, FileNode.at?_append]
  rfl

/-- Where names lead to nothing, there is nothing to walk. -/
theorem walk_of_at?_none (plain : files.Plain) {dotted : Bool} {names : List String}
    (hnames : ∀ n ∈ names, IsName n) (start : dotted = true ∨ names ≠ [])
    (hnone : files.root.at? (files.base ++ names) = none) (depth? : Option Nat) :
    files.walk depth? (spelled dotted names) = [] := by
  rw [walk]
  -- the path leads nowhere, or to a place without a node; the third case is excluded
  cases hlocate : files.locate (spelled dotted names) with
  | error e => rfl
  | ok spot =>
    cases hspot : spot.node? with
    | none =>
      show files.walkNode _ [] _ spot = []
      rw [walkNode, hspot]
    | some node =>
      rw [(node_of_spelled plain hnames start node).1 ⟨spot, hlocate, hspot⟩] at hnone
      cases hnone

/-- A walk without a limit goes as far down as there are files. -/
theorem length_le_walkLimit {front below : List String}
    (h : files.root.HasFile (front ++ below)) : below.length ≤ files.walkLimit := by
  obtain ⟨bytes, mode, h⟩ := h
  have hcount := FileNode.length_add_count_le h
  rw [List.length_append] at hcount
  show below.length ≤ (files.root.count + 1) * (files.root.count + 1)
  nlinarith

/-- **Walks meet all files.**  From where names lead to, a walk gives the files below, as far down as it
    goes. -/
theorem mem_walk (plain : files.Plain) {dotted : Bool} {names : List String}
    (hnames : ∀ n ∈ names, IsName n) (start : dotted = true ∨ names ≠ []) (depth? : Option Nat)
    (r : String) :
    r ∈ files.walk depth? (spelled dotted names)
      ↔ ∃ below : List String, (∀ d, depth? = some d → below.length ≤ d)
          ∧ files.root.HasFile (files.base ++ (names ++ below)) ∧ r = spelled dotted (names ++ below) := by
  -- the place of a file splits into the way to the start and the way below it
  have hplace (below : List String) : files.root.at? (files.base ++ (names ++ below))
      = (files.root.at? (files.base ++ names)).bind (·.at? below) := by
    rw [← List.append_assoc, FileNode.at?_append]
  cases hat : files.root.at? (files.base ++ names) with
  | none =>
    rw [walk_of_at?_none plain hnames start hat]
    refine iff_of_false List.not_mem_nil ?_
    rintro ⟨below, _, ⟨bytes, mode, hfile⟩, _⟩
    rw [hplace, hat] at hfile
    cases hfile
  | some node =>
    obtain ⟨spot, hlocate, hspot⟩ := (node_of_spelled plain hnames start node).2 hat
    have hfile (below : List String) : files.root.HasFile (files.base ++ (names ++ below))
        ↔ node.HasFile below := by
      rw [FileNode.HasFile, hplace, hat]
      rfl
    -- a walk without a depth stops at a limit, which no place in the tree comes to
    have hdepth {below : List String} (h : node.HasFile below) :
        below.length ≤ depth?.getD files.walkLimit ↔ ∀ d, depth? = some d → below.length ≤ d := by
      cases depth? with
      | some d => simp
      | none =>
        have hlimit := length_le_walkLimit (List.append_assoc .. ▸ (hfile below).2 h)
        exact iff_of_true hlimit (by simp)
    have hjoined {below : List String} (h : node.HasFile below) :
        below.foldl Path.join (spelled dotted names) = spelled dotted (names ++ below) := by
      obtain ⟨bytes, mode, h⟩ := h
      exact foldl_join_spelled hnames ((plain.sound.at? hat).isName h)
    rw [walk, hlocate]
    show r ∈ files.walkNode _ [] _ spot ↔ _
    rw [mem_walkNode _ [] _ spot node hspot (plain.sound.at? hat) (plain.unlinked.at? hat) r]
    refine exists_congr fun below => ?_
    rw [hfile]
    constructor
    · rintro ⟨hlength, h, hr⟩
      exact ⟨(hdepth h).1 hlength, h, hr.trans (hjoined h)⟩
    · rintro ⟨hlength, h, hr⟩
      exact ⟨(hdepth h).2 hlength, h, hr.trans (hjoined h).symm⟩

end Files

end TestBench
