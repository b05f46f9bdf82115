import Mathlib
import TestBench.Discovery
import TestBench.Proofs.Decoding
import TestBench.Proofs.TextPieces
/-
  What is discovered is discovered once.

  1. In a sound tree the entries of a directory have different names, and a name is one piece of a path
     (`IsName`, `FileNode.Sound`).  Following a path leads to sound nodes only (`follow_sound`).
  2. Names that are joined to a path stand behind it, with one separator between any two
     (`toList_foldl_join`).
  3. A walk gives paths of names, and by induction on its depth none of them twice: paths below
     different entries differ at the name of the entry (`walkNode_nodup`).
  4. Paths below the working directory lose the same two characters (`below?_here`), so they still
     differ in what a pattern stands for; hence so do all discovered paths (`discover_nodup`).
-/
namespace TestBench

open TestBench.Text

/-! ## Sound trees -/

/-- A text that can name an entry of a directory. -/
structure IsName (name : String) : Prop where
  nonempty : name.toList ≠ []
  noSlash : '/' ∉ name.toList
  notHere : name.toList ≠ ['.']
  notUp : name.toList ≠ ['.', '.']

/-- Entries of each directory in a tree have names, and no two have the same one. -/
inductive FileNode.Sound : FileNode → Prop where
  | file (bytes : Utf8.Bytes) (mode : Nat) : Sound (.file bytes mode)
  | link (target : String) : Sound (.link target)
  | directory {entries : List (String × FileNode)} (distinct : (entries.map Prod.fst).Nodup)
      (names : ∀ e ∈ entries, IsName e.1) (nodes : ∀ e ∈ entries, e.2.Sound) :
      Sound (.directory entries)

/-- A spot that holds nothing or a sound node. -/
def Spot.Sound (spot : Spot) : Prop := ∀ node, spot.node? = some node → node.Sound

/-- A sound tree, seen from some directory. -/
def Files.Sound (files : Files) : Prop := files.root.Sound

/-- What is found is there. -/
theorem mem_of_lookup {α : Type} {key : String} {fields : List (String × α)} {value : α}
    (h : Json.lookup key fields = some value) : (key, value) ∈ fields := by
  induction fields with
  | nil => cases h
  | cons f rest ih =>
    rw [Json.lookup] at h
    split at h
    · rename_i hkey
      injection h with h
      rw [← hkey, ← h]
      exact List.mem_cons_self
    · exact List.mem_cons_of_mem f (ih h)

theorem FileNode.Sound.at? {node found : FileNode} (sound : node.Sound) {place : Place}
    (h : node.at? place = some found) : found.Sound := by
  induction place generalizing node with
  | nil =>
    injection h with h
    exact h ▸ sound
  | cons name rest ih =>
    rw [FileNode.at?] at h
    obtain ⟨child, hchild, hrest⟩ := Option.bind_eq_some_iff.1 h
    cases sound with
    | file => cases hchild
    | link => cases hchild
    | directory _ _ nodes => exact ih (nodes _ (mem_of_lookup hchild)) hrest

section Follow

variable {files : Files} (sound : files.Sound)
include sound

theorem spotAt_sound (place : Place) : (files.spotAt place).Sound :=
  fun _ h => FileNode.Sound.at? sound h

/-- A piece of a path leads from a sound node to a sound one. -/
theorem enter_sound {follow : Place → String → Except FileError Spot}
    (hfollow : ∀ place target spot, follow place target = .ok spot → spot.Sound)
    {spot spot' : Spot} (hspot : spot.Sound) {piece : String}
    (h : files.enter follow spot piece = .ok spot') : spot'.Sound := by
  rw [Files.enter] at h
  split at h
  · cases h
  · rename_i entries hnode
    split at h
    · -- the piece stays where it is
      injection h with h
      exact h ▸ hspot
    · split at h
      · injection h with h
        exact h ▸ spotAt_sound sound _
      · split at h
        · exact hfollow _ _ _ h
        · injection h with h
          subst h
          intro node hfound
          cases hspot _ hnode with
          | directory _ _ nodes => exact nodes _ (mem_of_lookup hfound)
  · cases h

/-- A path leads to sound nodes only. -/
theorem follow_sound (links : Nat) : ∀ (start : Place) (path : String) (spot : Spot),
    files.follow links start path = .ok spot → spot.Sound := by
  induction links with
  | zero =>
    intro start path spot h
    cases h
  | succ links ih =>
    intro start path spot h
    rw [Files.follow] at h
    split at h
    · cases h
    · -- the pieces are entered one behind the other, each from a sound node
      have hpieces : ∀ (pieces : List String) (first spot : Spot), first.Sound →
          pieces.foldlM (files.enter (files.follow links)) first = .ok spot → spot.Sound := by
        intro pieces
        induction pieces with
        | nil =>
          intro first spot hfirst h
          injection h with h
          exact h ▸ hfirst
        | cons piece rest ihpieces =>
          intro first spot hfirst h
          rw [List.foldlM_cons] at h
          cases henter : files.enter (files.follow links) first piece with
          | error e =>
            rw [henter] at h
            cases h
          | ok next =>
            rw [henter] at h
            exact ihpieces next spot (enter_sound sound ih hfirst henter) h
      exact hpieces _ _ spot (spotAt_sound sound _) h

end Follow

/-! ## Paths of names -/

namespace Path

/-- What stands before a name that is joined to a directory. -/
def before (directory : String) : List Char :=
  if directory.isEmpty then []
  else if directory.toList.getLast? == some '/' then directory.toList
  else directory.toList ++ ['/']

theorem toList_join_of_notMem {name : String} (h : '/' ∉ name.toList) (directory : String) :
    (join directory name).toList = before directory ++ name.toList := by
  have hrelative : isAbsolute name = false := by
    rw [isAbsolute, beq_eq_false_iff_ne]
    intro hhead
    exact h (List.mem_of_head? hhead)
  rw [join, before, hrelative, Bool.false_or]
  split
  · rfl
  · split
    · rw [String.toList_append]
    · rw [String.toList_append, String.toList_append]
      rfl

/-- A joined name stands behind the directory. -/
theorem toList_join {name : String} (h : IsName name) (directory : String) :
    (join directory name).toList = before directory ++ name.toList :=
  toList_join_of_notMem h.noSlash directory

/-- Behind a joined name one more separator stands. -/
theorem before_join {name : String} (h : IsName name) (directory : String) :
    before (join directory name) = before directory ++ name.toList ++ ['/'] := by
  have hlist := toList_join h directory
  have hnonempty : (join directory name).isEmpty = false := by
    rw [Bool.eq_false_iff, Ne, String.isEmpty_iff, ← String.toList_eq_nil_iff, hlist,
      List.append_eq_nil_iff]
    exact fun hnil => h.nonempty hnil.2
  have hlast : ((join directory name).toList.getLast? == some '/') = false := by
    rw [hlist, List.getLast?_append_of_ne_nil _ h.nonempty, beq_eq_false_iff_ne]
    intro hlast
    exact h.noSlash (List.mem_of_getLast? hlast)
  rw [before, hnonempty, hlast, hlist]
  rfl

/-- Joined names stand behind each other, with a separator between any two. -/
theorem toList_foldl_join (name : String) (names : List String)
    (h : ∀ n ∈ name :: names, IsName n) : ∀ directory : String,
      ((name :: names).foldl join directory).toList
        = before directory ++ joinChar '/' ((name :: names).map String.toList) := by
  induction names generalizing name with
  | nil => exact toList_join (h name List.mem_cons_self)
  | cons next rest ih =>
    intro directory
    have hname := h name List.mem_cons_self
    have hrest := ih next (fun n hn => h n (List.mem_cons_of_mem _ hn)) (join directory name)
    rw [List.foldl_cons, hrest, before_join hname]
    simp only [List.map_cons, joinChar, List.append_assoc, List.singleton_append]

/-- Names are told apart by what is joined, however it goes on. -/
theorem name_eq_of_joinChar_eq {name name' : String} {names names' : List String} (h : IsName name)
    (h' : IsName name')
    (heq : joinChar '/' ((name :: names).map String.toList)
      = joinChar '/' ((name' :: names').map String.toList)) : name = name' := by
  -- the first name ends at the first separator
  have hfirst (name : String) (names : List String) (h : IsName name) :
      (joinChar '/' ((name :: names).map String.toList)).takeWhile (· ≠ '/') = name.toList := by
    have hall : ∀ c ∈ name.toList, decide (c ≠ '/') = true := by
      intro c hc
      exact decide_eq_true fun hslash => h.noSlash (hslash ▸ hc)
    cases names with
    | nil => exact List.takeWhile_eq_self_iff.2 hall
    | cons next rest =>
      simp only [List.map_cons, joinChar]
      rw [List.takeWhile_append_of_pos hall, List.takeWhile_cons_of_neg (by decide),
        List.append_nil]
  rw [← String.toList_inj, ← hfirst name names h, ← hfirst name' names' h', heq]

end Path

/-! ## Walks -/

namespace Files

/-- What a walk finds at an entry of a directory. -/
def walkEntry (files : Files) (depth : Nat) (inside : List Place) (path : String) (spot : Spot)
    (e : String × FileNode) : List String :=
  match e.2 with
  | .link target =>
    match files.follow linkLimit spot.place target with
    | .error _ => []
    | .ok aim =>
      if aim.node?.any (·.isDirectory) && (spot.place :: inside).contains aim.place then []
      else files.walkNode depth (spot.place :: inside) (Path.join path e.1) aim
  | node =>
    files.walkNode depth (spot.place :: inside) (Path.join path e.1)
      ⟨spot.place ++ [e.1], some node⟩

variable {files : Files}

theorem walkNode_directory {depth : Nat} {inside : List Place} {path : String} {spot : Spot}
    {entries : List (String × FileNode)} (h : spot.node? = some (.directory entries)) :
    files.walkNode (depth + 1) inside path spot
      = entries.flatMap (files.walkEntry depth inside path spot) := by
  rw [walkNode, h]
  rfl

/-- At an entry a walk finds nothing, or goes on from there. -/
theorem walkEntry_eq (sound : files.Sound) (depth : Nat) (inside : List Place) (path : String)
    (spot : Spot) {e : String × FileNode} (he : e.2.Sound) :
    files.walkEntry depth inside path spot e = []
      ∨ ∃ aim, Spot.Sound aim ∧ files.walkEntry depth inside path spot e
          = files.walkNode depth (spot.place :: inside) (Path.join path e.1) aim := by
  obtain ⟨name, node⟩ := e
  have plain : Spot.Sound ⟨spot.place ++ [name], some node⟩ := by
    intro found hfound
    injection hfound with hfound
    exact hfound ▸ he
  -- only a link can give nothing: it leads nowhere, or back to where the walk has been
  cases node with
  | file bytes mode => exact .inr ⟨_, plain, rfl⟩
  | directory entries => exact .inr ⟨_, plain, rfl⟩
  | link target =>
    cases hfollow : files.follow linkLimit spot.place target with
    | error e => exact .inl (by simp only [walkEntry, hfollow])
    | ok aim =>
      simp only [walkEntry, hfollow]
      split
      · exact .inl rfl
      · exact .inr ⟨aim, follow_sound sound linkLimit _ _ aim hfollow, rfl⟩

/-- Walks of some depth give the path that they start from, with names joined to it. -/
def WalksNames (files : Files) (depth : Nat) : Prop :=
  ∀ (inside : List Place) (path : String) (spot : Spot), spot.Sound →
    ∀ r ∈ files.walkNode depth inside path spot,
      ∃ names : List String, (∀ n ∈ names, IsName n) ∧ r = names.foldl Path.join path

/-- What a walk finds at an entry has the name of the entry first. -/
theorem WalksNames.walkEntry (sound : files.Sound) {depth : Nat} (h : WalksNames files depth)
    (inside : List Place) (path : String) (spot : Spot) {e : String × FileNode} (he : e.2.Sound)
    (hname : IsName e.1) :
    ∀ r ∈ files.walkEntry depth inside path spot e, ∃ names : List String,
      (∀ n ∈ e.1 :: names, IsName n) ∧ r = (e.1 :: names).foldl Path.join path := by
  intro r hr
  rcases walkEntry_eq sound depth inside path spot he with hnil | ⟨aim, haim, heq⟩
  · rw [hnil] at hr
    cases hr
  · rw [heq] at hr
    obtain ⟨names, hall, hspelled⟩ := h _ _ aim haim r hr
    exact ⟨names, List.forall_mem_cons.2 ⟨hname, hall⟩, hspelled⟩

/-- A walk gives paths of names only. -/
theorem walksNames (sound : files.Sound) (depth : Nat) : WalksNames files depth := by
  have start {path r : String} (h : r ∈ [path]) :
      ∃ names : List String, (∀ n ∈ names, IsName n) ∧ r = names.foldl Path.join path :=
    ⟨[], fun _ hn => absurd hn List.not_mem_nil, List.mem_singleton.1 h⟩
  -- on the depth: one level down, the name of the entry comes in front of the names below it
  induction depth with
  | zero =>
    intro inside path spot hspot r hr
    rw [walkNode] at hr
    split at hr
    · exact start hr
    · cases hr
    · cases hr
  | succ depth ih =>
    intro inside path spot hspot r hr
    cases hnode : spot.node? with
    | none =>
      rw [walkNode, hnode] at hr
      cases hr
    | some node =>
      cases hspot node hnode with
      | file bytes mode =>
        rw [walkNode, hnode] at hr
        exact start hr
      | link target =>
        rw [walkNode, hnode] at hr
        cases hr
      | @directory entries distinct hnames nodes =>
        rw [walkNode_directory hnode] at hr
        obtain ⟨e, he, hr⟩ := List.mem_flatMap.1 hr
        obtain ⟨names, hall, hspelled⟩ :=
          ih.walkEntry sound inside path spot (nodes e he) (hnames e he) r hr
        exact ⟨e.1 :: names, hall, hspelled⟩

/-- No walk gives a path twice. -/
theorem walkNode_nodup (sound : files.Sound) (depth : Nat) :
    ∀ (inside : List Place) (path : String) (spot : Spot), spot.Sound →
      (files.walkNode depth inside path spot).Nodup := by
  induction depth with
  | zero =>
    intro inside path spot hspot
    rw [walkNode]
    split
    · exact List.nodup_singleton path
    · exact List.nodup_nil
    · exact List.nodup_nil
  | succ depth ih =>
    intro inside path spot hspot
    cases hnode : spot.node? with
    | none =>
      rw [walkNode, hnode]
      exact List.nodup_nil
    | some node =>
      cases hspot node hnode with
      | file bytes mode =>
        rw [walkNode, hnode]
        exact List.nodup_singleton path
      | link target =>
        rw [walkNode, hnode]
        exact List.nodup_nil
      | @directory entries distinct hnames nodes =>
        rw [walkNode_directory hnode, List.nodup_flatMap]
        constructor
        · intro e he
          rcases walkEntry_eq sound depth inside path spot (nodes e he) with hnil | ⟨aim, haim, heq⟩
          · rw [hnil]
            exact List.nodup_nil
          · rw [heq]
            exact ih _ _ aim haim
        · -- paths below two entries differ at the names of the entries
          refine List.Pairwise.imp_of_mem ?_ (List.pairwise_map.1 distinct)
          intro e e' he he' hne r hr hr'
          refine hne ?_
          obtain ⟨names, hall, hspelled⟩ :=
            (walksNames sound depth).walkEntry sound inside path spot (nodes e he) (hnames e he) r hr
          obtain ⟨names', hall', hspelled'⟩ :=
            (walksNames sound depth).walkEntry sound inside path spot (nodes e' he') (hnames e' he') r
              hr'
          have hlist := Path.toList_foldl_join e.1 names hall path
          rw [← hspelled, hspelled', Path.toList_foldl_join e'.1 names' hall' path] at hlist
          exact (Path.name_eq_of_joinChar_eq (hnames e' he') (hnames e he)
            (List.append_cancel_left hlist)).symm

/-- No walk gives a path twice. -/
theorem walk_nodup (sound : files.Sound) (depth? : Option Nat) (start : String) :
    (files.walk depth? start).Nodup := by
  rw [walk]
  split
  · exact List.nodup_nil
  · rename_i spot hspot
    exact walkNode_nodup sound _ _ _ spot (follow_sound sound _ _ _ spot hspot)

/-- Every path of a walk goes on from the start by names. -/
theorem names_of_mem_walk (sound : files.Sound) {depth? : Option Nat} {start r : String}
    (h : r ∈ files.walk depth? start) :
    ∃ names : List String, (∀ n ∈ names, IsName n) ∧ r = names.foldl Path.join start := by
  rw [walk] at h
  split at h
  · cases h
  · rename_i spot hspot
    exact walksNames sound _ _ _ spot (follow_sound sound _ _ _ spot hspot) r h

end Files

/-! ## Below the working directory -/

namespace Path

/-- The end of joined names is no separator and no dot, so it is not trimmed. -/
theorem trimReversed_of_isName {name : String} (h : IsName name) (rest : List Char) :
    trimReversed (name.toList.reverse ++ rest) = name.toList.reverse ++ rest := by
  have hmem : ∀ c ∈ name.toList.reverse, c ≠ '/' := by
    intro c hc hslash
    exact h.noSlash (hslash ▸ List.mem_reverse.1 hc)
  have hdot : name.toList.reverse ≠ ['.'] := fun heq =>
    h.notHere (List.reverse_eq_iff.1 heq)
  have hnil : name.toList.reverse ≠ [] := fun heq => h.nonempty (List.reverse_eq_nil_iff.1 heq)
  -- all that counts of the name: its last character is no separator, and it is more than a dot
  generalize name.toList.reverse = cs at hmem hdot hnil ⊢
  have hslash : ∀ tail, cs ++ rest ≠ '/' :: tail := by
    intro tail heq
    cases cs with
    | nil => exact hnil rfl
    | cons c cs =>
      injection heq with hc
      exact hmem c List.mem_cons_self hc
  have hdotSlash : ∀ tail, cs ++ rest ≠ '.' :: '/' :: tail := by
    intro tail heq
    cases cs with
    | nil => exact hnil rfl
    | cons c cs =>
      injection heq with hc heq
      cases cs with
      | nil => exact hdot (hc ▸ rfl)
      | cons d cs =>
        injection heq with hd
        exact hmem d (List.mem_cons_of_mem c List.mem_cons_self) hd
  unfold trimReversed
  split
  · rename_i heq
    exact heq.symm
  · rename_i heq
    exact absurd heq (hslash _)
  · rename_i heq
    exact heq.symm
  · rename_i heq
    exact absurd heq (hdotSlash _)
  · rename_i heq
    exact absurd heq (hdotSlash _)
  · rfl

/-- Nothing is trimmed from joined names. -/
theorem trimEnd_joined (name : String) (names : List String) (h : ∀ n ∈ name :: names, IsName n) :
    trimEnd (String.ofList (joinChar '/' ((name :: names).map String.toList)))
      = String.ofList (joinChar '/' ((name :: names).map String.toList)) := by
  -- they end with a name, whatever stands before it
  have hend : ∃ (front : List Char) (last : String), IsName last
      ∧ joinChar '/' ((name :: names).map String.toList) = front ++ last.toList := by
    induction names generalizing name with
    | nil => exact ⟨[], name, h name List.mem_cons_self, rfl⟩
    | cons next rest ih =>
      obtain ⟨front, last, hlast, heq⟩ := ih next fun n hn => h n (List.mem_cons_of_mem _ hn)
      refine ⟨name.toList ++ '/' :: front, last, hlast, ?_⟩
      rw [List.append_assoc, List.cons_append, ← heq]
      simp only [List.map_cons, joinChar]
  obtain ⟨front, last, hlast, heq⟩ := hend
  rw [trimEnd, String.toList_ofList, heq, List.reverse_append, trimReversed_of_isName hlast,
    ← List.reverse_append, List.reverse_reverse]

/-- Below the working directory, joined names stand for themselves. -/
theorem below?_here (name : String) (names : List String) (h : ∀ n ∈ name :: names, IsName n) :
    below? "." ((name :: names).foldl join ".")
      = some (String.ofList (joinChar '/' ((name :: names).map String.toList))) := by
  have hname := h name List.mem_cons_self
  let path := (name :: names).foldl join "."
  have hpath : path.toList = joinChar '/' (['.'] :: (name :: names).map String.toList) := by
    show ((name :: names).foldl join ".").toList = _
    rw [toList_foldl_join name names h]
    rfl
  have hsplit : splitChar '/' path.toList = ['.'] :: (name :: names).map String.toList := by
    rw [hpath]
    refine splitChar_joinChar '/' ['.'] _ (List.forall_mem_cons.2 ⟨by decide, ?_⟩)
    exact List.forall_mem_map.2 fun n hn => (h n hn).noSlash
  have hrelative : isAbsolute path = false := by
    rw [isAbsolute, hpath]
    rfl
  have hpiece : Segment.ofPiece? false name.toList = some (.name name) := by
    rw [Segment.ofPiece?, if_neg (mt List.isEmpty_iff.1 hname.nonempty), if_neg hname.notHere,
      if_neg hname.notUp, String.ofList_toList]
  have hhere : segments "." = [.here] := by decide
  have hsegments : ([.here] : List Segment).isPrefixOf (segments path) = true := by
    rw [segments, hsplit, hrelative]
    rfl
  -- behind the dot, the first piece is a name, so nothing else is cut
  have hbehind : behind 1 true (['.'] :: (name :: names).map String.toList)
      = (name :: names).map String.toList := by
    rw [behind, List.map_cons]
    show behind 0 false (name.toList :: _) = _
    rw [behind, hpiece]
  show below? "." path = _
  rw [below?, hhere]
  simp only [hsegments, hrelative, hsplit, if_true, Bool.false_and, Bool.false_eq_true, if_false,
    List.isEmpty_cons, List.length_singleton, hbehind]
  rw [trimEnd_joined name names h]

end Path
/-! ## Discovery -/

section Discovery

variable {files : Files}

/-- How a pattern that begins with a mark spells a path of a walk. -/
theorem spelling_injOn (sound : files.Sound) (depth? : Option Nat) :
    ∀ r ∈ files.walk depth? ".", ∀ r' ∈ files.walk depth? ".",
      (Path.below? "." r).getD r = (Path.below? "." r').getD r' → r = r' := by
  -- the start is spelled empty; any other path loses the dot and the slash in front, and is not empty
  have hspelled (r : String) (hr : r ∈ files.walk depth? ".") :
      (r = "." ∧ (Path.below? "." r).getD r = "")
        ∨ ∃ names : List (List Char), names ≠ [] ∧ (∀ n ∈ names, n ≠ [])
          ∧ r.toList = '.' :: '/' :: joinChar '/' names
          ∧ (Path.below? "." r).getD r = String.ofList (joinChar '/' names) := by
    obtain ⟨names, hall, rfl⟩ := Files.names_of_mem_walk sound hr
    cases names with
    | nil => exact .inl ⟨rfl, by decide⟩
    | cons name names =>
      refine .inr ⟨(name :: names).map String.toList, List.cons_ne_nil _ _,
        List.forall_mem_map.2 fun n hn => (hall n hn).nonempty, ?_, ?_⟩
      · rw [Path.toList_foldl_join name names hall]
        rfl
      · rw [Path.below?_here name names hall]
        rfl
  have hnonempty (names : List (List Char)) (hne : names ≠ []) (hall : ∀ n ∈ names, n ≠ []) :
      "" ≠ String.ofList (joinChar '/' names) := by
    intro hempty
    have hnil : joinChar '/' names = "".toList := by
      rw [hempty, String.toList_ofList]
    match names, hne, hall with
    | [n], _, hall => exact hall n List.mem_cons_self hnil
    | n :: next :: rest, _, hall =>
      exact hall n List.mem_cons_self (List.append_eq_nil_iff.1 hnil).1
  intro r hr r' hr' heq
  rcases hspelled r hr with ⟨rfl, hempty⟩ | ⟨names, hne, hall, hlist, hget⟩
  · rcases hspelled r' hr' with ⟨rfl, _⟩ | ⟨names', hne', hall', _, hget'⟩
    · rfl
    · rw [hempty, hget'] at heq
      exact absurd heq (hnonempty names' hne' hall')
  · rcases hspelled r' hr' with ⟨rfl, hempty'⟩ | ⟨names', _, _, hlist', hget'⟩
    · rw [hget, hempty'] at heq
      exact absurd heq.symm (hnonempty names hne hall)
    · rw [hget, hget', String.ofList_inj] at heq
      rw [← String.toList_inj, hlist, hlist', heq]

/-- No pattern has a candidate twice. -/
theorem candidates_nodup (sound : files.Sound) (pattern : String) :
    (candidates files pattern).Nodup := by
  rw [candidates]
  split
  · exact (Files.walk_nodup sound _ _).map_on (spelling_injOn sound _)
  · exact Files.walk_nodup sound _ _

theorem sortPaths_nodup_iff {paths : List String} : (sortPaths paths).Nodup ↔ paths.Nodup :=
  (List.mergeSort_perm _ _).nodup_iff

/-- The entries of a directory have names, each another one. -/
theorem names_of_list (sound : files.Sound) {path : String} {entries : List (String × FileNode)}
    (h : files.list path = .ok entries) :
    (entries.map Prod.fst).Nodup ∧ ∀ e ∈ entries, IsName e.1 := by
  obtain ⟨node, hnode, h⟩ := ok_of_bind_ok h
  obtain ⟨spot, hspot, hnode⟩ := ok_of_bind_ok hnode
  have hsound := follow_sound sound _ _ _ spot hspot
  cases hfound : spot.node? with
  | none =>
    rw [hfound] at hnode
    cases hnode
  | some found =>
    rw [hfound] at hnode
    injection hnode with hnode
    subst hnode
    cases hsound found hfound with
    | file => cases h
    | link => cases h
    | directory distinct names nodes =>
      injection h with h
      subst h
      exact ⟨distinct, names⟩

/-- No directory lists a path twice. -/
theorem filesIn_nodup (sound : files.Sound) {directory : String} {extension? : Option String}
    {paths : List String} (h : filesIn files directory extension? = .ok paths) : paths.Nodup := by
  rw [filesIn] at h
  cases hlist : files.list directory with
  | error e =>
    rw [hlist] at h
    cases h
  | ok entries =>
    obtain ⟨distinct, hnames⟩ := names_of_list sound hlist
    rw [hlist] at h
    injection h with h
    subst h
    -- different names give different paths, and sorting keeps them
    refine sortPaths_nodup_iff.2 ((distinct.of_map.map_on ?_).filter _)
    intro e he e' he' heq
    rw [← String.toList_inj, Path.toList_join (hnames e he), Path.toList_join (hnames e' he')] at heq
    exact List.inj_on_of_nodup_map distinct he he' (String.toList_inj.1 (List.append_cancel_left heq))

/-- **Discovery gives no path twice.** -/
theorem discover_nodup (sound : files.Sound) {path : String} {paths : List String}
    (h : discover files path = .ok paths) : paths.Nodup := by
  rw [discover] at h
  -- a directory, a pattern with marks, or a path that stands for itself
  split at h
  · exact filesIn_nodup sound h
  · rw [expandPattern] at h
    split at h
    · cases h
    · split at h
      · injection h with h
        exact h ▸ sortPaths_nodup_iff.2 ((candidates_nodup sound path).filter _)
      · injection h with h
        subst h
        split
        · exact List.nodup_singleton path
        · exact List.nodup_nil

end Discovery
end TestBench
