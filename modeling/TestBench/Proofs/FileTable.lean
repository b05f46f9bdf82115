import Mathlib
import TestBench.Executor.ReadFile
import TestBench.Proofs.FieldLeaves
import TestBench.Proofs.FoundFiles
import TestBench.Proofs.SortedFields
/-
  What is recorded of the files that a step reads.

  1. All that a step finds are files (`targets_found`), so reading goes through to the last one.  What it
     records is the contents one after another and a table that has for each name the last file of that
     name (`readAll_eq`); digests, sizes, times and modes are columns of this table.
  2. The result has a field for each column, and a field answers for its own paths (`get?_result`).  What
     is found under a name in a column is what the table has last under that name, in any letter case
     (`get?_column`).
  3. That is the same row in all columns.  So under the name of a matched file stand digest, size and mode
     of one matched file, and they are its own unless another one has the same name but for letter case
     (`each_file_recorded`).
-/
namespace TestBench

open TestBench.Text

/-! ## Files -/

namespace Files

variable (files : Files) (path : String)

/-- The bytes of the file that a path leads to. -/
def bytesAt : Utf8.Bytes :=
  match files.node path with
  | .ok (.file bytes _) => bytes
  | _ => []

/-- The mode of the file that a path leads to. -/
def modeAt : Nat :=
  match files.node path with
  | .ok (.file _ mode) => mode
  | _ => 0

/-- The characters of the file that a path leads to, as far as its bytes write any. -/
def charsAt : List Char := Utf8.decodeLossy (files.bytesAt path)

variable {files path}

/-- A file has bytes and a mode. -/
theorem node_of_isFile (h : files.isFile path = true) :
    files.node path = .ok (.file (files.bytesAt path) (files.modeAt path)) := by
  obtain ⟨bytes, mode, hnode⟩ := isFile_iff.1 h
  rw [bytesAt, modeAt, hnode]

end Files

/-! ## The table of names -/

namespace ReadFile

/-- The path that a step looks for, from the directory of the suite. -/
def target (p : ReadFile) (call : Call) : String :=
  Path.join call.workdir (call.aliases.expand p.path)

/-- The name that a file is recorded under. -/
def recordName (workdir path : String) : String := (Path.below? workdir path).getD path

/-- The files by their names, of each name the last one. -/
def table (workdir : String) (paths : List String) (rows : List (String × String)) :
    List (String × String) :=
  paths.foldl (fun rows path => Json.insertField (recordName workdir path) path rows) rows

section Table

variable {workdir : String} {paths : List String} {rows : List (String × String)}

/-- A row of the table was there before, or is of one of the paths. -/
theorem mem_table {row : String × String} (h : row ∈ table workdir paths rows) :
    row ∈ rows ∨ row.2 ∈ paths ∧ row.1 = recordName workdir row.2 := by
  induction paths generalizing rows with
  | nil => exact .inl h
  | cons path paths ih =>
    rcases ih h with h | ⟨hmem, hname⟩
    · rcases Json.mem_of_mem_insertField h with rfl | h
      · exact .inr ⟨List.mem_cons_self, rfl⟩
      · exact .inl h
    · exact .inr ⟨List.mem_cons_of_mem path hmem, hname⟩

/-- No name is lost. -/
theorem lookup_table {name : String} (h : (∃ path ∈ paths, recordName workdir path = name)
    ∨ (Json.lookup name rows).isSome = true) :
    (Json.lookup name (table workdir paths rows)).isSome = true := by
  induction paths generalizing rows with
  | nil =>
    rcases h with ⟨path, hpath, _⟩ | h
    · cases hpath
    · exact h
  | cons path paths ih =>
    refine ih ?_
    rw [Json.lookup_insertField]
    -- the first path has the name, a later one has it, or it was there before
    rcases h with ⟨other, hother, hname⟩ | h
    · rcases List.mem_cons.1 hother with rfl | hother
      · exact .inr (by rw [if_pos hname]; rfl)
      · exact .inl ⟨other, hother, hname⟩
    · split_ifs
      · exact .inr rfl
      · exact .inr h

/-- Every path has a row under its name, though it may not be the path's own. -/
theorem exists_row {path : String} (h : path ∈ paths) :
    ∃ owner, (recordName workdir path, owner) ∈ table workdir paths [] := by
  have hlookup : (Json.lookup (recordName workdir path) (table workdir paths [])).isSome = true :=
    lookup_table (.inl ⟨path, h, rfl⟩)
  obtain ⟨owner, howner⟩ := Option.isSome_iff_exists.1 hlookup
  exact ⟨owner, mem_of_lookup howner⟩

end Table

end ReadFile

/-! ## Reading -/

namespace FilesRead

/-- A column of a table. -/
def column (value : String → Json) (rows : List (String × String)) : List (String × Json) :=
  rows.map fun row => (row.1, value row.2)

theorem column_insertField (value : String → Json) (name path : String)
    (rows : List (String × String)) : column value (Json.insertField name path rows)
      = Json.insertField name (value path) (column value rows) := Json.map_insertField value name path rows

variable (files : Files)

/-- What was read, as contents and a table of files. -/
def ofTable (content : List Char) (rows : List (String × String)) : FilesRead where
  content := String.ofList content
  digests := column (fun path => .text (Digest.md5Text (files.bytesAt path))) rows
  sizes := column (fun path => .nat (files.bytesAt path).length) rows
  times := column (fun _ => .nat 0) rows
  modes := column (fun path => .text (String.ofList (Nat.toDigits 8 (files.modeAt path)))) rows
  error? := .none

/-- Before the first file the table is empty. -/
theorem none_eq_ofTable : FilesRead.none = ofTable files [] [] := by
  rw [none, ofTable, String.ofList_nil]
  rfl

/-- Another file puts its row into the table. -/
theorem add_ofTable (content : List Char) (rows : List (String × String)) (name path : String) :
    (ofTable files content rows).add name (files.bytesAt path) (files.modeAt path)
      = ofTable files (content ++ files.charsAt path) (Json.insertField name path rows) := by
  rw [add, ofTable, ofTable, Files.charsAt, String.ofList_append]
  simp only [column_insertField]

end FilesRead

namespace ReadFile

variable {files : Files}

/-- **Files are read to the last one**, and each adds its contents and a row. -/
theorem readAll_eq {workdir : String} {paths : List String}
    (h : ∀ path ∈ paths, files.isFile path = true) (content : List Char)
    (rows : List (String × String)) :
    readAll files workdir paths (FilesRead.ofTable files content rows)
      = FilesRead.ofTable files (content ++ paths.flatMap files.charsAt)
          (table workdir paths rows) := by
  -- on the files, for any that were read before them
  induction paths generalizing content rows with
  | nil =>
    rw [readAll, List.flatMap_nil, List.append_nil]
    rfl
  | cons path paths ih =>
    obtain ⟨hpath, hpaths⟩ := List.forall_mem_cons.1 h
    rw [readAll, Files.node_of_isFile hpath]
    dsimp only
    have hadd := FilesRead.add_ofTable files content rows (recordName workdir path) path
    rw [recordName] at hadd
    rw [hadd, ih hpaths, List.flatMap_cons, List.append_assoc]
    rfl

/-- What a step finds is some files, in order. -/
theorem targets_found (sound : files.Sound) {target : String} {paths : List String}
    (h : targets files target = .ok paths) :
    paths ≠ [] ∧ (∀ path ∈ paths, files.isFile path = true)
      ∧ paths.Pairwise (Path.le · · = true) := by
  obtain ⟨found, hfound, hpaths⟩ := ok_of_bind_ok h
  split at hpaths
  · cases hpaths
  · rename_i hempty
    cases hpaths
    refine ⟨fun hnil => hempty (List.isEmpty_iff.2 hnil), ?_⟩
    -- a directory is listed whole; anything else is a pattern
    split at hfound
    · cases hlist : filesIn files target none with
      | error e =>
        rw [hlist] at hfound
        cases hfound
      | ok listed =>
        rw [hlist] at hfound
        cases hfound
        exact filesIn_found hlist
    · cases hexpand : expandPattern files target with
      | error e =>
        rw [hexpand] at hfound
        cases hfound
      | ok expanded =>
        rw [hexpand] at hfound
        cases hfound
        exact expandPattern_found sound hexpand

/-- A marked path finds what its walk gives, as far as that is accepted and in order. -/
theorem targets_marked {target : String} (marked : hasGlobMark target = true)
    (unlisted : files.isDirectory target = false) {paths : List String}
    (hpaths : candidates files target = paths)
    (accepts : ((Glob.ofText target).toOption.any fun glob => paths.all glob.accepts) = true)
    (sorted : paths.Pairwise (Path.le · · = true)) (hne : paths ≠ []) :
    targets files target = .ok paths := by
  obtain ⟨glob, hglob, hall⟩ := (Option.any_eq_true _ _).1 accepts
  have hexpand : expandPattern files target = .ok paths := by
    rw [expandPattern_marked (ok_of_toOption hglob) marked, hpaths,
      List.filter_eq_self.2 (List.all_eq_true.1 hall), sortPaths, List.mergeSort_of_pairwise sorted]
  rw [targets, if_neg (Bool.eq_false_iff.1 unlisted), hexpand]
  exact if_neg (mt List.isEmpty_iff.1 hne)

/-- A step that finds nothing has an error. -/
theorem error_of_targets {p : ReadFile} {call : Call} {e : String}
    (h : targets files (p.target call) = .error e) : (p.read call files).error? = some e := by
  unfold read
  split
  · rename_i e' he
    cases h.symm.trans he
    rfl
  · rename_i found hfound
    cases h.symm.trans hfound

/-- What a step that finds files reads. -/
theorem read_eq (sound : files.Sound) {p : ReadFile} {call : Call} {paths : List String}
    (h : targets files (p.target call) = .ok paths) :
    p.read call files
      = FilesRead.ofTable files (paths.flatMap files.charsAt) (table call.workdir paths []) := by
  unfold read
  split
  · rename_i e he
    cases h.symm.trans he
  · rename_i found hfound
    cases h.symm.trans hfound
    rw [FilesRead.none_eq_ofTable files]
    exact readAll_eq (targets_found sound h).2.1 [] []

end ReadFile

/-! ## The result -/

namespace FilesRead

open Observed

/-- The fields of the result. -/
def fields (r : FilesRead) : List (String × Json) :=
  match r.result with
  | .object fields => fields
  | _ => []

/-- All fields that a result can have. -/
def fieldNames : List String :=
  ["content", "contentjson", "err", "md5sum", "size", "modtime", "mod", "timehuman", "timeseconds"]

/-- The columns stand in the result whether or not there was an error. -/
theorem columns_mem (r : FilesRead) : ("md5sum", .object r.digests) ∈ r.fields
    ∧ ("size", .object r.sizes) ∈ r.fields ∧ ("mod", .object r.modes) ∈ r.fields := by
  rw [fields, result]
  simp only [List.mem_append, List.mem_cons, true_or, or_true, and_self]

/-- An error stands there only if there was one, and parsed contents only without. -/
theorem keys_eq (r : FilesRead) : r.fields.map Prod.fst = fieldNames.filter fun key =>
    (key ≠ "err" || r.error?.isSome)
      && (key ≠ "contentjson" || r.error?.isNone && r.contentJson?.isSome) := by
  rw [fields, result]
  cases r.error? with
  | some e => rfl
  | none => cases r.contentJson? <;> rfl

theorem keys_sublist (r : FilesRead) : (r.fields.map Prod.fst).Sublist fieldNames :=
  r.keys_eq ▸ List.filter_sublist

/-- Every key of the result is plain, without dots and with small letters. -/
theorem isField_of_mem {r : FilesRead} : ∀ f ∈ r.fields, IsField f.1 := by
  have hall : ∀ key ∈ fieldNames, IsField key := by decide
  exact fun f hf => hall f.1 (r.keys_sublist.subset (List.mem_map_of_mem hf))

/-- **Each field of the result answers for its own paths.** -/
theorem get?_result (r : FilesRead) {key : String} {v : Json} (mem : (key, v) ∈ r.fields)
    {path : String} (hpath : field? path = some key.toList) :
    (ofJson r.result).get? path = (standing path (leaves (below root key) v)).getLast? :=
  get?_field isField_of_mem (r.keys_sublist.nodup (by decide)) mem hpath

/-- A field that is a leaf stands under its own path. -/
theorem get?_leaf (r : FilesRead) {key : String} {v : Json} (hkey : IsField key)
    (mem : (key, v) ∈ r.fields) (leaf : leaves (below root key) v = [(below root key, v)]) :
    (ofJson r.result).get? (below root key) = some v := by
  have hpath : field? (below root key) = some key.toList := field?_under hkey []
  rw [get?_result r mem hpath, leaf, standing_cons, if_pos rfl]
  rfl

/-- The contents are found under their key. -/
theorem get?_content (r : FilesRead) :
    (ofJson r.result).get? "result.content" = some (.text r.content) := by
  have hkey : IsField "content" := by decide
  have mem : ("content", Json.text r.content) ∈ r.fields := List.mem_cons_self
  have hpath : "result.content" = below root "content" := by decide
  rw [hpath]
  exact r.get?_leaf hkey mem rfl

/-- The result has an error iff there was one. -/
theorem get?_err (r : FilesRead) : (ofJson r.result).get? "result.err" = r.error?.map .text := by
  cases herror : r.error? with
  | some e =>
    have hkey : IsField "err" := by decide
    have mem : ("err", Json.text e) ∈ r.fields := by
      rw [fields, result, herror]
      exact List.mem_cons_of_mem _ List.mem_cons_self
    have hpath : "result.err" = below root "err" := by decide
    rw [hpath]
    exact r.get?_leaf hkey mem rfl
  | none =>
    -- without an error no field has the key, for it is left out of the list
    refine @get?_noField r.fields isField_of_mem (List.cons_ne_nil _ _) _ fun f hf heq => ?_
    have hkey : field? "result.err" = some "err".toList :=
      field?_under (show IsField "err" by decide) []
    have herr : f.1 = "err" := String.toList_inj.1 (Option.some.inj (heq.symm.trans hkey))
    have hmem := List.mem_map_of_mem (f := Prod.fst) hf
    rw [keys_eq, List.mem_filter, herror, herr] at hmem
    cases hmem.2

/-- **Under a name in a column stands what the table has last under it**, in any letter case. -/
theorem get?_column {r : FilesRead} {key : String} (hkey : IsField key) {value : String → Json}
    {rows : List (String × String)} (mem : (key, .object (column value rows)) ∈ r.fields)
    (scalar : ∀ above path, leaves above (value path) = [(above, value path)])
    (hrows : ∀ row ∈ rows, IsAscii row.1) (hne : rows ≠ []) {name : String} (hname : IsAscii name) :
    (ofJson r.result).get? (below (below root key) name)
      = (rows.filter fun row => sameIgnoringCase row.1 name).getLast?.map fun row => value row.2 := by
  -- a column is a row of leaves, one for each name
  have hleaves : leaves (below root key) (.object (column value rows))
      = rows.map fun row => (below (below root key) row.1, value row.2) := by
    obtain ⟨first, rest, rfl⟩ := List.exists_cons_of_ne_nil hne
    show fieldLeaves (below root key) (column value (first :: rest)) = _
    rw [fieldLeaves_eq, column, List.flatMap_map, List.map_eq_flatMap]
    exact List.flatMap_congr fun row _ => scalar _ _
  -- below the same key, paths are the same in any case iff the names are
  have hsame : ∀ row ∈ rows, lowercase (below (below root key) row.1)
      = lowercase (below (below root key) name) ↔ sameIgnoringCase row.1 name = true := by
    intro row hrow
    have hfront : IsAscii (below root key) := isAscii_below (by decide) hkey.1
    rw [lowercase_eq_iff (isAscii_below hfront (hrows row hrow)) (isAscii_below hfront hname),
      sameIgnoringCase_below]
  have hstanding : standing (below (below root key) name) (rows.map fun row =>
      (below (below root key) row.1, value row.2))
      = (rows.filter fun row => sameIgnoringCase row.1 name).map fun row => value row.2 := by
    rw [standing, List.filterMap_map, ← List.filterMap_eq_filter, List.map_filterMap]
    refine List.filterMap_congr fun row hrow => ?_
    rw [Function.comp_apply, Option.guard]
    simp only [hsame row hrow]
    split_ifs <;> rfl
  have hpath : field? (below (below root key) name) = some key.toList := field?_under hkey [name]
  rw [get?_result r mem hpath, hleaves, hstanding, List.getLast?_map]

end FilesRead

/-! ## The files of a call -/

namespace ReadFile

open Observed

variable {files : Files} {call : Call} {p : ReadFile}

/-- A step that says a path gives a result, whatever becomes of its files. -/
theorem outcome_eq (named : (trim p.path.toList).isEmpty = false) (call : Call) (files : Files) :
    p.outcome call files = .ok (Observed.ofJson (p.read call files).result) :=
  if_neg (Bool.eq_false_iff.1 named)

/-- Under a name stand digest, size and mode of the file that a path leads to. -/
def RecordedAs (files : Files) (observed : Observed) (name path : String) : Prop :=
  observed.get? ("result.md5sum." ++ name) = some (.text (Digest.md5Text (files.bytesAt path)))
    ∧ observed.get? ("result.size." ++ name) = some (.nat (files.bytesAt path).length)
    ∧ observed.get? ("result.mod." ++ name)
      = some (.text (String.ofList (Nat.toDigits 8 (files.modeAt path))))

/-- The last row under a name, in any letter case, is what all columns have there. -/
theorem recordedAs_of_getLast {content : List Char} {rows : List (String × String)}
    (ascii : ∀ row ∈ rows, IsAscii row.1) {name : String} (hname : IsAscii name)
    {row : String × String}
    (last : (rows.filter fun row => sameIgnoringCase row.1 name).getLast? = some row) :
    RecordedAs files (ofJson (FilesRead.ofTable files content rows).result) name row.2 := by
  have hne : rows ≠ [] := by
    rintro rfl
    cases last
  have hcolumn (key : String) (hkey : IsField key) (value : String → Json)
      (scalar : ∀ above path, leaves above (value path) = [(above, value path)])
      (mem : (key, Json.object (FilesRead.column value rows))
        ∈ (FilesRead.ofTable files content rows).fields) :
      (ofJson (FilesRead.ofTable files content rows).result).get? (below (below root key) name)
        = some (value row.2) := by
    rw [FilesRead.get?_column hkey mem scalar ascii hne hname, last]
    rfl
  obtain ⟨hdigests, hsizes, hmodes⟩ := (FilesRead.ofTable files content rows).columns_mem
  exact ⟨hcolumn "md5sum" (by decide) (fun path => .text (Digest.md5Text (files.bytesAt path)))
      (fun _ _ => rfl) hdigests,
    hcolumn "size" (by decide) (fun path => .nat (files.bytesAt path).length) (fun _ _ => rfl) hsizes,
    hcolumn "mod" (by decide)
      (fun path => .text (String.ofList (Nat.toDigits 8 (files.modeAt path)))) (fun _ _ => rfl) hmodes⟩

/-- **What a step records of the files that it finds.**  Let all of them have ASCII names.  The step gives
    a result, in which the contents of the files stand one after another, in the order of their paths.
    Under the name of each file stand digest, size and mode of one of the files that have this name but
    for letter case, so they are its own if there is no other. -/
theorem each_file_recorded (sound : files.Sound) (named : (trim p.path.toList).isEmpty = false)
    {paths : List String}
    (matched : targets files (p.target call) = .ok paths)
    (ascii : ∀ path ∈ paths, IsAscii (recordName call.workdir path)) :
    ∃ observed, p.outcome call files = .ok observed
      ∧ observed.get? "result.content" = some (.text (String.ofList (paths.flatMap files.charsAt)))
      ∧ paths.Pairwise (Path.le · · = true)
      ∧ ∀ path ∈ paths,
        files.node path = .ok (.file (files.bytesAt path) (files.modeAt path))
          ∧ (∃ owner ∈ paths, sameIgnoringCase (recordName call.workdir owner)
              (recordName call.workdir path) = true
            ∧ RecordedAs files observed (recordName call.workdir path) owner)
          ∧ ((∀ other ∈ paths, sameIgnoringCase (recordName call.workdir other)
              (recordName call.workdir path) = true → other = path) →
            RecordedAs files observed (recordName call.workdir path) path) := by
  obtain ⟨_, hfiles, hsorted⟩ := targets_found sound matched
  refine ⟨_, outcome_eq named call files, ?_, hsorted, ?_⟩
  · rw [FilesRead.get?_content, read_eq sound matched]
    rfl
  · intro path hpath
    have hrow : ∀ row ∈ table call.workdir paths [], row.2 ∈ paths
        ∧ row.1 = recordName call.workdir row.2 :=
      fun row h => (mem_table h).resolve_left List.not_mem_nil
    -- the file's own row is one of those under its name, so that there is a last one
    obtain ⟨last, hlast⟩ : ∃ last, ((table call.workdir paths []).filter fun row =>
        sameIgnoringCase row.1 (recordName call.workdir path)).getLast? = some last := by
      obtain ⟨owner, howner⟩ := exists_row hpath
      have hself : sameIgnoringCase (recordName call.workdir path) (recordName call.workdir path)
          = true := beq_self_eq_true _
      exact Option.isSome_iff_exists.1 (List.getLast?_isSome.2
        (List.ne_nil_of_mem (List.mem_filter.2 ⟨howner, hself⟩)))
    obtain ⟨hmem, hsame⟩ := List.mem_filter.1 (List.mem_of_getLast? hlast)
    obtain ⟨howner, hname⟩ := hrow last hmem
    rw [hname] at hsame
    have hrecorded : RecordedAs files (ofJson (p.read call files).result)
        (recordName call.workdir path) last.2 := by
      rw [read_eq sound matched]
      refine recordedAs_of_getLast (fun row h => ?_) (ascii path hpath) hlast
      exact (hrow row h).2 ▸ ascii row.2 (hrow row h).1
    refine ⟨Files.node_of_isFile (hfiles path hpath), ⟨last.2, howner, hsame, hrecorded⟩, ?_⟩
    intro alone
    rw [alone last.2 howner hsame] at hrecorded
    exact hrecorded

/-- A directory with two texts, seen from inside. -/
theorem each_file_recorded_texts :
    let files : Files :=
      ⟨.directory [("a.txt", .file [120] 0o644), ("b.txt", .file [121, 121] 0o600)], []⟩
    let call : Call := { aliases := Aliases.empty, suite := "s", case := "c", workdir := "." }
    ∃ observed, ReadFile.outcome ⟨"*.txt"⟩ call files = .ok observed
      ∧ observed.get? "result.content" = some (.text "xyy")
      ∧ observed.get? "result.md5sum.a.txt" = some (.text (Digest.md5Text [120]))
      ∧ observed.get? "result.size.b.txt" = some (.nat 2)
      ∧ observed.get? "result.mod.b.txt" = some (.text "600") := by
  intro files call
  have hname (n : String) (h : n ∈ ["a.txt", "b.txt"]) : IsName n := by
    fin_cases h <;> exact ⟨by decide, by decide, by decide, by decide⟩
  have sound : files.Sound := .directory (by decide)
    (List.forall_mem_cons.2 ⟨hname _ (by simp), List.forall_mem_singleton.2 (hname _ (by simp))⟩)
    (List.forall_mem_cons.2 ⟨.file _ _, List.forall_mem_singleton.2 (.file _ _)⟩)
  have matched : targets files (Path.join call.workdir (call.aliases.expand "*.txt"))
      = .ok ["./a.txt", "./b.txt"] := by
    have htarget : Path.join call.workdir (call.aliases.expand "*.txt") = "./*.txt" := by
      decide +kernel
    rw [htarget]
    exact targets_marked (by decide) (by decide +kernel) (by decide +kernel) (by decide +kernel)
      (by decide +kernel) (List.cons_ne_nil _ _)
  have hnames : recordName call.workdir "./a.txt" = "a.txt"
      ∧ recordName call.workdir "./b.txt" = "b.txt" := by decide +kernel
  have ascii : ∀ path ∈ ["./a.txt", "./b.txt"], IsAscii (recordName call.workdir path) := by
    decide +kernel
  obtain ⟨observed, houtcome, hcontent, _, hall⟩ :=
    each_file_recorded (p := ⟨"*.txt"⟩) sound (by decide) matched ascii
  have alone : ∀ path ∈ ["./a.txt", "./b.txt"], ∀ other ∈ ["./a.txt", "./b.txt"],
      sameIgnoringCase (recordName call.workdir other) (recordName call.workdir path) = true →
        other = path := by decide +kernel
  have hbytes : files.bytesAt "./a.txt" = [120] ∧ files.bytesAt "./b.txt" = [121, 121]
      ∧ files.modeAt "./b.txt" = 0o600 := by decide +kernel
  have htext : String.ofList (["./a.txt", "./b.txt"].flatMap files.charsAt) = "xyy" := by
    decide +kernel
  obtain ⟨hdigest, _, _⟩ := (hall "./a.txt" (by decide)).2.2 (alone _ (by decide))
  obtain ⟨_, hsize, hmode⟩ := (hall "./b.txt" (by decide)).2.2 (alone _ (by decide))
  rw [hnames.1, hbytes.1] at hdigest
  rw [hnames.2, hbytes.2.1] at hsize
  rw [hnames.2, hbytes.2.2] at hmode
  have hoctal : String.ofList (Nat.toDigits 8 0o600) = "600" := by decide +kernel
  rw [htext] at hcontent
  rw [hoctal] at hmode
  exact ⟨observed, houtcome, hcontent, hdigest, hsize, hmode⟩

/-- The entry of a file is replaced if another one has its name in other letters: under `A.txt` stands
    the size of `a.txt`. -/
theorem other_case_replaces :
    let files : Files :=
      ⟨.directory [("A.txt", .file [120] 0o644), ("a.txt", .file [121, 121] 0o644)], []⟩
    let call : Call := { aliases := Aliases.empty, suite := "s", case := "c", workdir := "." }
    targets files (Path.join call.workdir (call.aliases.expand "*.txt")) = .ok ["./A.txt", "./a.txt"]
      ∧ recordName call.workdir "./A.txt" = "A.txt" ∧ (files.bytesAt "./A.txt").length = 1
      ∧ ∃ observed, ReadFile.outcome ⟨"*.txt"⟩ call files = .ok observed
        ∧ observed.get? "result.size.A.txt" = some (.nat 2) := by
  intro files call
  have hname (n : String) (h : n ∈ ["A.txt", "a.txt"]) : IsName n := by
    fin_cases h <;> exact ⟨by decide, by decide, by decide, by decide⟩
  have sound : files.Sound := .directory (by decide)
    (List.forall_mem_cons.2 ⟨hname _ (by simp), List.forall_mem_singleton.2 (hname _ (by simp))⟩)
    (List.forall_mem_cons.2 ⟨.file _ _, List.forall_mem_singleton.2 (.file _ _)⟩)
  have matched : targets files (Path.join call.workdir (call.aliases.expand "*.txt"))
      = .ok ["./A.txt", "./a.txt"] := by
    have htarget : Path.join call.workdir (call.aliases.expand "*.txt") = "./*.txt" := by
      decide +kernel
    rw [htarget]
    exact targets_marked (by decide) (by decide +kernel) (by decide +kernel) (by decide +kernel)
      (by decide +kernel) (List.cons_ne_nil _ _)
  have hrows : table call.workdir ["./A.txt", "./a.txt"] []
      = [("A.txt", "./A.txt"), ("a.txt", "./a.txt")] := by decide +kernel
  have hlength : (files.bytesAt "./a.txt").length = 2 := by decide +kernel
  refine ⟨matched, by decide +kernel, by decide +kernel, _, outcome_eq (by decide) call files, ?_⟩
  have ascii : ∀ row ∈ [("A.txt", "./A.txt"), ("a.txt", "./a.txt")], IsAscii row.1 := by decide
  have last : ([("A.txt", "./A.txt"), ("a.txt", "./a.txt")].filter fun row =>
      sameIgnoringCase row.1 "A.txt").getLast? = some ("a.txt", "./a.txt") := by decide
  have hrecorded := @recordedAs_of_getLast files (["./A.txt", "./a.txt"].flatMap files.charsAt) _ ascii
    "A.txt" (by decide) _ last
  rw [read_eq sound matched, hrows]
  exact hlength ▸ hrecorded.2.1

end ReadFile

end TestBench
