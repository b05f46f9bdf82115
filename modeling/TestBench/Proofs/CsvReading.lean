import Mathlib
import TestBench.Report.Csv
import TestBench.Text.Search
/-
  Comma-separated values, read back.

  1. `Csv.IsField`, `IsRecord` and `IsFile` are the grammar of RFC 4180, with a line feed at the end of a
     record: a field outside quotes holds no comma, quote or line break, one between quotes holds
     anything, with each quote in it written twice.
  2. A reader goes over a text character by character; what it knows is the field that it is in
     (`Csv.Place`).  It follows the grammar (`read?_of_isFile`), so a text is read in one way at most
     (`IsFile.unique`).
  3. A writer may put more fields between quotes than it has to.  As long as it does so with those that
     hold a comma, a quote or a line break, each field, record and file that it writes is of the grammar
     (`isField_fieldBy`, `isRecord_recordBy`, `isFile_records`); so the report is read as the table that
     was meant (`csv_reads_back`).
-/
namespace TestBench

open TestBench.Text

namespace Csv

/-! ## The grammar -/

/-- A character that needs no quotes around it. -/
def isPlain (c : Char) : Bool := c ≠ ',' && c ≠ '"' && c ≠ '\n' && c ≠ '\r'

/-- What stands between the quotes of a field, and the text that it writes. -/
inductive IsQuoted : List Char → List Char → Prop where
  | nil : IsQuoted [] []
  | char {c : Char} {s t : List Char} (other : c ≠ '"') (rest : IsQuoted s t) :
      IsQuoted (c :: s) (c :: t)
  | quote {s t : List Char} (rest : IsQuoted s t) : IsQuoted ('"' :: '"' :: s) ('"' :: t)

/-- What writes a field. -/
inductive IsField : List Char → List Char → Prop where
  | plain {s : List Char} (all : ∀ c ∈ s, isPlain c = true) : IsField s s
  | quoted {s t : List Char} (inside : IsQuoted s t) : IsField ('"' :: s ++ ['"']) t

/-- What writes the fields of a record; there is at least one. -/
inductive IsRecord : List Char → List (List Char) → Prop where
  | last {s f : List Char} (field : IsField s f) : IsRecord s [f]
  | comma {s f r : List Char} {fs : List (List Char)} (field : IsField s f) (rest : IsRecord r fs) :
      IsRecord (s ++ ',' :: r) (f :: fs)

/-- What writes records.  The last one may lack its line feed. -/
inductive IsFile : List Char → List (List (List Char)) → Prop where
  | nil : IsFile [] []
  | last {s : List Char} {fs : List (List Char)} (record : IsRecord s fs) (some : s ≠ []) :
      IsFile s [fs]
  | lineFeed {s r : List Char} {fs : List (List Char)} {rs : List (List (List Char))}
      (record : IsRecord s fs) (rest : IsFile r rs) : IsFile (s ++ '\n' :: r) (fs :: rs)

/-- A text is read as a table. -/
def Reads (text : String) (table : List (List String)) : Prop :=
  IsFile text.toList (table.map fun fields => fields.map String.toList)

/-! ## A reader -/

/-- Where in a field a reader is. -/
inductive Place where
  | start
  | plain
  | quoted
  /-- Behind a quote that ends the field, or is the first of two. -/
  | closed
  deriving DecidableEq

/-- A reader of records; what it has read stands last one first. -/
structure Reader where
  place : Place
  field : List Char
  fields : List (List Char)
  records : List (List (List Char))

namespace Reader

/-- Puts a character into the field. -/
def push (r : Reader) (place : Place) (c : Char) : Reader := { r with place, field := c :: r.field }

/-- The fields of the record, with the one that is being read. -/
def allFields (r : Reader) : List (List Char) := (r.field.reverse :: r.fields).reverse

/-- A character inside quotes. -/
def inside (r : Reader) (c : Char) : Reader :=
  if c = '"' then { r with place := .closed } else r.push .quoted c

/-- A character where no quotes are open. -/
def outside (r : Reader) (c : Char) : Option Reader :=
  if c = ',' then some ⟨.start, [], r.field.reverse :: r.fields, r.records⟩
  else if c = '\n' then some ⟨.start, [], [], r.allFields :: r.records⟩
  else match r.place with
    | .start =>
      if c = '"' then some { r with place := .quoted }
      else if c = '\r' then none else some (r.push .plain c)
    | .plain => if c = '"' ∨ c = '\r' then none else some (r.push .plain c)
    | .closed => if c = '"' then some (r.push .quoted c) else none
    | .quoted => none

/-- What the reader does with the next character. -/
def step (r : Reader) (c : Char) : Option Reader :=
  if r.place = .quoted then some (r.inside c) else r.outside c

/-- The records at the end of the text. -/
def finish (r : Reader) : Option (List (List (List Char))) :=
  if r.place = .quoted then none
  else if r.place = .start ∧ r.fields = [] then some r.records.reverse
  else some (r.allFields :: r.records).reverse

end Reader

/-- The records that a text writes. -/
def read? (s : List Char) : Option (List (List (List Char))) :=
  (s.foldlM Reader.step ⟨.start, [], [], []⟩).bind Reader.finish

/-! ## The reader follows the grammar -/

namespace Reader

variable {fields : List (List Char)} {records : List (List (List Char))}

theorem step_quoted (field : List Char) (c : Char) :
    step ⟨.quoted, field, fields, records⟩ c = some (inside ⟨.quoted, field, fields, records⟩ c) :=
  if_pos rfl

theorem step_unquoted {place : Place} (outside : place ≠ .quoted) (field : List Char) (c : Char) :
    step ⟨place, field, fields, records⟩ c
      = Reader.outside ⟨place, field, fields, records⟩ c := if_neg outside

/-- Outside quotes a comma ends the field. -/
theorem step_comma {place : Place} (outside : place ≠ .quoted) (field : List Char) :
    step ⟨place, field, fields, records⟩ ','
      = some ⟨.start, [], field.reverse :: fields, records⟩ := by
  rw [step_unquoted outside]
  rfl

/-- Outside quotes a line feed ends the record. -/
theorem step_lineFeed {place : Place} (outside : place ≠ .quoted) (field : List Char) :
    step ⟨place, field, fields, records⟩ '\n'
      = some ⟨.start, [], [], (fields.reverse ++ [field.reverse]) :: records⟩ := by
  rw [step_unquoted outside, Reader.outside, if_neg (by decide), if_pos rfl, allFields,
    List.reverse_cons]

/-- Characters that need no quotes are put into the field. -/
theorem fold_plain (fields : List (List Char)) (records : List (List (List Char))) {s : List Char}
    (all : ∀ c ∈ s, isPlain c = true) : ∀ field : List Char, s.foldlM step ⟨.plain, field, fields, records⟩
      = some ⟨.plain, s.reverse ++ field, fields, records⟩ := by
  induction s with
  | nil => exact fun _ => rfl
  | cons c s ih =>
    intro field
    obtain ⟨hc, hs⟩ := List.forall_mem_cons.1 all
    simp only [isPlain, Bool.and_eq_true, decide_eq_true_iff] at hc
    obtain ⟨⟨⟨hcomma, hquote⟩, hfeed⟩, hreturn⟩ := hc
    -- none of the four characters that mean something, so the character is kept
    have hstep : step ⟨.plain, field, fields, records⟩ c
        = some ⟨.plain, c :: field, fields, records⟩ := by
      rw [step_unquoted (by decide), Reader.outside, if_neg hcomma, if_neg hfeed]
      exact if_neg (not_or.2 ⟨hquote, hreturn⟩)
    rw [List.foldlM_cons, hstep]
    show s.foldlM step ⟨.plain, c :: field, fields, records⟩ = _
    rw [ih hs, List.reverse_cons, List.append_assoc]
    rfl

/-- The first character of a field is treated as the others, unless it is a quote. -/
theorem step_start {c : Char} (h : c ≠ '"') :
    step ⟨.start, [], fields, records⟩ c = step ⟨.plain, [], fields, records⟩ c := by
  rw [step_unquoted (by decide), step_unquoted (by decide), Reader.outside, Reader.outside]
  simp only [h, false_or, if_false]
  rfl

/-- Inside quotes everything is put into the field, and two quotes are one. -/
theorem fold_quoted {s t : List Char} (h : IsQuoted s t) : ∀ field : List Char,
    s.foldlM step ⟨.quoted, field, fields, records⟩
      = some ⟨.quoted, t.reverse ++ field, fields, records⟩ := by
  induction h with
  | nil => exact fun _ => rfl
  | @char c s t other _ ih =>
    intro field
    rw [List.foldlM_cons, step_quoted, inside, if_neg other]
    show s.foldlM step ⟨.quoted, c :: field, fields, records⟩ = _
    rw [ih, List.reverse_cons, List.append_assoc]
    rfl
  -- the first quote closes, and the second one opens again and is kept
  | @quote s t _ ih =>
    intro field
    show s.foldlM step ⟨.quoted, '"' :: field, fields, records⟩ = _
    rw [ih, List.reverse_cons, List.append_assoc]
    rfl

/-- Behind a field the reader holds it, and no quotes are open. -/
theorem fold_field (fields : List (List Char)) (records : List (List (List Char))) {s f : List Char}
    (h : IsField s f) :
    ∃ place, place ≠ .quoted ∧ (place = .start → s = [])
      ∧ s.foldlM step ⟨.start, [], fields, records⟩ = some ⟨place, f.reverse, fields, records⟩ := by
  cases h with
  | plain all =>
    -- an empty field leaves the reader where a record begins
    cases s with
    | nil => exact ⟨.start, by decide, fun _ => rfl, rfl⟩
    | cons c s =>
      refine ⟨.plain, by decide, (nomatch ·), ?_⟩
      have hquote : c ≠ '"' := by
        rintro rfl
        exact absurd (all _ List.mem_cons_self) (by decide)
      have hfold := fold_plain fields records all []
      rw [List.append_nil] at hfold
      rw [← hfold, List.foldlM_cons, List.foldlM_cons, step_start hquote]
  | @quoted s t inside =>
    refine ⟨.closed, by decide, (nomatch ·), ?_⟩
    show (s ++ ['"']).foldlM step ⟨.quoted, [], fields, records⟩ = _
    rw [List.foldlM_append, fold_quoted inside, List.append_nil]
    rfl

/-- Behind a record the reader holds its last field, and the others are those read before. -/
theorem fold_record (records : List (List (List Char))) {s : List Char} {fs : List (List Char)}
    (h : IsRecord s fs) :
    ∀ fields : List (List Char), ∃ place front f, place ≠ .quoted ∧ fs = front ++ [f]
      ∧ (place = .start ∧ front = [] → s = [])
      ∧ s.foldlM step ⟨.start, [], fields, records⟩
        = some ⟨place, f.reverse, front.reverse ++ fields, records⟩ := by
  induction h with
  | @last s f field =>
    intro fields
    obtain ⟨place, outside, empty, hfold⟩ := fold_field fields records field
    exact ⟨place, [], f, outside, rfl, fun h => empty h.1, hfold⟩
  -- the comma takes this field to those before, and the rest begins with none
  | @comma s f r fs field _ ih =>
    intro fields
    obtain ⟨place, outside, _, hfield⟩ := fold_field fields records field
    obtain ⟨place', front, g, outside', rfl, _, hrest⟩ := ih (f :: fields)
    refine ⟨place', f :: front, g, outside', rfl, fun h => absurd h.2 (List.cons_ne_nil _ _), ?_⟩
    rw [List.foldlM_append, hfield]
    show (',' :: r).foldlM step ⟨place, f.reverse, fields, records⟩ = _
    rw [List.foldlM_cons, step_comma outside, List.reverse_reverse]
    show r.foldlM step ⟨.start, [], f :: fields, records⟩ = _
    rw [hrest, List.reverse_cons, List.append_assoc]
    rfl

/-- A file is read record by record, and what was read before stays in front. -/
theorem fold_file {s : List Char} {rs : List (List (List Char))} (h : IsFile s rs) :
    ∀ records : List (List (List Char)),
      (s.foldlM step ⟨.start, [], [], records⟩).bind finish = some (records.reverse ++ rs) := by
  induction h with
  | nil => exact fun records => congrArg some (List.append_nil _).symm
  -- without a line feed at the end the last record has to be something
  | @last s fs record some =>
    intro records
    obtain ⟨place, front, f, outside, rfl, empty, hfold⟩ := fold_record records record []
    rw [hfold, Option.bind_some, finish, if_neg outside, List.append_nil, if_neg, allFields]
    · simp
    · exact fun h => some (empty ⟨h.1, List.reverse_eq_nil_iff.1 h.2⟩)
  | @lineFeed s r fs rs record _ ih =>
    intro records
    obtain ⟨place, front, f, outside, rfl, _, hfold⟩ := fold_record records record []
    rw [List.foldlM_append, hfold, List.append_nil]
    show (('\n' :: r).foldlM step ⟨place, f.reverse, front.reverse, records⟩).bind finish = _
    rw [List.foldlM_cons, step_lineFeed outside, List.reverse_reverse, List.reverse_reverse]
    show (r.foldlM step ⟨.start, [], [], (front ++ [f]) :: records⟩).bind finish = _
    rw [ih, List.reverse_cons, List.append_assoc]
    rfl

end Reader

/-- A text that is a file of records is read as these. -/
theorem read?_of_isFile {s : List Char} {rs : List (List (List Char))} (h : IsFile s rs) :
    read? s = some rs := Reader.fold_file h []

example : read? "a,\"b\"\"c\n\"\n".toList = some [[['a'], ['b', '"', 'c', '\n']]] := by decide

/-- A text is a file of records in one way at most. -/
theorem IsFile.unique {s : List Char} {rs rs' : List (List (List Char))} (h : IsFile s rs)
    (h' : IsFile s rs') : rs = rs' :=
  Option.some.inj ((read?_of_isFile h).symm.trans (read?_of_isFile h'))

theorem Reads.unique {text : String} {table table' : List (List String)} (h : Reads text table)
    (h' : Reads text table') : table = table' :=
  List.map_injective_iff.2 (List.map_injective_iff.2 fun _ _ => String.toList_injective)
    (IsFile.unique h h')

/-! ## Writers -/

variable (quotes : List Char → Bool)

/-- A field as a writer has it that puts some fields between quotes. -/
def fieldBy (s : List Char) : List Char := if quotes s then '"' :: doubleQuotes s ++ ['"'] else s

/-- A record and the line feed that ends it. -/
def recordBy (fields : List String) : List Char :=
  joinChar ',' (fields.map fun f => fieldBy quotes f.toList) ++ ['\n']

theorem joinChar_needsQuotes : ∀ fs : List (List Char),
    joinChar ',' (fs.map (fieldBy needsQuotes)) = fields fs
  | [] => rfl
  | [_] => rfl
  | f :: g :: rest => congrArg (field f ++ ',' :: ·) (joinChar_needsQuotes (g :: rest))

theorem recordBy_needsQuotes (fs : List String) : recordBy needsQuotes fs = record fs := by
  rw [recordBy, record, ← joinChar_needsQuotes, List.map_map]
  rfl

/-- Doubling quotes makes a text that may stand between quotes. -/
theorem isQuoted_doubleQuotes (s : List Char) : IsQuoted (doubleQuotes s) s := by
  induction s with
  | nil => exact .nil
  | cons c s ih =>
    rw [doubleQuotes]
    split_ifs with h
    · exact h ▸ .quote ih
    · exact .char h ih

variable {quotes} (covers : ∀ s, needsQuotes s = true → quotes s = true)

include covers

/-- A field without quotes around it needs none. -/
theorem isField_fieldBy (s : List Char) : IsField (fieldBy quotes s) s := by
  rw [fieldBy]
  split_ifs with h
  · exact .quoted (isQuoted_doubleQuotes s)
  · have hneeds : needsQuotes s = false := Bool.eq_false_iff.2 (mt (covers s) h)
    refine .plain fun c hc => ?_
    have hc := List.any_eq_false.1 hneeds c hc
    simpa [isPlain, and_assoc] using hc

/-- A line is a record and a line feed. -/
theorem isRecord_recordBy (f : String) (fs : List String) :
    ∃ s, recordBy quotes (f :: fs) = s ++ ['\n'] ∧ IsRecord s ((f :: fs).map String.toList) := by
  refine ⟨_, rfl, ?_⟩
  induction fs generalizing f with
  | nil => exact .last (isField_fieldBy covers _)
  | cons g fs ih => exact .comma (isField_fieldBy covers _) (ih g)

/-- Lines one behind another are a file. -/
theorem isFile_records {table : List (List String)} (filled : ∀ fields ∈ table, fields ≠ []) :
    IsFile (table.flatMap (recordBy quotes)) (table.map fun fields => fields.map String.toList) := by
  induction table with
  | nil => exact .nil
  | cons fields table ih =>
    obtain ⟨hfields, htable⟩ := List.forall_mem_cons.1 filled
    obtain ⟨f, fs, rfl⟩ := List.exists_cons_of_ne_nil hfields
    obtain ⟨s, hs, record⟩ := isRecord_recordBy covers f fs
    rw [List.flatMap_cons, hs, List.append_assoc]
    exact .lineFeed record (ih htable)

end Csv

/-! ## The report -/

/-- The report of a writer that puts some fields between quotes. -/
def Run.csvBy (quotes : List Char → Bool) (r : Run) : String :=
  match r.totals.suites with
  | [] => ""
  | suites => String.ofList ((csvHeader :: suites.map Suite.csvRow).flatMap (Csv.recordBy quotes))

theorem Run.csvBy_needsQuotes (r : Run) : r.csvBy Csv.needsQuotes = r.csv := by
  have hrecord : Csv.recordBy Csv.needsQuotes = Csv.record := funext Csv.recordBy_needsQuotes
  rw [csvBy, hrecord]
  rfl

/-- **The report is read as the table that it shows.**  Without a suite it is empty.  With some it is read,
    in one way only, as the names of the columns and a record for each suite, in their order, if all
    fields that hold a comma, a quote or a line break are put between quotes; and they are. -/
theorem csv_reads_back (r : Run) :
    (r.totals.suites = [] → ∀ quotes, r.csvBy quotes = "")
      ∧ (r.totals.suites ≠ [] → ∀ quotes : List Char → Bool,
        (∀ s, Csv.needsQuotes s = true → quotes s = true) →
          ∀ table, Csv.Reads (r.csvBy quotes) table
            ↔ table = ["suite", "package", "total", "failures", "errors", "skipped", "status"]
              :: r.totals.suites.map fun s =>
                [s.name, s.package, toString s.total, toString s.failures, toString s.errors,
                  toString s.skipped, if 0 < s.failures ∨ 0 < s.errors then "ko" else "ok"])
      ∧ r.csvBy Csv.needsQuotes = r.csv := by
  refine ⟨fun empty quotes => ?_, fun some quotes covers table => ?_, r.csvBy_needsQuotes⟩
  · rw [Run.csvBy, empty]
  · have hrow (s : Suite) : s.csvRow
        = [s.name, s.package, toString s.total, toString s.failures, toString s.errors,
          toString s.skipped, if 0 < s.failures ∨ 0 < s.errors then "ko" else "ok"] := by
      -- the status column says what the two counters do
      have hpassed : s.passed = true ↔ ¬ (0 < s.failures ∨ 0 < s.errors) := by
        rw [Suite.passed, Bool.and_eq_true, beq_iff_eq, beq_iff_eq]
        omega
      rw [Suite.csvRow]
      simp only [hpassed, ite_not]
    have htext : (r.csvBy quotes).toList
        = (csvHeader :: r.totals.suites.map Suite.csvRow).flatMap (Csv.recordBy quotes) := by
      rw [Run.csvBy]
      split
      · rename_i empty
        exact absurd empty some
      · exact String.toList_ofList
    have hreads : Csv.Reads (r.csvBy quotes) (csvHeader :: r.totals.suites.map Suite.csvRow) := by
      rw [Csv.Reads, htext]
      refine Csv.isFile_records covers (List.forall_mem_cons.2 ⟨List.cons_ne_nil _ _, ?_⟩)
      intro fields hfields
      obtain ⟨s, _, rfl⟩ := List.mem_map.1 hfields
      exact List.cons_ne_nil _ _
    simp only [← hrow]
    exact ⟨fun h => h.unique hreads, fun h => h ▸ hreads⟩

/-- Two suites with names out of blanks, commas, quotes and line breaks, and one without a name. -/
theorem csv_reads_back_awkward :
    let suite (name package : String) (failures errors : Nat) : Suite :=
      { name, package, cases := [], total := 2, failures, errors, skipped := 1 }
    let suites := [suite " a,b\n\"c\"\r [x]" "x" 1 0, suite "" "" 0 0, suite "s" "\"" 0 3]
    let r : Run := ⟨⟨suites, 3, 2, 1, 6⟩, ⟨0, 0⟩, 0⟩
    Csv.Reads r.csv
      [["suite", "package", "total", "failures", "errors", "skipped", "status"],
        [" a,b\n\"c\"\r [x]", "x", "2", "1", "0", "1", "ko"], ["", "", "2", "0", "0", "1", "ok"],
        ["s", "\"", "2", "0", "3", "1", "ko"]] := by
  intro suite suites r
  obtain ⟨_, some, writer⟩ := csv_reads_back r
  have reads := some (List.cons_ne_nil _ _) Csv.needsQuotes fun _ h => h
  rw [writer] at reads
  exact (reads _).2 (by decide +kernel)

end TestBench
