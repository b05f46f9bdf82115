import Mathlib
import TestBench.Proofs.ExactValues
import TestBench.Proofs.Reporting
import TestBench.Proofs.Timestamps
import TestBench.Proofs.UnreadKeys
/-
  A report in JSON, read back.

  1. The document of a run is exact if the steps and the numbers in it are (`Run.Exact.document`).  So
     each JSON report of such a run exists, and its text is read to the document iff this does not nest
     too deep, which depends on the steps alone (`Run.nesting_document_lt_iff`).
  2. What is decoded from the form of a document is what the document was made from, without what
     belongs to a run: packages, counters of suites, and records (`decodeRun_document`).
  3. Nothing else is lost.  Hence reading a report again changes nothing, and it changes nothing the first
     time iff there was nothing to lose (`json_report_reads_back`).
-/
namespace TestBench

open TestBench.Yaml

/-! ## What is left -/

/-- A case as it is read back: without its records. -/
def Case.reset (c : Case) : Case := .fresh c.name c.steps c.skipped

/-- A suite as it is read back: without its package, its counters, and the records of its cases. -/
def Suite.reset (s : Suite) : Suite := .fresh s.name (s.cases.map Case.reset)

/-- A run as it is read back. -/
def Run.reset (r : Run) : Run :=
  { r with totals := { r.totals with suites := r.totals.suites.map Suite.reset } }

/-! ## Documents -/

/-- Records are a field, or none. -/
def recordFields (key : String) (texts : List String) : List (String × Yaml) :=
  if texts.isEmpty then [] else [(key, .sequence (texts.map fun s => .mapping (named [("value", .text s)])))]

/-- The fields of the document of a case; records only where there are some. -/
def Case.fields (c : Case) : List (String × Yaml) :=
  [("name", .text c.name), ("steps", .sequence (c.steps.map fun s => .mapping s.entries)),
    ("skipped", nat (if c.skipped then 1 else 0))]
    ++ (recordFields "failures" c.failures ++ recordFields "errors" c.errors)

/-- The fields of the document of a suite. -/
def Suite.fields (s : Suite) : List (String × Yaml) :=
  [("name", .text s.name), ("package", .text s.package),
    ("testcases", .sequence (s.cases.map Case.document)), ("total", nat s.total),
    ("failures", nat s.failures), ("errors", nat s.errors), ("skipped", nat s.skipped)]

/-- The fields of the document of a run. -/
def Run.fields (r : Run) : List (String × Yaml) :=
  [("test_suites", .sequence (r.totals.suites.map Suite.document)), ("total_ok", nat r.totals.ok),
    ("total_ko", nat r.totals.ko), ("total_skipped", nat r.totals.skipped),
    ("total", nat r.totals.total), ("started_at", .text r.startedAt.text),
    ("duration_ms", nat r.durationMs)]

theorem recordsEntry_eq (key : String) (texts : List String) :
    recordsEntry key texts = named (recordFields key texts) := by
  rw [recordsEntry, recordFields]
  split <;> rfl

/-- The document of a case is the record of its fields. -/
theorem Case.document_eq (c : Case) : c.document = .mapping (named c.fields) := by
  rw [Case.document, recordsEntry_eq, recordsEntry_eq, Case.fields, named, named, named, List.map_append,
    List.map_append, List.append_assoc]
  rfl

theorem Suite.document_eq (s : Suite) : s.document = .mapping (named s.fields) := rfl

theorem Run.document_eq (r : Run) : r.document = .mapping (named r.fields) := rfl

/-! ## Exact documents -/

/-- The counters of a suite are words. -/
structure Suite.Words (s : Suite) : Prop where
  total : s.total < 2 ^ 64
  failures : s.failures < 2 ^ 64
  errors : s.errors < 2 ^ 64
  skipped : s.skipped < 2 ^ 64

/-- A step that JSON holds as it is. -/
def Step.Exact (step : Step) : Prop := (Yaml.mapping step.entries).Exact

/-- A run whose steps JSON holds as they are, whose numbers are words, and whose beginning is a point in
    time that there is. -/
structure Run.Exact (r : Run) : Prop where
  steps : ∀ s ∈ r.totals.suites, s.AllSteps Step.Exact
  suites : ∀ s ∈ r.totals.suites, s.Words
  ok : r.totals.ok < 2 ^ 64
  ko : r.totals.ko < 2 ^ 64
  skipped : r.totals.skipped < 2 ^ 64
  total : r.totals.total < 2 ^ 64
  startedAt : r.startedAt.Valid
  durationMs : r.durationMs < 2 ^ 64

namespace Yaml

theorem exact_nat {n : Nat} (h : n < 2 ^ 64) : (nat n).Exact :=
  .int ⟨by omega, by omega⟩

/-- A field of records has its own key, or is not there. -/
theorem keys_recordFields (key : String) (texts : List String) :
    ((recordFields key texts).map Prod.fst).Sublist [key] := by
  rw [recordFields]
  split
  · exact List.nil_sublist _
  · exact List.Sublist.refl _

theorem exact_recordFields (key : String) (texts : List String) :
    ∀ f ∈ recordFields key texts, f.2.Exact := by
  rw [recordFields]
  split
  · exact List.forall_mem_nil _
  · refine List.forall_mem_singleton.2 (.sequence (List.forall_mem_map.2 fun s _ => ?_))
    exact .mapping (List.nodup_singleton _) (List.forall_mem_singleton.2 (.text s))

end Yaml

/-- The document of a case is exact if its steps are. -/
theorem Case.exact_document {c : Case} (steps : ∀ step ∈ c.steps, step.Exact) : c.document.Exact := by
  rw [Case.document_eq]
  refine .mapping ?_ ?_
  · -- all keys that there may be are different, so are those that there are
    have hkeys : (c.fields.map Prod.fst).Sublist ["name", "steps", "skipped", "failures", "errors"] := by
      rw [Case.fields, List.map_append, List.map_append]
      exact ((keys_recordFields _ _).append (keys_recordFields _ _)).append_left _
    exact hkeys.nodup (by decide)
  · rw [Case.fields]
    refine List.forall_mem_append.2 ⟨?_, List.forall_mem_append.2
      ⟨exact_recordFields _ _, exact_recordFields _ _⟩⟩
    simp only [List.forall_mem_cons]
    refine ⟨.text _, .sequence (List.forall_mem_map.2 steps), exact_nat ?_,
      List.forall_mem_nil _⟩
    split <;> decide

/-- So is that of a suite whose counters fit words. -/
theorem Suite.exact_document {s : Suite} (steps : s.AllSteps Step.Exact) (words : s.Words) :
    s.document.Exact := by
  rw [Suite.document_eq]
  have hkeys : s.fields.map Prod.fst
      = ["name", "package", "testcases", "total", "failures", "errors", "skipped"] := rfl
  refine .mapping (hkeys ▸ by decide) ?_
  simp only [Suite.fields, List.forall_mem_cons]
  exact ⟨.text _, .text _, .sequence (List.forall_mem_map.2 fun c hc => Case.exact_document (steps c hc)),
    exact_nat words.total, exact_nat words.failures, exact_nat words.errors, exact_nat words.skipped,
    List.forall_mem_nil _⟩

/-- And that of an exact run. -/
theorem Run.Exact.document {r : Run} (exact : r.Exact) : r.document.Exact := by
  rw [Run.document_eq]
  have hkeys : r.fields.map Prod.fst = ["test_suites", "total_ok", "total_ko", "total_skipped", "total",
      "started_at", "duration_ms"] := rfl
  refine .mapping (hkeys ▸ by decide) ?_
  simp only [Run.fields, List.forall_mem_cons]
  exact ⟨.sequence (List.forall_mem_map.2 fun s hs =>
      Suite.exact_document (exact.steps s hs) (exact.suites s hs)),
    exact_nat exact.ok, exact_nat exact.ko, exact_nat exact.skipped, exact_nat exact.total, .text _,
    exact_nat exact.durationMs, List.forall_mem_nil _⟩

/-! ## How deep a document nests -/

/-- The steps of a run nest as deep at most as there is room for below six arrays and objects. -/
def Run.Shallow (r : Run) : Prop :=
  ∀ s ∈ r.totals.suites, s.AllSteps fun step => (Yaml.mapping step.entries).nesting ≤ 121

/-- Records do not nest deep. -/
theorem Yaml.nesting_recordFields (key : String) (texts : List String) :
    ∀ f ∈ recordFields key texts, f.2.nesting ≤ 2 := by
  rw [recordFields]
  split
  · exact List.forall_mem_nil _
  · refine List.forall_mem_singleton.2 (nesting_sequence_le.2 (List.forall_mem_map.2 fun s _ => ?_))
    exact nesting_mapping_le.2 (List.forall_mem_singleton.2 (Nat.le_refl 0))

/-- A case is two levels deeper than its steps. -/
theorem Case.nesting_document_le {c : Case} {n : Nat} (pos : 1 ≤ n) : c.document.nesting ≤ n + 2
    ↔ ∀ step ∈ c.steps, (Yaml.mapping step.entries).nesting ≤ n := by
  have hrecords (key : String) (texts : List String) :
      ∀ f ∈ recordFields key texts, f.2.nesting ≤ n + 1 :=
    fun f hf => (nesting_recordFields key texts f hf).trans (Nat.succ_le_succ pos)
  rw [Case.document_eq, nesting_mapping_le, Case.fields, List.forall_mem_append, and_iff_left
    (List.forall_mem_append.2 ⟨hrecords _ _, hrecords _ _⟩)]
  simp only [List.forall_mem_cons, nesting_sequence_le, List.forall_mem_map]
  exact ⟨fun h => h.2.1, fun h => ⟨Nat.zero_le _, h, Nat.zero_le _, List.forall_mem_nil _⟩⟩

/-- A suite is four levels deeper than its steps. -/
theorem Suite.nesting_document_le {s : Suite} {n : Nat} (pos : 1 ≤ n) : s.document.nesting ≤ n + 4
    ↔ s.AllSteps fun step => (Yaml.mapping step.entries).nesting ≤ n := by
  rw [Suite.document_eq, nesting_mapping_le]
  simp only [Suite.fields, List.forall_mem_cons, nesting_sequence_le, List.forall_mem_map,
    Case.nesting_document_le pos]
  exact ⟨fun h => h.2.2.1, fun h => ⟨Nat.zero_le _, Nat.zero_le _, h, Nat.zero_le _, Nat.zero_le _,
    Nat.zero_le _, Nat.zero_le _, List.forall_mem_nil _⟩⟩

/-- There is room for a document iff there is room for the steps. -/
theorem Run.nesting_document_lt_iff (r : Run) : r.document.nesting < Json.depthLimit ↔ r.Shallow := by
  have hlimit : r.document.nesting < Json.depthLimit ↔ r.document.nesting ≤ 126 + 1 := Nat.lt_succ_iff
  rw [hlimit, Run.document_eq, nesting_mapping_le]
  simp only [Run.fields, List.forall_mem_cons, nesting_sequence_le, List.forall_mem_map,
    Suite.nesting_document_le (n := 121) (by decide)]
  exact ⟨fun h => h.1, fun h => ⟨h, Nat.zero_le _, Nat.zero_le _, Nat.zero_le _, Nat.zero_le _,
    Nat.zero_le _, Nat.zero_le _, List.forall_mem_nil _⟩⟩

/-! ## Decoding -/

section Record

variable {σ α : Type} {fields : List (Field σ α)} {seen : List String} {name : String} {part : σ}
  {rest : List (String × σ)} {a b : α}

/-- A part is read by its field, which must not have been read before. -/
theorem readNamed_known {f : Field σ α} (known : fields.find? (·.answersTo name) = some f)
    (new : seen.contains f.name = false) (reads : f.read part a = .ok b) :
    Field.readNamed fields seen ((name, part) :: rest) a
      = Field.readNamed fields (f.name :: seen) rest b := by
  rw [Field.readNamed, known]
  simp only [new, reads, Bool.false_eq_true, if_false]

/-- A record is what its parts are read to, if none is missing. -/
theorem decodeRecord_named {format : Format σ} {what : String} {source : σ}
    {entries : List (String × σ)} (parts : format.parts s!"struct {what}" source = .ok (.named entries))
    (reads : Field.readNamed fields [] entries a = .ok (seen, b))
    (complete : Field.firstMissing? fields seen = none) :
    decodeRecord format what fields a source = .ok b := by
  rw [decodeRecord, parts]
  show (Field.readNamed fields [] entries a >>= _) = _
  rw [reads]
  dsimp only [bind, Except.bind]
  rw [complete]
  rfl

end Record

/-- A list of documents is decoded document by document. -/
theorem decodeList_documents {α : Type} {document : α → Yaml} {decode : Json → Except Refusal α}
    {read : α → α} {xs : List α} {j : Json}
    (form : (Yaml.sequence (xs.map document)).toJson? = some j)
    (each : ∀ x ∈ xs, ∀ i, (document x).toJson? = some i → decode i = .ok (read x)) :
    decodeList Json.format decode j = .ok (xs.map read) := by
  rw [toJson?, Option.map_eq_some_iff] at form
  obtain ⟨js, hjs, rfl⟩ := form
  have hforms := forall₂_of_itemsJson? hjs
  rw [List.forall₂_map_left_iff] at hforms
  have hmap : js.mapM decode = .ok (xs.map read) := by
    -- the induction is on the documents and their forms together
    clear hjs
    induction hforms with
    | nil => rfl
    | @cons x i xs js hi _ ih =>
      obtain ⟨hx, hxs⟩ := List.forall_mem_cons.1 each
      rw [List.mapM_cons, hx i hi, ih hxs]
      rfl
  exact hmap

theorem decodeStep_mapping {step : Step} (exact : step.Exact) {j : Json}
    (form : (Yaml.mapping step.entries).toJson? = some j) : decodeStep Json.format j = .ok step := by
  -- the mapping has one form only, and this stands for it again
  obtain ⟨i, held⟩ := exact.exists_heldAs
  obtain rfl : i = j := Option.some.inj (held.form.symm.trans form)
  rw [toJson?, Option.map_eq_some_iff] at form
  obtain ⟨gs, _, rfl⟩ := form
  obtain ⟨entries, hentries, hback⟩ := ok_of_map_ok held.back
  injection hback with hback
  have hread : Json.format.entries (.object gs) = .ok step.entries := hback ▸ hentries
  rw [decodeStep, hread]
  rfl

/-- A case is decoded from its name, its steps and its skip mark. -/
theorem decodeCase_parts {name : String} {steps : List Step} {skipped : Bool} {i : Json}
    (hsteps : decodeList Json.format (decodeStep Json.format) i = .ok steps) :
    decodeCase Json.format (.object [("name", .text name), ("steps", i),
      ("skipped", .nat (if skipped then 1 else 0))]) = .ok (.fresh name steps skipped) := by
  -- the mark is written as a number, and read as whether that is positive
  have hskip : Json.format.flag (.nat (if skipped then 1 else 0)) = .ok skipped := by
    cases skipped <;> rfl
  have hread : Field.readNamed (caseFields Json.format) [] [("name", .text name), ("steps", i),
        ("skipped", .nat (if skipped then 1 else 0))] (.fresh "" [] false)
      = .ok (["skip", "steps", "name"], .fresh name steps skipped) := by
    refine (readNamed_known rfl rfl rfl).trans ?_
    refine (readNamed_known rfl rfl (congrArg (Except.map _) hsteps)).trans ?_
    refine (readNamed_known rfl rfl ?_).trans rfl
    exact congrArg (Except.map (Case.fresh name steps)) hskip
  exact decodeRecord_named rfl hread rfl

/-- The records of a case are all left unread. -/
theorem filter_recordForms {failures errors : List String} {records : List (String × Json)}
    (forms : List.Forall₂ FormOf (recordFields "failures" failures ++ recordFields "errors" errors)
      records) : (records.filter fun e => !caseBookkeeping.contains e.1) = [] := by
  rw [List.filter_eq_nil_iff]
  intro g hg
  have hkeys : (records.map Prod.fst).Sublist ["failures", "errors"] := by
    rw [map_fst_of_forms forms, List.map_append]
    exact (keys_recordFields _ _).append (keys_recordFields _ _)
  have hbookkeeping : g.1 ∈ caseBookkeeping := hkeys.subset (List.mem_map_of_mem hg)
  rw [List.contains_iff_mem.2 hbookkeeping]
  exact Bool.false_ne_true

/-- The document of a case is decoded to the case without its records. -/
theorem decodeCase_document {c : Case} (steps : ∀ step ∈ c.steps, step.Exact) {j : Json}
    (form : c.document.toJson? = some j) : decodeCase Json.format j = .ok c.reset := by
  rw [Case.document_eq] at form
  obtain ⟨gs, rfl, hfields⟩ := exists_forms form
  rw [Case.fields] at hfields
  obtain _ | ⟨hname, _ | @⟨_, g, _, _, hsteps, _ | @⟨_, _, _, records, hskipped, hrecords⟩⟩⟩ := hfields
  obtain ⟨key, i⟩ := g
  obtain ⟨rfl, hsteps⟩ := hsteps
  obtain rfl := hname.eq rfl
  obtain rfl := hskipped.eq rfl
  have hsteps : decodeList Json.format (decodeStep Json.format) i = .ok c.steps := by
    have hread := decodeList_documents hsteps fun step hstep i => decodeStep_mapping (steps step hstep)
    rwa [List.map_id'] at hread
  -- records are not read
  rw [← decodeCase_without fun what => Json.edits.parts_without caseBookkeeping what _]
  show decodeCase Json.format (.object (("name", .text c.name) :: ("steps", i)
    :: ("skipped", .nat (if c.skipped then 1 else 0))
    :: records.filter fun e => !caseBookkeeping.contains e.1)) = _
  rw [filter_recordForms hrecords]
  exact decodeCase_parts hsteps

/-- A suite is decoded from its name and its cases. -/
theorem decodeSuite_parts {name : String} {cases : List Case} {i : Json}
    (hcases : decodeList Json.format (decodeCase Json.format) i = .ok cases) :
    decodeSuite Json.format (.object [("name", .text name), ("testcases", i)])
      = .ok (.fresh name cases) := by
  have hread : Field.readNamed (suiteFields Json.format) [] [("name", .text name), ("testcases", i)]
      (.fresh "" []) = .ok (["testcases", "name"], .fresh name cases) := by
    refine (readNamed_known rfl rfl rfl).trans ?_
    refine (readNamed_known rfl rfl ?_).trans rfl
    exact congrArg (Except.map (Suite.fresh name)) hcases
  exact decodeRecord_named rfl hread rfl

/-- The document of a suite is decoded to the suite without its records and counters. -/
theorem decodeSuite_document {s : Suite} (steps : s.AllSteps Step.Exact) {j : Json}
    (form : s.document.toJson? = some j) : decodeSuite Json.format j = .ok s.reset := by
  rw [Suite.document_eq] at form
  obtain ⟨gs, rfl, hfields⟩ := exists_forms form
  rw [Suite.fields] at hfields
  obtain _ | ⟨hname, _ | ⟨hpackage, _ | @⟨_, g, _, _, hcases, hcounters⟩⟩⟩ := hfields
  obtain _ | ⟨htotal, _ | ⟨hfailures, _ | ⟨herrors, _ | ⟨hskipped, _ | _⟩⟩⟩⟩ := hcounters
  obtain ⟨key, i⟩ := g
  obtain ⟨rfl, hcases⟩ := hcases
  obtain rfl := hname.eq rfl
  obtain rfl := hpackage.eq rfl
  obtain rfl := htotal.eq rfl
  obtain rfl := hfailures.eq rfl
  obtain rfl := herrors.eq rfl
  obtain rfl := hskipped.eq rfl
  have hread := decodeList_documents hcases fun c hc i => decodeCase_document (steps c hc)
  -- neither the package nor the counters are read
  rw [← decodeSuite_without fun what => Json.edits.parts_without suiteBookkeeping what _]
  exact decodeSuite_parts hread

/-- A number that is a word is read as it is. -/
theorem asWord_nat {n : Nat} (h : n < 2 ^ 64) (what : String) : Json.format.word what (.nat n) = .ok n := by
  have hlimit : n < Text.wordLimit := h
  have hfits : 0 ≤ (n : Int) ∧ (n : Int) < (Text.wordLimit : Int) :=
    ⟨Int.natCast_nonneg n, Int.ofNat_lt.2 hlimit⟩
  have hword : Json.format.word what = Json.asWord what := rfl
  rw [hword, Json.nat, Json.asWord, if_pos hfits, Int.toNat_natCast]

theorem read_countField {σ : Type} {format : Format σ} {v : σ} {n : Nat}
    (h : format.word "usize" v = .ok n) (name : String) (set : Nat → Run → Run) (r : Run) :
    (countField format name set).read v r = .ok (set n r) :=
  congrArg (Except.map fun n => set n r) h

theorem read_startedAt {f : Field Json Run} {text : String} {t : Timestamp}
    (known : (runFields Json.format).find? (·.answersTo "started_at") = some f)
    (h : Timestamp.parse? text = some t) (r : Run) :
    f.read (.text text) r = .ok { r with startedAt := t } := by
  have htext : Json.format.text (.text text) = .ok text := rfl
  cases known
  dsimp only [bind, Except.bind]
  rw [htext]
  dsimp only
  rw [h]

/-- A run is decoded from all its parts. -/
theorem decodeRun_parts {r : Run} (exact : r.Exact) {suites : List Suite} {i : Json}
    (hsuites : decodeList Json.format (decodeSuite Json.format) i = .ok suites) :
    decodeRun Json.format (.object [("test_suites", i), ("total_ok", .nat r.totals.ok),
      ("total_ko", .nat r.totals.ko), ("total_skipped", .nat r.totals.skipped),
      ("total", .nat r.totals.total), ("started_at", .text r.startedAt.text),
      ("duration_ms", .nat r.durationMs)]) = .ok { r with totals := { r.totals with suites } } := by
  -- field by field, each with what it reads its part to
  have hread : Field.readNamed (runFields Json.format) [] [("test_suites", i),
        ("total_ok", .nat r.totals.ok), ("total_ko", .nat r.totals.ko),
        ("total_skipped", .nat r.totals.skipped), ("total", .nat r.totals.total),
        ("started_at", .text r.startedAt.text), ("duration_ms", .nat r.durationMs)]
      ⟨Totals.empty, ⟨0, 0⟩, 0⟩ = .ok (["duration_ms", "started_at", "total", "total_skipped",
        "total_ko", "total_ok", "test_suites"], { r with totals := { r.totals with suites } }) := by
    refine (readNamed_known rfl rfl (congrArg (Except.map _) hsuites)).trans ?_
    refine (readNamed_known rfl rfl (read_countField (asWord_nat exact.ok _) _ _ _)).trans ?_
    refine (readNamed_known rfl rfl (read_countField (asWord_nat exact.ko _) _ _ _)).trans ?_
    refine (readNamed_known rfl rfl (read_countField (asWord_nat exact.skipped _) _ _ _)).trans ?_
    refine (readNamed_known rfl rfl (read_countField (asWord_nat exact.total _) _ _ _)).trans ?_
    have hstarted := Timestamp.parse?_text exact.startedAt
    refine (readNamed_known rfl rfl (read_startedAt rfl hstarted _)).trans ?_
    exact (readNamed_known rfl rfl (read_countField (asWord_nat exact.durationMs _) _ _ _)).trans rfl
  exact decodeRecord_named rfl hread rfl

/-- The document of a run is decoded to the run, with its suites reset. -/
theorem decodeRun_document {r : Run} (exact : r.Exact) {j : Json}
    (form : r.document.toJson? = some j) : decodeRun Json.format j = .ok r.reset := by
  rw [Run.document_eq] at form
  -- each field of the form stands for the field with its name, in the same order
  obtain ⟨gs, rfl, hfields⟩ := exists_forms form
  rw [Run.fields] at hfields
  obtain _ | @⟨_, g, _, _, hsuites, _ | ⟨hok, _ | ⟨hko, _ | ⟨hskipped, hrest⟩⟩⟩⟩ := hfields
  obtain _ | ⟨htotal, _ | ⟨hstarted, _ | ⟨hduration, _ | _⟩⟩⟩ := hrest
  obtain ⟨key, i⟩ := g
  obtain ⟨rfl, hsuites⟩ := hsuites
  obtain rfl := hok.eq rfl
  obtain rfl := hko.eq rfl
  obtain rfl := hskipped.eq rfl
  obtain rfl := htotal.eq rfl
  obtain rfl := hstarted.eq rfl
  obtain rfl := hduration.eq rfl
  have hsuites := decodeList_documents hsuites fun s hs i => decodeSuite_document (exact.steps s hs)
  exact decodeRun_parts exact hsuites

/-! ## Reports -/

/-- All JSON reports of a run exist, and all of them are read with one result. -/
def Run.ReadAs (r : Run) (result : Except Refusal Run) : Prop :=
  ∀ (format : ReportFormat) (details : Details) (color : Bool), format.isJson = true →
    ∃ text, r.report format details color = .ok text ∧ Run.ofJson text = result

/-- Both ways of printing a document are read alike, and only its nesting matters. -/
theorem Run.Exact.readAs {r : Run} (exact : r.Exact) : r.ReadAs
    (if r.document.nesting < Json.depthLimit then .ok r.reset else .error .unreadable) := by
  obtain ⟨j, held⟩ := exact.document.exists_heldAs
  -- one line or many: the text spells the same tokens
  have hreport (print : Json → String) : r.json print = .ok (print j) := by
    rw [Run.json, held.form]
  have hread {text : String} (spells : Json.Spells text.toList j.tokens) : Run.ofJson text
      = if r.document.nesting < Json.depthLimit then .ok r.reset else .error .unreadable := by
    rw [Run.ofJson, Json.parse?_of_spells spells, held.nesting]
    by_cases shallow : r.document.nesting < Json.depthLimit
    · rw [if_pos shallow, if_pos shallow]
      exact decodeRun_document exact held.form
    · rw [if_neg shallow, if_neg shallow]
  intro format details color json
  cases format with
  | json => exact ⟨j.compact, hreport _, hread (Json.spells_compact held.exact)⟩
  | jsonPretty => exact ⟨j.pretty, hreport _, hread (Json.spells_prettyAt held.exact 0)⟩
  | table => cases json
  | yaml => cases json
  | csv => cases json

/-- What is within the limit of the reader is read back. -/
theorem Run.Exact.readAs_of_shallow {r : Run} (exact : r.Exact) (shallow : r.Shallow) :
    r.ReadAs (.ok r.reset) := by
  have hread := exact.readAs
  rwa [if_pos (r.nesting_document_lt_iff.2 shallow)] at hread

/-- What is beyond it is not read at all. -/
theorem Run.Exact.readAs_of_deep {r : Run} (exact : r.Exact) (deep : ¬r.Shallow) :
    r.ReadAs (.error .unreadable) := by
  have hread := exact.readAs
  rwa [if_neg fun h => deep (r.nesting_document_lt_iff.1 h)] at hread

/-- A run is read in one way only. -/
theorem Run.ReadAs.unique {r : Run} {a b : Except Refusal Run} (ha : r.ReadAs a) (hb : r.ReadAs b) :
    a = b := by
  obtain ⟨text, htext, rfl⟩ := ha .json .high false rfl
  obtain ⟨text', htext', rfl⟩ := hb .json .high false rfl
  rw [Except.ok.inj (htext.symm.trans htext')]

/-! ## Reading again -/

theorem map_eq_self_iff {α : Type} {f : α → α} {xs : List α} :
    xs.map f = xs ↔ ∀ x ∈ xs, f x = x := by
  have hmap := List.map_eq_map_iff (f := f) (g := id) (l := xs)
  rwa [List.map_id] at hmap

/-- A case is the same without records iff it has none. -/
theorem Case.reset_eq_iff (c : Case) : c.reset = c ↔ c.Unrun := by
  constructor
  · intro h
    exact ⟨congrArg Case.failures h.symm, congrArg Case.errors h.symm⟩
  · rintro ⟨hfailures, herrors⟩
    cases c
    subst hfailures herrors
    rfl

/-- A suite is the same after a reset iff it has not been run. -/
theorem Suite.reset_eq_iff (s : Suite) : s.reset = s ↔ s.Unrun := by
  have hcases : s.cases.map Case.reset = s.cases ↔ ∀ c ∈ s.cases, c.Unrun := by
    rw [map_eq_self_iff]
    exact forall₂_congr fun c _ => c.reset_eq_iff
  constructor
  · intro h
    exact ⟨congrArg Suite.package h.symm, congrArg Suite.total h.symm, congrArg Suite.failures h.symm,
      congrArg Suite.errors h.symm, congrArg Suite.skipped h.symm, hcases.1 (congrArg Suite.cases h)⟩
  · intro h
    rw [Suite.reset, hcases.2 h.cases]
    -- every counter is what a reset sets it to
    obtain ⟨hpackage, htotal, hfailures, herrors, hskipped, -⟩ := h
    cases s
    subst hpackage htotal hfailures herrors hskipped
    rfl

/-- A run is read back as it was iff none of its suites has been run. -/
theorem Run.reset_eq_iff (r : Run) : r.reset = r ↔ ∀ s ∈ r.totals.suites, s.Unrun := by
  have hsuites : r.totals.suites.map Suite.reset = r.totals.suites ↔ ∀ s ∈ r.totals.suites, s.Unrun := by
    rw [map_eq_self_iff]
    exact forall₂_congr fun s _ => s.reset_eq_iff
  rw [← hsuites]
  constructor
  · exact fun h => congrArg (fun r => r.totals.suites) h
  · intro h
    rw [Run.reset, h]

theorem Suite.unrun_reset (s : Suite) : s.reset.Unrun :=
  ⟨rfl, rfl, rfl, rfl, rfl, List.forall_mem_map.2 fun _ _ => ⟨rfl, rfl⟩⟩

theorem Suite.words_reset (s : Suite) : s.reset.Words :=
  have hzero : 0 < 2 ^ 64 := by decide
  ⟨hzero, hzero, hzero, hzero⟩

theorem Run.reset_reset (r : Run) : r.reset.reset = r.reset :=
  r.reset.reset_eq_iff.2 (List.forall_mem_map.2 fun s _ => s.unrun_reset)

/-- All steps are left. -/
theorem Run.allSteps_reset {P : Step → Prop} (r : Run) :
    (∀ s ∈ r.reset.totals.suites, s.AllSteps P) ↔ ∀ s ∈ r.totals.suites, s.AllSteps P := by
  have hsteps (s : Suite) : s.reset.AllSteps P ↔ s.AllSteps P := List.forall_mem_map
  exact List.forall_mem_map.trans (forall₂_congr fun s _ => hsteps s)

theorem Run.Exact.reset {r : Run} (exact : r.Exact) : r.reset.Exact where
  steps := r.allSteps_reset.2 exact.steps
  suites := List.forall_mem_map.2 fun s _ => s.words_reset
  ok := exact.ok
  ko := exact.ko
  skipped := exact.skipped
  total := exact.total
  startedAt := exact.startedAt
  durationMs := exact.durationMs

/-! ## A run of one case -/

/-- A value in a number of sequences. -/
def nested : Nat → Yaml
  | 0 => .null
  | n + 1 => .sequence [nested n]

/-- A step with a nested value. -/
def nestedStep (n : Nat) : Step := ⟨named [("type", .text "exec"), ("value", nested n)]⟩

/-- A run in which the only case, of one step, has failed. -/
def failedRun (step : Step) : Run where
  totals :=
    { suites := [{ name := "s [a.yml]", package := "a.yml",
                   cases := [{ name := "c", steps := [step], skipped := false, failures := ["no"],
                               errors := [] }],
                   total := 1, failures := 1, errors := 0, skipped := 0 }]
      ok := 0, ko := 1, skipped := 0, total := 1 }
  startedAt := ⟨1700000000, 5⟩
  durationMs := 12

theorem exact_nestedStep (n : Nat) : (nestedStep n).Exact := by
  have hvalue : (nested n).Exact := by
    induction n with
    | zero => exact .null
    | succ n ih => exact .sequence (List.forall_mem_singleton.2 ih)
  have hkeys : ["type", "value"].Nodup := by decide
  refine .mapping hkeys ?_
  simp only [List.forall_mem_cons]
  exact ⟨.text _, hvalue, List.forall_mem_nil _⟩

theorem nesting_nested (n : Nat) : (nested n).nesting = n := by
  induction n with
  | zero => rfl
  | succ n ih => rw [nested, Yaml.nesting, itemsNesting, itemsNesting, ih, Nat.max_zero]

theorem exact_failedRun {step : Step} (exact : step.Exact) : (failedRun step).Exact :=
  have hzero : 0 < 2 ^ 64 := by decide
  have hone : 1 < 2 ^ 64 := by decide
  { steps := List.forall_mem_singleton.2 (List.forall_mem_singleton.2 (List.forall_mem_singleton.2 exact))
    suites := List.forall_mem_singleton.2 ⟨hone, hone, hzero, hzero⟩
    ok := hzero
    ko := hone
    skipped := hzero
    total := hone
    startedAt := (by decide : Timestamp.Valid ⟨1700000000, 5⟩)
    durationMs := (by decide : 12 < 2 ^ 64) }

/-- A value in a step may nest 120 deep: seven levels are around it, and the reader opens 127 at most. -/
theorem shallow_failedRun_iff (n : Nat) : (failedRun (nestedStep n)).Shallow ↔ n ≤ 120 := by
  have hstep : (Yaml.mapping (nestedStep n).entries).nesting ≤ 120 + 1 ↔ n ≤ 120 := by
    rw [nestedStep, nesting_mapping_le]
    simp only [List.forall_mem_cons, nesting_nested]
    exact ⟨fun h => h.2.1, fun h => ⟨Nat.zero_le _, h, List.forall_mem_nil _⟩⟩
  rw [← hstep]
  exact List.forall_mem_singleton.trans (List.forall_mem_singleton.trans List.forall_mem_singleton)

/-! ## Reading a report -/

/-- **A JSON report that does not nest too deep is read to the run without what is only counted and
    recorded.**  Reading is then idempotent, and is the identity on the runs that have nothing to lose.
    A report that nests deeper is not read. -/
theorem json_report_reads_back (r : Run) (exact : r.Exact) :
    (r.Shallow → r.ReadAs (.ok r.reset) ∧ r.reset.ReadAs (.ok r.reset)
      ∧ (r.ReadAs (.ok r) ↔ ∀ s ∈ r.totals.suites, s.Unrun))
    ∧ (¬r.Shallow → r.ReadAs (.error .unreadable)) := by
  refine ⟨fun shallow => ?_, exact.readAs_of_deep⟩
  have hfirst : r.ReadAs (.ok r.reset) := exact.readAs_of_shallow shallow
  -- the steps are all left, so the run that was read can be reported and read too
  have hagain : r.reset.ReadAs (.ok r.reset) := by
    have hread := exact.reset.readAs_of_shallow (r.allSteps_reset.2 shallow)
    rwa [r.reset_reset] at hread
  refine ⟨hfirst, hagain, ?_⟩
  -- a report is read in one way, so a run that is read as itself is what is left of it
  rw [← r.reset_eq_iff]
  constructor
  · exact fun hself => Except.ok.inj (hfirst.unique hself)
  · intro hreset
    rw [hreset] at hfirst
    exact hfirst

/-- A failed case is read back without its record, and its suite without package and counters. -/
theorem failed_run_read_back :
    let r := failedRun (nestedStep 120)
    r.Exact ∧ r.Shallow ∧ r.ReadAs (.ok r.reset) ∧ ¬r.ReadAs (.ok r)
      ∧ r.reset.totals.suites = [.fresh "s [a.yml]" [.fresh "c" [nestedStep 120] false]] := by
  have exact : (failedRun (nestedStep 120)).Exact := exact_failedRun (exact_nestedStep 120)
  have shallow := (shallow_failedRun_iff 120).2 (Nat.le_refl 120)
  obtain ⟨hread, -, hself⟩ := (json_report_reads_back _ exact).1 shallow
  refine ⟨exact, shallow, hread, fun h => ?_, rfl⟩
  have hpackage := (hself.1 h _ (List.mem_singleton_self _)).package
  exact absurd hpackage (by decide : "a.yml" ≠ "")

/-- A run whose report exists but cannot be read, since its step nests too deep. -/
theorem deep_report_unread :
    let r := failedRun (nestedStep 121)
    r.Exact ∧ r.ReadAs (.error .unreadable) ∧ ¬r.ReadAs (.ok r.reset) := by
  have exact : (failedRun (nestedStep 121)).Exact := exact_failedRun (exact_nestedStep 121)
  have deep : ¬(failedRun (nestedStep 121)).Shallow := fun h =>
    absurd ((shallow_failedRun_iff 121).1 h) (by decide)
  have hunread := exact.readAs_of_deep deep
  refine ⟨exact, hunread, fun h => ?_⟩
  cases hunread.unique h

end TestBench
