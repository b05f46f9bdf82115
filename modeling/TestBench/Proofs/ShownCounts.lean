import Mathlib
import TestBench.Proofs.Bookkeeping
import TestBench.Report.Text
/-
  The counts that a report shows.

  1. `Suite.counts` and `RunCounts.ofSuites` count over cases and know nothing of counters.
  2. `ReportFormat.Shows` says where a report in each format has these numbers: in a line of the table,
     in a record, or under the keys of a document.
  3. A document is the same in all formats that print one, but it is read in different ways, and a `View`
     is such a way.  Values of a view stand for YAML values part by part (`View.Represents`).
  4. So a report shows what is counted over the cases, as soon as the suites are counted and the totals
     account for them (`Run.report_shows`).
-/
namespace TestBench

variable {σ : Type}

/-! ## Counts -/

/-- What a report shows of a suite. -/
structure SuiteCounts where
  package : String
  cases : Nat
  failures : Nat
  errors : Nat
  skipped : Nat

/-- What a report shows of all suites together. -/
structure RunCounts where
  ok : Nat
  ko : Nat
  skipped : Nat
  total : Nat

/-- The counters of a suite under the names that reports give them. -/
def SuiteCounts.numbers (c : SuiteCounts) : List (String × Nat) :=
  [("total", c.cases), ("failures", c.failures), ("errors", c.errors), ("skipped", c.skipped)]

/-- The counters of a run under the names that reports give them. -/
def RunCounts.numbers (t : RunCounts) : List (String × Nat) :=
  [("total_ok", t.ok), ("total_ko", t.ko), ("total_skipped", t.skipped), ("total", t.total)]

/-- The counts of a suite, taken from its cases. -/
def Suite.counts (s : Suite) : SuiteCounts :=
  { package := s.package
    cases := s.cases.length
    failures := (s.cases.map (·.failures.length)).sum
    errors := (s.cases.map (·.errors.length)).sum
    skipped := s.cases.countP (·.skipped) }

/-- The counts of suites, taken from their cases. -/
def RunCounts.ofSuites (suites : List Suite) : RunCounts :=
  let cases := suites.flatMap (·.cases)
  { ok := cases.countP Case.ok
    ko := cases.countP Case.ko
    skipped := cases.countP (·.skipped)
    total := cases.length }

/-- A counted suite says of itself what is counted over its cases. -/
theorem Suite.Counted.counts_eq {s : Suite} (h : s.Counted) :
    s.counts = ⟨s.package, s.total, s.failures, s.errors, s.skipped⟩ := by
  rw [Suite.counts, h.total, h.failures, h.errors, h.skipped, Suite.countOver_eq_sum,
    Suite.countOver_eq_sum]

/-- And so do totals of all suites. -/
theorem Totals.Accounts.counts_eq {t : Totals} {suites : List Suite} (h : t.Accounts suites) :
    RunCounts.ofSuites suites = ⟨t.ok, t.ko, t.skipped, t.total⟩ := by
  simp only [RunCounts.ofSuites, h.ok, h.ko, h.skipped, h.cases]

/-! ## Documents -/

/-- How a document is read: the value of a key, and the items of a list. -/
structure View (σ : Type) where
  field? : String → σ → Option σ
  items? : σ → Option (List σ)
  nat : Nat → σ
  text : String → σ

def Yaml.view : View Yaml where
  field?
    | key, .mapping entries => Yaml.lookup key entries
    | _, _ => none
  items?
    | .sequence items => some items
    | _ => none
  nat := Yaml.nat
  text := .text

def Json.view : View Json where
  field?
    | key, .object fields => Json.lookup key fields
    | _, _ => none
  items?
    | .array items => some items
    | _ => none
  nat := Json.nat
  text := .text

namespace View

variable (view : View σ)

/-- A value has some numbers under their keys. -/
def Says (v : σ) (numbers : List (String × Nat)) : Prop :=
  ∀ f ∈ numbers, view.field? f.1 v = some (view.nat f.2)

/-- A document has the counts of all suites, and of each one in turn. -/
structure Shows (v : σ) (suites : List SuiteCounts) (t : RunCounts) : Prop where
  totals : view.Says v t.numbers
  suites : ∃ list items, view.field? "test_suites" v = some list ∧ view.items? list = some items
    ∧ List.Forall₂ (fun item c => view.field? "package" item = some (view.text c.package)
      ∧ view.Says item c.numbers) items suites

/-- Values of a view stand for YAML values part by part; keys are textual. -/
structure Represents (stands : Yaml → σ → Prop) : Prop where
  field : ∀ (fields : List (String × Yaml)) (x : σ),
    stands (.mapping (fields.map fun f => Yaml.entry f.1 f.2)) x →
      ∀ key v, Json.lookup key fields = some v → ∃ y, view.field? key x = some y ∧ stands v y
  items : ∀ (items : List Yaml) (x : σ), stands (.sequence items) x →
    ∃ ys, view.items? x = some ys ∧ List.Forall₂ stands items ys
  nat : ∀ (n : Nat) (x : σ), stands (Yaml.nat n) x → x = view.nat n
  text : ∀ (s : String) (x : σ), stands (.text s) x → x = view.text s

variable {view} {stands : Yaml → σ → Prop} (represents : view.Represents stands)
include represents

/-- Numbers in a document are those of the value that it stands for. -/
theorem Represents.says {fields : List (String × Yaml)} {x : σ} {numbers : List (String × Nat)}
    (h : stands (.mapping (fields.map fun f => Yaml.entry f.1 f.2)) x)
    (hfields : ∀ f ∈ numbers, Json.lookup f.1 fields = some (Yaml.nat f.2)) :
    view.Says x numbers := by
  intro f hf
  obtain ⟨y, hy, hn⟩ := represents.field fields x h f.1 _ (hfields f hf)
  rw [hy, represents.nat f.2 y hn]

/-- What stands for the document of a suite says its counts. -/
theorem Represents.suite {s : Suite} {x : σ} (h : stands s.document x) (counted : s.Counted) :
    view.field? "package" x = some (view.text s.counts.package)
      ∧ view.Says x s.counts.numbers := by
  let fields : List (String × Yaml) := [("name", .text s.name), ("package", .text s.package),
    ("testcases", .sequence (s.cases.map Case.document)), ("total", Yaml.nat s.total),
    ("failures", Yaml.nat s.failures), ("errors", Yaml.nat s.errors),
    ("skipped", Yaml.nat s.skipped)]
  have h : stands (.mapping (fields.map fun f => Yaml.entry f.1 f.2)) x := h
  obtain ⟨y, hy, hpackage⟩ := represents.field fields x h "package" (.text s.package) rfl
  rw [counted.counts_eq]
  refine ⟨by rw [hy, represents.text _ y hpackage], represents.says h ?_⟩
  simp only [SuiteCounts.numbers, List.forall_mem_cons]
  exact ⟨rfl, rfl, rfl, rfl, fun _ hf => absurd hf List.not_mem_nil⟩

/-- The document of a run has the counts that are taken from its cases. -/
theorem Represents.run {r : Run} {x : σ} (h : stands r.document x)
    (counted : ∀ s ∈ r.totals.suites, s.Counted) (accounts : r.totals.Accounts r.totals.suites) :
    view.Shows x (r.totals.suites.map Suite.counts) (RunCounts.ofSuites r.totals.suites) := by
  -- the document of a run, with the names of its fields set out
  let fields : List (String × Yaml) :=
    [("test_suites", .sequence (r.totals.suites.map Suite.document)),
      ("total_ok", Yaml.nat r.totals.ok), ("total_ko", Yaml.nat r.totals.ko),
      ("total_skipped", Yaml.nat r.totals.skipped), ("total", Yaml.nat r.totals.total),
      ("started_at", .text r.startedAt.text), ("duration_ms", Yaml.nat r.durationMs)]
  have h : stands (.mapping (fields.map fun f => Yaml.entry f.1 f.2)) x := h
  constructor
  · rw [accounts.counts_eq]
    refine represents.says h ?_
    simp only [RunCounts.numbers, List.forall_mem_cons]
    exact ⟨rfl, rfl, rfl, rfl, fun _ hf => absurd hf List.not_mem_nil⟩
  · obtain ⟨list, hlist, hsuites⟩ := represents.field fields x h "test_suites" _ rfl
    obtain ⟨items, hitems, hall⟩ := represents.items _ list hsuites
    refine ⟨list, items, hlist, hitems, ?_⟩
    rw [List.forall₂_map_left_iff] at hall
    rw [List.forall₂_map_right_iff]
    refine (List.forall₂_iff_get.2 ⟨hall.length_eq.symm, fun i hi hi' => ?_⟩)
    exact represents.suite (hall.get hi' hi) (counted _ (List.get_mem _ _))

end View

/-! ## The two formats -/

theorem Yaml.lookup_named (key : String) (fields : List (String × Yaml)) :
    Yaml.lookup key (fields.map fun f => entry f.1 f.2) = Json.lookup key fields := by
  induction fields with
  | nil => rfl
  | cons f rest ih =>
    show (if f.1 = key then some f.2 else _) = if f.1 = key then some f.2 else _
    rw [ih]

/-- A YAML document stands for itself. -/
theorem Yaml.view_represents : Yaml.view.Represents Eq where
  field := by
    rintro fields x rfl key v hv
    exact ⟨v, (Yaml.lookup_named key fields).trans hv, rfl⟩
  items := by
    rintro items x rfl
    exact ⟨items, rfl, List.forall₂_same.2 fun _ _ => rfl⟩
  nat := fun _ _ h => h.symm
  text := fun _ _ h => h.symm

/-- Items are turned into JSON one by one. -/
theorem Yaml.forall₂_of_itemsJson? {items : List Yaml} : ∀ {js : List Json},
    itemsJson? items = some js → List.Forall₂ (fun v j => v.toJson? = some j) items js := by
  induction items with
  | nil =>
    intro js h
    cases h
    exact .nil
  | cons v rest ih =>
    intro js h
    rw [itemsJson?] at h
    split at h
    · rename_i j js' hj hjs
      cases h
      exact .cons hj (ih hjs)
    · cases h

/-- What is under a name is turned into what is under that name. -/
theorem Yaml.lookup_of_fieldsJson? {key : String} {v : Yaml} {fields : List (String × Yaml)} :
    ∀ {js : List (String × Json)}, fieldsJson? (fields.map fun f => entry f.1 f.2) = some js →
      Json.lookup key fields = some v → ∃ j, Json.lookup key js = some j ∧ v.toJson? = some j := by
  induction fields with
  | nil =>
    intro js _ hv
    cases hv
  | cons f rest ih =>
    intro js h hv
    rw [List.map_cons, entry, fieldsJson?] at h
    split at h
    · rename_i k j js' hk hj hjs
      cases h
      -- a textual key is the key of the field
      injection hk with hk
      subst hk
      rw [Json.lookup] at hv ⊢
      by_cases hkey : f.1 = key
      · rw [if_pos hkey] at hv ⊢
        injection hv with hv
        exact ⟨j, rfl, hv ▸ hj⟩
      · rw [if_neg hkey] at hv ⊢
        exact ih hjs hv
    · cases h

/-- A JSON document stands for the value that it is the form of. -/
theorem Json.view_represents : Json.view.Represents fun v j => v.toJson? = some j where
  field := by
    intro fields x h key v hv
    rw [Yaml.toJson?, Option.map_eq_some_iff] at h
    obtain ⟨js, hjs, rfl⟩ := h
    exact Yaml.lookup_of_fieldsJson? hjs hv
  items := by
    intro items x h
    rw [Yaml.toJson?, Option.map_eq_some_iff] at h
    obtain ⟨js, hjs, rfl⟩ := h
    exact ⟨js, rfl, Yaml.forall₂_of_itemsJson? hjs⟩
  nat := fun _ _ h => (Option.some.inj h).symm
  text := fun _ _ h => (Option.some.inj h).symm

/-! ## Reports -/

/-- A number, perhaps in a colour. -/
def Table.Painted (text : String) (n : Nat) : Prop :=
  ∃ color code, text = Table.paint color code (toString n)

/-- What the table has of a suite: a line with its counts, and perhaps more behind it. -/
def SuiteCounts.InTable (block : String) (c : SuiteCounts) : Prop :=
  ∃ mark more : String, block
    = s!"{mark} {Text.padRight packageWidth c.package} {Table.number c.cases} cases | "
      ++ s!"{Table.number c.failures} failures | {Table.number c.errors} errors | "
      ++ s!"{Table.number c.skipped} skipped\n" ++ more

/-- The fields of a suite. -/
def SuiteCounts.InRow (row : List String) (c : SuiteCounts) : Prop :=
  ∃ name status, row = [name, c.package, toString c.cases, toString c.failures, toString c.errors,
    toString c.skipped, status]

/-- A report shows some counts, each in the place that the format has for it. -/
inductive ReportFormat.Shows (suites : List SuiteCounts) (t : RunCounts) :
    ReportFormat → String → Prop
  | table {blocks : List String} {ok ko more : String}
      (lines : List.Forall₂ SuiteCounts.InTable blocks suites) (passed : Table.Painted ok t.ok)
      (failed : Table.Painted ko t.ko) :
      Shows suites t .table ("\n" ++ Table.rule ++ String.join blocks ++ Table.rule
        ++ s!"Total: {t.total} | OK: {ok} | KO: {ko} | Skipped: {t.skipped}\n" ++ more)
  | json {v : Json} (document : Json.view.Shows v suites t) : Shows suites t .json v.compact
  | jsonPretty {v : Json} (document : Json.view.Shows v suites t) :
      Shows suites t .jsonPretty v.pretty
  | yaml {entries : Yaml.Entries} (document : Yaml.view.Shows (.mapping entries) suites t) :
      Shows suites t .yaml (Yaml.print entries)
  /-- Without a suite there is no header either, and the totals are never shown. -/
  | csv {rows : List (List String)} (records : List.Forall₂ SuiteCounts.InRow rows suites) :
      Shows suites t .csv (String.ofList
        ((if rows.isEmpty then [] else csvHeader :: rows).flatMap Csv.record))

namespace Run

variable {r : Run} (counted : ∀ s ∈ r.totals.suites, s.Counted)
include counted

/-- The table shows the counts, painted or not. -/
theorem table_shows (accounts : r.totals.Accounts r.totals.suites) (details : Details)
    (color : Bool) : ReportFormat.table.Shows (r.totals.suites.map Suite.counts)
      (RunCounts.ofSuites r.totals.suites) (r.table details color) := by
  have hblocks : List.Forall₂ SuiteCounts.InTable
      (r.totals.suites.map (Table.suiteBlock details color)) (r.totals.suites.map Suite.counts) := by
    rw [List.forall₂_map_left_iff, List.forall₂_map_right_iff]
    refine List.forall₂_same.2 fun s hs => ?_
    -- beside the counts a block has a mark and perhaps the records of failed cases
    let mark := if s.passed then Table.paint color Table.green "✓" else Table.paint color Table.red "✗"
    let more := if details = .high then
      String.join ((s.cases.filter (·.isFailed)).map Table.caseLines) else ""
    rw [(counted s hs).counts_eq, Table.suiteBlock, Table.suiteLine]
    refine ⟨mark, more, ?_⟩
    simp only [String.append_assoc]
    rfl
  have hko : Table.Painted (if 0 < r.totals.ko then Table.paint color Table.red (toString r.totals.ko)
      else toString r.totals.ko) r.totals.ko := by
    split
    · exact ⟨_, _, rfl⟩
    · exact ⟨false, Table.red, rfl⟩
  have hok : Table.Painted (Table.paint color Table.green (toString r.totals.ok)) r.totals.ok :=
    ⟨_, _, rfl⟩
  rw [accounts.counts_eq]
  exact .table hblocks hok hko

/-- Every row of the list shows the counts of its suite. -/
theorem csv_shows (t : RunCounts) :
    ReportFormat.csv.Shows (r.totals.suites.map Suite.counts) t r.csv := by
  have hrows : List.Forall₂ SuiteCounts.InRow (r.totals.suites.map Suite.csvRow)
      (r.totals.suites.map Suite.counts) := by
    rw [List.forall₂_map_left_iff, List.forall₂_map_right_iff]
    refine List.forall₂_same.2 fun s hs => ?_
    rw [(counted s hs).counts_eq]
    exact ⟨_, _, rfl⟩
  have hcsv : r.csv = String.ofList
      ((if (r.totals.suites.map Suite.csvRow).isEmpty then []
        else csvHeader :: r.totals.suites.map Suite.csvRow).flatMap Csv.record) := by
    rw [Run.csv]
    cases r.totals.suites <;> rfl
  rw [hcsv]
  exact .csv hrows

/-- **A report shows what there is.**  Whatever counters it has, of a suite or of all of them, are what
    is counted over the cases. -/
theorem report_shows (accounts : r.totals.Accounts r.totals.suites) {format : ReportFormat}
    {details : Details} {color : Bool} {text : String}
    (h : r.report format details color = .ok text) :
    format.Shows (r.totals.suites.map Suite.counts) (RunCounts.ofSuites r.totals.suites) text := by
  -- both layouts print the same value
  have json {print : Json → String} (h : r.json print = .ok text) : ∃ v, text = print v
      ∧ Json.view.Shows v (r.totals.suites.map Suite.counts)
        (RunCounts.ofSuites r.totals.suites) := by
    rw [Run.json] at h
    split at h
    · rename_i v hv
      injection h with h
      exact ⟨v, h.symm, Json.view_represents.run hv counted accounts⟩
    · cases h
  cases format with
  | table =>
    injection h with h
    exact h ▸ table_shows counted accounts details color
  | json =>
    obtain ⟨v, rfl, hv⟩ := json h
    exact .json hv
  | jsonPretty =>
    obtain ⟨v, rfl, hv⟩ := json h
    exact .jsonPretty hv
  | yaml =>
    injection h with h
    exact h ▸ .yaml (Yaml.view_represents.run rfl counted accounts)
  | csv =>
    injection h with h
    exact h ▸ csv_shows counted _

end Run
end TestBench
