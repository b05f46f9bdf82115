import Mathlib
import TestBench.Proofs.RecordFields
/-
  What a suite document cannot say about its own result.

  A report counts under keys that a suite document may hold as well.  A document is a tree here, with
  every alias replaced.

  1. No field of a suite or of a case answers to a bookkeeping key.  So a suite is decoded from what is
     left of its document without them (`Yaml.Node.bare`, `Json.bare`).
  2. The skip mark of a case is decided by what stands under `skip` or `skipped`, and the cases of a
     suite by what stands under `testcases` (`skip_decides`, `testcases_decides`).  No field writes
     records or counts, so a decoded suite starts from nothing else (`startsFrom_of_decodeSuite`).
-/
namespace TestBench

variable {σ : Type}

/-! ## Documents without bookkeeping -/

/-- The keys of a suite that reports count under. -/
def suiteBookkeeping : List String := ["package", "total", "failures", "errors", "skipped"]

/-- The keys of a case that reports hold records under; its skip mark is no record. -/
def caseBookkeeping : List String := ["failures", "errors"]

section Suites

variable {format : Format σ} {source source' : σ}

/-- A case is decoded without its bookkeeping as with it. -/
theorem decodeCase_without
    (h : ∀ what, format.parts what source'
      = (format.parts what source).map (Parts.without caseBookkeeping)) :
    decodeCase format source' = decodeCase format source :=
  decodeRecord_without (by simp [caseBookkeeping, caseFields, Field.answersTo]) h

/-- So is a suite. -/
theorem decodeSuite_without
    (h : ∀ what, format.parts what source'
      = (format.parts what source).map (Parts.without suiteBookkeeping)) :
    decodeSuite format source' = decodeSuite format source :=
  decodeRecord_without (by simp [suiteBookkeeping, suiteFields, Field.answersTo]) h

/-- The cases of a suite may be changed if their list is decoded as before. -/
theorem decodeSuite_change {f : σ → σ}
    (alike : ∀ v, decodeList format (decodeCase format) (f v)
      = decodeList format (decodeCase format) v)
    (h : ∀ what, format.parts what source'
      = (format.parts what source).map (Parts.change "testcases" 1 f)) :
    decodeSuite format source' = decodeSuite format source := by
  refine decodeRecord_change ?_ h
  rintro field (hfield | hfield) v
  all_goals
    injection hfield with hfield
    subst hfield
    exact funext fun s => congrArg (Except.map _) (alike v)

/-- Ways to leave parts out of a document, to change one of them, and to change the items of a list. -/
structure Format.Edits (format : Format σ) (without : List String → σ → σ)
    (change : String → Nat → (σ → σ) → σ → σ) (each : (σ → σ) → σ → σ) : Prop where
  parts_without : ∀ names what v,
    format.parts what (without names v) = (format.parts what v).map (Parts.without names)
  parts_change : ∀ name position f what v, format.parts what (change name position f v)
    = (format.parts what v).map (Parts.change name position f)
  items_each : ∀ f v, format.items (each f v) = (format.items v).map (List.map f)

/-- A suite is decoded from what is left of its document without bookkeeping. -/
theorem Format.Edits.decodeSuite_eq {without : List String → σ → σ}
    {change : String → Nat → (σ → σ) → σ → σ} {each : (σ → σ) → σ → σ}
    (edits : format.Edits without change each) (source : σ) :
    decodeSuite format
        (change "testcases" 1 (each (without caseBookkeeping)) (without suiteBookkeeping source))
      = decodeSuite format source := by
  have hcase (d : σ) : decodeCase format (without caseBookkeeping d) = decodeCase format d :=
    decodeCase_without fun what => edits.parts_without _ what d
  have hcases (v : σ) : decodeList format (decodeCase format) (each (without caseBookkeeping) v)
      = decodeList format (decodeCase format) v := decodeList_each hcase (edits.items_each _ v)
  calc decodeSuite format (change "testcases" 1 _ (without suiteBookkeeping source))
      = decodeSuite format (without suiteBookkeeping source) :=
        decodeSuite_change hcases fun what => edits.parts_change _ _ _ what _
    _ = decodeSuite format source :=
        decodeSuite_without fun what => edits.parts_without _ what source

end Suites

namespace Yaml.Node

/-- Whether the key of an entry is one of some names. -/
def isUnder (names : List String) (e : Node × Node) : Bool :=
  match e.1 with
  | .scalar _ key _ => names.contains key
  | _ => false

/-- A mapping without the entries under some names. -/
def without (names : List String) : Node → Node
  | .mapping tag entries => .mapping tag (entries.filter fun e => !isUnder names e)
  | n => n

/-- A mapping with another value under a name. -/
def change (name : String) (f : Node → Node) : Node → Node
  | .mapping tag entries =>
    .mapping tag (entries.map fun e => if isUnder [name] e then (e.1, f e.2) else e)
  | n => n

/-- A sequence with other items. -/
def each (f : Node → Node) : Node → Node
  | .sequence tag items => .sequence tag (items.map f)
  | n => n

/-- A suite document without bookkeeping, in the suite and in its cases. -/
def bare (n : Node) : Node :=
  (n.without suiteBookkeeping).change "testcases" (each (without caseBookkeeping))

/-- Leaving entries out of a mapping leaves the parts with these names out. -/
theorem namedParts_without (names : List String) (entries : List (Node × Node)) :
    namedParts (entries.filter fun e => !isUnder names e)
      = (namedParts entries).map (List.filter fun e => !names.contains e.1) := by
  induction entries with
  | nil => rfl
  | cons e rest ih =>
    obtain ⟨k, v⟩ := e
    cases k with
    | scalar tag key plain =>
      -- an entry with another key stays, and is refused or named as before
      by_cases hkey : names.contains key = true
      · rw [List.filter_cons_of_neg (by simpa [isUnder] using hkey), ih, namedParts]
        cases namedParts rest with
        | error e => rfl
        | ok parts => exact congrArg Except.ok (List.filter_cons_of_neg (by simpa using hkey)).symm
      · rw [List.filter_cons_of_pos (by simpa [isUnder] using hkey), namedParts, namedParts, ih]
        cases namedParts rest with
        | error e => rfl
        | ok parts => exact congrArg Except.ok (List.filter_cons_of_pos (by simpa using hkey)).symm
    | _ => rfl

/-- Changing what is under a name changes the part with that name. -/
theorem namedParts_change (name : String) (f : Node → Node) (entries : List (Node × Node)) :
    namedParts (entries.map fun e => if isUnder [name] e then (e.1, f e.2) else e)
      = (namedParts entries).map (List.map fun e => if e.1 = name then (e.1, f e.2) else e) := by
  induction entries with
  | nil => rfl
  | cons e rest ih =>
    obtain ⟨k, v⟩ := e
    rw [List.map_cons]
    cases k with
    | scalar tag key plain =>
      have hunder : isUnder [name] (.scalar tag key plain, v) = true ↔ key = name := by
        simp [isUnder]
      -- only the key decides what is changed, and keys stay as they are
      by_cases hkey : key = name
      · rw [if_pos (hunder.2 hkey), namedParts, namedParts, ih]
        cases namedParts rest with
        | error e => rfl
        | ok parts => exact congrArg (Except.ok <| · :: _) (if_pos hkey).symm
      · rw [if_neg (mt hunder.1 hkey), namedParts, namedParts, ih]
        cases namedParts rest with
        | error e => rfl
        | ok parts => exact congrArg (Except.ok <| · :: _) (if_neg hkey).symm
    | _ => rfl

/-- Leaving entries out of a node leaves parts out. -/
theorem asParts_without (names : List String) (what : String) (n : Node) :
    asParts what (n.without names) = (asParts what n).map (Parts.without names) := by
  cases n with
  | mapping tag entries =>
    rw [without, asParts, asParts, namedParts_without]
    cases namedParts entries <;> rfl
  | _ =>
    rw [without, asParts]
    · split <;> rfl
    all_goals simp

/-- Changing an entry of a node changes a part. -/
theorem asParts_change (name : String) (position : Nat) (f : Node → Node) (what : String) (n : Node) :
    asParts what (n.change name f) = (asParts what n).map (Parts.change name position f) := by
  cases n with
  | mapping tag entries =>
    rw [change, asParts, asParts, namedParts_change]
    cases namedParts entries <;> rfl
  | _ =>
    rw [change, asParts]
    · split <;> rfl
    all_goals simp

/-- Changing each item of a node changes each item of the list. -/
theorem asItems_each (f : Node → Node) (n : Node) :
    asItems (n.each f) = (asItems n).map (List.map f) := by
  cases n with
  | sequence tag items => rfl
  | _ =>
    rw [each, asItems]
    · split <;> rfl
    all_goals simp

theorem edits : format.Edits without (fun name _ => change name) each :=
  ⟨asParts_without, asParts_change, asItems_each⟩

end Yaml.Node

namespace Json

/-- An object without the fields under some names. -/
def without (names : List String) : Json → Json
  | .object fields => .object (fields.filter fun e => !names.contains e.1)
  | v => v

/-- An object or an array with another value under a name, or at a position. -/
def change (name : String) (position : Nat) (f : Json → Json) : Json → Json
  | .object fields => .object (fields.map fun e => if e.1 = name then (e.1, f e.2) else e)
  | .array items => .array (items.modify position f)
  | v => v

/-- An array with other items. -/
def each (f : Json → Json) : Json → Json
  | .array items => .array (items.map f)
  | v => v

/-- A suite document without bookkeeping, in the suite and in its cases. -/
def bare (v : Json) : Json :=
  (v.without suiteBookkeeping).change "testcases" 1 (each (without caseBookkeeping))

theorem asParts_without (names : List String) (what : String) (v : Json) :
    asParts what (v.without names) = (asParts what v).map (Parts.without names) := by
  cases v <;> rfl

theorem asParts_change (name : String) (position : Nat) (f : Json → Json) (what : String) (v : Json) :
    asParts what (v.change name position f)
      = (asParts what v).map (Parts.change name position f) := by
  cases v <;> rfl

theorem asItems_each (f : Json → Json) (v : Json) :
    asItems (v.each f) = (asItems v).map (List.map f) := by
  cases v <;> rfl

theorem edits : format.Edits without change each := ⟨asParts_without, asParts_change, asItems_each⟩

end Json

/-! ## What a decoded suite starts with -/

/-- The skip mark of a case: unless there is one under one of its two names, or in the last place, the
    case is not skipped. -/
def SkipMark (format : Format σ) (source : σ) (skipped : Bool) : Prop :=
  ∃ parts, format.parts "struct TestCase" source = .ok parts
    ∧ ReadFrom format.flag false (parts.under ["skip", "skipped"] 2) skipped

/-- The documents of the cases of a suite. -/
def CaseSources (format : Format σ) (source : σ) (cases : List σ) : Prop :=
  ∃ parts, format.parts "struct TestSuite" source = .ok parts
    ∧ ReadFrom format.items [] (parts.under ["testcases"] 1) cases

/-- What a suite starts with, and what it is prepared to. -/
structure Suite.StartsFrom (s : Suite) (format : Format σ) (source : σ) : Prop where
  unrun : s.Unrun
  cases : ∃ sources, CaseSources format source sources
    ∧ List.Forall₂ (fun d c => decodeCase format d = .ok c ∧ SkipMark format d c.skipped)
      sources s.cases
  prepared : ∀ package, (s.prepare package).package = package
    ∧ (s.prepare package).total = s.cases.length
    ∧ (s.prepare package).skipped = s.cases.countP (·.skipped)
    ∧ (s.prepare package).failures = 0 ∧ (s.prepare package).errors = 0
    ∧ (s.prepare package).cases = s.cases

/-- A mark in YAML has the value of a truth value, or of a whole number, which counts as true iff it is
    positive. -/
theorem Yaml.Node.flag_eq_ok_iff {n : Yaml.Node} {b : Bool} : Yaml.Node.format.flag n = .ok b
    ↔ n.value? = some (.bool b) ∨ ∃ k : Nat, n.value? = some (.number (.int k)) ∧ b = (0 < k) := by
  show asFlag n = .ok b ↔ _
  rw [asFlag]
  constructor
  · intro h
    split at h
    · rename_i b' hvalue
      injection h with h
      exact .inl (h ▸ hvalue)
    · rename_i k hvalue
      split at h
      · rename_i hk
        injection h with h
        -- a whole number that is not negative is a natural one
        obtain ⟨n, rfl⟩ := Int.eq_ofNat_of_zero_le hk
        exact .inr ⟨n, hvalue, by simp [← h]⟩
      · cases h
    · cases h
  · rintro (hvalue | ⟨k, hvalue, hb⟩)
    · rw [hvalue]
    · rw [hvalue]
      simp [← hb]

/-- A mark in JSON is a truth value, or a whole number, which counts as true iff it is positive. -/
theorem Json.flag_eq_ok_iff {v : Json} {b : Bool} :
    Json.format.flag v = .ok b ↔ v = .bool b ∨ ∃ n : Nat, v = .nat n ∧ b = (0 < n) := by
  show asFlag v = .ok b ↔ _
  constructor
  · intro h
    unfold asFlag at h
    split at h
    · injection h with h
      exact .inl (h ▸ rfl)
    · split at h
      · rename_i hk
        injection h with h
        obtain ⟨n, rfl⟩ := Int.eq_ofNat_of_zero_le hk
        exact .inr ⟨n, rfl, by simp [← h]⟩
      · cases h
    · cases h
  · rintro (rfl | ⟨n, rfl, hb⟩)
    · rfl
    · simp [nat, asFlag, ← hb]

section Start

variable {format : Format σ} {source : σ}

/-- The skip mark is the last field of a case, and no other one writes it. -/
theorem skip_decides (format : Format σ) : ∃ name steps skip : Field σ Case,
    caseFields format = [name, steps] ++ skip :: [] ∧ skip.names = ["skip", "skipped"]
      ∧ skip.Decides ([name, steps] ++ []) format.flag Case.skipped := by
  refine ⟨_, _, _, rfl, rfl, ?_, ?_, ?_⟩
  · intro v c c' h
    obtain ⟨skipped, hflag, rfl⟩ := ok_of_map_ok h
    exact hflag
  · simp only [List.append_nil, List.mem_cons, List.not_mem_nil, or_false]
    rintro g (rfl | rfl) v c c' h
    -- the other two fields write the name and the steps
    all_goals
      obtain ⟨_, _, rfl⟩ := ok_of_map_ok h
      rfl
  · simp only [List.append_nil, List.mem_cons, List.not_mem_nil, or_false, Field.answersTo_eq,
      Field.names, List.contains_iff_mem]
    rintro g (rfl | rfl) name hname
    all_goals
      simp only [List.mem_cons, List.not_mem_nil, or_false] at hname
    · subst hname
      rfl
    · rcases hname with rfl | rfl <;> rfl

/-- The cases are the last field of a suite, and no other one writes them. -/
theorem testcases_decides (format : Format σ) : ∃ name cases : Field σ Suite,
    suiteFields format = [name] ++ cases :: [] ∧ cases.names = ["testcases"]
      ∧ cases.Decides ([name] ++ []) (decodeList format (decodeCase format)) Suite.cases := by
  refine ⟨_, _, rfl, rfl, ?_, ?_, ?_⟩
  · intro v s s' h
    obtain ⟨cases, hcases, rfl⟩ := ok_of_map_ok h
    exact hcases
  · simp only [List.append_nil, List.mem_singleton]
    rintro g rfl v s s' h
    obtain ⟨_, _, rfl⟩ := ok_of_map_ok h
    rfl
  · simp only [List.append_nil, List.mem_singleton, Field.answersTo_eq, Field.names,
      List.contains_iff_mem]
    rintro g rfl name hname
    rw [List.mem_singleton.1 hname]
    rfl

/-- A decoded case has the skip mark of its document. -/
theorem skipMark_of_decodeCase {c : Case} (h : decodeCase format source = .ok c) :
    SkipMark format source c.skipped := by
  obtain ⟨name, steps, skip, hfields, hnames, decides⟩ := skip_decides format
  rw [decodeCase, hfields] at h
  obtain ⟨parts, hparts, hfrom⟩ := decodeRecord_decides decides h
  exact ⟨parts, hparts, hnames ▸ hfrom⟩

/-- A decoded suite has a case for each document of one, marked as that document says. -/
theorem cases_of_decodeSuite {s : Suite} (h : decodeSuite format source = .ok s) :
    ∃ sources, CaseSources format source sources
      ∧ List.Forall₂ (fun d c => decodeCase format d = .ok c ∧ SkipMark format d c.skipped)
        sources s.cases := by
  obtain ⟨name, cases, hfields, hnames, decides⟩ := testcases_decides format
  rw [decodeSuite, hfields] at h
  obtain ⟨parts, hparts, hfrom⟩ := decodeRecord_decides decides h
  rw [hnames] at hfrom
  obtain ⟨sources, hsources, hcases⟩ := hfrom.exists_items
  exact ⟨sources, ⟨parts, hparts, hsources⟩, hcases.imp fun d c hc => ⟨hc, skipMark_of_decodeCase hc⟩⟩

/-- A decoded suite starts from nothing but its name and its cases. -/
theorem startsFrom_of_decodeSuite {s : Suite} (h : decodeSuite format source = .ok s) :
    s.StartsFrom format source := by
  have unrun := unrun_of_decodeSuite h
  exact ⟨unrun, cases_of_decodeSuite h,
    fun _ => ⟨rfl, rfl, rfl, unrun.failures, unrun.errors, rfl⟩⟩

end Start

/-- **A suite document cannot forge its result.**  It is decoded like what is left of it without
    bookkeeping, in YAML and in JSON: to the same suite or to the same refusal.  So files that differ
    only there are loaded alike.  Every decoded suite starts without records and counts, with the skip
    marks that its cases have, and what it is prepared to follows from its cases alone. -/
theorem bookkeeping_unread :
    (∀ n : Yaml.Node, decodeSuite Yaml.Node.format n.bare = decodeSuite Yaml.Node.format n)
      ∧ (∀ v : Json, decodeSuite Json.format v.bare = decodeSuite Json.format v)
      ∧ (∀ text text' : String,
          (Yaml.parse? text).map Yaml.Node.bare = (Yaml.parse? text').map Yaml.Node.bare →
            Suite.ofYaml text = Suite.ofYaml text')
      ∧ (∀ {σ : Type} (format : Format σ) (source : σ) (s : Suite),
          decodeSuite format source = .ok s → s.StartsFrom format source)
      ∧ (∀ (n : Yaml.Node) (b : Bool), Yaml.Node.format.flag n = .ok b ↔ n.value? = some (.bool b)
          ∨ ∃ k : Nat, n.value? = some (.number (.int k)) ∧ b = (0 < k))
      ∧ ∀ (v : Json) (b : Bool), Json.format.flag v = .ok b ↔ v = .bool b
          ∨ ∃ k : Nat, v = .nat k ∧ b = (0 < k) := by
  refine ⟨Yaml.Node.edits.decodeSuite_eq, Json.edits.decodeSuite_eq, ?_, fun _ _ _ => startsFrom_of_decodeSuite,
    fun _ _ => Yaml.Node.flag_eq_ok_iff, fun _ _ => Json.flag_eq_ok_iff⟩
  intro text text' h
  -- text is decoded through its node, so only the bare node matters
  have hbare (text : String) : Suite.ofYaml text = ((Yaml.parse? text).map Yaml.Node.bare).elim
      (.error .unreadable) (decodeSuite Yaml.Node.format) := by
    rw [Suite.ofYaml, decodeYamlText]
    cases Yaml.parse? text with
    | none => rfl
    | some n => exact (Yaml.Node.edits.decodeSuite_eq n).symm
  rw [hbare, hbare, h]

/-- A file that counts its own cases, holds an error, and has a positive number for a skip mark. -/
theorem bookkeeping_unread_forged :
    let forged := "name: s\ntotal: 7\ntestcases:\n- {name: c, errors: [x], skipped: 2}\nskipped: 0\n"
    let plain := "name: s\ntestcases:\n- {name: c, skipped: 2}\n"
    Suite.ofYaml forged = Suite.ofYaml plain
      ∧ ∃ n s, Yaml.parse? forged = some n ∧ decodeSuite Yaml.Node.format n = .ok s
        ∧ s.cases.map (·.skipped) = [true] ∧ s.StartsFrom Yaml.Node.format n := by
  intro forged plain
  have hbare : (Yaml.parse? forged).map Yaml.Node.bare = (Yaml.parse? plain).map Yaml.Node.bare := by
    decide +kernel
  have hmarks : ((Yaml.parse? forged).bind fun n => (decodeSuite Yaml.Node.format n).toOption.map
      fun s => s.cases.map (·.skipped)) = some [true] := by decide +kernel
  obtain ⟨n, hn, h⟩ := Option.bind_eq_some_iff.1 hmarks
  cases hs : decodeSuite Yaml.Node.format n with
  | error e =>
    rw [hs] at h
    cases h
  | ok s =>
    rw [hs] at h
    injection h with h
    exact ⟨bookkeeping_unread.2.2.1 forged plain hbare, n, s, hn, hs, h,
      bookkeeping_unread.2.2.2.1 _ n s hs⟩

end TestBench
