import Mathlib
import TestBench.Discovery
/-
  What every decoded suite has, whatever its document says.

  1. Decoding a record starts from its initial value and applies readers of fields, by name or by
     position.  So what the initial value has and every reader keeps, the decoded record has
     (`decodeRecord_keeps`).
  2. No reader of a case writes records, and none of a suite writes counters or a package.  Hence a
     decoded case holds no record, and a decoded suite has no package and no counts
     (`unrun_of_decodeCase`, `unrun_of_decodeSuite`), in every format.
  3. A suite from a file is a decoded one that has been prepared (`exists_decoded_of_loadSuite`).
-/
namespace TestBench

variable {σ α : Type}

/-! ## Decoding keeps what its readers keep -/

/-- A value that comes out of two decoders in a row comes out of the second one. -/
theorem ok_of_bind_ok {ε β : Type} {x : Except ε α} {f : α → Except ε β} {b : β}
    (h : (x >>= f) = .ok b) : ∃ a, x = .ok a ∧ f a = .ok b := by
  cases x with
  | error e => cases h
  | ok a => exact ⟨a, rfl, h⟩

/-- What is done to a result alone needs the result. -/
theorem ok_of_map_ok {ε β : Type} {x : Except ε α} {f : α → β} {b : β}
    (h : x.map f = .ok b) : ∃ a, x = .ok a ∧ b = f a := by
  cases x with
  | error e => cases h
  | ok a =>
    injection h with h
    exact ⟨a, rfl, h.symm⟩

theorem ok_of_mapError_ok {ε ε' : Type} {x : Except ε α} {f : ε → ε'} {a : α}
    (h : x.mapError f = .ok a) : x = .ok a := by
  cases x with
  | error e => cases h
  | ok b =>
    injection h with h
    rw [h]

theorem ok_of_toOption {ε : Type} {x : Except ε α} {a : α} (h : x.toOption = some a) :
    x = .ok a := by
  cases x with
  | error e => cases h
  | ok b =>
    injection h with h
    rw [h]

/-- Every item of a decoded list was decoded by itself. -/
theorem mem_of_mapM_ok {ε β : Type} {f : α → Except ε β} {items : List α} :
    ∀ {bs : List β}, items.mapM f = .ok bs → ∀ b ∈ bs, ∃ a ∈ items, f a = .ok b := by
  induction items with
  | nil =>
    intro bs h b hb
    rw [List.mapM_nil] at h
    injection h with h
    subst h
    cases hb
  | cons a rest ih =>
    intro bs h b hb
    rw [List.mapM_cons] at h
    obtain ⟨b₁, hb₁, h⟩ := ok_of_bind_ok h
    obtain ⟨bs₁, hbs₁, h⟩ := ok_of_bind_ok h
    injection h with h
    subst h
    -- the first one comes from the first item, any other one from the others
    rcases List.mem_cons.1 hb with rfl | hb
    · exact ⟨a, List.mem_cons_self, hb₁⟩
    · obtain ⟨a', ha', hf⟩ := ih hbs₁ b hb
      exact ⟨a', List.mem_cons_of_mem a ha', hf⟩

/-- Everything in a decoded list was decoded by itself. -/
theorem decoded_of_mem {format : Format σ} {item : σ → Except Refusal α} {source : σ} {as : List α}
    (h : decodeList format item source = .ok as) : ∀ a ∈ as, ∃ source, item source = .ok a := by
  intro a ha
  rw [decodeList] at h
  obtain ⟨items, _, h⟩ := ok_of_bind_ok h
  obtain ⟨source, _, hsource⟩ := mem_of_mapM_ok h a ha
  exact ⟨source, hsource⟩

/-- Every reader of a list of fields keeps a property of the record. -/
def KeptBy (P : α → Prop) (fields : List (Field σ α)) : Prop :=
  ∀ f ∈ fields, ∀ v a a', f.read v a = .ok a' → P a → P a'

/-- What every field keeps is kept by reading named parts. -/
theorem readNamed_keeps {P : α → Prop} {fields : List (Field σ α)} (keeps : KeptBy P fields)
    (parts : List (String × σ)) : ∀ (seen : List String) (a : α) {result : List String × α},
      Field.readNamed fields seen parts a = .ok result → P a → P result.2 := by
  induction parts with
  | nil =>
    intro seen a result h ha
    injection h with h
    subst h
    exact ha
  | cons part rest ih =>
    intro seen a result h ha
    rw [Field.readNamed] at h
    split at h
    · exact ih seen a h ha
    · rename_i f hfind
      split at h
      · cases h
      · split at h
        · cases h
        · rename_i a' hread
          exact ih _ a' h (keeps f (List.mem_of_find?_eq_some hfind) _ a a' hread ha)

/-- And by reading parts by position. -/
theorem readPositional_keeps {P : α → Prop} (lengthText : String) (fields : List (Field σ α)) :
    KeptBy P fields → ∀ (count : Nat) (items : List σ) (a : α) {result : α},
      Field.readPositional lengthText count fields items a = .ok result → P a → P result := by
  induction fields with
  | nil =>
    intro _ count items a result h ha
    cases items with
    | nil =>
      injection h with h
      exact h ▸ ha
    -- a part more than there are fields is refused
    | cons item rest => cases h
  | cons f fields ih =>
    intro keeps count items a result h ha
    have others : KeptBy P fields := fun g hg => keeps g (List.mem_cons_of_mem f hg)
    cases items with
    | nil =>
      rw [Field.readPositional] at h
      split at h
      · cases h
      · exact ih others (count + 1) [] a h ha
    | cons item rest =>
      rw [Field.readPositional] at h
      split at h
      · cases h
      · rename_i a' hread
        exact ih others (count + 1) rest a' h (keeps f List.mem_cons_self item a a' hread ha)

/-- A decoded record has what its initial value has and every reader keeps. -/
theorem decodeRecord_keeps {P : α → Prop} {format : Format σ} {what : String}
    {fields : List (Field σ α)} (keeps : KeptBy P fields) {initial result : α} {source : σ}
    (hinitial : P initial)
    (h : decodeRecord format what fields initial source = .ok result) : P result := by
  rw [decodeRecord] at h
  obtain ⟨parts, _, h⟩ := ok_of_bind_ok h
  cases parts with
  | named entries =>
    obtain ⟨⟨seen, a⟩, hread, h⟩ := ok_of_bind_ok h
    have ha : P a := readNamed_keeps keeps entries [] initial hread hinitial
    dsimp only at h
    split at h
    · cases h
    · injection h with h
      exact h ▸ ha
  | positional items => exact readPositional_keeps _ fields keeps 0 items initial h hinitial

/-! ## Decoded cases and suites have not run -/

/-- A case without records. -/
structure Case.Unrun (c : Case) : Prop where
  failures : c.failures = []
  errors : c.errors = []

/-- A suite without a package, counts and records. -/
structure Suite.Unrun (s : Suite) : Prop where
  package : s.package = ""
  total : s.total = 0
  failures : s.failures = 0
  errors : s.errors = 0
  skipped : s.skipped = 0
  cases : ∀ c ∈ s.cases, c.Unrun

/-- No field of a case brings records into it. -/
theorem caseFields_keep (format : Format σ) : KeptBy Case.Unrun (caseFields format) := by
  intro f hf v c c' h hc
  simp only [caseFields, List.mem_cons, List.not_mem_nil, or_false] at hf
  rcases hf with rfl | rfl | rfl
  all_goals
    obtain ⟨_, _, rfl⟩ := ok_of_map_ok h
    exact ⟨hc.failures, hc.errors⟩

/-- Whatever a document says, a decoded case holds no record. -/
theorem unrun_of_decodeCase {format : Format σ} {source : σ} {c : Case}
    (h : decodeCase format source = .ok c) : c.Unrun :=
  decodeRecord_keeps (caseFields_keep format) ⟨rfl, rfl⟩ h

/-- No field of a suite counts or names anything of a run. -/
theorem suiteFields_keep (format : Format σ) : KeptBy Suite.Unrun (suiteFields format) := by
  intro f hf v s s' h hs
  simp only [suiteFields, List.mem_cons, List.not_mem_nil, or_false] at hf
  rcases hf with rfl | rfl
  · obtain ⟨_, _, rfl⟩ := ok_of_map_ok h
    exact ⟨hs.package, hs.total, hs.failures, hs.errors, hs.skipped, hs.cases⟩
  · obtain ⟨cases, hcases, rfl⟩ := ok_of_map_ok h
    refine ⟨hs.package, hs.total, hs.failures, hs.errors, hs.skipped, ?_⟩
    intro c hc
    obtain ⟨source, hsource⟩ := decoded_of_mem hcases c hc
    exact unrun_of_decodeCase hsource

/-- Whatever a document says, a decoded suite has not run. -/
theorem unrun_of_decodeSuite {format : Format σ} {source : σ} {s : Suite}
    (h : decodeSuite format source = .ok s) : s.Unrun :=
  decodeRecord_keeps (suiteFields_keep format)
    ⟨rfl, rfl, rfl, rfl, rfl, fun _ hc => absurd hc List.not_mem_nil⟩ h

/-! ## Suites from files -/

theorem decodeYamlText_eq_ok_iff {decode : Yaml.Node → Except Refusal α} {text : String} {a : α} :
    decodeYamlText decode text = .ok a
      ↔ ∃ node, Yaml.parse? text = some node ∧ decode node = .ok a := by
  rw [decodeYamlText]
  cases Yaml.parse? text with
  | none => exact iff_of_false (fun h => nomatch h) fun ⟨_, h, _⟩ => nomatch h
  | some node => simp only [Option.some.injEq, exists_eq_left']

/-- A suite from a file was decoded and then prepared. -/
theorem exists_decoded_of_loadSuite {files : Files} {path : String} {s : Suite}
    (h : loadSuite files path = .ok s) : ∃ node decoded,
      decodeSuite Yaml.Node.format node = .ok decoded ∧ s = decoded.prepare path := by
  rw [loadSuite] at h
  split at h
  · cases h
  · split at h
    · cases h
    · rename_i decoded hread
      injection h with h
      obtain ⟨node, _, hdecode⟩ := decodeYamlText_eq_ok_iff.1 hread
      exact ⟨node, decoded, hdecode, h.symm⟩

end TestBench
