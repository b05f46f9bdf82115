import Mathlib
import TestBench.Discovery
import TestBench.Proofs.Decoding
/-
  Values that other formats can hold.

  A YAML value may hold what a JSON object cannot: any value may be a key.  What a YAML document itself
  cannot say is a tag right around another one.

  1. `Yaml.Everywhere` says that something holds of a value and of all that stands inside of it, keys
     included.
  2. A value has a JSON form iff the keys of all mappings in it are plain (`toJson?_isSome_iff`): texts,
     truth values, whole numbers and finite numbers.
  3. A value that was read has no tag right around another one, for a node of a document has one tag at
     most; so it is with the steps of a suite from a file (`tagsApart_of_loadSuite`).
-/
namespace TestBench

namespace Yaml

/-! ## All that stands inside of a value -/

/-- A value, or one that stands somewhere inside of it, be it in a key. -/
inductive Within (v : Yaml) : Yaml → Prop where
  | self : Within v v
  | item {items : List Yaml} {w : Yaml} (mem : w ∈ items) (inner : Within v w) :
      Within v (.sequence items)
  | key {entries : Entries} {e : Yaml × Yaml} (mem : e ∈ entries) (inner : Within v e.1) :
      Within v (.mapping entries)
  | value {entries : Entries} {e : Yaml × Yaml} (mem : e ∈ entries) (inner : Within v e.2) :
      Within v (.mapping entries)
  | tagged {tag : String} {w : Yaml} (inner : Within v w) : Within v (.tagged tag w)

/-- Nothing else stands inside of a scalar. -/
def IsScalar : Yaml → Prop
  | .null | .bool _ | .number _ | .text _ => True
  | .sequence _ | .mapping _ | .tagged _ _ => False

/-- A property holds of a value and of all that stands inside of it. -/
def Everywhere (P : Yaml → Prop) (v : Yaml) : Prop := ∀ w, Within w v → P w

section Everywhere

variable {P : Yaml → Prop}

theorem everywhere_scalar {v : Yaml} (scalar : v.IsScalar) : Everywhere P v ↔ P v := by
  refine ⟨fun h => h v .self, fun h w hw => ?_⟩
  cases hw with
  | self => exact h
  | _ => cases scalar

/-- In a list it holds everywhere iff it holds of the list and everywhere in its items. -/
theorem everywhere_sequence {items : List Yaml} :
    Everywhere P (.sequence items) ↔ P (.sequence items) ∧ ∀ v ∈ items, Everywhere P v := by
  constructor
  · intro h
    exact ⟨h _ .self, fun v hv w hw => h w (.item hv hw)⟩
  · rintro ⟨hself, hitems⟩ w hw
    cases hw with
    | self => exact hself
    | item mem inner => exact hitems _ mem w inner

/-- In a mapping keys count as well as values. -/
theorem everywhere_mapping {entries : Entries} :
    Everywhere P (.mapping entries)
      ↔ P (.mapping entries) ∧ ∀ e ∈ entries, Everywhere P e.1 ∧ Everywhere P e.2 := by
  constructor
  · intro h
    exact ⟨h _ .self, fun e he => ⟨fun w hw => h w (.key he hw), fun w hw => h w (.value he hw)⟩⟩
  · rintro ⟨hself, hentries⟩ w hw
    cases hw with
    | self => exact hself
    | key mem inner => exact (hentries _ mem).1 w inner
    | value mem inner => exact (hentries _ mem).2 w inner

theorem everywhere_tagged {tag : String} {v : Yaml} :
    Everywhere P (.tagged tag v) ↔ P (.tagged tag v) ∧ Everywhere P v := by
  constructor
  · intro h
    exact ⟨h _ .self, fun w hw => h w (.tagged hw)⟩
  · rintro ⟨hself, hinner⟩ w hw
    cases hw with
    | self => exact hself
    | tagged inner => exact hinner w inner

end Everywhere

/-! ## Plain keys -/

/-- A key that a JSON object can have: a text, a truth value or a finite number. -/
def IsPlainKey : Yaml → Prop
  | .text _ | .bool _ | .number (.int _) => True
  | .number (.float x) => x.isFinite = true
  | .null | .sequence _ | .mapping _ | .tagged _ _ => False

/-- The keys of a value itself are plain; only a mapping has any. -/
def HasPlainKeys : Yaml → Prop
  | .mapping entries => ∀ e ∈ entries, e.1.IsPlainKey
  | _ => True

/-- All keys in a value are plain, however deep they stand. -/
def PlainKeys (v : Yaml) : Prop := v.Everywhere HasPlainKeys

/-- A key can be written in JSON iff it is plain. -/
theorem jsonKey?_isSome_iff {k : Yaml} : (jsonKey? k).isSome = true ↔ k.IsPlainKey := by
  cases k with
  | number n =>
    cases n with
    | int n => exact iff_of_true rfl trivial
    | float x =>
      rw [jsonKey?, IsPlainKey]
      -- of the numbers only those that are finite can be spelled
      split
      · exact iff_of_true rfl ‹_›
      · exact iff_of_false Bool.false_ne_true ‹_›
  | text s => exact iff_of_true rfl trivial
  | bool b => exact iff_of_true rfl trivial
  | null => exact iff_of_false Bool.false_ne_true id
  | sequence items => exact iff_of_false Bool.false_ne_true id
  | mapping entries => exact iff_of_false Bool.false_ne_true id
  | tagged tag v => exact iff_of_false Bool.false_ne_true id

theorem plainKeys_of_isScalar {v : Yaml} (scalar : v.IsScalar) : v.PlainKeys := by
  refine (everywhere_scalar scalar).2 ?_
  cases v with
  | mapping entries => cases scalar
  | _ => trivial

theorem isScalar_of_isPlainKey {k : Yaml} (h : k.IsPlainKey) : k.IsScalar := by
  cases k with
  | sequence items => cases h
  | mapping entries => cases h
  | tagged tag v => cases h
  | _ => trivial

/-- A mapping has plain keys iff its own are plain and those in its values are. -/
theorem plainKeys_mapping {entries : Entries} :
    (mapping entries).PlainKeys ↔ ∀ e ∈ entries, e.1.IsPlainKey ∧ e.2.PlainKeys := by
  rw [PlainKeys, everywhere_mapping]
  constructor
  · rintro ⟨hkeys, hall⟩ e he
    exact ⟨hkeys e he, (hall e he).2⟩
  · intro h
    refine ⟨fun e he => (h e he).1, fun e he => ⟨?_, (h e he).2⟩⟩
    exact plainKeys_of_isScalar (isScalar_of_isPlainKey (h e he).1)

mutual

/-- **A value has a JSON form iff all keys in it are plain.** -/
theorem toJson?_isSome_iff : ∀ v : Yaml, v.toJson?.isSome = true ↔ v.PlainKeys
  | .null => iff_of_true rfl (plainKeys_of_isScalar trivial)
  | .bool _ => iff_of_true rfl (plainKeys_of_isScalar trivial)
  | .number (.int _) => iff_of_true rfl (plainKeys_of_isScalar trivial)
  | .number (.float _) => iff_of_true rfl (plainKeys_of_isScalar trivial)
  | .text _ => iff_of_true rfl (plainKeys_of_isScalar trivial)
  | .sequence items => by
    rw [toJson?, Option.isSome_map, itemsJson?_isSome_iff items, PlainKeys, everywhere_sequence]
    exact (and_iff_right trivial).symm
  | .mapping entries => by
    rw [toJson?, Option.isSome_map, fieldsJson?_isSome_iff entries, plainKeys_mapping]
  | .tagged _ v => by
    rw [toJson?, Option.isSome_map, toJson?_isSome_iff v, PlainKeys, PlainKeys, everywhere_tagged]
    exact (and_iff_right trivial).symm

/-- Items can all be written iff their keys are plain. -/
theorem itemsJson?_isSome_iff :
    ∀ items : List Yaml, (itemsJson? items).isSome = true ↔ ∀ v ∈ items, v.PlainKeys
  | [] => iff_of_true rfl fun _ h => absurd h List.not_mem_nil
  | v :: rest => by
    rw [List.forall_mem_cons, ← toJson?_isSome_iff v, ← itemsJson?_isSome_iff rest, itemsJson?]
    cases v.toJson? <;> cases itemsJson? rest <;> simp

/-- Fields can all be written iff their keys are plain, and those in their values. -/
theorem fieldsJson?_isSome_iff : ∀ entries : List (Yaml × Yaml),
    (fieldsJson? entries).isSome = true ↔ ∀ e ∈ entries, e.1.IsPlainKey ∧ e.2.PlainKeys
  | [] => iff_of_true rfl fun _ h => absurd h List.not_mem_nil
  | (k, v) :: rest => by
    rw [List.forall_mem_cons, ← jsonKey?_isSome_iff, ← toJson?_isSome_iff v,
      ← fieldsJson?_isSome_iff rest, fieldsJson?]
    cases jsonKey? k <;> cases v.toJson? <;> cases fieldsJson? rest <;> simp

end

/-! ## Tags apart -/

/-- A value is no tag right around another one. -/
def IsTagsApart : Yaml → Prop
  | .tagged _ (.tagged _ _) => False
  | _ => True

/-- No tag stands right around another one. -/
def TagsApart (v : Yaml) : Prop := v.Everywhere IsTagsApart

theorem tagsApart_of_isScalar {v : Yaml} (scalar : v.IsScalar) : v.TagsApart := by
  refine (everywhere_scalar scalar).2 ?_
  cases v with
  | tagged tag w => cases scalar
  | _ => trivial

/-- A tag around a scalar is all there is. -/
theorem tagsApart_tagged {tag : String} {v : Yaml} (scalar : v.IsScalar) :
    (tagged tag v).TagsApart := by
  refine everywhere_tagged.2 ⟨?_, tagsApart_of_isScalar scalar⟩
  cases v with
  | tagged inner w => cases scalar
  | _ => trivial

/-- A tag may stand around a value that has none in front. -/
theorem tagsApart_withTag {tag : Option String} {v : Yaml} (h : v.TagsApart)
    (bare : ∀ name, IsTagsApart (.tagged name v)) : (withTag tag v).TagsApart := by
  rw [withTag]
  split
  · exact everywhere_tagged.2 ⟨bare _, h⟩
  · exact h

/-- What a plain spelling stands for is a scalar again. -/
theorem isScalar_of_plain? {s : String} {v : Yaml} (h : plain? s = some v) : v.IsScalar := by
  rw [plain?] at h
  split at h
  · injection h with h
    exact h ▸ trivial
  · split at h
    · injection h with h
      exact h ▸ trivial
    · split at h
      · injection h with h
        exact h ▸ trivial
      · cases h
      · -- no whole number, so it is another number or a text
        generalize (if isPadded s.toList then none else float? s.toList) = number? at h
        cases number? with
        | some x =>
          injection h with h
          exact h ▸ trivial
        | none =>
          injection h with h
          exact h ▸ trivial

/-- What a scalar node stands for is a scalar, whatever its tag says. -/
theorem isScalar_of_scalarValue? {tag : Option String} {s : String} {plain : Bool} {v : Yaml}
    (h : scalarValue? tag s plain = some v) : v.IsScalar := by
  -- text is what is left where a tag asks for nothing else, and where no reading of plain text fits
  have text {v : Yaml} (h : some (Yaml.text s) = some v) : v.IsScalar := by
    injection h with h
    exact h ▸ trivial
  cases tag with
  | none =>
    rw [scalarValue?] at h
    split at h
    · exact isScalar_of_plain? h
    · exact text h
  | some tag =>
    rw [scalarValue?] at h
    split at h
    · obtain ⟨b, _, rfl⟩ := Option.map_eq_some_iff.1 h
      trivial
    · split at h
      · obtain ⟨n?, _, h⟩ := Option.bind_eq_some_iff.1 h
        obtain ⟨n, _, rfl⟩ := Option.map_eq_some_iff.1 h
        trivial
      · split at h
        · obtain ⟨x, _, rfl⟩ := Option.map_eq_some_iff.1 h
          trivial
        · split at h
          · split at h
            · injection h with h
              exact h ▸ trivial
            · cases h
          · exact text h

namespace Node

mutual

/-- The value of a node has its tags apart, for a node has one tag at most. -/
theorem tagsApart_of_value? : ∀ (n : Node) {v : Yaml}, n.value? = some v → v.TagsApart
  | .scalar tag s plain, v, h => by
    rw [value?] at h
    split at h
    · obtain ⟨w, hw, rfl⟩ := Option.map_eq_some_iff.1 h
      exact tagsApart_tagged (isScalar_of_scalarValue? hw)
    · exact tagsApart_of_isScalar (isScalar_of_scalarValue? h)
  | .sequence tag items, v, h => by
    rw [value?] at h
    obtain ⟨vs, hvs, rfl⟩ := Option.map_eq_some_iff.1 h
    refine tagsApart_withTag (everywhere_sequence.2 ⟨trivial, ?_⟩) fun _ => trivial
    exact tagsApart_of_itemValues? items hvs
  | .mapping tag entries, v, h => by
    rw [value?] at h
    obtain ⟨es, hes, h⟩ := Option.bind_eq_some_iff.1 h
    split at h
    · cases h
    · injection h with h
      subst h
      refine tagsApart_withTag (everywhere_mapping.2 ⟨trivial, ?_⟩) fun _ => trivial
      exact tagsApart_of_entryValues? entries hes
  | .bottomless, v, h => by cases h

/-- Items are read one by one. -/
theorem tagsApart_of_itemValues? : ∀ (items : List Node) {vs : List Yaml},
    itemValues? items = some vs → ∀ v ∈ vs, v.TagsApart
  | [], vs, h => by
    injection h with h
    subst h
    exact fun _ hv => absurd hv List.not_mem_nil
  | n :: rest, vs, h => by
    rw [itemValues?] at h
    split at h
    · rename_i w ws hw hws
      injection h with h
      subst h
      exact List.forall_mem_cons.2 ⟨tagsApart_of_value? n hw, tagsApart_of_itemValues? rest hws⟩
    · cases h

/-- Keys and values are read one by one. -/
theorem tagsApart_of_entryValues? : ∀ (entries : List (Node × Node)) {es : Entries},
    entryValues? entries = some es → ∀ e ∈ es, e.1.TagsApart ∧ e.2.TagsApart
  | [], es, h => by
    injection h with h
    subst h
    exact fun _ he => absurd he List.not_mem_nil
  | (k, w) :: rest, es, h => by
    rw [entryValues?] at h
    split at h
    · rename_i a b fs ha hb hfs
      injection h with h
      subst h
      exact List.forall_mem_cons.2 ⟨⟨tagsApart_of_value? k ha, tagsApart_of_value? w hb⟩,
        tagsApart_of_entryValues? rest hfs⟩
    · cases h

end

/-- The entries of a step have their tags apart, and so has the step. -/
theorem tagsApart_of_entries? {n : Node} {es : Entries} (h : n.entries? = some es) :
    (Yaml.mapping es).TagsApart := by
  have blank (h : (if n.isBlank then some [] else none) = some es) : (Yaml.mapping es).TagsApart := by
    split at h
    · injection h with h
      subst h
      exact everywhere_mapping.2 ⟨trivial, fun _ he => absurd he List.not_mem_nil⟩
    · cases h
  cases n with
  | mapping tag entries =>
    obtain ⟨hes, _⟩ := Option.filter_eq_some_iff.1 h
    exact everywhere_mapping.2 ⟨trivial, tagsApart_of_entryValues? entries hes⟩
  | scalar tag s plain => exact blank h
  | sequence tag items => exact blank h
  | bottomless => exact blank h

end Node
end Yaml

/-! ## Steps that were read -/

/-- All keys in a step are plain. -/
def Step.PlainKeys (step : Step) : Prop := (Yaml.mapping step.entries).PlainKeys

theorem Step.toJson?_isSome_iff (step : Step) : step.toJson?.isSome = true ↔ step.PlainKeys :=
  Yaml.toJson?_isSome_iff (.mapping step.entries)

/-- No tag in a step stands right around another one. -/
def Step.TagsApart (step : Step) : Prop := (Yaml.mapping step.entries).TagsApart

/-- A decoded step has its tags apart. -/
theorem tagsApart_of_decodeStep {source : Yaml.Node} {step : Step}
    (h : decodeStep Yaml.Node.format source = .ok step) : step.TagsApart := by
  obtain ⟨entries, hentries, rfl⟩ := ok_of_map_ok h
  have hread : Yaml.Node.asEntries source = .ok entries := hentries
  rw [Yaml.Node.asEntries] at hread
  split at hread
  · rename_i es hes
    injection hread with hread
    subst hread
    exact Yaml.Node.tagsApart_of_entries? hes
  · cases hread

/-- So have the steps of a decoded case, since no other field writes them. -/
theorem tagsApart_of_decodeCase {source : Yaml.Node} {c : Case}
    (h : decodeCase Yaml.Node.format source = .ok c) : ∀ step ∈ c.steps, step.TagsApart := by
  refine decodeRecord_keeps (P := fun c : Case => ∀ step ∈ c.steps, step.TagsApart) ?_
    (fun _ hstep => absurd hstep List.not_mem_nil) h
  intro f hf v c c' hread hc
  simp only [caseFields, List.mem_cons, List.not_mem_nil, or_false] at hf
  rcases hf with rfl | rfl | rfl
  · obtain ⟨name, _, rfl⟩ := ok_of_map_ok hread
    exact hc
  · obtain ⟨steps, hsteps, rfl⟩ := ok_of_map_ok hread
    intro step hstep
    obtain ⟨source, hsource⟩ := decoded_of_mem hsteps step hstep
    exact tagsApart_of_decodeStep hsource
  · obtain ⟨skipped, _, rfl⟩ := ok_of_map_ok hread
    exact hc

/-- And those of a decoded suite. -/
theorem tagsApart_of_decodeSuite {source : Yaml.Node} {s : Suite}
    (h : decodeSuite Yaml.Node.format source = .ok s) :
    ∀ c ∈ s.cases, ∀ step ∈ c.steps, step.TagsApart := by
  refine decodeRecord_keeps (P := fun s : Suite => ∀ c ∈ s.cases, ∀ step ∈ c.steps, step.TagsApart)
    ?_ (fun _ hc => absurd hc List.not_mem_nil) h
  intro f hf v s s' hread hs
  simp only [suiteFields, List.mem_cons, List.not_mem_nil, or_false] at hf
  rcases hf with rfl | rfl
  · obtain ⟨name, _, rfl⟩ := ok_of_map_ok hread
    exact hs
  · obtain ⟨cases, hcases, rfl⟩ := ok_of_map_ok hread
    intro c hc
    obtain ⟨source, hsource⟩ := decoded_of_mem hcases c hc
    exact tagsApart_of_decodeCase hsource

/-- A suite from a file has its tags apart. -/
theorem tagsApart_of_loadSuite {files : Files} {path : String} {s : Suite}
    (h : loadSuite files path = .ok s) : ∀ c ∈ s.cases, ∀ step ∈ c.steps, step.TagsApart := by
  obtain ⟨node, decoded, hdecode, rfl⟩ := exists_decoded_of_loadSuite h
  exact fun c hc => tagsApart_of_decodeSuite hdecode c hc

end TestBench
