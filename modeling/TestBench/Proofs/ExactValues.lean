import Mathlib
import TestBench.Proofs.JsonNesting
import TestBench.Proofs.ShownCounts
/-
  Values that JSON holds as they are.

  1. A value is exact if it is built from nothing, truth values, integers of 64 bits, texts, sequences,
     and mappings with different textual keys (`Yaml.Exact`).
  2. A value is held as a JSON value if this is its form, has only such integers for numbers, nests as
     deep, and stands for the value again (`HeldAs`).  Sequences and mappings are held if their parts
     are (`heldAs_sequence`, `heldAs_mapping`); so an exact value is held as some JSON value
     (`Exact.exists_heldAs`).
-/
namespace TestBench.Yaml

/-- Entries with textual keys. -/
def named (fields : List (String × Yaml)) : Entries := fields.map fun f => entry f.1 f.2

/-- A value that JSON holds as it is. -/
inductive Exact : Yaml → Prop where
  | null : Exact .null
  | bool (b : Bool) : Exact (.bool b)
  | int {z : Int} (fits : FitsWord z) : Exact (.number (.int z))
  | text (s : String) : Exact (.text s)
  | sequence {items : List Yaml} (all : ∀ v ∈ items, Exact v) : Exact (.sequence items)
  | mapping {fields : List (String × Yaml)} (distinct : (fields.map Prod.fst).Nodup)
      (all : ∀ f ∈ fields, Exact f.2) : Exact (.mapping (named fields))

/-! ## Nesting -/

mutual

/-- How many sequences, mappings and tags are open at the deepest place of a value. -/
def nesting : Yaml → Nat
  | .sequence items => itemsNesting items + 1
  | .mapping entries => valuesNesting entries + 1
  | .tagged _ v => v.nesting + 1
  | _ => 0

/-- How deep the deepest item is. -/
def itemsNesting : List Yaml → Nat
  | [] => 0
  | v :: rest => max v.nesting (itemsNesting rest)

/-- How deep the deepest value is; keys are texts where this is used. -/
def valuesNesting : List (Yaml × Yaml) → Nat
  | [] => 0
  | (_, v) :: rest => max v.nesting (valuesNesting rest)

end

/-- A list is one level deeper than its deepest item. -/
theorem nesting_sequence_le {items : List Yaml} {n : Nat} :
    (sequence items).nesting ≤ n + 1 ↔ ∀ v ∈ items, v.nesting ≤ n := by
  have hitems : itemsNesting items ≤ n ↔ ∀ v ∈ items, v.nesting ≤ n := by
    induction items with
    | nil => exact iff_of_true (Nat.zero_le n) (List.forall_mem_nil _)
    | cons v rest ih => rw [itemsNesting, Nat.max_le, ih, List.forall_mem_cons]
  rw [nesting, Nat.add_le_add_iff_right, hitems]

/-- A record is one level deeper than its deepest value. -/
theorem nesting_mapping_le {fields : List (String × Yaml)} {n : Nat} :
    (mapping (named fields)).nesting ≤ n + 1 ↔ ∀ f ∈ fields, f.2.nesting ≤ n := by
  have hfields : valuesNesting (named fields) ≤ n ↔ ∀ f ∈ fields, f.2.nesting ≤ n := by
    induction fields with
    | nil => exact iff_of_true (Nat.zero_le n) (List.forall_mem_nil _)
    | cons f rest ih =>
      rw [named, List.map_cons, entry, valuesNesting, Nat.max_le, ← named, ih, List.forall_mem_cons]
  rw [nesting, Nat.add_le_add_iff_right, hfields]

/-! ## Related lists -/

section Lists

variable {α β : Type} {R : α → β → Prop} {xs : List α}

theorem exists_forall₂ (h : ∀ x ∈ xs, ∃ y, R x y) : ∃ ys, List.Forall₂ R xs ys := by
  induction xs with
  | nil => exact ⟨[], .nil⟩
  | cons x rest ih =>
    obtain ⟨⟨y, hy⟩, hrest⟩ := List.forall_mem_cons.1 h
    obtain ⟨ys, hys⟩ := ih hrest
    exact ⟨y :: ys, .cons hy hys⟩

theorem forall_of_forall₂ {ys : List β} {P : β → Prop} (h : List.Forall₂ R xs ys)
    (holds : ∀ x y, R x y → P y) : ∀ y ∈ ys, P y := by
  induction h with
  | nil => exact List.forall_mem_nil _
  | cons hy _ ih => exact List.forall_mem_cons.2 ⟨holds _ _ hy, ih⟩

end Lists

/-! ## JSON forms part by part -/

/-- Items that have forms have them one by one. -/
theorem itemsJson?_of_forall₂ {items : List Yaml} {js : List Json}
    (h : List.Forall₂ (fun v j => v.toJson? = some j) items js) : itemsJson? items = some js := by
  induction h with
  | nil => rfl
  | cons hj _ ih => rw [itemsJson?, hj, ih]

/-- The same key, and the form of the value. -/
def FormOf (f : String × Yaml) (g : String × Json) : Prop := g.1 = f.1 ∧ f.2.toJson? = some g.2

/-- Fields have the forms of their values under their own names. -/
theorem fieldsJson?_named_iff {fields : List (String × Yaml)} : ∀ {gs : List (String × Json)},
    fieldsJson? (named fields) = some gs ↔ List.Forall₂ FormOf fields gs := by
  induction fields with
  | nil =>
    intro gs
    rw [List.forall₂_nil_left_iff]
    exact ⟨fun h => (Option.some.inj h).symm, fun h => congrArg some h.symm⟩
  | cons f rest ih =>
    intro gs
    rw [named, List.map_cons, entry, fieldsJson?, ← named, List.forall₂_cons_left_iff]
    constructor
    · intro h
      split at h
      · rename_i k j js hk hj hjs
        cases h
        exact ⟨_, _, ⟨(Option.some.inj hk).symm, hj⟩, ih.1 hjs, rfl⟩
      · cases h
    · rintro ⟨⟨key, j⟩, js, ⟨rfl, hj⟩, hjs, rfl⟩
      simp only [jsonKey?, hj, ih.2 hjs]

/-- The form of a mapping consists of the forms of its fields. -/
theorem exists_forms {fields : List (String × Yaml)} {j : Json}
    (h : (mapping (named fields)).toJson? = some j) :
    ∃ gs, j = .object gs ∧ List.Forall₂ FormOf fields gs := by
  rw [toJson?, Option.map_eq_some_iff] at h
  obtain ⟨gs, hgs, rfl⟩ := h
  exact ⟨gs, rfl, fieldsJson?_named_iff.1 hgs⟩

/-- The form of a field, if the form of its value is known. -/
theorem FormOf.eq {f : String × Yaml} {g : String × Json} {j : Json} (h : FormOf f g)
    (form : f.2.toJson? = some j) : g = (f.1, j) :=
  Prod.ext h.1 (Option.some.inj (h.2.symm.trans form))

/-- The forms of fields have the keys of the fields. -/
theorem map_fst_of_forms {fields : List (String × Yaml)} {gs : List (String × Json)}
    (h : List.Forall₂ FormOf fields gs) : gs.map Prod.fst = fields.map Prod.fst := by
  induction h with
  | nil => rfl
  | cons hg _ ih => rw [List.map_cons, List.map_cons, hg.1, ih]

/-! ## Values held as they are -/

/-- A value is held as a JSON value: this is its form, and it stands for the value again. -/
structure HeldAs (v : Yaml) (j : Json) : Prop where
  form : v.toJson? = some j
  exact : j.Exact
  nesting : j.nesting = v.nesting
  back : j.toYaml = .ok v

/-- No key of the other fields is the key of a field. -/
theorem hasKey_named {key : String} {fields : List (String × Yaml)}
    (h : key ∉ fields.map Prod.fst) : hasKey (.text key) (named fields) = false := by
  rw [hasKey, List.any_eq_false, named, List.forall_mem_map]
  intro f hf hsame
  rw [entry, sameKey, beq_iff_eq] at hsame
  exact h (hsame ▸ List.mem_map_of_mem hf)

/-- A list is held as the list of what its items are held as. -/
theorem heldAs_sequence {items : List Yaml} {js : List Json} (h : List.Forall₂ HeldAs items js) :
    HeldAs (.sequence items) (.array js) := by
  have hback : Json.yamlItems js = .ok items := by
    induction h with
    | nil => rfl
    | cons hv _ ih => rw [Json.yamlItems, hv.back, ih]; rfl
  have hexact : ∀ j ∈ js, j.Exact := forall_of_forall₂ h fun _ _ hv => hv.exact
  have hnesting : Json.itemsNesting js = itemsNesting items := by
    -- the sums over both lists are the same, item by item
    clear hback hexact
    induction h with
    | nil => rfl
    | cons hv _ ih => rw [Json.itemsNesting, itemsNesting, hv.nesting, ih]
  refine ⟨?_, .array hexact, ?_, ?_⟩
  · rw [toJson?, itemsJson?_of_forall₂ (h.imp fun _ _ hv => hv.form)]
    rfl
  · rw [Json.nesting, hnesting, Yaml.nesting]
  · rw [Json.toYaml, hback]
    rfl

/-- A record is held as the object of what its values are held as. -/
theorem heldAs_mapping {fields : List (String × Yaml)} {gs : List (String × Json)}
    (distinct : (fields.map Prod.fst).Nodup)
    (h : List.Forall₂ (fun f g => g.1 = f.1 ∧ HeldAs f.2 g.2) fields gs) :
    HeldAs (.mapping (named fields)) (.object gs) := by
  have hexact : ∀ g ∈ gs, g.2.Exact := forall_of_forall₂ h fun _ _ hg => hg.2.exact
  have hback : Json.yamlEntries gs = .ok (named fields) := by
    induction h with
    | nil => rfl
    | @cons f g fields gs hg _ ih =>
      obtain ⟨hkey, hv⟩ := hg
      rw [List.map_cons, List.nodup_cons] at distinct
      have hrest := ih distinct.2 fun g hg => hexact g (List.mem_cons_of_mem _ hg)
      obtain ⟨key, j⟩ := g
      obtain rfl : key = f.1 := hkey
      rw [Json.yamlEntries, hv.back, hrest]
      -- an object in which a key occurs again would be refused here
      show (if hasKey (.text f.1) (named fields) then _ else _) = _
      rw [hasKey_named distinct.1]
      rfl
  have hnesting : Json.fieldsNesting gs = valuesNesting (named fields) := by
    clear hback hexact distinct
    induction h with
    | nil => rfl
    | cons hg _ ih =>
      rw [Json.fieldsNesting, named, List.map_cons, entry, valuesNesting, hg.2.nesting, ih, named]
  refine ⟨?_, .object hexact, ?_, ?_⟩
  · rw [toJson?, fieldsJson?_named_iff.2 (h.imp fun _ _ hv => ⟨hv.1, hv.2.form⟩)]
    rfl
  · rw [Json.nesting, hnesting, Yaml.nesting]
  · rw [Json.toYaml, hback]
    rfl

/-- **JSON holds an exact value as it is.** -/
theorem Exact.exists_heldAs {v : Yaml} (h : v.Exact) : ∃ j, HeldAs v j := by
  induction h with
  | null => exact ⟨.null, rfl, .null, rfl, rfl⟩
  | bool b => exact ⟨.bool b, rfl, .bool b, rfl, rfl⟩
  | @int z fits => exact ⟨.number (.int z), rfl, .int fits, rfl, rfl⟩
  | text s => exact ⟨.text s, rfl, .text s, rfl, rfl⟩
  | sequence _ ih =>
    obtain ⟨js, hjs⟩ := exists_forall₂ ih
    exact ⟨.array js, heldAs_sequence hjs⟩
  | @mapping fields distinct _ ih =>
    have hfields : ∀ f ∈ fields, ∃ g : String × Json, g.1 = f.1 ∧ HeldAs f.2 g.2 := by
      intro f hf
      obtain ⟨j, hj⟩ := ih f hf
      exact ⟨(f.1, j), rfl, hj⟩
    obtain ⟨gs, hgs⟩ := exists_forall₂ hfields
    exact ⟨.object gs, heldAs_mapping distinct hgs⟩

end TestBench.Yaml
