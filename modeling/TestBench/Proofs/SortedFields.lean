import Mathlib
import TestBench.Json.Basic
/-
  Fields sorted by key.

  1. A field that is put in leaves the others as they are (`mem_of_mem_insertField`), and keeps the keys
     in strictly increasing order (`Increasing.insertField`).
  2. In that order a field is in a list iff it is found there (`Increasing.mem_iff`), so fields in
     strictly increasing order are the same as soon as the same is found of every key
     (`Increasing.ext`).
-/
namespace TestBench.Json

variable {α β : Type}

/-! ## Putting a field in -/

/-- Putting a field in its place looks at its key alone. -/
theorem map_insertField (f : α → β) (key : String) (value : α) (fields : List (String × α)) :
    (insertField key value fields).map (fun e => (e.1, f e.2))
      = insertField key (f value) (fields.map fun e => (e.1, f e.2)) := by
  induction fields with
  | nil => rfl
  | cons e fields ih =>
    rw [insertField, List.map_cons, insertField]
    split_ifs
    · rfl
    · rfl
    · rw [List.map_cons, ih]

/-- No field comes in but the one put. -/
theorem mem_of_mem_insertField {key : String} {value : α} {fields : List (String × α)}
    {e : String × α} (h : e ∈ insertField key value fields) : e = (key, value) ∨ e ∈ fields := by
  induction fields with
  | nil => exact .inl (List.mem_singleton.1 h)
  | cons f fields ih =>
    rw [insertField] at h
    split_ifs at h
    · exact List.mem_cons.1 h
    · exact (List.mem_cons.1 h).imp_right (List.mem_cons_of_mem f)
    · rcases List.mem_cons.1 h with rfl | h
      · exact .inr List.mem_cons_self
      · exact (ih h).imp_right (List.mem_cons_of_mem f)

/-! ## The order of keys -/

/-- The keys of fields in strictly increasing order, so that none occurs twice. -/
def Increasing (fields : List (String × α)) : Prop := fields.Pairwise fun a b => a.1 < b.1

/-- A field put in its place leaves the keys increasing. -/
theorem Increasing.insertField {fields : List (String × α)} (h : Increasing fields) (key : String)
    (value : α) : Increasing (insertField key value fields) := by
  -- the new key comes before the first one, stands for it, or goes on behind it
  induction fields with
  | nil => exact List.pairwise_singleton _ _
  | cons e rest ih =>
    obtain ⟨hhead, hrest⟩ := List.pairwise_cons.1 h
    rw [Json.insertField]
    split_ifs with hlt heq
    · refine List.pairwise_cons.2 ⟨List.forall_mem_cons.2 ⟨hlt, fun x hx => ?_⟩, h⟩
      exact lt_trans hlt (hhead x hx)
    · exact List.pairwise_cons.2 ⟨fun x hx => heq ▸ hhead x hx, hrest⟩
    · have hgt : e.1 < key := lt_of_le_of_ne (not_lt.1 hlt) (Ne.symm heq)
      refine List.pairwise_cons.2 ⟨fun x hx => ?_, ih hrest⟩
      rcases mem_of_mem_insertField hx with rfl | hx
      · exact hgt
      · exact hhead x hx

/-- With increasing keys, a field is there iff its key is found with its value. -/
theorem Increasing.mem_iff {fields : List (String × α)} (h : Increasing fields) {key : String}
    {value : α} : (key, value) ∈ fields ↔ lookup key fields = some value := by
  induction fields with
  | nil => exact iff_of_false List.not_mem_nil fun h => nomatch h
  | cons e rest ih =>
    obtain ⟨hhead, hrest⟩ := List.pairwise_cons.1 h
    rw [List.mem_cons, lookup]
    split_ifs with heq
    · -- the keys behind this one are greater
      have hne : (key, value) ∉ rest := fun hmem => absurd (heq ▸ hhead _ hmem) (lt_irrefl _)
      rw [or_iff_left hne, ← heq, Option.some.injEq, Prod.ext_iff, eq_comm (a := value)]
      exact and_iff_right rfl
    · rw [← ih hrest]
      exact or_iff_right fun he => heq (congrArg Prod.fst he).symm

/-- Fields with increasing keys are known by what is found in them. -/
theorem Increasing.ext {fields fields' : List (String × α)} (h : Increasing fields)
    (h' : Increasing fields') (same : ∀ key, lookup key fields = lookup key fields') :
    fields = fields' := by
  have hnodup {xs : List (String × α)} (hx : Increasing xs) : xs.Nodup :=
    hx.imp fun hlt heq => absurd (heq ▸ hlt) (lt_irrefl _)
  have hperm : fields.Perm fields' := by
    refine (List.perm_ext_iff_of_nodup (hnodup h) (hnodup h')).2 fun e => ?_
    rw [h.mem_iff, h'.mem_iff, same]
  exact hperm.eq_of_pairwise (fun _ _ _ _ hab hba => absurd hab (lt_asymm hba)) h h'

end TestBench.Json
