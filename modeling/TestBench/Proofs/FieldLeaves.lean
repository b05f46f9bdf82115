import Mathlib
import TestBench.Proofs.Flattening
/-
  What stands in the fields of a result.

  1. Of the leaves that are put in under one path, in any letter case, the last one stays
     (`get?_insertAll`).
  2. The second piece of a path says which field of the result it leads into, if the fields have plain
     names: lower-case ASCII without a point.  Lowering keeps that piece, whatever stands behind it
     (`field?_under`).
  3. So a field answers for its own paths alone, and what the others hold does not matter
     (`get?_field`).
-/
namespace TestBench

open TestBench.Text

namespace Observed

/-! ## The last one stays -/

/-- The leaves of a list that stand under a path, in any letter case. -/
def standing (path : String) (entries : List (String × Json)) : List Json :=
  entries.filterMap fun e => if lowercase e.1 = lowercase path then some e.2 else none

/-- Entries under a path are found in any letter case. -/
theorem standing_cons (path : String) (e : String × Json) (entries : List (String × Json)) :
    standing path (e :: entries)
      = (if lowercase e.1 = lowercase path then [e.2] else []) ++ standing path entries := by
  rw [standing, List.filterMap_cons]
  split_ifs <;> rfl

/-- **Of the leaves under a path the last one is found**, or what was there before. -/
theorem get?_insertAll (observed : Observed) (entries : List (String × Json)) (path : String) :
    (observed.insertAll entries).get? path
      = (standing path entries).getLast?.or (observed.get? path) := by
  induction entries generalizing observed with
  | nil => rfl
  | cons e entries ih =>
    rw [insertAll_cons, ih, get?_insert, standing_cons, List.getLast?_append, Option.or_assoc]
    split_ifs <;> rfl

/-- A path has the last of the values that stand under it. -/
theorem get?_ofJson_eq (v : Json) (path : String) :
    (ofJson v).get? path = (standing path (leaves root v)).getLast? := by
  have hall : ofJson v = empty.insertAll (leaves root v) := rfl
  rw [hall, get?_insertAll]
  exact Option.or_none

/-! ## Fields -/

/-- The second piece of a path in lower case. -/
def field? (path : String) : Option (List Char) := (splitChar '.' (lowercase path).toList)[1]?

/-- A key that lowering keeps and that is one piece of a path. -/
def IsField (key : String) : Prop :=
  IsAscii key ∧ key.toList.map Char.toLower = key.toList ∧ '.' ∉ key.toList

instance (key : String) : Decidable (IsField key) := inferInstanceAs (Decidable (_ ∧ _ ∧ _))

/-- Below a path a dot stands in front of the key. -/
theorem toList_below (path key : String) : (below path key).toList = path.toList ++ '.' :: key.toList := by
  rw [below, String.toList_append, String.toList_append, List.append_assoc]
  rfl

theorem isAscii_below {path key : String} (hpath : IsAscii path) (hkey : IsAscii key) :
    IsAscii (below path key) := by
  rw [IsAscii, toList_below]
  exact List.forall_mem_append.2 ⟨hpath, List.forall_mem_cons.2 ⟨by decide, hkey⟩⟩

/-- Below one path, paths are the same but for letter case iff their last pieces are. -/
theorem sameIgnoringCase_below (path key key' : String) :
    sameIgnoringCase (below path key) (below path key') = sameIgnoringCase key key' := by
  rw [Bool.eq_iff_iff, sameIgnoringCase, sameIgnoringCase, beq_iff_eq, beq_iff_eq, toList_below,
    toList_below, List.map_append, List.map_append, List.map_cons, List.map_cons,
    List.append_cancel_left_eq, List.cons.injEq, and_iff_right rfl]

/-- Every path below a field leads into it. -/
theorem field?_under {key : String} (h : IsField key) (keys : List String) :
    field? (under (below root key) keys) = some key.toList := by
  obtain ⟨hascii, hlower, hdot⟩ := h
  have hroot : root.toList.map Char.toLower = root.toList := by decide
  -- behind the key nothing stands, or a point first
  have hbehind : ∃ behind, (lowercase (under (below root key) keys)).toList
      = root.toList ++ '.' :: (key.toList ++ behind) ∧ (behind = [] ∨ ∃ rest, behind = '.' :: rest) := by
    have hfront : IsAscii (below root key) := isAscii_below (by decide) hascii
    have hfrontLower : (below root key).toList.map Char.toLower = (below root key).toList := by
      rw [toList_below, List.map_append, List.map_cons, hroot, hlower]
      rfl
    rw [lowercase, String.toList_ofList, toList_under, lowerAfter_append hfront, hfrontLower]
    refine ⟨_, by rw [toList_below, List.append_assoc, List.cons_append], ?_⟩
    cases keys with
    | nil => exact .inl rfl
    | cons first keys =>
      rw [List.map_cons, List.flatMap_cons, List.cons_append, lowerAfter_cons (by decide)]
      exact .inr ⟨_, rfl⟩
  obtain ⟨behind, hlist, hcases⟩ := hbehind
  have hsplitRoot : splitChar '.' root.toList = [root.toList] := by decide
  have hsplitKey : splitChar '.' key.toList = [key.toList] :=
    splitChar_joinChar '.' key.toList [] (List.forall_mem_singleton.2 hdot)
  rw [field?, hlist, splitChar_append, hsplitRoot]
  rcases hcases with rfl | ⟨rest, rfl⟩
  · rw [List.append_nil, hsplitKey]
    rfl
  · rw [splitChar_append, hsplitKey]
    rfl

/-- A path that leads into another field has nothing below a key. -/
theorem standing_of_ne {key path : String} (h : IsField key) (other : field? path ≠ some key.toList)
    (v : Json) : standing path (leaves (below root key) v) = [] := by
  rw [standing, List.filterMap_eq_nil_iff]
  intro e he
  rw [leaves_eq] at he
  obtain ⟨slot, _, hkept⟩ := List.mem_filterMap.1 he
  obtain ⟨leaf, _, rfl⟩ := Option.map_eq_some_iff.1 hkept
  refine if_neg fun same => other ?_
  rw [← field?_under h slot.1, field?, field?, same]

section Fields

variable {fields : List (String × Json)} (names : ∀ f ∈ fields, IsField f.1)
include names

omit names in
/-- What stands under a path stands there in one of the fields. -/
theorem standing_fields (path : String) : standing path (fieldLeaves root fields)
    = fields.flatMap fun f => standing path (leaves (below root f.1) f.2) := by
  rw [fieldLeaves_eq, standing, List.filterMap_flatMap]
  rfl

/-- **A field answers for the paths that lead into it.** -/
theorem get?_field (distinct : (fields.map Prod.fst).Nodup) {key : String} {v : Json}
    (mem : (key, v) ∈ fields) {path : String} (hpath : field? path = some key.toList) :
    (ofJson (.object fields)).get? path = (standing path (leaves (below root key) v)).getLast? := by
  obtain ⟨front, back, rfl⟩ := List.append_of_mem mem
  -- no other field has this key, so nothing of the others stands under the path
  have hothers : ∀ f ∈ front ++ back, standing path (leaves (below root f.1) f.2) = [] := by
    intro f hf
    have hmem : f ∈ front ++ (key, v) :: back := by
      rw [List.mem_append, List.mem_cons]
      exact (List.mem_append.1 hf).imp_right .inr
    refine standing_of_ne (names f hmem) (fun heq => ?_) f.2
    have hkey : key = f.1 := String.toList_inj.1 (Option.some.inj (hpath.symm.trans heq))
    rw [List.map_append, List.map_cons, List.nodup_middle, ← List.map_append] at distinct
    exact (List.nodup_cons.1 distinct).1 (List.mem_map.2 ⟨f, hf, hkey.symm⟩)
  obtain ⟨hfront, hback⟩ := List.forall_mem_append.1 hothers
  have hleaves : leaves root (.object (front ++ (key, v) :: back))
      = fieldLeaves root (front ++ (key, v) :: back) := by
    cases front <;> rfl
  rw [get?_ofJson_eq, hleaves, standing_fields, List.flatMap_append, List.flatMap_cons,
    List.flatMap_eq_nil_iff.2 hfront, List.flatMap_eq_nil_iff.2 hback, List.append_nil]
  rfl

/-- Paths into a field that is not there lead to nothing. -/
theorem get?_noField (hne : fields ≠ []) {path : String}
    (h : ∀ f ∈ fields, field? path ≠ some f.1.toList) : (ofJson (.object fields)).get? path = none := by
  obtain ⟨first, rest, rfl⟩ := List.exists_cons_of_ne_nil hne
  have hleaves : leaves root (.object (first :: rest)) = fieldLeaves root (first :: rest) := rfl
  rw [get?_ofJson_eq, hleaves, standing_fields, List.flatMap_eq_nil_iff.2]
  · rfl
  · exact fun f hf => standing_of_ne (names f hf) (h f hf) f.2

end Fields

end Observed
end TestBench
