import Mathlib
import TestBench.Proofs.JsonInside
import TestBench.Proofs.TextPieces
/-
  Flattening loses nothing and invents nothing.

  1. A path is the root with keys and positions behind it, a point in front of each.  As no piece holds
     a point, paths are the same but for letter case iff their pieces are (`lowercase_dotted_eq_iff`).
  2. The leaves that are put in are those of the places that a value takes up, under the paths to these
     places (`leaves_eq`).
  3. No two places are the same but for letter case, so nothing that was put in is replaced by what is
     put in later: under the path to a place stands the leaf of that place, and nothing stands under any
     other path (`get?_ofJson`).
-/
namespace TestBench

open TestBench.Text

namespace Observed

/-! ## Paths -/

/-- The path that keys and positions lead to from a path. -/
def under (path : String) (keys : List String) : String := keys.foldl below path

/-- The path to a place in a value that is flattened. -/
def dotted (keys : List String) : String := under root keys

/-- A path is its keys with a dot in front of each. -/
theorem toList_under (path : String) (keys : List String) :
    (under path keys).toList = path.toList ++ (keys.map String.toList).flatMap ('.' :: ·) := by
  induction keys generalizing path with
  | nil => exact (List.append_nil _).symm
  | cons key keys ih =>
    show (under (below path key) keys).toList = _
    rw [ih, below, String.toList_append, String.toList_append, List.map_cons, List.flatMap_cons]
    simp

/-- Paths of pieces are ASCII. -/
theorem isAscii_dotted {keys : List String} (h : ∀ key ∈ keys, Json.IsPiece key) :
    IsAscii (dotted keys) := by
  intro c hc
  rw [dotted, toList_under, List.mem_append] at hc
  rcases hc with hc | hc
  · exact (show IsAscii root by decide) c hc
  · obtain ⟨piece, hpiece, hc⟩ := List.mem_flatMap.1 hc
    obtain ⟨key, hkey, rfl⟩ := List.mem_map.1 hpiece
    rcases List.mem_cons.1 hc with rfl | hc
    · decide
    · exact (h key hkey).1 c hc

/-- Writing a path in small letters writes its keys so. -/
theorem toList_lowercase_dotted {keys : List String} (h : ∀ key ∈ keys, Json.IsPiece key) :
    (lowercase (dotted keys)).toList
      = root.toList ++ ((keys.map lowercase).map String.toList).flatMap ('.' :: ·) := by
  rw [lowercase_ascii (isAscii_dotted h), dotted, toList_under, List.map_append, List.map_flatMap,
    List.map_map, List.flatMap_map, List.flatMap_map]
  congr 1
  refine List.flatMap_congr fun key hkey => ?_
  rw [List.map_cons, Function.comp_apply, lowercase_ascii (h key hkey).1]
  rfl

/-- Paths are the same but for letter case iff their pieces are. -/
theorem lowercase_dotted_eq_iff {keys keys' : List String} (h : ∀ key ∈ keys, Json.IsPiece key)
    (h' : ∀ key ∈ keys', Json.IsPiece key) :
    lowercase (dotted keys) = lowercase (dotted keys') ↔ keys.map lowercase = keys'.map lowercase := by
  have hdot {keys : List String} (h : ∀ key ∈ keys, Json.IsPiece key) :
      ∀ piece ∈ (keys.map lowercase).map String.toList, '.' ∉ piece := by
    intro piece hpiece hmem
    rw [List.map_map] at hpiece
    obtain ⟨key, hkey, rfl⟩ := List.mem_map.1 hpiece
    rw [Function.comp_apply, lowercase_ascii (h key hkey).1] at hmem
    obtain ⟨c, hc, hlower⟩ := List.mem_map.1 hmem
    exact (h key hkey).2 (eq_dot_of_toLower hlower ▸ hc)
  constructor
  · intro heq
    -- no piece holds a point in lower case either, so the points show where the pieces end
    rw [← String.toList_inj, toList_lowercase_dotted h, toList_lowercase_dotted h'] at heq
    have hpieces := append_flatMap_inj (by decide) (hdot h) (hdot h') heq
    exact List.map_injective_iff.2 (fun _ _ => String.toList_injective) hpieces
  · intro heq
    rw [← String.toList_inj, toList_lowercase_dotted h, toList_lowercase_dotted h', heq]

/-! ## What is put in -/

/-- The leaf of a place under the path to it. -/
def kept (path : String) (slot : List String × Option Json) : Option (String × Json) :=
  slot.2.map (under path slot.1, ·)

/-- A slot one key deeper is kept below that key. -/
theorem filterMap_kept_deeper (path key : String) (slots : List (List String × Option Json)) :
    (slots.map (Json.deeper key)).filterMap (kept path) = slots.filterMap (kept (below path key)) := by
  rw [List.filterMap_map]
  rfl

/-- The leaves of items are those below their positions. -/
theorem itemLeaves_eq (path : String) (position : Nat) (items : List Json) :
    itemLeaves path position items
      = (items.zipIdx position).flatMap fun (v, i) => leaves (below path (toString i)) v := by
  induction items generalizing position with
  | nil => rfl
  | cons v rest ih => rw [itemLeaves, ih, List.zipIdx_cons, List.flatMap_cons]

/-- The leaves of fields are those below their keys. -/
theorem fieldLeaves_eq (path : String) (fields : List (String × Json)) :
    fieldLeaves path fields = fields.flatMap fun (key, v) => leaves (below path key) v := by
  induction fields with
  | nil => rfl
  | cons f rest ih => rw [fieldLeaves, ih, List.flatMap_cons]

/-- The leaves of a value are those of the places that it takes up. -/
theorem leaves_eq (path : String) (v : Json) : leaves path v = v.slots.filterMap (kept path) := by
  -- on the value, for any path above it
  induction v using Json.induct generalizing path with
  | scalar v h =>
    rw [Json.slots_scalar h]
    cases v with
    | array items => cases h
    | object fields => cases h
    | _ => rfl
  | array items ih =>
    have hitems : itemLeaves path 0 items = (items.zipIdx.flatMap fun (v, i) =>
        v.slots.map (Json.deeper (toString i))).filterMap (kept path) := by
      rw [itemLeaves_eq, List.filterMap_flatMap]
      refine List.flatMap_congr fun (v, i) hv => ?_
      have hmem : v ∈ items := List.fst_mem_of_mem_zipIdx hv
      rw [filterMap_kept_deeper]
      exact ih v hmem _
    rw [Json.slots_array, leaves, hitems]
    rfl
  | object fields ih =>
    have hfields : fieldLeaves path fields = (fields.flatMap fun (key, v) =>
        v.slots.map (Json.deeper key)).filterMap (kept path) := by
      rw [fieldLeaves_eq, List.filterMap_flatMap]
      refine List.flatMap_congr fun f hf => ?_
      rw [filterMap_kept_deeper]
      exact ih f hf _
    rw [Json.slots_object]
    cases fields with
    | nil => rfl
    | cons f rest =>
      rw [leaves, hfields]
      rfl

/-! ## Nothing is replaced -/

section Inserted

variable {observed : Observed} {entries : List (String × Json)}

/-- A list of leaves that is put in, one after another. -/
def insertAll (observed : Observed) (entries : List (String × Json)) : Observed :=
  entries.foldl (fun observed (path, leaf) => observed.insert path leaf) observed

theorem insertAll_cons (e : String × Json) : observed.insertAll (e :: entries)
    = (observed.insert e.1 e.2).insertAll entries := rfl

/-- What is not put in is found as before. -/
theorem get?_insertAll_of_ne {path : String} (h : ∀ e ∈ entries, lowercase e.1 ≠ lowercase path) :
    (observed.insertAll entries).get? path = observed.get? path := by
  induction entries generalizing observed with
  | nil => rfl
  | cons e rest ih =>
    obtain ⟨he, hrest⟩ := List.forall_mem_cons.1 h
    rw [insertAll_cons, ih hrest, get?_insert, if_neg he]

/-- Leaves under different paths are all found. -/
theorem get?_insertAll_of_mem (distinct : (entries.map (lowercase ·.1)).Nodup) {path : String}
    {e : String × Json} (mem : e ∈ entries) (same : lowercase e.1 = lowercase path) :
    (observed.insertAll entries).get? path = some e.2 := by
  induction entries generalizing observed with
  | nil => cases mem
  | cons e' rest ih =>
    obtain ⟨hfresh, hrest⟩ := List.nodup_cons.1 distinct
    rw [insertAll_cons]
    rcases List.mem_cons.1 mem with rfl | mem
    · -- what comes later stands under another path and does not replace it
      rw [get?_insertAll_of_ne, get?_insert, if_pos same]
      intro e' he' heq
      exact hfresh (List.mem_map.2 ⟨e', he', heq.trans same.symm⟩)
    · exact ih hrest mem

/-- A field with a new key makes one more. -/
theorem length_insertField {α : Type} {key : String} {value : α} {fields : List (String × α)}
    (h : Json.lookup key fields = none) :
    (Json.insertField key value fields).length = fields.length + 1 := by
  induction fields with
  | nil => rfl
  | cons f rest ih =>
    obtain ⟨k, v⟩ := f
    rw [Json.lookup] at h
    split at h
    · cases h
    · rename_i hne
      rw [Json.insertField, if_neg (Ne.symm hne)]
      split
      · rfl
      · rw [List.length_cons, ih h, List.length_cons]

/-- Leaves under different paths that were not there before add to the number. -/
theorem size_insertAll (distinct : (entries.map (lowercase ·.1)).Nodup)
    (fresh : ∀ e ∈ entries, observed.get? e.1 = none) :
    (observed.insertAll entries).size = observed.size + entries.length := by
  induction entries generalizing observed with
  | nil => rfl
  | cons e rest ih =>
    obtain ⟨hfresh, hrest⟩ := List.nodup_cons.1 distinct
    obtain ⟨he, hall⟩ := List.forall_mem_cons.1 fresh
    have hsize : (observed.insert e.1 e.2).size = observed.size + 1 := length_insertField he
    rw [insertAll_cons, ih hrest, hsize, List.length_cons, Nat.add_right_comm, Nat.add_assoc]
    intro e' he'
    -- a later entry is not there yet, for its path is another one
    rw [get?_insert, if_neg]
    · exact hall e' he'
    · exact fun heq => hfresh (List.mem_map.2 ⟨e', he', heq.symm⟩)

end Inserted

section Flattened

variable {v : Json}

/-- Flattening inserts the leaves of all slots, in their order. -/
theorem ofJson_eq (v : Json) : ofJson v = empty.insertAll (v.slots.filterMap (kept root)) := by
  rw [← leaves_eq]
  rfl

/-- Two places under paths that are the same but for letter case are one. -/
theorem slot_eq (apart : v.KeysApart) {slot slot' : List String × Option Json} (h : slot ∈ v.slots)
    (h' : slot' ∈ v.slots) (same : lowercase (dotted slot.1) = lowercase (dotted slot'.1)) :
    slot = slot' :=
  List.inj_on_of_nodup_map (Json.slots_nodup apart) h h' ((lowercase_dotted_eq_iff
    (Json.isPiece_of_mem_slots apart slot h) (Json.isPiece_of_mem_slots apart slot' h')).1 same)

theorem mem_kept {path : String} {leaf : Json} : (path, leaf) ∈ v.slots.filterMap (kept root)
    ↔ ∃ keys, (keys, some leaf) ∈ v.slots ∧ dotted keys = path := by
  rw [List.mem_filterMap]
  constructor
  · rintro ⟨⟨keys, leaf?⟩, hslot, hkept⟩
    obtain ⟨leaf, rfl, heq⟩ := Option.map_eq_some_iff.1 hkept
    cases heq
    exact ⟨keys, hslot, rfl⟩
  · rintro ⟨keys, hslot, rfl⟩
    exact ⟨(keys, some leaf), hslot, rfl⟩

/-- The leaves that are put in stand under different paths. -/
theorem kept_nodup (apart : v.KeysApart) :
    ((v.slots.filterMap (kept root)).map (lowercase ·.1)).Nodup := by
  have hpieces := Json.isPiece_of_mem_slots apart
  rw [List.Nodup, List.pairwise_map, List.pairwise_filterMap]
  refine (List.pairwise_map.1 (Json.slots_nodup apart)).imp_of_mem fun {slot slot'} h h' hne => ?_
  intro e he e' he' same
  obtain ⟨_, _, rfl⟩ := Option.map_eq_some_iff.1 he
  obtain ⟨_, _, rfl⟩ := Option.map_eq_some_iff.1 he'
  exact hne ((lowercase_dotted_eq_iff (hpieces slot h) (hpieces slot' h')).1 same)

/-- **What is found under a path is the leaf of the place there.** -/
theorem get?_ofJson (apart : v.KeysApart) {path : String} {leaf : Json} :
    (ofJson v).get? path = some leaf
      ↔ ∃ keys, (keys, some leaf) ∈ v.slots ∧ lowercase (dotted keys) = lowercase path := by
  rw [ofJson_eq]
  constructor
  · intro hget
    -- the path is that of an entry, which the others do not overwrite, or of none
    by_cases hany : ∃ e ∈ v.slots.filterMap (kept root), lowercase e.1 = lowercase path
    · obtain ⟨⟨path', leaf'⟩, hmem, same⟩ := hany
      rw [get?_insertAll_of_mem (kept_nodup apart) hmem same] at hget
      obtain ⟨keys, hslot, rfl⟩ := mem_kept.1 hmem
      exact ⟨keys, Option.some.inj hget ▸ hslot, same⟩
    · rw [get?_insertAll_of_ne fun e he same => hany ⟨e, he, same⟩] at hget
      cases hget
  · rintro ⟨keys, hslot, same⟩
    exact get?_insertAll_of_mem (kept_nodup apart) (mem_kept.2 ⟨keys, hslot, rfl⟩) same

/-- And where there is no such place, nothing is found. -/
theorem get?_ofJson_eq_none (apart : v.KeysApart) {path : String} : (ofJson v).get? path = none
    ↔ ∀ keys leaf, (keys, some leaf) ∈ v.slots → lowercase (dotted keys) ≠ lowercase path := by
  rw [Option.eq_none_iff_forall_ne_some]
  constructor
  · exact fun h keys leaf hslot same => h leaf ((get?_ofJson apart).2 ⟨keys, hslot, same⟩)
  · intro h leaf hget
    obtain ⟨keys, hslot, same⟩ := (get?_ofJson apart).1 hget
    exact h keys leaf hslot same

theorem dotted_lengthKey (keys : List String) :
    dotted (keys ++ [lengthKey]) = below (dotted keys) lengthKey := List.foldl_append ..

/-- The leaf of a place is found in any letter case. -/
theorem get?_of_sameIgnoringCase (apart : v.KeysApart) {keys : List String} {leaf : Json}
    (slot : (keys, some leaf) ∈ v.slots) {path : String}
    (same : sameIgnoringCase path (dotted keys) = true) : (ofJson v).get? path = some leaf := by
  have hascii := isAscii_dotted (Json.isPiece_of_mem_slots apart _ slot)
  have hpath := isAscii_of_sameIgnoringCase same hascii
  exact (get?_ofJson apart).2 ⟨keys, slot, ((lowercase_eq_iff hpath hascii).2 same).symm⟩

/-- As many leaves are kept as there are leaves and arrays. -/
theorem size_ofJson (apart : v.KeysApart) :
    (ofJson v).size = v.inside.countP (·.2.isLeaf) + v.inside.countP (·.2.isArray) := by
  have hkept : (v.slots.filterMap (kept root)).length = v.slots.countP (·.2.isSome) := by
    rw [List.length_filterMap_eq_countP]
    exact List.countP_congr fun slot _ => by rw [kept, Option.isSome_map]
  rw [ofJson_eq, size_insertAll (kept_nodup apart) fun _ _ => rfl, hkept, Json.countP_slots]
  exact Nat.zero_add _

/-- **Flattening loses nothing and invents nothing.**  Take a value whose keys are ASCII without a point
    and apart in every object.  Each leaf is found under its path, and the length of each array under the
    path of its length, both in any letter case; there are as many leaves as that; and whatever else is
    looked up is not there, unless it has the lower-case form of one of these paths. -/
theorem flattening_lossless (apart : v.KeysApart) :
    (∀ keys leaf, (keys, leaf) ∈ v.inside → leaf.isLeaf = true →
        ∀ path, sameIgnoringCase path (dotted keys) = true → (ofJson v).get? path = some leaf)
      ∧ (∀ keys items, (keys, .array items) ∈ v.inside →
          ∀ path, sameIgnoringCase path (below (dotted keys) lengthKey) = true →
            (ofJson v).get? path = some (.nat items.length))
      ∧ (ofJson v).size = v.inside.countP (·.2.isLeaf) + v.inside.countP (·.2.isArray)
      ∧ ∀ path,
          (∀ keys w, (keys, w) ∈ v.inside →
            (w.isLeaf = true → lowercase path ≠ lowercase (dotted keys))
              ∧ (w.isArray = true → lowercase path ≠ lowercase (below (dotted keys) lengthKey))) →
          (ofJson v).get? path = none := by
  refine ⟨?_, ?_, size_ofJson apart, ?_⟩
  · intro keys leaf hinside hleaf path same
    exact get?_of_sameIgnoringCase apart (Json.mem_slots_some.2 (.inl ⟨hinside, hleaf⟩)) same
  · intro keys items hinside path same
    rw [← dotted_lengthKey] at same
    exact get?_of_sameIgnoringCase apart
      (Json.mem_slots_some.2 (.inr ⟨keys, items, hinside, rfl, rfl⟩)) same
  · intro path hother
    refine (get?_ofJson_eq_none apart).2 fun keys leaf hslot same => ?_
    -- a slot with a leaf is a leaf inside or the length of an array
    rcases Json.mem_slots_some.1 hslot with ⟨hinside, hleaf⟩ | ⟨above, items, hinside, rfl, rfl⟩
    · exact (hother keys leaf hinside).1 hleaf same.symm
    · rw [dotted_lengthKey] at same
      exact (hother above _ hinside).2 rfl same.symm

/-- A listing of rows, one of them null and one of them empty. -/
theorem flattening_lossless_rows :
    let v := Json.object [("Rows", .array [.object [("id", .nat 7)], .null, .object []])]
    v.KeysApart
      ∧ (ofJson v).get? "result.rows.0.ID" = some (.nat 7)
      ∧ (ofJson v).get? "result.rows.2" = some (.object [])
      ∧ (ofJson v).get? "result.rows.__LEN__" = some (.nat 3)
      ∧ (ofJson v).size = 3
      ∧ (ofJson v).get? "result.rows.1" = none := by
  intro v
  have hapart : v.KeysApart := by decide +kernel
  have hinside : v.inside = [([], v),
      (["Rows"], .array [.object [("id", .nat 7)], .null, .object []]),
      (["Rows", "0"], .object [("id", .nat 7)]), (["Rows", "0", "id"], .nat 7),
      (["Rows", "1"], .null), (["Rows", "2"], .object [])] := rfl
  obtain ⟨hleaf, hlength, hsize, hnone⟩ := flattening_lossless hapart
  rw [hinside] at hleaf hlength hsize hnone
  refine ⟨hapart, ?_, ?_, ?_, hsize, ?_⟩
  · exact hleaf ["Rows", "0", "id"] _ (by simp) rfl _ (by decide +kernel)
  · exact hleaf ["Rows", "2"] _ (by simp) rfl _ (by decide +kernel)
  · exact hlength ["Rows"] [.object [("id", .nat 7)], .null, .object []] (by simp) _ (by decide +kernel)
  · refine hnone _ fun keys w hmem => ?_
    simp only [List.mem_cons, List.not_mem_nil, or_false, Prod.mk.injEq] at hmem
    rcases hmem with h | h | h | h | h | h
    all_goals
      obtain ⟨rfl, rfl⟩ := h
      decide +kernel

/-- The sign of the unit kelvin is no letter of ASCII, but it is lowered to one. -/
theorem found_beyond_ascii :
    let v := Json.object [("k", .nat 1)]
    v.KeysApart
      ∧ (∀ keys w, (keys, w) ∈ v.inside →
          sameIgnoringCase "result.\u212a" (dotted keys) = false
            ∧ sameIgnoringCase "result.\u212a" (below (dotted keys) lengthKey) = false)
      ∧ (ofJson v).get? "result.\u212a" = some (.nat 1) := by
  intro v
  have hplaces : ∀ place ∈ v.inside, sameIgnoringCase "result.\u212a" (dotted place.1) = false
      ∧ sameIgnoringCase "result.\u212a" (below (dotted place.1) lengthKey) = false := by
    decide +kernel
  exact ⟨by decide +kernel, fun keys w hinside => hplaces (keys, w) hinside, rfl⟩

end Flattened

end Observed
end TestBench
