import Mathlib
import TestBench.Observed
import TestBench.Proofs.LetterCase
/-
  What stands inside of a JSON value, and where.

  1. `Json.inside` lists a value and all values in it, each with the keys and positions that lead to it.
     An induction over values has three cases (`Json.induct`): a scalar, an array and an object.
  2. Flattening keeps a leaf of some of them: scalars apart from null, empty objects, and the length of
     an array under a key of its own.  `Json.slots` lists the places that are taken up, with the leaf
     that is kept at each.
  3. Keys are apart if they are ASCII without a point and no two of one object are the same but for
     letter case (`Json.KeysApart`).  Then no two places are the same but for letter case
     (`slots_nodup`): at the first key or position at which two places part, they stand below different
     keys of one object, or at different positions of one array, or one is the length of that array.
-/
namespace TestBench

open TestBench.Text

namespace Json

/-! ## Values inside of a value -/

/-- A value that holds no other one. -/
def IsScalar : Json → Prop
  | .null | .bool _ | .number _ | .text _ => True
  | .array _ | .object _ => False

section Induction

-- the recursive calls pass the variables on, which the linter does not see
set_option linter.unusedSectionVars false

variable {motive : Json → Prop} (scalar : ∀ v : Json, v.IsScalar → motive v)
  (array : ∀ items, (∀ v ∈ items, motive v) → motive (.array items))
  (object : ∀ fields : List (String × Json), (∀ f ∈ fields, motive f.2) → motive (.object fields))

include scalar array object

mutual

/-- Induction over the items of arrays and the values of fields. -/
theorem induct : ∀ v : Json, motive v
  | .null => scalar _ trivial
  | .bool _ => scalar _ trivial
  | .number _ => scalar _ trivial
  | .text _ => scalar _ trivial
  | .array items => array items (induct_items items)
  | .object fields => object fields (induct_fields fields)

theorem induct_items : ∀ items : List Json, ∀ v ∈ items, motive v
  | [] => fun _ h => absurd h List.not_mem_nil
  | v :: rest => List.forall_mem_cons.2 ⟨induct v, induct_items rest⟩

theorem induct_fields : ∀ fields : List (String × Json), ∀ f ∈ fields, motive f.2
  | [] => fun _ h => absurd h List.not_mem_nil
  | (_, v) :: rest => List.forall_mem_cons.2 ⟨induct v, induct_fields rest⟩

end

end Induction

/-- One key or position further up. -/
def deeper {α : Type} (key : String) (place : List String × α) : List String × α :=
  (key :: place.1, place.2)

mutual

/-- A value and all values inside of it, each with the keys and positions that lead to it. -/
def inside : Json → List (List String × Json)
  | .array items => ([], .array items) :: itemsInside 0 items
  | .object fields => ([], .object fields) :: fieldsInside fields
  | v => [([], v)]

def itemsInside (position : Nat) : List Json → List (List String × Json)
  | [] => []
  | v :: rest => v.inside.map (deeper (toString position)) ++ itemsInside (position + 1) rest

def fieldsInside : List (String × Json) → List (List String × Json)
  | [] => []
  | (key, v) :: rest => v.inside.map (deeper key) ++ fieldsInside rest

end

/-- Inside a scalar there is only the scalar itself. -/
theorem inside_scalar {v : Json} (h : v.IsScalar) : v.inside = [([], v)] := by
  cases v with
  | array items => cases h
  | object fields => cases h
  | _ => rfl

/-- Inside an array there are the array and what is inside its items, below their numbers. -/
theorem inside_array (items : List Json) : (array items).inside
    = ([], .array items) :: items.zipIdx.flatMap fun (v, i) => v.inside.map (deeper (toString i)) := by
  have hitems (position : Nat) : itemsInside position items
      = (items.zipIdx position).flatMap fun (v, i) => v.inside.map (deeper (toString i)) := by
    induction items generalizing position with
    | nil => rfl
    | cons v rest ih => rw [itemsInside, ih, List.zipIdx_cons, List.flatMap_cons]
  rw [inside, hitems]

/-- Inside an object there are the object and what is inside its fields, below their keys. -/
theorem inside_object (fields : List (String × Json)) : (object fields).inside
    = ([], .object fields) :: fields.flatMap fun (key, v) => v.inside.map (deeper key) := by
  have hfields : fieldsInside fields
      = fields.flatMap fun (key, v) => v.inside.map (deeper key) := by
    induction fields with
    | nil => rfl
    | cons f rest ih => rw [fieldsInside, ih, List.flatMap_cons]
  rw [inside, hfields]

/-! ## Leaves -/

/-- Whether flattening keeps a value as it is: a scalar apart from null, or an empty object. -/
def isLeaf : Json → Bool
  | .null | .array _ => false
  | .object fields => fields.isEmpty
  | _ => true

def isArray : Json → Bool
  | .array _ => true
  | _ => false

/-- The places that a value takes up by itself, with the leaf that is kept at each. -/
def ownSlots : List String × Json → List (List String × Option Json)
  | (keys, .array items) =>
    [(keys, none), (keys ++ [Observed.lengthKey], some (.nat items.length))]
  | (keys, v) => [(keys, if v.isLeaf then some v else none)]

/-- The places that a value and the values inside of it take up. -/
def slots (v : Json) : List (List String × Option Json) := v.inside.flatMap ownSlots

/-- All but arrays have one slot, filled by a leaf and empty otherwise. -/
theorem array_or_ownSlots_eq (keys : List String) (w : Json) :
    (∃ items, w = .array items)
      ∨ ownSlots (keys, w) = [(keys, if w.isLeaf then some w else none)] := by
  cases w with
  | array items => exact .inl ⟨items, rfl⟩
  | _ => exact .inr rfl

/-- A leaf is kept where it stands, and the length of an array below the array. -/
theorem mem_slots_some {v leaf : Json} {keys : List String} : (keys, some leaf) ∈ v.slots
    ↔ ((keys, leaf) ∈ v.inside ∧ leaf.isLeaf = true)
      ∨ ∃ above items, (above, .array items) ∈ v.inside ∧ above ++ [Observed.lengthKey] = keys
          ∧ .nat items.length = leaf := by
  rw [slots, List.mem_flatMap]
  constructor
  · rintro ⟨⟨above, w⟩, hplace, hslot⟩
    -- an array fills the slot of its length only, anything else its own
    rcases array_or_ownSlots_eq above w with ⟨items, rfl⟩ | hown
    · simp only [ownSlots, List.mem_cons, List.not_mem_nil, or_false, Prod.mk.injEq, reduceCtorEq,
        and_false, false_or, Option.some.injEq] at hslot
      exact .inr ⟨above, items, hplace, hslot.1.symm, hslot.2.symm⟩
    · rw [hown, List.mem_singleton, Prod.mk.injEq] at hslot
      obtain ⟨rfl, hleaf⟩ := hslot
      split at hleaf
      · rename_i h
        cases hleaf
        exact .inl ⟨hplace, h⟩
      · cases hleaf
  · rintro (⟨hplace, hleaf⟩ | ⟨above, items, hplace, rfl, rfl⟩)
    · refine ⟨(keys, leaf), hplace, ?_⟩
      rcases array_or_ownSlots_eq keys leaf with ⟨items, rfl⟩ | hown
      · cases hleaf
      · rw [hown, if_pos hleaf]
        exact List.mem_singleton_self _
    · exact ⟨_, hplace, List.mem_cons_of_mem _ List.mem_cons_self⟩

/-- Where a value stands that is no leaf, nothing is kept. -/
theorem mem_slots_none {v w : Json} {keys : List String} (inside : (keys, w) ∈ v.inside)
    (h : w.isLeaf = false) : (keys, none) ∈ v.slots := by
  refine List.mem_flatMap.2 ⟨(keys, w), inside, ?_⟩
  rcases array_or_ownSlots_eq keys w with ⟨items, rfl⟩ | hown
  · exact List.mem_cons_self
  · rw [hown, h]
    exact List.mem_cons_self

/-- So many leaves are kept as there are leaves and arrays. -/
theorem countP_slots (v : Json) : v.slots.countP (·.2.isSome)
    = v.inside.countP (·.2.isLeaf) + v.inside.countP (·.2.isArray) := by
  have hplaces (places : List (List String × Json)) :
      (places.flatMap ownSlots).countP (·.2.isSome)
        = places.countP (·.2.isLeaf) + places.countP (·.2.isArray) := by
    induction places with
    | nil => rfl
    | cons place rest ih =>
      obtain ⟨keys, w⟩ := place
      -- an array keeps its length, and nothing at its own place
      have hown : (ownSlots (keys, w)).countP (·.2.isSome)
          = (if w.isLeaf then 1 else 0) + if w.isArray then 1 else 0 := by
        cases w with
        | object fields => cases fields <;> rfl
        | _ => rfl
      rw [List.flatMap_cons, List.countP_append, ih, hown, List.countP_cons, List.countP_cons]
      dsimp only
      omega
  exact hplaces v.inside

/-- What is deeper takes up the same slots, deeper. -/
theorem ownSlots_deeper (key : String) (place : List String × Json) :
    ownSlots (deeper key place) = (ownSlots place).map (deeper key) := by
  obtain ⟨keys, v⟩ := place
  cases v <;> rfl

theorem flatMap_ownSlots_deeper (key : String) (v : Json) :
    (v.inside.map (deeper key)).flatMap ownSlots = v.slots.map (deeper key) := by
  rw [List.flatMap_map, slots, List.map_flatMap]
  exact List.flatMap_congr fun place _ => ownSlots_deeper key place

theorem slots_scalar {v : Json} (h : v.IsScalar) :
    v.slots = [([], if v.isLeaf then some v else none)] := by
  rw [slots, inside_scalar h]
  cases v with
  | array items => cases h
  | object fields => cases h
  | _ => rfl

theorem slots_array (items : List Json) : (array items).slots
    = ([], none) :: ([Observed.lengthKey], some (.nat items.length))
      :: items.zipIdx.flatMap fun (v, i) => v.slots.map (deeper (toString i)) := by
  rw [slots, inside_array, List.flatMap_cons, List.flatMap_assoc]
  simp only [flatMap_ownSlots_deeper]
  rfl

theorem slots_object (fields : List (String × Json)) : (object fields).slots
    = ([], if fields.isEmpty then some (.object []) else none)
      :: fields.flatMap fun (key, v) => v.slots.map (deeper key) := by
  rw [slots, inside_object, List.flatMap_cons, List.flatMap_assoc]
  simp only [flatMap_ownSlots_deeper]
  cases fields <;> rfl

/-! ## Keys apart -/

/-- A key that is one piece of a path: ASCII without a point. -/
def IsPiece (key : String) : Prop := IsAscii key ∧ '.' ∉ key.toList

/-- The keys of one object are pieces of paths, and no two are the same but for letter case. -/
structure FieldsApart (fields : List (String × Json)) : Prop where
  pieces : ∀ f ∈ fields, IsPiece f.1
  distinct : fields.Pairwise fun f g => sameIgnoringCase f.1 g.1 = false

/-- So are the keys of a value if it is an object. -/
def OwnKeysApart : Json → Prop
  | .object fields => FieldsApart fields
  | _ => True

/-- So are the keys of all objects in a value. -/
def KeysApart (v : Json) : Prop := ∀ place ∈ v.inside, place.2.OwnKeysApart

instance (key : String) : Decidable (IsPiece key) :=
  inferInstanceAs (Decidable (IsAscii key ∧ '.' ∉ key.toList))

instance (fields : List (String × Json)) : Decidable (FieldsApart fields) :=
  decidable_of_iff ((∀ f ∈ fields, IsPiece f.1)
      ∧ fields.Pairwise fun f g => sameIgnoringCase f.1 g.1 = false)
    ⟨fun h => ⟨h.1, h.2⟩, fun h => ⟨h.pieces, h.distinct⟩⟩

instance : DecidablePred OwnKeysApart
  | .object fields => inferInstanceAs (Decidable (FieldsApart fields))
  | .null | .bool _ | .number _ | .text _ | .array _ => isTrue trivial

instance (v : Json) : Decidable v.KeysApart :=
  inferInstanceAs (Decidable (∀ place ∈ v.inside, place.2.OwnKeysApart))

theorem keysApart_array {items : List Json} (h : (array items).KeysApart) :
    ∀ v ∈ items, v.KeysApart := by
  intro v hv place hmem
  obtain ⟨i, hi⟩ := List.getElem?_of_mem hv
  refine h (deeper (toString i) place) ?_
  rw [inside_array]
  refine List.mem_cons_of_mem _ (List.mem_flatMap.2 ⟨(v, i), ?_, List.mem_map_of_mem hmem⟩)
  rw [List.mem_zipIdx_iff_getElem?]
  exact hi

theorem keysApart_object {fields : List (String × Json)} (h : (object fields).KeysApart) :
    FieldsApart fields ∧ ∀ f ∈ fields, f.2.KeysApart := by
  rw [KeysApart, inside_object, List.forall_mem_cons] at h
  refine ⟨h.1, fun f hf place hmem => h.2 (deeper f.1 place) ?_⟩
  exact List.mem_flatMap.2 ⟨f, hf, List.mem_map_of_mem hmem⟩

/-- Positions and the key of a length are pieces of paths too. -/
theorem isPiece_toString (n : Nat) : IsPiece (toString n) :=
  ⟨isAscii_toString n, fun h => absurd (isDigit_of_mem_toString h) (by decide)⟩

theorem isPiece_lengthKey : IsPiece Observed.lengthKey := by decide

/-- The key of a length is no position. -/
theorem lowercase_lengthKey_ne (n : Nat) : lowercase Observed.lengthKey ≠ lowercase (toString n) := by
  rw [lowercase_toString, show lowercase Observed.lengthKey = Observed.lengthKey by decide]
  intro h
  exact absurd (isDigit_of_mem_toString (n := n) (c := '_') (h ▸ by decide)) (by decide)

/-- All places that a value takes up are reached by pieces. -/
theorem isPiece_of_mem_slots {v : Json} (apart : v.KeysApart) :
    ∀ slot ∈ v.slots, ∀ key ∈ slot.1, IsPiece key := by
  have hnil {leaf : Option Json} : ∀ key ∈ (([], leaf) : List String × Option Json).1, IsPiece key :=
    fun _ h => absurd h List.not_mem_nil
  -- numbers of items and the name of a length are pieces, and keys are by assumption
  induction v using Json.induct with
  | scalar v h =>
    rw [slots_scalar h]
    exact List.forall_mem_singleton.2 hnil
  | array items ih =>
    rw [slots_array]
    refine List.forall_mem_cons.2 ⟨hnil, List.forall_mem_cons.2 ⟨?_, ?_⟩⟩
    · exact List.forall_mem_singleton.2 isPiece_lengthKey
    · intro slot hslot
      obtain ⟨⟨v, i⟩, hv, hslot⟩ := List.mem_flatMap.1 hslot
      obtain ⟨inner, hinner, rfl⟩ := List.mem_map.1 hslot
      have hmem : v ∈ items := List.fst_mem_of_mem_zipIdx hv
      exact List.forall_mem_cons.2
        ⟨isPiece_toString i, ih v hmem (keysApart_array apart v hmem) inner hinner⟩
  | object fields ih =>
    obtain ⟨hfields, hvalues⟩ := keysApart_object apart
    rw [slots_object]
    refine List.forall_mem_cons.2 ⟨hnil, ?_⟩
    intro slot hslot
    obtain ⟨f, hf, hslot⟩ := List.mem_flatMap.1 hslot
    obtain ⟨inner, hinner, rfl⟩ := List.mem_map.1 hslot
    exact List.forall_mem_cons.2 ⟨hfields.pieces f hf, ih f hf (hvalues f hf) inner hinner⟩

/-! ## Places differ -/

/-- The lower-case form of what leads to a place. -/
def lowered {α : Type} (place : List String × α) : List String := place.1.map lowercase

/-- Places below different keys differ if the places below each key do. -/
theorem family_nodup {ι α : Type} {family : List ι} {key : ι → String}
    {places : ι → List (List String × α)} (each : ∀ x ∈ family, ((places x).map lowered).Nodup)
    (distinct : family.Pairwise fun x y => lowercase (key x) ≠ lowercase (key y)) :
    ((family.flatMap fun x => (places x).map (deeper (key x))).map lowered).Nodup := by
  have hbelow (x : ι) : ((places x).map (deeper (key x))).map lowered
      = ((places x).map lowered).map (lowercase (key x) :: ·) := by
    rw [List.map_map, List.map_map]
    rfl
  rw [List.map_flatMap]
  simp only [hbelow]
  rw [List.nodup_flatMap]
  constructor
  · exact fun x hx => (each x hx).map List.cons_injective
  · -- two places below different keys differ in their first piece
    refine distinct.imp fun {x y} hne place hx hy => ?_
    obtain ⟨_, _, rfl⟩ := List.mem_map.1 hx
    obtain ⟨_, _, hy⟩ := List.mem_map.1 hy
    exact hne (List.cons.inj hy).1.symm

/-- What stands below a key is not the value itself. -/
theorem nil_notMem_family {ι α : Type} (family : List ι) (key : ι → String)
    (places : ι → List (List String × α)) :
    [] ∉ (family.flatMap fun x => (places x).map (deeper (key x))).map lowered := by
  intro h
  obtain ⟨_, hplace, hnil⟩ := List.mem_map.1 h
  obtain ⟨x, _, hplace⟩ := List.mem_flatMap.1 hplace
  obtain ⟨_, _, rfl⟩ := List.mem_map.1 hplace
  exact List.cons_ne_nil _ _ hnil

/-- **No two places in a value are the same but for letter case.** -/
theorem slots_nodup {v : Json} (apart : v.KeysApart) : (v.slots.map lowered).Nodup := by
  induction v using Json.induct with
  | scalar v h =>
    rw [slots_scalar h]
    exact List.nodup_singleton _
  | array items ih =>
    have hpositions : items.zipIdx.Pairwise fun e e' => e.2 ≠ e'.2 := by
      rw [← List.pairwise_map (f := Prod.snd), List.zipIdx_map_snd]
      exact List.nodup_range'
    have hitems : ((items.zipIdx.flatMap fun (v, i) =>
        v.slots.map (deeper (toString i))).map lowered).Nodup := by
      refine @family_nodup (Json × Nat) _ _ (toString ·.2) (·.1.slots) ?_ ?_
      · intro (v, i) hv
        have hmem : v ∈ items := List.fst_mem_of_mem_zipIdx hv
        exact ih v hmem (keysApart_array apart v hmem)
      · refine hpositions.imp fun {e e'} hne heq => hne (toString_inj ?_)
        rwa [lowercase_toString, lowercase_toString] at heq
    rw [slots_array, List.map_cons, List.map_cons]
    refine List.nodup_cons.2 ⟨?_, List.nodup_cons.2 ⟨?_, hitems⟩⟩
    · rw [List.mem_cons, not_or]
      exact ⟨(List.cons_ne_nil _ _).symm, nil_notMem_family _ _ _⟩
    · -- the length stands beside the items
      intro h
      obtain ⟨_, hplace, heq⟩ := List.mem_map.1 h
      obtain ⟨e, _, hplace⟩ := List.mem_flatMap.1 hplace
      obtain ⟨_, _, rfl⟩ := List.mem_map.1 hplace
      exact lowercase_lengthKey_ne e.2 (List.cons.inj heq).1.symm
  | object fields ih =>
    obtain ⟨hfields, hvalues⟩ := keysApart_object apart
    rw [slots_object, List.map_cons]
    refine List.nodup_cons.2 ⟨nil_notMem_family _ _ _, ?_⟩
    refine family_nodup (fun f hf => ih f hf (hvalues f hf)) ?_
    refine hfields.distinct.imp_of_mem fun {f g} hf hg hne heq => ?_
    rw [lowercase_eq_iff (hfields.pieces f hf).1 (hfields.pieces g hg).1, hne] at heq
    cases heq

end Json
end TestBench
