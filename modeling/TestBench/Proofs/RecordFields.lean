import Mathlib
import TestBench.Proofs.Decoding
/-
  What a decoded record owes to the parts of its document.

  1. Parts that no field answers to can be left out of a record, and a part can be changed if its field
     reads it as before (`decodeRecord_without`, `decodeRecord_change`).
  2. A value that only one field writes is what that field reads from its part, or the initial one if
     there is no such part (`decodeRecord_decides`).  There are never two such parts: the induction over
     named parts carries that none is left once the field was read.
-/
namespace TestBench

variable {σ α β : Type}

/-! ## Parts of a record -/

namespace Parts

/-- Parts without those under some names. -/
def without (names : List String) : Parts σ → Parts σ
  | .named entries => .named (entries.filter fun e => !names.contains e.1)
  | .positional items => .positional items

/-- Parts with another value under a name, or at a position. -/
def change (name : String) (position : Nat) (f : σ → σ) : Parts σ → Parts σ
  | .named entries => .named (entries.map fun e => if e.1 = name then (e.1, f e.2) else e)
  | .positional items => .positional (items.modify position f)

/-- The parts under some names, or the one at a position. -/
def under (names : List String) (position : Nat) : Parts σ → List σ
  | .named entries => (entries.filter fun e => names.contains e.1).map (·.2)
  | .positional items => items[position]?.toList

end Parts

namespace Field

variable {fields : List (Field σ α)}

def names (f : Field σ α) : List String := f.name :: f.otherNames

theorem answersTo_eq (f : Field σ α) (name : String) : f.answersTo name = f.names.contains name := by
  rw [answersTo, names, List.contains_cons, Bool.beq_comm]

theorem answersTo_name (f : Field σ α) : f.answersTo f.name = true := by
  rw [answersTo, beq_self_eq_true, Bool.true_or]

/-- Parts that no field answers to can be left out. -/
theorem readNamed_without {names : List String}
    (unknown : ∀ name ∈ names, fields.find? (·.answersTo name) = none)
    (entries : List (String × σ)) : ∀ (seen : List String) (a : α),
      readNamed fields seen (entries.filter fun e => !names.contains e.1) a
        = readNamed fields seen entries a := by
  induction entries with
  | nil => exact fun _ _ => rfl
  | cons e rest ih =>
    intro seen a
    obtain ⟨name, part⟩ := e
    -- a part that is left out was passed over before
    by_cases hname : name ∈ names
    · rw [List.filter_cons_of_neg (by simpa using hname), readNamed, unknown name hname]
      exact ih seen a
    · rw [List.filter_cons_of_pos (by simpa using hname), readNamed, readNamed]
      simp only [ih]

/-- A part can be changed if its field reads it as before. -/
theorem readNamed_change {name : String} {f : σ → σ}
    (alike : ∀ field, fields.find? (·.answersTo name) = some field →
      ∀ v, field.read (f v) = field.read v)
    (entries : List (String × σ)) : ∀ (seen : List String) (a : α),
      readNamed fields seen (entries.map fun e => if e.1 = name then (e.1, f e.2) else e) a
        = readNamed fields seen entries a := by
  induction entries with
  | nil => exact fun _ _ => rfl
  | cons e rest ih =>
    intro seen a
    obtain ⟨name', part⟩ := e
    rw [List.map_cons]
    by_cases hname : name' = name
    · subst hname
      rw [if_pos rfl, readNamed, readNamed]
      cases hfind : fields.find? (·.answersTo name') with
      | none => exact ih seen a
      | some field => simp only [alike field hfind, ih]
    · rw [if_neg hname, readNamed, readNamed]
      simp only [ih]

/-- So can a part that is found by its position. -/
theorem readPositional_change (lengthText : String) {f : σ → σ} (fields : List (Field σ α)) :
    ∀ (position : Nat),
      (∀ field, fields[position]? = some field → ∀ v, field.read (f v) = field.read v) →
      ∀ (count : Nat) (items : List σ) (a : α),
        readPositional lengthText count fields (items.modify position f) a
          = readPositional lengthText count fields items a := by
  induction fields with
  | nil =>
    intro position _ count items a
    -- only the number of the items is told
    have hlength : (items.modify position f).length = items.length := List.length_modify ..
    cases items with
    | nil => rw [List.modify_nil]
    | cons item rest =>
      cases hmodified : (item :: rest).modify position f with
      | nil =>
        rw [hmodified] at hlength
        cases hlength
      | cons item' rest' =>
        rw [hmodified] at hlength
        show Except.error (Refusal.invalidLength (count + (item' :: rest').length) _) = _
        rw [hlength]
        rfl
  | cons field fields ih =>
    intro position alike count items a
    cases items with
    | nil => rw [List.modify_nil]
    | cons item rest =>
      cases position with
      | zero =>
        rw [List.modify_zero_cons, readPositional, readPositional, alike field rfl]
      | succ position =>
        rw [List.modify_succ_cons, readPositional, readPositional]
        simp only [ih position alike]

end Field

section Record

variable {format : Format σ} {what : String} {fields : List (Field σ α)} {initial : α}
  {source source' : σ}

/-- Parts that no field answers to do not matter. -/
theorem decodeRecord_without {names : List String}
    (unknown : ∀ name ∈ names, fields.find? (·.answersTo name) = none)
    (h : ∀ what, format.parts what source' = (format.parts what source).map (Parts.without names)) :
    decodeRecord format what fields initial source'
      = decodeRecord format what fields initial source := by
  rw [decodeRecord, decodeRecord, h]
  cases format.parts s!"struct {what}" source with
  | error e => rfl
  | ok parts =>
    cases parts with
    | positional items => rfl
    | named entries =>
      show (Field.readNamed fields [] (entries.filter _) initial >>= _) = _
      rw [Field.readNamed_without unknown]
      rfl

/-- A part may be changed if the field that answers to it reads it as before. -/
theorem decodeRecord_change {name : String} {position : Nat} {f : σ → σ}
    (alike : ∀ field, fields.find? (·.answersTo name) = some field ∨ fields[position]? = some field →
      ∀ v, field.read (f v) = field.read v)
    (h : ∀ what, format.parts what source'
      = (format.parts what source).map (Parts.change name position f)) :
    decodeRecord format what fields initial source'
      = decodeRecord format what fields initial source := by
  rw [decodeRecord, decodeRecord, h]
  cases format.parts s!"struct {what}" source with
  | error e => rfl
  | ok parts =>
    -- the field is found by name or by position, as the parts come
    cases parts with
    | positional items =>
      exact Field.readPositional_change _ fields position (fun field hfield => alike field (.inr hfield))
        0 items initial
    | named entries =>
      show (Field.readNamed fields [] (entries.map _) initial >>= _) = _
      rw [Field.readNamed_change fun field hfield => alike field (.inl hfield)]
      rfl

/-- The items of a list may be changed if each is decoded as before. -/
theorem decodeList_each {item : σ → Except Refusal α} {f : σ → σ}
    (alike : ∀ v, item (f v) = item v)
    (h : format.items source' = (format.items source).map (List.map f)) :
    decodeList format item source' = decodeList format item source := by
  rw [decodeList, decodeList, h]
  cases format.items source with
  | error e => rfl
  | ok items =>
    show (items.map f).mapM item = items.mapM item
    rw [List.mapM_map]
    exact congrArg (List.mapM · items) (funext alike)

end Record

/-! ## Values that one field decides -/

/-- What comes of a value that is read from at most one part. -/
inductive ReadFrom (read : σ → Except Refusal β) (initial : β) : List σ → β → Prop
  | missing : ReadFrom read initial [] initial
  | present {v : σ} {b : β} (reads : read v = .ok b) : ReadFrom read initial [v] b

/-- A field that is the only one to write a value of the record, among others. -/
structure Field.Decides (f : Field σ α) (others : List (Field σ α)) (read : σ → Except Refusal β)
    (value : α → β) : Prop where
  reads : ∀ v a a', f.read v a = .ok a' → read v = .ok (value a')
  keeps : ∀ g ∈ others, ∀ v a a', g.read v a = .ok a' → value a' = value a
  apart : ∀ g ∈ others, ∀ name, g.answersTo name = true → f.answersTo name = false

section Decides

variable {f : Field σ α} {front back : List (Field σ α)} {read : σ → Except Refusal β} {value : α → β}

/-- What is read of the first of some named parts: nothing, or the value of a field for the first
    time. -/
theorem readNamed_cons_ok {fields : List (Field σ α)} {seen : List String} {name : String} {part : σ}
    {rest : List (String × σ)} {a : α} {result : List String × α}
    (h : Field.readNamed fields seen ((name, part) :: rest) a = .ok result) :
    (fields.find? (·.answersTo name) = none ∧ Field.readNamed fields seen rest a = .ok result)
      ∨ ∃ g ∈ fields, g.answersTo name = true ∧ g.name ∉ seen ∧ ∃ a', g.read part a = .ok a'
          ∧ Field.readNamed fields (g.name :: seen) rest a' = .ok result := by
  rw [Field.readNamed] at h
  cases hfind : fields.find? (·.answersTo name) with
  | none =>
    rw [hfind] at h
    exact .inl ⟨rfl, h⟩
  | some g =>
    have hanswers := List.find?_some hfind
    rw [hfind] at h
    dsimp only at h
    split at h
    · cases h
    · -- the name is new, so it is read now and may not come again
      rename_i hseen
      cases hread : g.read part a with
      | error e =>
        rw [hread] at h
        cases h
      | ok a' =>
        rw [hread] at h
        exact .inr ⟨g, List.mem_of_find?_eq_some hfind, hanswers,
          mt List.contains_iff_mem.2 hseen, a', hread, h⟩

/-- A field that decides a value is read once at most, and leaves the value if its name has come. -/
theorem readNamed_decides (h : f.Decides (front ++ back) read value) (entries : List (String × σ)) :
    ∀ (seen : List String) (a : α) {result : List String × α},
      Field.readNamed (front ++ f :: back) seen entries a = .ok result →
        (f.name ∈ seen → entries.filter (f.answersTo ·.1) = [] ∧ value result.2 = value a)
          ∧ (f.name ∉ seen → ReadFrom read (value a)
              ((entries.filter (f.answersTo ·.1)).map (·.2)) (value result.2)) := by
  induction entries with
  | nil =>
    intro seen a result hread
    injection hread with hread
    subst hread
    exact ⟨fun _ => ⟨rfl, rfl⟩, fun _ => .missing⟩
  | cons e rest ih =>
    intro seen a result hread
    obtain ⟨name, part⟩ := e
    have passed (hnot : ¬ f.answersTo name = true) :
        ((name, part) :: rest).filter (f.answersTo ·.1) = rest.filter (f.answersTo ·.1) :=
      List.filter_cons_of_neg hnot
    rcases readNamed_cons_ok hread with ⟨hfind, hrest⟩ | ⟨g, hg, hanswers, hseen, a', hpart, hrest⟩
    · rw [passed (List.find?_eq_none.1 hfind f (by simp))]
      exact ih seen a hrest
    · have hrest := ih (g.name :: seen) a' hrest
      have hmem : g = f ∨ g ∈ front ++ back := by
        simp only [List.mem_append, List.mem_cons] at hg ⊢
        tauto
      rcases hmem with rfl | hother
      · -- nothing else is read into the value from here on
        obtain ⟨hnone, hvalue⟩ := hrest.1 List.mem_cons_self
        have hone : ((name, part) :: rest).filter (g.answersTo ·.1) = [(name, part)] := by
          rw [List.filter_cons, if_pos hanswers, hnone]
        rw [hone, hvalue]
        exact ⟨fun hmem => absurd hmem hseen, fun _ => .present (h.reads part a a' hpart)⟩
      · have hname : f.name ≠ g.name := by
          intro heq
          have hself := h.apart g hother g.name g.answersTo_name
          rw [← heq, f.answersTo_name] at hself
          cases hself
        rw [passed (ne_true_of_eq_false (h.apart g hother name hanswers)),
          ← h.keeps g hother part a a' hpart]
        refine ⟨fun hmem => hrest.1 (List.mem_cons_of_mem _ hmem), fun hmem => hrest.2 ?_⟩
        exact fun hin => (List.mem_cons.1 hin).elim hname hmem

/-- Where parts run out nothing more is read. -/
theorem readPositional_nil {lengthText : String} {fields : List (Field σ α)} :
    ∀ {count : Nat} {a result : α},
      Field.readPositional lengthText count fields [] a = .ok result → result = a := by
  induction fields with
  | nil =>
    intro count a result h
    injection h with h
    exact h.symm
  | cons g fields ih =>
    intro count a result h
    rw [Field.readPositional] at h
    split at h
    · cases h
    · exact ih h

/-- By position a field is read from the part that stands where it stands. -/
theorem readPositional_decides {lengthText : String} {front : List (Field σ α)} :
    f.Decides (front ++ back) read value → ∀ {count : Nat} {items : List σ} {a result : α},
      Field.readPositional lengthText count (front ++ f :: back) items a = .ok result →
        ReadFrom read (value a) items[front.length]?.toList (value result) := by
  induction front with
  | nil =>
    intro h count items a result hread
    cases items with
    | nil =>
      rw [readPositional_nil hread]
      exact .missing
    | cons item rest =>
      rw [List.nil_append, Field.readPositional] at hread
      split at hread
      · cases hread
      · rename_i a' hitem
        -- the fields behind it keep what it has set
        have keeps : KeptBy (fun b => value b = value a') back :=
          fun g hg v b b' hb hvalue => (h.keeps g hg v b b' hb).trans hvalue
        have hvalue : value result = value a' := readPositional_keeps _ back keeps _ rest a' hread rfl
        rw [hvalue]
        exact .present (h.reads item a a' hitem)
  | cons g front ih =>
    intro h count items a result hread
    have hg : g ∈ g :: front ++ back := List.mem_cons_self
    have rest : f.Decides (front ++ back) read value :=
      ⟨h.reads, fun g' hg' => h.keeps g' (List.mem_cons_of_mem g hg'),
        fun g' hg' => h.apart g' (List.mem_cons_of_mem g hg')⟩
    cases items with
    | nil =>
      rw [readPositional_nil hread]
      exact .missing
    | cons item items =>
      rw [List.cons_append, Field.readPositional] at hread
      split at hread
      · cases hread
      · rename_i a' hitem
        rw [← h.keeps g hg item a a' hitem]
        exact ih rest hread

/-- A value that one field decides is what that field reads from its part. -/
theorem decodeRecord_decides {format : Format σ} {what : String} {initial a : α} {source : σ}
    (h : f.Decides (front ++ back) read value)
    (hdecode : decodeRecord format what (front ++ f :: back) initial source = .ok a) :
    ∃ parts, format.parts s!"struct {what}" source = .ok parts
      ∧ ReadFrom read (value initial) (parts.under f.names front.length) (value a) := by
  rw [decodeRecord] at hdecode
  obtain ⟨parts, hparts, hdecode⟩ := ok_of_bind_ok hdecode
  refine ⟨parts, hparts, ?_⟩
  cases parts with
  | positional items => exact readPositional_decides h hdecode
  | named entries =>
    obtain ⟨⟨seen, b⟩, hread, hdecode⟩ := ok_of_bind_ok hdecode
    -- nothing has been seen at the beginning, so the first part with its name is read
    have hfrom := (readNamed_decides h entries [] initial hread).2 List.not_mem_nil
    simp only [Field.answersTo_eq] at hfrom
    dsimp only at hdecode
    split at hdecode
    · cases hdecode
    · injection hdecode with hdecode
      exact hdecode ▸ hfrom

end Decides

/-- The items of a decoded list are those of its source, one by one. -/
theorem forall₂_of_mapM_ok {f : σ → Except Refusal α} {items : List σ} :
    ∀ {as : List α}, items.mapM f = .ok as → List.Forall₂ (fun d a => f d = .ok a) items as := by
  induction items with
  | nil =>
    intro as h
    rw [List.mapM_nil] at h
    injection h with h
    exact h ▸ .nil
  | cons d rest ih =>
    intro as h
    rw [List.mapM_cons] at h
    -- a list is decoded only if its first item and the others are
    obtain ⟨a, ha, h⟩ := ok_of_bind_ok h
    obtain ⟨as', has', h⟩ := ok_of_bind_ok h
    injection h with h
    exact h ▸ .cons ha (ih has')

/-- A decoded list that one field decides has a source for each of its items. -/
theorem ReadFrom.exists_items {format : Format σ} {item : σ → Except Refusal α} {vs : List σ} {as : List α}
    (h : ReadFrom (decodeList format item) [] vs as) :
    ∃ sources, ReadFrom format.items [] vs sources
      ∧ List.Forall₂ (fun d a => item d = .ok a) sources as := by
  cases h with
  | missing => exact ⟨[], .missing, .nil⟩
  | present reads =>
    obtain ⟨sources, hitems, hmap⟩ := ok_of_bind_ok reads
    exact ⟨sources, .present hitems, forall₂_of_mapM_ok hmap⟩

end TestBench
