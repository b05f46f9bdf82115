import Mathlib
import TestBench.Proofs.AliasLayers
import TestBench.Proofs.Expansion
import TestBench.Proofs.SortedFields
/-
  Aliases and the entries that they are made of.

  1. `Aliases.Binds` says what an entry binds: what stands in front of its first colon, to what stands
     behind it.  It binds one name at most (`Binds.unique`), and none without a colon.
  2. A name is bound by the last entry for it (`get?_ofEntries_eq_some_iff`); if no two entries are for
     one name, by whichever entry there is (`get?_ofEntries_of_distinct`), and so in any order.
  3. Bindings are kept in strictly increasing order of their names (`increasing_ofEntries`), so aliases
     are the same as soon as the same is found of every name (`ofEntries_eq`).  So the entries of
     bindings, in any order, make these bindings again (`ofEntries_of_perm_entries`).
-/
namespace TestBench.Aliases

open TestBench.Text

/-! ## What an entry binds -/

/-- An entry is a name without colons, a colon, and a value. -/
def Binds (entry name value : String) : Prop :=
  ':' ∉ name.toList ∧ entry = name ++ ":" ++ value

/-- An entry without a colon is for no name. -/
theorem binding?_of_notMem {entry : String} (h : ':' ∉ entry.toList) : binding? entry = none := by
  have hsplit : splitOnce [':'] entry.toList = none := by
    rw [← Option.not_isSome_iff_eq_none]
    intro hsome
    exact h ((occursIn_iff.1 hsome).subset List.mem_cons_self)
  rw [binding?, hsplit]
  rfl

theorem Binds.binding? {entry name value : String} (h : Binds entry name value) :
    binding? entry = some (name, value) := by
  obtain ⟨hcolon, rfl⟩ := h
  have hsplit : splitOnce [':'] (name ++ ":" ++ value).toList = some (name.toList, value.toList) := by
    rw [String.toList_append, String.toList_append]
    exact splitOnce_of_notMem hcolon _
  rw [Aliases.binding?, hsplit, Option.map_some]
  dsimp only
  rw [String.ofList_toList, String.ofList_toList]

/-- The first colon ends the name, and the value is all behind it. -/
theorem binding?_eq_some_iff {entry name value : String} :
    binding? entry = some (name, value) ↔ Binds entry name value := by
  refine ⟨fun h => ?_, Binds.binding?⟩
  by_cases hcolon : ':' ∈ entry.toList
  · -- the first colon cuts the entry into what it binds
    obtain ⟨before, after, hentry, hbefore⟩ := List.eq_append_cons_of_mem hcolon
    have hbinds : Binds entry (String.ofList before) (String.ofList after) := by
      refine ⟨String.toList_ofList ▸ hbefore, String.toList_injective ?_⟩
      simp [hentry]
    rw [hbinds.binding?, Option.some.injEq, Prod.mk.injEq] at h
    exact h.1 ▸ h.2 ▸ hbinds
  · rw [binding?_of_notMem hcolon] at h
    cases h

/-- An entry is for one name at most. -/
theorem Binds.unique {entry name name' value value' : String} (h : Binds entry name value)
    (h' : Binds entry name' value') : name = name' ∧ value = value' := by
  have heq := h.binding?.symm.trans h'.binding?
  rwa [Option.some.injEq, Prod.mk.injEq] at heq

theorem boundIn?_eq_some_iff {entry name value : String} :
    boundIn? name entry = some value ↔ Binds entry name value := by
  rw [boundIn?, Option.bind_eq_some_iff]
  constructor
  · rintro ⟨⟨bound, bound'⟩, hbinding, h⟩
    dsimp only at h
    split_ifs at h with heq
    injection h with h
    exact heq ▸ h ▸ binding?_eq_some_iff.1 hbinding
  · exact fun h => ⟨_, h.binding?, if_pos rfl⟩

/-- An entry says nothing of a name iff it is not for it. -/
theorem boundIn?_eq_none_iff {entry name : String} :
    boundIn? name entry = none ↔ ∀ value, ¬ Binds entry name value := by
  simp only [Option.eq_none_iff_forall_ne_some, Ne, boundIn?_eq_some_iff]

/-! ## What entries bind together -/

/-- The last entry for a name binds it. -/
theorem get?_ofEntries_eq_some_iff {entries : List String} {name value : String} :
    (ofEntries entries).get? name = some value ↔ ∃ front entry back, entries = front ++ entry :: back
      ∧ Binds entry name value ∧ ∀ later ∈ back, ∀ value', ¬ Binds later name value' := by
  rw [get?_ofEntries, lastBound?, List.findSome?_eq_some_iff]
  simp only [boundIn?_eq_some_iff, boundIn?_eq_none_iff]
  -- the lookup goes through the entries from the last one, so front and back change places
  constructor
  · rintro ⟨after, entry, before, hreverse, hbinds, hlater⟩
    refine ⟨before.reverse, entry, after.reverse, ?_, hbinds, fun later hmem => ?_⟩
    · rw [← List.reverse_reverse entries, hreverse]
      simp
    · exact hlater later (List.mem_reverse.1 hmem)
  · rintro ⟨front, entry, back, rfl, hbinds, hlater⟩
    refine ⟨back.reverse, entry, front.reverse, ?_, hbinds, fun later hmem => ?_⟩
    · simp
    · exact hlater later (List.mem_reverse.1 hmem)

/-- No two entries are for one name. -/
def Distinct (entries : List String) : Prop :=
  entries.Pairwise fun a b => ∀ name value value', Binds a name value → ¬ Binds b name value'

theorem Distinct.perm {entries entries' : List String} (h : Distinct entries)
    (perm : entries.Perm entries') : Distinct entries' :=
  List.Pairwise.perm h perm fun hab name value value' ha hb => hab name value' value hb ha

/-- With one entry for each name at most, any entry for it binds it. -/
theorem get?_ofEntries_of_distinct {entries : List String} (distinct : Distinct entries)
    {name value : String} :
    (ofEntries entries).get? name = some value ↔ ∃ entry ∈ entries, Binds entry name value := by
  rw [get?_ofEntries_eq_some_iff]
  constructor
  · rintro ⟨front, entry, back, rfl, hbinds, _⟩
    exact ⟨entry, List.mem_append_right _ List.mem_cons_self, hbinds⟩
  · rintro ⟨entry, hmem, hbinds⟩
    obtain ⟨front, back, rfl⟩ := List.append_of_mem hmem
    refine ⟨front, entry, back, rfl, hbinds, fun later hlater value' => ?_⟩
    have hback := (List.pairwise_append.1 distinct).2.1
    exact List.rel_of_pairwise_cons hback hlater name value value' hbinds

/-- And then the order of the entries changes no lookup. -/
theorem get?_ofEntries_perm {entries entries' : List String} (distinct : Distinct entries)
    (perm : entries.Perm entries') (name : String) :
    (ofEntries entries').get? name = (ofEntries entries).get? name := by
  refine Option.ext fun value => ?_
  rw [get?_ofEntries_of_distinct distinct, get?_ofEntries_of_distinct (distinct.perm perm)]
  simp only [perm.mem_iff]

/-! ## Bindings as a map -/

/-- What entries make is held by increasing names. -/
theorem increasing_ofEntries (entries : List String) :
    Json.Increasing (ofEntries entries).bindings := by
  -- every entry keeps the order, so the statement is about any map that entries are put into
  have hfold : ∀ aliases : Aliases, Json.Increasing aliases.bindings →
      Json.Increasing (entries.foldl addEntry aliases).bindings := by
    induction entries with
    | nil => exact fun _ h => h
    | cons entry rest ih =>
      intro aliases h
      refine ih _ ?_
      rw [addEntry]
      split
      · exact h.insertField _ _
      · exact h
  exact hfold empty List.Pairwise.nil

/-- Aliases that are made of entries are told apart by some name. -/
theorem ofEntries_eq {entries : List String} {aliases : Aliases}
    (increasing : Json.Increasing aliases.bindings)
    (same : ∀ name, (ofEntries entries).get? name = aliases.get? name) :
    ofEntries entries = aliases :=
  congrArg Aliases.mk ((increasing_ofEntries entries).ext increasing same)

/-- The entries that write bindings. -/
def entries (aliases : Aliases) : List String := aliases.bindings.map fun b => b.1 ++ ":" ++ b.2

section Entries

variable {aliases : Aliases} (increasing : Json.Increasing aliases.bindings)
  (uncut : ∀ b ∈ aliases.bindings, ':' ∉ b.1.toList)

include uncut

theorem exists_mem_entries_iff {name value : String} :
    (∃ entry ∈ aliases.entries, Binds entry name value) ↔ (name, value) ∈ aliases.bindings := by
  constructor
  · rintro ⟨entry, hmem, hbinds⟩
    obtain ⟨b, hb, rfl⟩ := List.mem_map.1 hmem
    obtain ⟨rfl, rfl⟩ := Binds.unique ⟨uncut b hb, rfl⟩ hbinds
    exact hb
  · exact fun hmem => ⟨_, List.mem_map_of_mem hmem, uncut _ hmem, rfl⟩

include increasing

/-- No two entries of a map are for one name. -/
theorem distinct_entries : Distinct aliases.entries := by
  refine List.pairwise_map.2 (List.Pairwise.imp_of_mem ?_ increasing)
  intro b b' hb hb' hlt name value value' h h'
  have hname : b.1 = name := (Binds.unique ⟨uncut b hb, rfl⟩ h).1
  have hname' : b'.1 = name := (Binds.unique ⟨uncut b' hb', rfl⟩ h').1
  exact absurd (hname.trans hname'.symm) (ne_of_lt hlt)

/-- The entries of bindings, in any order, make these bindings. -/
theorem ofEntries_of_perm_entries {written : List String} (perm : written.Perm aliases.entries) :
    ofEntries written = aliases := by
  refine ofEntries_eq increasing fun name => Option.ext fun value => ?_
  rw [get?_ofEntries_of_distinct ((distinct_entries increasing uncut).perm perm.symm)]
  simp only [perm.mem_iff]
  rw [exists_mem_entries_iff uncut]
  exact increasing.mem_iff

end Entries

/-- **Entries make a map.**  A name is bound to a value iff the last entry for it is one with this value;
    entries without a colon do not count, of entries behind others the later ones count first, and if no
    two entries are for one name, they may stand in any order.  A map is what its entries make. -/
theorem entries_make_map (entries : List String) :
    (∀ name value, (ofEntries entries).get? name = some value ↔
        ∃ front entry back, entries = front ++ entry :: back ∧ Binds entry name value
          ∧ ∀ later ∈ back, ∀ value', ¬ Binds later name value')
      ∧ (∀ front entry back, entries = front ++ entry :: back → ':' ∉ entry.toList →
        ofEntries entries = ofEntries (front ++ back))
      ∧ (∀ more name, (ofEntries (entries ++ more)).get? name
        = ((ofEntries more).get? name).or ((ofEntries entries).get? name))
      ∧ (Distinct entries → ∀ entries', entries.Perm entries' →
        (∀ name, (ofEntries entries').get? name = (ofEntries entries).get? name)
          ∧ ∀ text, (ofEntries entries').expand text = (ofEntries entries).expand text)
      ∧ ∀ aliases : Aliases, Json.Increasing aliases.bindings →
        (∀ b ∈ aliases.bindings, ':' ∉ b.1.toList) → entries.Perm aliases.entries →
          ofEntries entries = aliases := by
  refine ⟨fun name value => get?_ofEntries_eq_some_iff, ?_, fun more name => ?_, ?_,
    fun aliases increasing uncut => ofEntries_of_perm_entries increasing uncut⟩
  · -- the entry is skipped in its place, so it can be left out
    rintro front entry back rfl hcolon
    have hskip (aliases : Aliases) : aliases.addEntry entry = aliases := by
      rw [addEntry, binding?_of_notMem hcolon]
    rw [ofEntries, ofEntries, List.foldl_append, List.foldl_append, List.foldl_cons, hskip]
  · rw [get?_ofEntries, get?_ofEntries, get?_ofEntries, lastBound?_append]
  · intro distinct entries' perm
    have hsame := get?_ofEntries_perm distinct perm
    refine ⟨hsame, fun text => ?_⟩
    -- maps with the same lookups are one map, so they expand alike
    rw [ofEntries_eq (increasing_ofEntries entries) hsame]

/-- A name that is bound twice, values with colons in them and an entry without one. -/
theorem entries_make_map_urls :
    let entries := ["HOST:old", "none", "URL:http://x:80", "HOST:new"]
    let aliases : Aliases := ⟨[("HOST", "a:b"), ("URL", ":")]⟩
    (ofEntries entries).get? "HOST" = some "new"
      ∧ ofEntries entries = ofEntries ["HOST:old", "URL:http://x:80", "HOST:new"]
      ∧ (ofEntries ["URL::", "HOST:a:b"]).expand "\x7b\x7bHOST\x7d\x7d"
        = (ofEntries ["HOST:a:b", "URL::"]).expand "\x7b\x7bHOST\x7d\x7d"
      ∧ ofEntries ["URL::", "HOST:a:b"] = aliases := by
  intro entries aliases
  have increasing : Json.Increasing aliases.bindings := by
    refine List.pairwise_cons.2 ⟨List.forall_mem_singleton.2 ?_, List.pairwise_singleton _ _⟩
    decide
  have uncut : ∀ b ∈ aliases.bindings, ':' ∉ b.1.toList := by decide
  have perm : ["URL::", "HOST:a:b"].Perm aliases.entries := List.Perm.swap _ _ _
  obtain ⟨lookups, skipped, _, _, _⟩ := entries_make_map entries
  obtain ⟨_, _, _, reordered, _⟩ := entries_make_map ["HOST:a:b", "URL::"]
  obtain ⟨_, _, _, _, written⟩ := entries_make_map ["URL::", "HOST:a:b"]
  refine ⟨(lookups _ _).2 ⟨["HOST:old", "none", "URL:http://x:80"], "HOST:new", [], rfl, ⟨by decide, rfl⟩,
      fun _ h => nomatch h⟩,
    skipped ["HOST:old"] "none" _ rfl (by decide), ?_, written aliases increasing uncut perm⟩
  exact (reordered (distinct_entries increasing uncut) _ (List.Perm.swap _ _ _)).2 _

end TestBench.Aliases
