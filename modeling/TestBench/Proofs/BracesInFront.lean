import Mathlib
import TestBench.Proofs.Expansion
/-
  Which references expansion misses.

  1. A reader goes over a text character by character.  Where a bound reference begins it puts in the
     value and goes on behind the reference; anything else it copies (`readFrom`).
  2. Expansion copies the braces of an unbound reference both at once.  A bound reference that begins at
     the second of them is missed, and that is so exactly if an odd number of braces stands directly in
     front of it: in a run of braces expansion stops at every other one.
  3. From any place that both come to, either no reference that the reader meets has an odd number of
     braces in front of it, and both put out the same; or some reference has, and expansion puts out more
     than the reader wherever values are empty (`agrees_or_misses`, by induction on the length of the
     text).
-/
namespace TestBench

open TestBench.Text

namespace Aliases

/-! ## The reader -/

/-- The value of the bound reference that a text begins with, and what stands behind the reference. -/
def boundReference? (value? : List Char → Option (List Char)) :
    List Char → Option (List Char × List Char)
  | '\x7b' :: '\x7b' :: opened =>
    (splitOnce closing opened).bind fun (name, after) => (value? name).map (·, after)
  | _ => none

section Bound

variable {value? : List Char → Option (List Char)} {opened name value after s : List Char} {c : Char}

/-- A reference is read with what stands behind it, if its name is bound. -/
theorem boundReference?_opening (closed : splitOnce closing opened = some (name, after)) :
    boundReference? value? (opening ++ opened) = (value? name).map (·, after) := by
  show (splitOnce closing opened).bind _ = _
  rw [closed]
  rfl

theorem boundReference?_of_reference?_none (h : reference? s = none) :
    boundReference? value? s = none := by
  unfold boundReference?
  split
  · rename_i opened
    have hclosed : splitOnce closing opened = none := Option.map_eq_none_iff.1 h
    rw [hclosed]
    rfl
  · rfl

/-- A bound reference stands between braces. -/
theorem exists_of_boundReference? (h : boundReference? value? s = some (value, after)) :
    ∃ opened name, s = opening ++ opened ∧ splitOnce closing opened = some (name, after)
      ∧ value? name = some value := by
  unfold boundReference? at h
  split at h
  · rename_i opened
    obtain ⟨⟨name, after'⟩, closed, hmap⟩ := Option.bind_eq_some_iff.1 h
    obtain ⟨value', hvalue, heq⟩ := Option.map_eq_some_iff.1 hmap
    cases heq
    exact ⟨opened, name, rfl, closed, hvalue⟩
  · cases h

/-- What stands behind a reference is shorter. -/
theorem length_of_boundReference? (h : boundReference? value? (c :: s) = some (value, after)) :
    after.length ≤ s.length := by
  obtain ⟨opened, name, htext, closed, _⟩ := exists_of_boundReference? h
  have hless := length_of_closed closed
  have hlength : s.length + 1 = opened.length + 2 := congrArg List.length htext
  omega

end Bound

/-- Reads a text from left to right: at each position, the value of the bound reference that begins
    there, or else the character. -/
def readFrom (value? : List Char → Option (List Char)) : List Char → List Char
  | [] => []
  | c :: rest =>
    match h : boundReference? value? (c :: rest) with
    | some (value, after) =>
      have := length_of_boundReference? h
      value ++ readFrom value? after
    | none => c :: readFrom value? rest
termination_by s => s.length

/-- For each bound reference that the reader meets, how many opening braces stand directly in front of it;
    `before` stand in front of the text. -/
def bracesInFront (value? : List Char → Option (List Char)) (before : Nat) : List Char → List Nat
  | [] => []
  | c :: rest =>
    match h : boundReference? value? (c :: rest) with
    | some (_, after) =>
      have := length_of_boundReference? h
      before :: bracesInFront value? 0 after
    | none => bracesInFront value? (if c = '\x7b' then before + 1 else 0) rest
termination_by s => s.length

section Reading

variable {value? : List Char → Option (List Char)} {value after s : List Char} {c : Char}
  {before : Nat}

/-- The reader puts out the value of a bound reference. -/
theorem readFrom_bound (h : boundReference? value? s = some (value, after)) :
    readFrom value? s = value ++ readFrom value? after := by
  cases s with
  | nil => cases h
  | cons c s =>
    rw [readFrom]
    split
    · rename_i heq
      cases h.symm.trans heq
      rfl
    · rename_i heq
      cases h.symm.trans heq

/-- And any other character as it is. -/
theorem readFrom_copy (h : boundReference? value? (c :: s) = none) :
    readFrom value? (c :: s) = c :: readFrom value? s := by
  rw [readFrom]
  split
  · rename_i heq
    cases h.symm.trans heq
  · rfl

/-- At a bound reference the braces in front of it are noted, and counting starts anew. -/
theorem bracesInFront_bound (h : boundReference? value? s = some (value, after)) :
    bracesInFront value? before s = before :: bracesInFront value? 0 after := by
  cases s with
  | nil => cases h
  | cons c s =>
    rw [bracesInFront]
    split
    · rename_i heq
      cases h.symm.trans heq
      rfl
    · rename_i heq
      cases h.symm.trans heq

/-- An opening brace is counted, any other character starts counting anew. -/
theorem bracesInFront_copy (h : boundReference? value? (c :: s) = none) :
    bracesInFront value? before (c :: s)
      = bracesInFront value? (if c = '\x7b' then before + 1 else 0) s := by
  rw [bracesInFront]
  split
  · rename_i heq
    cases h.symm.trans heq
  · rfl

end Reading

/-! ## Where expansion and the reader part -/

section Parting

variable {value? : List Char → Option (List Char)} {name after opened s s' out : List Char}
  {before before' : Nat}

/-- The reader meets no reference with an odd number of braces in front of it, and expansion puts out
    what it does. -/
def Agrees (value? : List Char → Option (List Char)) (before : Nat) (s : List Char) : Prop :=
  (∀ n ∈ bracesInFront value? before s, Even n) ∧ expandFrom value? 0 s = readFrom value? s

/-- The reader meets a reference with an odd number of braces in front of it, and if values are empty,
    expansion puts out more than it does. -/
def Misses (value? : List Char → Option (List Char)) (before : Nat) (s : List Char) : Prop :=
  (∃ n ∈ bracesInFront value? before s, ¬ Even n)
    ∧ ((∀ name value, value? name = some value → value = []) →
      (readFrom value? s).length < (expandFrom value? 0 s).length)

/-- Where both put out the same and no braces are odd, they part or agree as they do behind it. -/
theorem agrees_or_misses_of_append {front : List Nat} (even : ∀ n ∈ front, Even n)
    (braces : bracesInFront value? before s = front ++ bracesInFront value? before' s')
    (expand : expandFrom value? 0 s = out ++ expandFrom value? 0 s')
    (read : readFrom value? s = out ++ readFrom value? s')
    (h : Agrees value? before' s' ∨ Misses value? before' s') :
    Agrees value? before s ∨ Misses value? before s := by
  -- both put the same in front, so equal rests stay equal and a shorter one stays shorter
  rcases h with ⟨heven, hsame⟩ | ⟨⟨n, hn, hodd⟩, hless⟩
  · refine .inl ⟨?_, by rw [expand, read, hsame]⟩
    rw [braces]
    exact List.forall_mem_append.2 ⟨even, heven⟩
  · refine .inr ⟨⟨n, ?_, hodd⟩, fun blank => ?_⟩
    · rw [braces]
      exact List.mem_append_right _ hn
    · rw [expand, read, List.length_append, List.length_append]
      exact Nat.add_lt_add_left (hless blank) _

/-- Braces count for a reference only if that follows on them. -/
theorem bracesInFront_of_head (h : s.head? ≠ some '\x7b') :
    bracesInFront value? before s = bracesInFront value? 0 s := by
  cases s with
  | nil => rw [bracesInFront, bracesInFront]
  | cons c s =>
    have hc : c ≠ '\x7b' := fun heq => h (congrArg some heq)
    have hnone : boundReference? value? (c :: s) = none :=
      boundReference?_of_reference?_none (reference?_of_ne hc)
    rw [bracesInFront_copy hnone, bracesInFront_copy hnone, if_neg hc, if_neg hc]

/-- Where no braces are closed any more, both put out what there is. -/
theorem agrees_of_unclosed (h : splitOnce closing s = none) : Agrees value? before s := by
  have hread : bracesInFront value? before s = [] ∧ readFrom value? s = s := by
    induction s generalizing before with
    | nil => exact ⟨by rw [bracesInFront], by rw [readFrom]⟩
    | cons c s ih =>
      have hnone : boundReference? value? (c :: s) = none :=
        boundReference?_of_reference?_none (reference?_of_unclosed h)
      obtain ⟨hbraces, hread⟩ := ih (splitOnce_tail_eq_none h)
      exact ⟨(bracesInFront_copy hnone).trans hbraces, by rw [readFrom_copy hnone, hread]⟩
  refine ⟨?_, (expandFrom_unclosed h).trans hread.2.symm⟩
  rw [hread.1]
  exact fun _ hn => absurd hn List.not_mem_nil

/-- Expansion gets to the text behind closing braces, and puts out all of it. -/
theorem length_expandFrom_of_closed (closed : splitOnce closing s = some (name, after)) :
    (expandFrom value? 0 after).length ≤ (expandFrom value? 0 s).length := by
  -- on how expansion goes on: the closing braces are copied, end a reference, or stand behind the ones
  -- that are left
  induction s using expandFrom_induct value? generalizing name with
  | nil => cases closed
  | copy c s plain ih =>
    rw [expandFrom_cons plain, List.length_cons]
    rw [splitOnce] at closed
    split at closed
    · rename_i rest hdrop
      cases closed
      obtain ⟨rfl, rfl⟩ := List.cons.inj (eq_of_dropMark? hdrop)
      show _ ≤ (expandFrom value? 0 ('\x7d' :: after)).length + 1
      rw [expandFrom_cons (reference?_of_ne (by decide)), List.length_cons]
      omega
    · obtain ⟨⟨name', after'⟩, hrest, heq⟩ := Option.map_eq_some_iff.1 closed
      cases heq
      exact (ih hrest).trans (Nat.le_succ _)
  | bound opened name' after' value hclosed hvalue ih =>
    rw [splitOnce_opening, hclosed] at closed
    cases closed
    rw [expandFrom_bound hclosed hvalue, List.length_append]
    exact Nat.le_add_left _ _
  | unbound opened name' after' hclosed hvalue ih =>
    rw [splitOnce_opening, hclosed] at closed
    cases closed
    rw [expandFrom_unbound hclosed hvalue, List.length_append]
    exact (ih hclosed).trans (Nat.le_add_left _ _)

/-- An unbound reference keeps its braces, and behind them both go on, unless a bound reference begins at
    the second one. -/
theorem agrees_or_misses_of_unbound (even : Even before)
    (closed : splitOnce closing opened = some (name, after)) (unbound : value? name = none)
    (here : ∀ before', Even before' → Agrees value? before' opened ∨ Misses value? before' opened)
    (behind : ∀ {value rest}, boundReference? value? ('\x7b' :: opened) = some (value, rest) →
      Agrees value? 0 rest ∨ Misses value? 0 rest) :
    Agrees value? before (opening ++ opened) ∨ Misses value? before (opening ++ opened) := by
  have hfirst : boundReference? value? (opening ++ opened) = none := by
    rw [boundReference?_opening closed, unbound]
    rfl
  have hexpand := expandFrom_unbound closed unbound
  have hread : readFrom value? (opening ++ opened) = '\x7b' :: readFrom value? ('\x7b' :: opened) :=
    readFrom_copy hfirst
  have hbraces : bracesInFront value? before (opening ++ opened)
      = bracesInFront value? (before + 1) ('\x7b' :: opened) := bracesInFront_copy hfirst
  cases hsecond : boundReference? value? ('\x7b' :: opened) with
  | none =>
    rw [readFrom_copy hsecond] at hread
    rw [bracesInFront_copy hsecond] at hbraces
    exact agrees_or_misses_of_append (List.forall_mem_nil _) hbraces hexpand hread
      (here (before + 2) (even.add even_two))
  | some parts =>
    obtain ⟨value, rest⟩ := parts
    refine .inr ⟨⟨before + 1, ?_, ?_⟩, fun blank => ?_⟩
    · rw [hbraces, bracesInFront_bound hsecond]
      exact List.mem_cons_self
    · exact Nat.not_even_iff_odd.2 even.add_one
    · obtain ⟨opened', name', htext, hclosed, hvalue⟩ := exists_of_boundReference? hsecond
      -- the reader goes on behind the closing braces, and expansion gets there later
      have hlater : (readFrom value? rest).length ≤ (expandFrom value? 0 rest).length := by
        rcases behind hsecond with ⟨_, hsame⟩ | ⟨_, hless⟩
        · exact hsame ▸ le_rfl
        · exact (hless blank).le
      have hpast : (expandFrom value? 0 rest).length ≤ (expandFrom value? 0 opened).length := by
        obtain ⟨rfl⟩ : opened = '\x7b' :: opened' := (List.cons.inj htext).2
        have hclosed' : splitOnce closing ('\x7b' :: opened') = some ('\x7b' :: name', rest) := by
          rw [splitOnce_cons_of_dropMark?_none rfl, hclosed]
          rfl
        exact length_expandFrom_of_closed hclosed'
      rw [hread, readFrom_bound hsecond, blank _ _ hvalue, hexpand, List.length_cons,
        List.nil_append, List.length_append]
      show _ < 2 + _
      omega

/-- **Expansion does as the reader does, or a reference stands behind an odd number of braces.** -/
theorem agrees_or_misses (value? : List Char → Option (List Char)) (s : List Char) :
    ∀ before, Even before → Agrees value? before s ∨ Misses value? before s := by
  induction hlength : s.length using Nat.strong_induction_on generalizing s with
  | _ n ih =>
    subst hlength
    have hbraces (opened : List Char) : (opening ++ opened).length = opened.length + 2 := rfl
    intro before even
    cases ahead value? s with
    | nil => exact .inl (agrees_of_unclosed rfl)
    | copy c s plain =>
      have hnone : boundReference? value? (c :: s) = none := boundReference?_of_reference?_none plain
      have hrest := ih s.length (Nat.lt_succ_self _) s rfl 0 Even.zero
      by_cases hunclosed : splitOnce closing (c :: s) = none
      · exact .inl (agrees_of_unclosed hunclosed)
      · -- a brace that begins no reference is not followed by another one
        have hhead : c = '\x7b' → s.head? ≠ some '\x7b' := by
          rintro rfl hhead
          obtain ⟨opened, rfl⟩ := List.head?_eq_some_iff.1 hhead
          have hopened : splitOnce closing opened = none :=
            Option.map_eq_none_iff.1 (reference?_opening.symm.trans plain)
          exact hunclosed ((splitOnce_opening opened).trans (by rw [hopened]; rfl))
        have hcopied : bracesInFront value? before (c :: s) = [] ++ bracesInFront value? 0 s := by
          rw [bracesInFront_copy hnone]
          split
          · rename_i hc
            exact bracesInFront_of_head (hhead hc)
          · rfl
        have hread : readFrom value? (c :: s) = [c] ++ readFrom value? s := readFrom_copy hnone
        exact agrees_or_misses_of_append (List.forall_mem_nil _) hcopied (expandFrom_cons plain) hread
          hrest
    | @bound opened name after value closed hvalue =>
      have hless := length_of_closed closed
      have hbound : boundReference? value? (opening ++ opened) = some (value, after) := by
        rw [boundReference?_opening closed, hvalue]
        rfl
      exact agrees_or_misses_of_append (List.forall_mem_singleton.2 even) (bracesInFront_bound hbound)
        (expandFrom_bound closed hvalue) (readFrom_bound hbound)
        (ih _ (by rw [hbraces]; omega) after rfl 0 Even.zero)
    | @unbound opened name after closed hvalue =>
      refine agrees_or_misses_of_unbound even closed hvalue
        (ih _ (by rw [hbraces]; omega) opened rfl) fun {value rest} hsecond => ?_
      have hless := length_of_boundReference? hsecond
      exact ih _ (by rw [hbraces]; omega) rest rfl 0 Even.zero

end Parting

/-! ## Aliases with the same names -/

/-- The text as the reader reads it. -/
def read (aliases : Aliases) (text : String) : String :=
  String.ofList (readFrom aliases.value? text.toList)

/-- For each bound reference in a text, as the reader meets them, how many opening braces stand directly
    in front of it. -/
def bracesBefore (aliases : Aliases) (text : String) : List Nat :=
  bracesInFront aliases.value? 0 text.toList

/-- The same names are bound, to whatever values. -/
def SameNames (aliases other : Aliases) : Prop :=
  ∀ name, (aliases.get? name).isSome = (other.get? name).isSome

/-- The same names, all bound to the empty text. -/
def blank (aliases : Aliases) : Aliases := ⟨aliases.bindings.map fun (name, _) => (name, "")⟩

section Names

variable {aliases other : Aliases}

theorem get?_blank (name : String) : aliases.blank.get? name = (aliases.get? name).map fun _ => "" := by
  have hlookup (bindings : List (String × String)) :
      Json.lookup name (bindings.map fun (name, _) => (name, ""))
        = (Json.lookup name bindings).map fun _ => "" := by
    induction bindings with
    | nil => rfl
    | cons binding rest ih =>
      rw [List.map_cons, Json.lookup, Json.lookup]
      split
      · rfl
      · exact ih
  exact hlookup aliases.bindings

/-- Blank values change no name. -/
theorem sameNames_blank : aliases.blank.SameNames aliases := fun name => by
  rw [get?_blank, Option.isSome_map]

/-- Which references are bound, and what stands in front of them, is told by the names. -/
theorem bracesInFront_congr {value? value'? : List Char → Option (List Char)}
    (h : ∀ name, (value? name).isSome = (value'? name).isSome) (before : Nat) (s : List Char) :
    bracesInFront value? before s = bracesInFront value'? before s := by
  induction hlength : s.length using Nat.strong_induction_on generalizing s before with
  | _ n ih =>
    subst hlength
    cases s with
    | nil => rw [bracesInFront, bracesInFront]
    | cons c s =>
      -- a reference that is bound for one is bound for the other, with the same text behind it
      cases hbound : boundReference? value? (c :: s) with
      | some parts =>
        obtain ⟨value, after⟩ := parts
        obtain ⟨opened, name, htext, closed, hvalue⟩ := exists_of_boundReference? hbound
        have hless := length_of_boundReference? hbound
        obtain ⟨value', hvalue'⟩ : ∃ value', value'? name = some value' :=
          Option.isSome_iff_exists.1 (by rw [← h, hvalue]; rfl)
        have hbound' : boundReference? value'? (c :: s) = some (value', after) := by
          rw [htext, boundReference?_opening closed, hvalue']
          rfl
        rw [bracesInFront_bound hbound, bracesInFront_bound hbound',
          ih after.length (Nat.lt_succ_of_le hless) 0 after rfl]
      | none =>
        have hbound' : boundReference? value'? (c :: s) = none := by
          cases hbound' : boundReference? value'? (c :: s) with
          | none => rfl
          | some parts =>
            obtain ⟨value', after⟩ := parts
            obtain ⟨opened, name, htext, closed, hvalue'⟩ := exists_of_boundReference? hbound'
            obtain ⟨value, hvalue⟩ : ∃ value, value? name = some value :=
              Option.isSome_iff_exists.1 (by rw [h, hvalue']; rfl)
            rw [htext, boundReference?_opening closed, hvalue] at hbound
            cases hbound
        rw [bracesInFront_copy hbound, bracesInFront_copy hbound',
          ih s.length (Nat.lt_succ_self _) _ s rfl]

theorem bracesBefore_congr (h : other.SameNames aliases) (text : String) :
    other.bracesBefore text = aliases.bracesBefore text :=
  bracesInFront_congr (fun name => by rw [value?, value?, Option.isSome_map, Option.isSome_map, h]) 0 _

end Names

/-- **Expansion reads a text as the reader does, exactly if no bound reference in it stands behind an odd
    number of opening braces.**  If none does, both put out the same, whatever values the names have; if
    some does, expansion misses it, and for some values of the names what it puts out differs. -/
theorem expand_eq_read_iff (aliases : Aliases) (text : String) :
    (∀ other : Aliases, other.SameNames aliases → other.expand text = other.read text)
      ↔ ∀ n ∈ aliases.bracesBefore text, Even n := by
  constructor
  · intro h
    have hsame := h aliases.blank sameNames_blank
    rw [expand, read, String.ofList_inj] at hsame
    rw [← bracesBefore_congr sameNames_blank text]
    rcases agrees_or_misses aliases.blank.value? text.toList 0 Even.zero with ⟨heven, _⟩ | ⟨_, hless⟩
    · exact heven
    · -- with blank values, a reference that was missed makes the text longer than the reader's
      have hblank : ∀ name value, aliases.blank.value? name = some value → value = [] := by
        intro name value hvalue
        rw [value?, get?_blank, Option.map_map] at hvalue
        obtain ⟨_, _, rfl⟩ := Option.map_eq_some_iff.1 hvalue
        rfl
      have hdiffers := hless hblank
      rw [hsame] at hdiffers
      exact absurd hdiffers (lt_irrefl _)
  · intro heven other same
    rw [expand, read, String.ofList_inj]
    rcases agrees_or_misses other.value? text.toList 0 Even.zero with ⟨_, hsame⟩ | ⟨⟨n, hn, hodd⟩, _⟩
    · exact hsame
    · exact absurd (heven n (bracesBefore_congr same text ▸ hn)) hodd

/-- A brace in front of a reference to a bound name: the reader puts the value in behind it, expansion
    leaves the reference as it is. -/
theorem expand_eq_read_iff_third_brace :
    let aliases := ofEntries ["X:1"]
    let text := "\x7b\x7b\x7bX\x7d\x7d\x7d"
    aliases.bracesBefore text = [1]
      ∧ aliases.expand text = text
      ∧ aliases.read text = "\x7b1\x7d"
      ∧ ¬ ∀ other : Aliases, other.SameNames aliases → other.expand text = other.read text := by
  intro aliases text
  have hbraces : aliases.bracesBefore text = [1] := by decide +kernel
  refine ⟨hbraces, by decide +kernel, by decide +kernel, fun h => ?_⟩
  have heven := (expand_eq_read_iff aliases text).1 h 1 (by rw [hbraces]; exact List.mem_singleton_self 1)
  exact absurd heven (by decide)

end Aliases

end TestBench
