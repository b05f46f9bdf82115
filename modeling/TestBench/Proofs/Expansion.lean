import Mathlib
import TestBench.Aliases
import TestBench.Proofs.TextPieces
/-
  Expanding references.

  1. Expansion goes over a text from left to right, and there are four ways in which it goes on
     (`expandFrom_cons`, `expandFrom_bound`, `expandFrom_unbound`, and the end of the text).  An induction
     along them has a case for each (`expandFrom_induct`).
  2. A turn of the scan goes on to the next braces that are closed somewhere behind them (`turn?`).
     Each turn leaves less than there was, so the scan of any text ends; what it has put out by then is
     the expanded text (`scan_ends`).
  3. In a template no brace stands in a literal or in a name, so the first braces behind a literal open
     the reference that was meant, and the first closing braces behind these close it.  Values are put
     out and not looked at again, whatever is in them.
-/
namespace TestBench

open TestBench.Text

namespace Text

/-! ## First occurrences -/

/-- A mark is found where a text holds it for the first time: its first character stands nowhere in
    front of it. -/
theorem splitOnce_of_notMem {c : Char} {mark before : List Char} (h : c ∉ before) (after : List Char) :
    splitOnce (c :: mark) (before ++ (c :: mark) ++ after) = some (before, after) := by
  induction before with
  | nil =>
    have hprefix : (c :: mark).isPrefixOf ((c :: mark) ++ after) = true :=
      List.isPrefixOf_iff_prefix.2 (List.prefix_append _ _)
    have hdrop : dropMark? (c :: mark) ((c :: mark) ++ after) = some after := by
      rw [dropMark?, if_pos hprefix, List.drop_left]
    rw [List.nil_append, List.cons_append, splitOnce]
    rw [List.cons_append] at hdrop
    rw [hdrop]
  | cons d before ih =>
    rw [List.mem_cons, not_or] at h
    -- the mark cannot begin here, since its first character is another one
    have hdrop : dropMark? (c :: mark) (d :: (before ++ (c :: mark) ++ after)) = none := by
      rw [dropMark?, List.isPrefixOf, beq_eq_false_iff_ne.2 h.1]
      rfl
    rw [List.cons_append, List.cons_append, splitOnce, hdrop, ih h.2]
    rfl

/-- What is left stands behind the mark. -/
theorem eq_of_dropMark? {mark s rest : List Char} (h : dropMark? mark s = some rest) :
    s = mark ++ rest := by
  rw [dropMark?] at h
  split at h
  · rename_i hprefix
    obtain ⟨more, rfl⟩ := List.isPrefixOf_iff_prefix.1 hprefix
    rw [List.drop_left] at h
    cases h
    rfl
  · cases h

/-- What stands behind the first character of a text holds the mark no less than the text does, unless
    the text begins with it. -/
theorem splitOnce_cons_of_dropMark?_none {mark s : List Char} {c : Char}
    (h : dropMark? mark (c :: s) = none) :
    splitOnce mark (c :: s) = (splitOnce mark s).map fun (before, after) => (c :: before, after) := by
  rw [splitOnce, h]

/-- A mark that does not occur in a text does not occur behind its first character. -/
theorem splitOnce_tail_eq_none {mark s : List Char} {c : Char} (h : splitOnce mark (c :: s) = none) :
    splitOnce mark s = none := by
  rw [splitOnce] at h
  split at h
  · cases h
  · exact Option.map_eq_none_iff.1 h

end Text

namespace Aliases

/-! ## How expansion goes on -/

/-- What opens a reference. -/
def opening : List Char := ['\x7b', '\x7b']

/-- What closes it. -/
def closing : List Char := ['\x7d', '\x7d']

section Expand

variable {value? : List Char → Option (List Char)} {opened name value after s : List Char} {c : Char}

theorem reference?_opening : reference? (opening ++ opened) = (splitOnce closing opened).map (·.1) := rfl

/-- A reference begins with braces. -/
theorem exists_of_reference? (h : reference? s = some name) :
    ∃ opened after, s = opening ++ opened ∧ splitOnce closing opened = some (name, after) := by
  unfold reference? at h
  split at h
  · rename_i opened
    obtain ⟨⟨_, after⟩, hsplit, rfl⟩ := Option.map_eq_some_iff.1 h
    exact ⟨opened, after, rfl, hsplit⟩
  · cases h

/-- No reference begins with another character. -/
theorem reference?_of_ne (h : c ≠ '\x7b') : reference? (c :: s) = none := by
  rw [reference?]
  intro opened heq
  exact h (List.cons.inj heq).1

theorem reference?_of_dropMark?_none (h : dropMark? opening s = none) : reference? s = none := by
  cases href : reference? s with
  | none => rfl
  | some name =>
    obtain ⟨opened, _, rfl, _⟩ := exists_of_reference? href
    rw [dropMark?, if_pos (List.isPrefixOf_iff_prefix.2 (List.prefix_append _ _))] at h
    cases h

/-- The first characters of a text that are dealt with are left out. -/
theorem expandFrom_skip (n : Nat) (s : List Char) :
    expandFrom value? n s = expandFrom value? 0 (s.drop n) := by
  induction n generalizing s with
  | zero => rfl
  | succ n ih =>
    cases s with
    | nil => rfl
    | cons c s => exact ih s

/-- Where no reference begins, a character is put out as it is. -/
theorem expandFrom_cons (h : reference? (c :: s) = none) :
    expandFrom value? 0 (c :: s) = c :: expandFrom value? 0 s := by
  rw [expandFrom, h]

/-- A bound reference is put out as its value. -/
theorem expandFrom_bound (closed : splitOnce closing opened = some (name, after))
    (bound : value? name = some value) :
    expandFrom value? 0 (opening ++ opened) = value ++ expandFrom value? 0 after := by
  have hopened : opened = name ++ closing ++ after := eq_of_splitOnce closed
  have href : reference? ('\x7b' :: '\x7b' :: opened) = some name :=
    reference?_opening.trans (by rw [closed]; rfl)
  -- the name and the four braces are dropped, one of them as the character in hand
  have hdrop : ('\x7b' :: opened).drop (name.length + 3) = after := by
    rw [hopened, List.drop_succ_cons]
    exact List.drop_left' (by simp [closing])
  show expandFrom value? 0 ('\x7b' :: '\x7b' :: opened) = _
  rw [expandFrom, href]
  dsimp only
  rw [bound]
  dsimp only
  rw [expandFrom_skip, hdrop]

/-- An unbound one leaves its braces, and the scan goes on behind those. -/
theorem expandFrom_unbound (closed : splitOnce closing opened = some (name, after))
    (unbound : value? name = none) :
    expandFrom value? 0 (opening ++ opened) = opening ++ expandFrom value? 0 opened := by
  have href : reference? ('\x7b' :: '\x7b' :: opened) = some name :=
    reference?_opening.trans (by rw [closed]; rfl)
  show expandFrom value? 0 ('\x7b' :: '\x7b' :: opened) = _
  rw [expandFrom, href]
  dsimp only
  rw [unbound]
  rfl

end Expand

/-- What a text has ahead for expansion: nothing, a character that begins no reference, or a reference
    that is bound or unbound. -/
inductive Ahead (value? : List Char → Option (List Char)) : List Char → Prop where
  | nil : Ahead value? []
  | copy (c : Char) (s : List Char) (plain : reference? (c :: s) = none) : Ahead value? (c :: s)
  | bound {opened name after value : List Char} (closed : splitOnce closing opened = some (name, after))
      (bound : value? name = some value) : Ahead value? (opening ++ opened)
  | unbound {opened name after : List Char} (closed : splitOnce closing opened = some (name, after))
      (unbound : value? name = none) : Ahead value? (opening ++ opened)

/-- Any text begins in one of these ways. -/
theorem ahead (value? : List Char → Option (List Char)) (s : List Char) : Ahead value? s := by
  cases s with
  | nil => exact .nil
  | cons c s =>
    cases href : reference? (c :: s) with
    | none => exact .copy c s href
    | some name =>
      obtain ⟨opened, after, htext, closed⟩ := exists_of_reference? href
      rw [htext]
      cases hvalue : value? name with
      | none => exact .unbound closed hvalue
      | some value => exact .bound closed hvalue

theorem length_of_closed {opened name after : List Char}
    (closed : splitOnce closing opened = some (name, after)) : after.length + 2 ≤ opened.length := by
  have hopened := congrArg List.length (eq_of_splitOnce closed)
  have hbraces : closing.length = 2 := rfl
  simp only [List.length_append] at hopened
  omega

/-- **One case for each way in which expansion goes on.** -/
theorem expandFrom_induct {motive : List Char → Prop} (value? : List Char → Option (List Char))
    (nil : motive [])
    (copy : ∀ c s, reference? (c :: s) = none → motive s → motive (c :: s))
    (bound : ∀ opened name after value, splitOnce closing opened = some (name, after) →
      value? name = some value → motive after → motive (opening ++ opened))
    (unbound : ∀ opened name after, splitOnce closing opened = some (name, after) →
      value? name = none → motive opened → motive (opening ++ opened)) (s : List Char) : motive s := by
  induction hlength : s.length using Nat.strong_induction_on generalizing s with
  | _ n ih =>
    subst hlength
    have hbraces (opened : List Char) : (opening ++ opened).length = opened.length + 2 := rfl
    -- each way leaves a shorter text
    cases ahead value? s with
    | nil => exact nil
    | copy c s plain => exact copy c s plain (ih _ (Nat.lt_succ_self _) s rfl)
    | bound closed hvalue =>
      have hless := length_of_closed closed
      exact bound _ _ _ _ closed hvalue (ih _ (by rw [hbraces]; omega) _ rfl)
    | unbound closed hvalue =>
      exact unbound _ _ _ closed hvalue (ih _ (by rw [hbraces]; omega) _ rfl)

section Plain

variable {value? : List Char → Option (List Char)} {opened s : List Char}

/-! ## What is left as it is -/

/-- Opening braces are no part of closing ones. -/
theorem splitOnce_opening (opened : List Char) : splitOnce closing (opening ++ opened)
    = (splitOnce closing opened).map fun (before, after) => (opening ++ before, after) := by
  show splitOnce closing ('\x7b' :: '\x7b' :: opened) = _
  rw [splitOnce_cons_of_dropMark?_none rfl, splitOnce_cons_of_dropMark?_none rfl, Option.map_map]
  rfl

theorem reference?_of_unclosed (h : splitOnce closing s = none) : reference? s = none := by
  cases href : reference? s with
  | none => rfl
  | some name =>
    obtain ⟨opened, after, rfl, closed⟩ := exists_of_reference? href
    rw [splitOnce_opening, closed] at h
    cases h

/-- A text in which no braces are closed stays as it is. -/
theorem expandFrom_unclosed (h : splitOnce closing s = none) : expandFrom value? 0 s = s := by
  induction s with
  | nil => rfl
  | cons c s ih =>
    rw [expandFrom_cons (reference?_of_unclosed h), ih (splitOnce_tail_eq_none h)]

/-- A text without opening braces is put out as it is. -/
theorem expandFrom_literal {text : List Char} (h : '\x7b' ∉ text) (s : List Char) :
    expandFrom value? 0 (text ++ s) = text ++ expandFrom value? 0 s := by
  induction text with
  | nil => rfl
  | cons c text ih =>
    rw [List.mem_cons, not_or] at h
    rw [List.cons_append, expandFrom_cons (reference?_of_ne (Ne.symm h.1)), ih h.2, List.cons_append]

/-- What stands in front of the first braces is put out as it is. -/
theorem expandFrom_before {before : List Char}
    (h : splitOnce opening s = some (before, opened)) :
    expandFrom value? 0 s = before ++ expandFrom value? 0 (opening ++ opened) := by
  induction s generalizing before with
  | nil => cases h
  | cons c s ih =>
    have htext := eq_of_splitOnce h
    rw [splitOnce] at h
    -- the braces begin here, or a character in front of them is put out
    split at h
    · cases h
      exact congrArg _ htext
    · rename_i hdrop
      obtain ⟨⟨before', opened'⟩, hrest, heq⟩ := Option.map_eq_some_iff.1 h
      cases heq
      rw [expandFrom_cons (reference?_of_dropMark?_none hdrop), ih hrest, List.cons_append]

/-- So is a text in which there are none. -/
theorem expandFrom_of_no_opening (h : splitOnce opening s = none) : expandFrom value? 0 s = s := by
  induction s with
  | nil => rfl
  | cons c s ih =>
    have hrest := splitOnce_tail_eq_none h
    rw [splitOnce] at h
    split at h
    · cases h
    · rename_i hdrop
      rw [expandFrom_cons (reference?_of_dropMark?_none hdrop), ih hrest]

end Plain

/-! ## Turns of the scan -/

/-- One turn of the scan: what it puts out, and the text that is left for the next one.  It goes on to
    the next braces and puts out the value of the reference that they open, or the braces alone if the
    name is unbound.  Where no more braces are opened, or these are never closed, the scan ends. -/
def turn? (value? : List Char → Option (List Char)) (s : List Char) :
    Option (List Char × List Char) :=
  (splitOnce opening s).bind fun (before, opened) =>
    (splitOnce closing opened).map fun (name, after) =>
      match value? name with
      | some value => (before ++ value, after)
      | none => (before ++ opening, opened)

/-- A scan of a text that ends after so many turns, with what it puts out. -/
inductive Scan (value? : List Char → Option (List Char)) : Nat → List Char → List Char → Prop where
  | done {s : List Char} (last : turn? value? s = none) : Scan value? 0 s s
  | turn {n : Nat} {s out rest more : List Char} (first : turn? value? s = some (out, rest))
      (scan : Scan value? n rest more) : Scan value? (n + 1) s (out ++ more)

section Turns

variable {value? : List Char → Option (List Char)} {s out rest : List Char}

theorem expandFrom_of_last_turn (h : turn? value? s = none) : expandFrom value? 0 s = s := by
  cases hopen : splitOnce opening s with
  | none => exact expandFrom_of_no_opening hopen
  | some parts =>
    obtain ⟨before, opened⟩ := parts
    rw [turn?, hopen, Option.bind_some, Option.map_eq_none_iff] at h
    have hunclosed : splitOnce closing (opening ++ opened) = none := by
      rw [splitOnce_opening, h]
      rfl
    rw [expandFrom_before hopen, expandFrom_unclosed hunclosed, ← List.append_assoc]
    exact (eq_of_splitOnce hopen).symm

/-- A turn puts out the beginning of the expanded text, and leaves the rest of it to be put out. -/
theorem expandFrom_of_turn (h : turn? value? s = some (out, rest)) :
    expandFrom value? 0 s = out ++ expandFrom value? 0 rest := by
  obtain ⟨⟨before, opened⟩, hopen, h⟩ := Option.bind_eq_some_iff.1 h
  obtain ⟨⟨name, after⟩, hclosed, h⟩ := Option.map_eq_some_iff.1 h
  rw [expandFrom_before hopen]
  dsimp only at h
  split at h
  · rename_i value hvalue
    cases h
    rw [expandFrom_bound hclosed hvalue, List.append_assoc]
  · rename_i hvalue
    cases h
    rw [expandFrom_unbound hclosed hvalue, List.append_assoc]

/-- A turn deals with two characters at least. -/
theorem length_of_turn (h : turn? value? s = some (out, rest)) : rest.length + 2 ≤ s.length := by
  obtain ⟨⟨before, opened⟩, hopen, h⟩ := Option.bind_eq_some_iff.1 h
  obtain ⟨⟨name, after⟩, hclosed, h⟩ := Option.map_eq_some_iff.1 h
  have hs := congrArg List.length (eq_of_splitOnce hopen)
  have hless := length_of_closed hclosed
  have hbraces : opening.length = 2 := rfl
  simp only [List.length_append] at hs
  dsimp only at h
  split at h <;> cases h <;> omega

/-- **The scan of any text ends**, after no more turns than there are pairs of characters, and it puts
    out the expanded text. -/
theorem scan_ends (value? : List Char → Option (List Char)) (s : List Char) :
    ∃ turns, 2 * turns ≤ s.length ∧ Scan value? turns s (expandFrom value? 0 s) := by
  induction hlength : s.length using Nat.strong_induction_on generalizing s with
  | _ n ih =>
    subst hlength
    cases hturn : turn? value? s with
    | none =>
      rw [expandFrom_of_last_turn hturn]
      exact ⟨0, Nat.zero_le _, .done hturn⟩
    | some parts =>
      obtain ⟨out, rest⟩ := parts
      -- every turn takes two characters at least
      have hless := length_of_turn hturn
      obtain ⟨turns, hturns, hscan⟩ := ih rest.length (by omega) rest rfl
      rw [expandFrom_of_turn hturn]
      exact ⟨turns + 1, by omega, .turn hturn hscan⟩

end Turns

/-! ## Templates -/

/-- A piece of a template: a text as it stands, or a reference to a name. -/
inductive Piece where
  | literal (text : String) (plain : '\x7b' ∉ text.toList)
  | reference (name : String) (plain : '\x7b' ∉ name.toList ∧ '\x7d' ∉ name.toList)

namespace Piece

/-- The piece as the template has it. -/
def written : Piece → String
  | literal text _ => text
  | reference name _ => "\x7b\x7b" ++ name ++ "\x7d\x7d"

/-- The piece with its value put in, if it refers to a name that has one. -/
def filled (aliases : Aliases) (piece : Piece) : String :=
  match piece with
  | literal text _ => text
  | reference name _ => (aliases.get? name).getD piece.written

end Piece

/-- The text of a template. -/
def written (template : List Piece) : String := String.join (template.map Piece.written)

/-- A template with the values put in. -/
def filled (aliases : Aliases) (template : List Piece) : String :=
  String.join (template.map (Piece.filled aliases))

section Templates

variable (aliases : Aliases)

theorem toList_written_reference (name : String) (plain : '\x7b' ∉ name.toList ∧ '\x7d' ∉ name.toList) :
    (Piece.reference name plain).written.toList = opening ++ (name.toList ++ closing) := by
  rw [Piece.written, String.toList_append, String.toList_append, List.append_assoc]
  rfl

/-- A piece is filled in, and the scan goes on right behind it. -/
theorem expandFrom_piece (piece : Piece) (s : List Char) :
    expandFrom aliases.value? 0 (piece.written.toList ++ s)
      = (piece.filled aliases).toList ++ expandFrom aliases.value? 0 s := by
  cases piece with
  | literal text plain => exact expandFrom_literal plain s
  | reference name plain =>
    have hclosed : splitOnce closing (name.toList ++ closing ++ s) = some (name.toList, s) :=
      splitOnce_of_notMem plain.2 s
    have hvalue : aliases.value? name.toList = (aliases.get? name).map String.toList := by
      rw [value?, String.ofList_toList]
    rw [Piece.filled, toList_written_reference, List.append_assoc]
    cases hget : aliases.get? name with
    | some value =>
      rw [hget] at hvalue
      exact expandFrom_bound hclosed hvalue
    | none =>
      rw [hget] at hvalue
      -- no braces are opened in the name or by the closing ones, so the next reference is seen
      have hplain : '\x7b' ∉ name.toList ++ closing := by
        rw [List.mem_append, not_or]
        exact ⟨plain.1, by decide⟩
      rw [expandFrom_unbound hclosed hvalue, expandFrom_literal hplain, Option.getD_none,
        toList_written_reference]
      simp only [List.append_assoc]

/-- So are all pieces of a template. -/
theorem expandFrom_written (template : List Piece) (s : List Char) :
    expandFrom aliases.value? 0 ((written template).toList ++ s)
      = (filled aliases template).toList ++ expandFrom aliases.value? 0 s := by
  induction template with
  | nil => rfl
  | cons piece rest ih =>
    rw [written, filled, List.map_cons, List.map_cons, String.join_cons, String.join_cons,
      String.toList_append, String.toList_append, List.append_assoc, List.append_assoc,
      expandFrom_piece]
    exact congrArg _ ih

/-- **A template is filled in.**  Take texts without an opening brace, and references to names without
    braces, one after another.  Expansion puts the value of each bound reference in its place, as it is,
    and leaves all else as it stands; braces that are opened behind the template and never closed stay
    as well, with all that follows.  The scan ends on every text. -/
theorem expand_template :
    (∀ template : List Piece, aliases.expand (written template) = filled aliases template)
      ∧ (∀ (template : List Piece) (unclosed : String), occursIn closing unclosed.toList = false →
          aliases.expand (written template ++ "\x7b\x7b" ++ unclosed)
            = filled aliases template ++ "\x7b\x7b" ++ unclosed)
      ∧ ∀ text : String, ∃ turns, 2 * turns ≤ text.length
          ∧ Scan aliases.value? turns text.toList (aliases.expand text).toList := by
  refine ⟨fun template => ?_, fun template unclosed h => ?_, fun text => ?_⟩
  · have hexpand := expandFrom_written aliases template []
    rw [List.append_nil, expandFrom, List.append_nil] at hexpand
    rw [expand, hexpand, String.ofList_toList]
  · -- nothing closes behind the template, so nothing behind it is a reference
    have hclosing : splitOnce closing (opening ++ unclosed.toList) = none := by
      rw [splitOnce_opening, Option.isNone_iff_eq_none.1 (Option.isSome_eq_false_iff.1 h)]
      rfl
    rw [expand, ← String.toList_inj, String.toList_ofList, String.toList_append, String.toList_append,
      List.append_assoc, String.toList_append, String.toList_append, List.append_assoc]
    exact (expandFrom_written aliases template _).trans (congrArg _ (expandFrom_unclosed hclosing))
  · rw [expand, String.toList_ofList, ← String.length_toList]
    exact scan_ends aliases.value? text.toList

end Templates

/-- A value that reads like a reference stays as it is, an unbound name does not take the next reference
    with it, and braces at the end stay open. -/
theorem expand_template_unbound :
    let aliases := ofEntries ["A:\x7b\x7bB\x7d\x7d", "B:x"]
    occursIn closing "B".toList = false
      ∧ aliases.expand "\x7b\x7bA\x7d\x7d-\x7b\x7bC\x7d\x7d\x7b\x7bB\x7d\x7d\x7b\x7bB"
        = "\x7b\x7bB\x7d\x7d-\x7b\x7bC\x7d\x7dx\x7b\x7bB" := by
  intro aliases
  have hunclosed : occursIn closing "B".toList = false := by decide
  exact ⟨hunclosed, (expand_template aliases).2.1 [.reference "A" (by decide),
    .literal "-" (by decide), .reference "C" (by decide), .reference "B" (by decide)] "B" hunclosed⟩

end Aliases

end TestBench
