import Mathlib
import TestBench.Proofs.CountedPieces
/-
  Patterns with idle pieces.

  1. A piece is idle if it is empty or a dot and stands behind a separator (`HasIdle`); the paths of a
     walk have none (`Path.allCount_iff`).
  2. A pattern is matched as it is written: reading goes along the text, and what the parts so far leave
     of a matched text is what the rest of the pattern's text admits (`admits_of_read`).  `Admits` says
     so without parts, as far as the first bracket or brace.
  3. By induction on that, an idle piece of the pattern is an idle piece of all that it matches, for only
     a whole piece can be `**`, and the pieces around it stay (`Admits.hasIdle`).
  4. So a pattern with an idle piece in front of its first bracket or brace accepts nothing that a walk
     gives, unless it is `**` and accepts everything (`not_accepts_of_idle`).
-/
namespace TestBench

open TestBench.Text
open TestBench.Text.Utf8 (Bytes)

/-! ## Idle pieces -/

section Idle

variable {α : Type} {sep dot : α} {s : List α}

/-- A text whose first piece is empty or a dot. -/
inductive Idle (sep dot : α) : List α → Prop where
  | nil : Idle sep dot []
  | cut (rest : List α) : Idle sep dot (sep :: rest)
  | dot : Idle sep dot [dot]
  | dotCut (rest : List α) : Idle sep dot (dot :: sep :: rest)

/-- A text with such a piece behind a separator. -/
def HasIdle (sep dot : α) (s : List α) : Prop :=
  ∃ front rest, s = front ++ sep :: rest ∧ Idle sep dot rest

/-- An idle piece stays one whatever is put in front of the text. -/
theorem HasIdle.append (h : HasIdle sep dot s) (front : List α) : HasIdle sep dot (front ++ s) := by
  obtain ⟨before, rest, rfl, hrest⟩ := h
  exact ⟨front ++ before, rest, (List.append_assoc _ _ _).symm, hrest⟩

/-- What is idle at a beginning is so behind a separator. -/
theorem Idle.behind (h : Idle sep dot s) (front : List α) : HasIdle sep dot (front ++ sep :: s) :=
  ⟨front, s, rfl, h⟩

end Idle

/-- A text begins with an idle piece iff its first piece does not count. -/
theorem idle_iff {s piece : List Char} {pieces : List (List Char)}
    (h : splitChar '/' s = piece :: pieces) : Idle '/' '.' s ↔ Path.counts piece = false := by
  have huncounted : Path.counts piece = false ↔ piece = [] ∨ piece = ['.'] := by
    rw [Bool.eq_false_iff, Ne, Path.counts_iff, ← not_or, not_not]
  have hjoin := joinChar_splitChar '/' s
  rw [h] at hjoin
  rw [huncounted]
  constructor
  · intro hidle
    cases hidle with
    | nil => exact .inl (List.cons.inj h).1.symm
    | cut rest => exact .inl (List.cons.inj h).1.symm
    | dot => exact .inr (List.cons.inj h).1.symm
    | dotCut rest => exact .inr (List.cons.inj h).1.symm
  · -- an empty piece or a dot, at the end of the text or with a separator behind
    rintro (rfl | rfl) <;> subst hjoin <;> cases pieces
    · exact .nil
    · exact .cut _
    · exact .dot
    · exact .dotCut _

/-- An idle piece behind a separator is a piece behind the first one that does not count. -/
theorem hasIdle_iff {s : List Char} :
    HasIdle '/' '.' s ↔ ∃ piece ∈ (splitChar '/' s).tail, Path.counts piece = false := by
  constructor
  · rintro ⟨front, rest, rfl, hrest⟩
    obtain ⟨piece, pieces, hpieces⟩ := List.exists_cons_of_ne_nil (splitChar_ne_nil '/' rest)
    refine ⟨piece, ?_, (idle_iff hpieces).1 hrest⟩
    rw [splitChar_append, hpieces, List.tail_append_of_ne_nil (splitChar_ne_nil '/' front)]
    exact List.mem_append_right _ List.mem_cons_self
  · rintro ⟨piece, hpiece, hcounts⟩
    induction s with
    | nil => cases hpiece
    | cons c s ih =>
      obtain ⟨first, rest, hsplit⟩ := List.exists_cons_of_ne_nil (splitChar_ne_nil '/' s)
      rw [splitChar, hsplit] at hpiece
      -- a separator begins the piece that is sought, or one in front of it
      split at hpiece
      · rename_i hc
        subst hc
        rcases List.mem_cons.1 hpiece with rfl | hpiece
        · exact ((idle_iff hsplit).2 hcounts).behind []
        · exact (ih (hsplit ▸ hpiece)).append ['/']
      · exact (ih (hsplit ▸ hpiece)).append [c]

/-- In a path all pieces behind the first count iff none is idle. -/
theorem Path.allCount_iff {path : String} : Path.AllCount path ↔ ¬ HasIdle '/' '.' path.toList := by
  rw [hasIdle_iff, Path.AllCount]
  push Not
  simp only [Bool.not_eq_false]

/-! ## In bytes -/

namespace Text.Utf8

/-- The byte of a dot. -/
def dot : UInt8 := byte '.'.toNat

/-- Bytes that begin with an idle piece are of a text that does. -/
theorem idle_of_encode {s : List Char} (h : Idle Glob.slash dot (encode s)) : Idle '/' '.' s := by
  -- the first bytes tell the first character
  have hchar {c d : Char} {s : List Char} {rest : Bytes}
      (h : encode (c :: s) = encodeChar d ++ rest) : c = d ∧ encode s = rest := by
    rw [encode, List.flatMap_cons] at h
    exact encodeChar_append_inj h
  have hnil {s : List Char} (h : encode s = []) : s = [] := by
    cases s with
    | nil => rfl
    | cons c s => exact absurd (List.append_eq_nil_iff.1 h).1 (encodeChar_ne_nil c)
  cases s with
  | nil => exact .nil
  | cons c s =>
    generalize hbytes : encode (c :: s) = bytes at h
    cases h with
    | nil => exact absurd (hnil hbytes) (List.cons_ne_nil c s)
    | cut rest =>
      obtain ⟨rfl, _⟩ := hchar (d := '/') hbytes
      exact .cut s
    | dot =>
      obtain ⟨rfl, hrest⟩ := hchar (d := '.') hbytes
      rw [hnil hrest]
      exact .dot
    | dotCut rest =>
      obtain ⟨rfl, hrest⟩ := hchar (d := '.') hbytes
      cases s with
      | nil => cases hrest
      | cons d s =>
        obtain ⟨rfl, _⟩ := hchar (d := '/') hrest
        exact .dotCut s

/-- The byte of a slash is a slash. -/
theorem exists_slash_of_encode {s : List Char} {front rest : Bytes}
    (h : encode s = front ++ Glob.slash :: rest) :
    ∃ before behind, s = before ++ '/' :: behind ∧ encode behind = rest := by
  induction s generalizing front with
  | nil => exact absurd h.symm (List.append_ne_nil_of_right_ne_nil _ (List.cons_ne_nil _ _))
  | cons c s ih =>
    rw [encode, List.flatMap_cons] at h
    rcases List.append_eq_append_iff.1 h with ⟨more, hfront, hmore⟩ | ⟨more, hchar, hmore⟩
    · obtain ⟨before, behind, rfl, hbehind⟩ := ih hmore
      exact ⟨c :: before, behind, rfl, hbehind⟩
    · cases more with
      | nil =>
        obtain ⟨before, behind, rfl, hbehind⟩ := @ih [] hmore.symm
        exact ⟨c :: before, behind, rfl, hbehind⟩
      | cons b more =>
        obtain rfl : Glob.slash = b := (List.cons.inj hmore).1
        -- a slash among the bytes of a character: the character is a slash
        have hcount := count_slash_encodeChar c
        by_cases hc : c = '/'
        · subst hc
          have hlength : 1 = front.length + (more.length + 1) := by
            rw [← List.length_cons, ← List.length_append, ← hchar]
            rfl
          obtain rfl : more = [] := List.length_eq_zero_iff.1 (by omega)
          exact ⟨[], s, rfl, (List.cons.inj hmore).2.symm⟩
        · rw [if_neg hc, hchar, List.count_eq_zero] at hcount
          exact absurd (List.mem_append_right front List.mem_cons_self) hcount

theorem hasIdle_of_encode {s : List Char} (h : HasIdle Glob.slash dot (encode s)) :
    HasIdle '/' '.' s := by
  obtain ⟨front, rest, hs, hrest⟩ := h
  obtain ⟨before, behind, rfl, rfl⟩ := exists_slash_of_encode hs
  exact ⟨before, behind, rfl, idle_of_encode hrest⟩

end Text.Utf8
/-! ## What the text of a pattern admits -/

namespace GlobPart

open Glob

/-- Parts leave what the later ones leave of what the earlier ones leave. -/
theorem mem_sequenceRests_append {parts parts' : List GlobPart} {text rest : Bytes} :
    rest ∈ sequenceRests (parts ++ parts') text
      ↔ ∃ middle ∈ sequenceRests parts text, rest ∈ sequenceRests parts' middle := by
  induction parts generalizing text with
  | nil => simp [sequenceRests]
  | cons part parts ih =>
    simp only [List.cons_append, mem_sequenceRests_cons, ih]
    constructor
    · rintro ⟨first, hfirst, middle, hmiddle, hrest⟩
      exact ⟨middle, ⟨first, hfirst, hmiddle⟩, hrest⟩
    · rintro ⟨middle, ⟨first, hfirst, hmiddle⟩, hrest⟩
      exact ⟨first, hfirst, middle, hmiddle, hrest⟩

/-- The last part goes on from what the parts in front of it leave. -/
theorem mem_sequenceRests_reverse_cons {part : GlobPart} {branch : List GlobPart}
    {text rest : Bytes} : rest ∈ sequenceRests (part :: branch).reverse text
      ↔ ∃ middle ∈ sequenceRests branch.reverse text, rest ∈ part.rests middle := by
  rw [List.reverse_cons, mem_sequenceRests_append]
  refine exists_congr fun middle => and_congr_right fun _ => ?_
  rw [mem_sequenceRests_cons]
  simp only [sequenceRests, List.mem_singleton, exists_eq_right']

/-- What stands behind a slash stands behind some front. -/
theorem mem_behindSlashes {text rest : Bytes} (h : rest ∈ behindSlashes text) :
    ∃ front, text = front ++ slash :: rest := by
  induction text with
  | nil => cases h
  | cons b text ih =>
    rw [behindSlashes] at h
    rcases List.mem_append.1 h with h | h
    · split at h
      · rename_i hb
        exact ⟨[], by rw [List.mem_singleton.1 h, hb]; rfl⟩
      · cases h
    · obtain ⟨front, rfl⟩ := ih h
      exact ⟨b :: front, rfl⟩

theorem rests_slash (text : Bytes) : (GlobPart.char '/').rests (slash :: text) = [text] := by
  rw [rests, afterPrefix]
  exact if_pos (List.isPrefixOf_iff_prefix.2 (List.prefix_append [slash] text))

theorem rests_directories (text : Bytes) :
    GlobPart.directories.rests (slash :: text) = text :: behindSlashes text := by
  rw [rests, afterOne, if_pos (decide_eq_true rfl), List.flatMap_singleton]

end GlobPart

namespace Glob

open GlobPart

/-- Whole directories: nothing, or what ends with a slash. -/
def Directories (front : Bytes) : Prop := front = [] ∨ ∃ names, front = names ++ [slash]

/-- What the rest of a pattern's text admits, up to its first bracket or brace.  `fresh` says that the
    text begins there or that a slash stands in front, so that `**` can be a piece of its own. -/
inductive Admits : Bool → List Char → Bytes → Prop where
  | nil (fresh : Bool) : Admits fresh [] []
  | char {c : Char} {s : List Char} {text : Bytes} (fresh : Bool) (rest : Admits (c = '/') s text) :
      Admits fresh (c :: s) (Utf8.encodeChar c ++ text)
  | escaped {c : Char} {s : List Char} {text : Bytes} (fresh : Bool) (rest : Admits (c = '/') s text) :
      Admits fresh ('\\' :: c :: s) (Utf8.encodeChar c ++ text)
  | any {s : List Char} {text : Bytes} (fresh : Bool) (b : UInt8) (rest : Admits false s text) :
      Admits fresh ('?' :: s) (b :: text)
  | many {s : List Char} {text : Bytes} (fresh : Bool) (front : Bytes) (rest : Admits false s text) :
      Admits fresh ('*' :: s) (front ++ text)
  | directories {front : Bytes} {s : List Char} {text : Bytes} (whole : Directories front)
      (rest : Admits true s text) : Admits true ('*' :: '*' :: '/' :: s) (front ++ text)
  | everything (text : Bytes) : Admits true ['*', '*'] text
  | bracket {c : Char} (fresh : Bool) (s : List Char) (text : Bytes) (hc : c = '[' ∨ c = '\x7b') :
      Admits fresh (c :: s) text

namespace Admits

variable {fresh : Bool} {s : List Char} {text : Bytes}

/-- An idle piece in front of a text is in front of all that it admits. -/
theorem idle (h : Admits fresh s text) (hidle : Idle '/' '.' s) : Idle slash Utf8.dot text := by
  -- the piece is read character by character, for slash and dot stand for themselves
  cases hidle with
  | nil =>
    cases h
    exact .nil
  | cut rest =>
    cases h with
    | char _ h => exact .cut _
    | bracket _ _ _ hc => rcases hc with hc | hc <;> cases hc
  | dot =>
    cases h with
    | char _ h =>
      cases h
      exact .dot
    | bracket _ _ _ hc => rcases hc with hc | hc <;> cases hc
  | dotCut rest =>
    cases h with
    | char _ h =>
      cases h with
      | char _ h => exact .dotCut _
      | bracket _ _ _ hc => rcases hc with hc | hc <;> cases hc
    | bracket _ _ _ hc => rcases hc with hc | hc <;> cases hc

/-- A character goes on: behind a slash it is an idle piece that counts. -/
theorem hasIdle_char {c : Char} (h : HasIdle slash Utf8.dot text
    ∨ (decide (c = '/') = true ∧ ['*', '*', '/'] <+: s ∧ Idle slash Utf8.dot text)) :
    HasIdle slash Utf8.dot (Utf8.encodeChar c ++ text) := by
  rcases h with h | ⟨hslash, _, h⟩
  · exact h.append _
  · rw [of_decide_eq_true hslash]
    exact h.behind []

theorem hasIdle_directories {front : Bytes} (whole : Directories front)
    (h : Idle slash Utf8.dot text) :
    HasIdle slash Utf8.dot (front ++ text) ∨ Idle slash Utf8.dot (front ++ text) := by
  rcases whole with rfl | ⟨names, rfl⟩
  · exact .inr h
  · rw [List.append_assoc]
    exact .inl (h.behind names)

/-- What stands in front of a slash begins with the same character, unless that is the slash. -/
theorem exists_front {c : Char} {s front rest : List Char} (hc : c ≠ '/')
    (hs : c :: s = front ++ '/' :: rest) : ∃ front', front = c :: front' ∧ s = front' ++ '/' :: rest := by
  cases front with
  | nil => exact absurd (List.cons.inj hs).1 hc
  | cons d front =>
    obtain ⟨rfl, hrest⟩ := List.cons.inj hs
    exact ⟨front, rfl, hrest⟩

/-- **An idle piece of a text is one of all that it admits**, if no bracket or brace is in front.  Only
    directories at the beginning may be left out, with the slash behind them. -/
theorem hasIdle (h : Admits fresh s text) : ∀ {front rest : List Char}, s = front ++ '/' :: rest →
    Idle '/' '.' rest → '[' ∉ front → '\x7b' ∉ front →
      HasIdle slash Utf8.dot text
        ∨ (fresh = true ∧ ['*', '*', '/'] <+: s ∧ Idle slash Utf8.dot text) := by
  -- on how the text admits the bytes: what stands in front of the idle piece passes some bytes, and it
  -- then stands for itself
  induction h with
  | nil fresh =>
    intro front rest hs
    exact absurd hs.symm (List.append_ne_nil_of_right_ne_nil _ (List.cons_ne_nil _ _))
  | char fresh h ih =>
    intro front rest hs hidle hbracket hbrace
    cases front with
    | nil =>
      obtain ⟨rfl, rfl⟩ := List.cons.inj hs
      exact .inl ((h.idle hidle).behind [])
    | cons d front =>
      obtain ⟨rfl, hrest⟩ := List.cons.inj hs
      exact .inl (hasIdle_char (ih hrest hidle (List.not_mem_of_not_mem_cons hbracket)
        (List.not_mem_of_not_mem_cons hbrace)))
  | escaped fresh h ih =>
    intro front rest hs hidle hbracket hbrace
    obtain ⟨front, rfl, hrest⟩ := exists_front (by decide) hs
    have hbracket := List.not_mem_of_not_mem_cons hbracket
    have hbrace := List.not_mem_of_not_mem_cons hbrace
    cases front with
    | nil =>
      obtain ⟨rfl, rfl⟩ := List.cons.inj hrest
      exact .inl ((h.idle hidle).behind [])
    | cons d front =>
      obtain ⟨rfl, hbehind⟩ := List.cons.inj hrest
      exact .inl (hasIdle_char (ih hbehind hidle (List.not_mem_of_not_mem_cons hbracket)
        (List.not_mem_of_not_mem_cons hbrace)))
  | any fresh b h ih =>
    intro front rest hs hidle hbracket hbrace
    obtain ⟨front, rfl, hrest⟩ := exists_front (by decide) hs
    rcases ih hrest hidle (List.not_mem_of_not_mem_cons hbracket)
      (List.not_mem_of_not_mem_cons hbrace) with h | ⟨hfalse, _⟩
    · exact .inl (h.append [b])
    · cases hfalse
  | many fresh bytes h ih =>
    intro front rest hs hidle hbracket hbrace
    obtain ⟨front, rfl, hrest⟩ := exists_front (by decide) hs
    rcases ih hrest hidle (List.not_mem_of_not_mem_cons hbracket)
      (List.not_mem_of_not_mem_cons hbrace) with h | ⟨hfalse, _⟩
    · exact .inl (h.append bytes)
    · cases hfalse
  | @directories bytes s text whole h ih =>
    intro front rest hs hidle hbracket hbrace
    obtain ⟨front, rfl, hstar⟩ := exists_front (by decide) hs
    obtain ⟨front, rfl, hslash⟩ := exists_front (by decide) hstar
    have hstars : ['*', '*', '/'] <+: '*' :: '*' :: '/' :: s := ⟨s, rfl⟩
    cases front with
    | nil =>
      obtain ⟨_, rfl⟩ := List.cons.inj hslash
      -- the idle piece comes right behind the stars: the directories that they pass end in a slash, if
      -- there are any
      exact (hasIdle_directories whole (h.idle hidle)).imp_right fun hidle => ⟨rfl, hstars, hidle⟩
    | cons d front =>
      obtain ⟨rfl, hrest⟩ := List.cons.inj hslash
      simp only [List.mem_cons, not_or] at hbracket hbrace
      rcases ih hrest hidle hbracket.2.2.2 hbrace.2.2.2 with h | ⟨_, _, h⟩
      · exact .inl (h.append bytes)
      · exact (hasIdle_directories whole h).imp_right fun hidle => ⟨rfl, hstars, hidle⟩
  | everything text =>
    intro front rest hs
    obtain ⟨front, rfl, hstar⟩ := exists_front (by decide) hs
    obtain ⟨front, rfl, hnil⟩ := exists_front (by decide) hstar
    exact absurd hnil.symm (List.append_ne_nil_of_right_ne_nil _ (List.cons_ne_nil _ _))
  | bracket fresh s text hc =>
    intro front rest hs _ hbracket hbrace
    rcases hc with rfl | rfl
    · obtain ⟨front, rfl, _⟩ := exists_front (by decide) hs
      exact absurd List.mem_cons_self hbracket
    · obtain ⟨front, rfl, _⟩ := exists_front (by decide) hs
      exact absurd List.mem_cons_self hbrace

end Admits
/-! ## Reading along the text -/

/-- The outer branch begins with parts, and where no braces are open more stands behind them. -/
def Reading.Begins (parts : List GlobPart) (r : Reading) : Prop :=
  ∃ more, r.outer = parts ++ more ∧ (r.opened = [] → more ≠ [])

/-- It does so with one part more. -/
theorem Reading.begins_cons {parts more branch : List GlobPart} (h : branch.reverse = parts ++ more)
    (part : GlobPart) : Begins parts ⟨part :: branch, []⟩ := by
  refine ⟨more ++ [part], ?_, fun _ => List.append_ne_nil_of_right_ne_nil _ (List.cons_ne_nil _ _)⟩
  show (part :: branch).reverse = _
  rw [List.reverse_cons, h, List.append_assoc]

/-- Parts with more behind them stay at the beginning of what is read. -/
theorem kept_begins (parts : List GlobPart) : Kept (Reading.Begins parts) where
  push {r} part h := by
    obtain ⟨branch, opened⟩ := r
    obtain ⟨more, houter, hmore⟩ := h
    cases opened with
    | nil => exact Reading.begins_cons houter part
    | cons o opened => exact ⟨more, houter, hmore⟩
  replaceLast {r part} _ h := by
    obtain ⟨branch, opened⟩ := r
    rw [Reading.replaceLast]
    split
    · exact h
    · exact h
    · rename_i last rest _ _ hbranch
      change branch = last :: rest at hbranch
      subst hbranch
      obtain ⟨more, houter, hmore⟩ := h
      cases opened with
      | nil =>
        -- the part that is replaced is one of those behind
        change (last :: rest).reverse = parts ++ more at houter
        rcases List.eq_nil_or_concat more with rfl | ⟨front, x, rfl⟩
        · exact absurd rfl (hmore rfl)
        · rw [List.reverse_cons, List.concat_eq_append, ← List.append_assoc] at houter
          exact Reading.begins_cons (List.append_inj' houter rfl).1 part
      | cons o opened => exact ⟨more, houter, hmore⟩
    · exact h
  openBraces {r} h := by
    obtain ⟨branch, opened⟩ := r
    obtain ⟨more, houter, _⟩ := h
    cases opened <;> exact ⟨more, houter, fun hopened => absurd hopened (List.cons_ne_nil _ _)⟩
  nextBranch {r} h := by
    obtain ⟨branch, opened⟩ := r
    obtain ⟨more, houter, hmore⟩ := h
    cases opened with
    | nil => exact Reading.begins_cons houter (.char ',')
    | cons o opened =>
      cases opened <;> exact ⟨more, houter, fun hopened => absurd hopened (List.cons_ne_nil _ _)⟩
  closeBraces {r closed} hclosed h := by
    obtain ⟨branch, opened⟩ := r
    obtain ⟨more, houter, _⟩ := h
    cases opened with
    | nil => cases hclosed
    | cons o opened =>
      injection hclosed with hclosed
      subst hclosed
      cases opened with
      | nil => exact Reading.begins_cons houter _
      | cons next opened =>
        exact ⟨more, houter, fun hopened => absurd hopened (List.cons_ne_nil _ _)⟩

namespace Reading

/-- `**` as a piece of its own: at the beginning a part by itself, and behind a slash one that takes the
    slash with it. -/
def wide (r : Reading) (part : GlobPart) : Reading :=
  if r.branch.isEmpty then r.push .directoriesFirst else r.replaceLast part

/-- Whether `**` can be a piece of its own where no braces are open. -/
def isFresh (r : Reading) (before : Option Char) : Bool := r.branch.isEmpty || before == some '/'

/-- The last part is a slash, or has one at its end. -/
def EndsPiece (r : Reading) : Prop :=
  ∃ last rest, r.branch = last :: rest
    ∧ (last = .directoriesFirst ∨ last = .char '/' ∨ last = .directories)

variable {r : Reading} {before : Option Char}

/-- Where no braces are open, `**` is a piece of its own or just twice `*`. -/
theorem doubleStar_closed (closed : r.opened = []) (before : Option Char) (rest : List Char) :
    r.doubleStar before rest = ((r.push .many).push .many, rest)
      ∨ (r.isFresh before = true
        ∧ ((rest = [] ∧ r.doubleStar before rest = (r.wide .everythingBelow, []))
          ∨ ∃ behind, rest = '/' :: behind
            ∧ r.doubleStar before rest = (r.wide .directories, behind))) := by
  rw [isFresh]
  cases hstart : r.branch.isEmpty <;> cases hslash : before == some '/' <;> cases rest with
  | nil => simp [doubleStar, wide, closed, hstart, hslash]
  | cons c behind => by_cases hc : c = '/' <;> simp [doubleStar, wide, closed, hstart, hslash, hc]

/-- A wide part stays inside the braces that are open. -/
theorem opened_wide (r : Reading) (part : GlobPart) : (r.wide part).opened = r.opened := by
  rw [wide, replaceLast]
  split
  · rfl
  · split <;> rfl

/-- Behind a slash the last part is replaced, unless it stands for directories at the beginning. -/
theorem wide_of_endsPiece (ends : r.EndsPiece) (part : GlobPart) :
    r.wide part = r ∨ ∃ last rest, r.branch = last :: rest ∧ (last = .char '/' ∨ last = .directories)
      ∧ r.wide part = { r with branch := part :: rest } := by
  obtain ⟨branch, opened⟩ := r
  obtain ⟨last, rest, hbranch, hlast⟩ := ends
  change branch = last :: rest at hbranch
  subst hbranch
  rcases hlast with rfl | rfl | rfl
  · exact .inl rfl
  · exact .inr ⟨_, rest, rfl, .inl rfl, rfl⟩
  · exact .inr ⟨_, rest, rfl, .inr rfl, rfl⟩

theorem wide_of_isEmpty (h : r.branch.isEmpty = true) (part : GlobPart) :
    r.wide part = r.push .directoriesFirst := if_pos h

theorem endsPiece_wide (fresh : r.isFresh before = true) (ends : before = some '/' → r.EndsPiece) :
    (r.wide .directories).EndsPiece := by
  rcases Bool.or_eq_true_iff.1 fresh with hempty | hslash
  · rw [wide_of_isEmpty hempty]
    exact ⟨_, r.branch, rfl, .inl rfl⟩
  · have hends := ends (eq_of_beq hslash)
    rcases wide_of_endsPiece hends .directories with hwide | ⟨_, rest, _, _, hwide⟩
    · exact hwide.symm ▸ hends
    · rw [hwide]
      exact ⟨_, rest, rfl, .inr (.inr rfl)⟩

/-- Behind a slash, or at the beginning, whole directories lead from one rest to another. -/
theorem exists_directories {middle rest : Bytes} (h : rest ∈ middle :: behindSlashes middle) :
    ∃ front, Directories front ∧ middle = front ++ rest := by
  rcases List.mem_cons.1 h with rfl | h
  · exact ⟨[], .inl rfl, rfl⟩
  · obtain ⟨front, rfl⟩ := mem_behindSlashes h
    exact ⟨front ++ [slash], .inr ⟨front, rfl⟩, by rw [List.append_assoc]; rfl⟩

/-- What such a piece leaves is behind whole directories. -/
theorem mem_of_wide (fresh : r.isFresh before = true) (ends : before = some '/' → r.EndsPiece)
    {part : GlobPart} (hpart : part.Separates) {text rest : Bytes}
    (h : rest ∈ sequenceRests (r.wide part).branch.reverse text) :
    ∃ middle ∈ sequenceRests r.branch.reverse text,
      part = .directories → ∃ front, Directories front ∧ middle = front ++ rest := by
  -- at the beginning a part is added; behind a slash the part that ends there is replaced
  rcases Bool.or_eq_true_iff.1 fresh with hempty | hslash
  · rw [wide_of_isEmpty hempty] at h
    obtain ⟨middle, hmiddle, hrest⟩ := mem_sequenceRests_reverse_cons.1 h
    rw [rests] at hrest
    exact ⟨middle, hmiddle, fun _ => exists_directories hrest⟩
  · rcases wide_of_endsPiece (ends (eq_of_beq hslash)) part with
      hwide | ⟨last, branch, hbranch, hlast, hwide⟩
    · rw [hwide] at h
      exact ⟨rest, h, fun _ => ⟨[], .inl rfl, rfl⟩⟩
    · rw [hwide] at h
      obtain ⟨first, hfirst, hrest⟩ := mem_sequenceRests_reverse_cons.1 h
      obtain ⟨middle, rfl⟩ := slash_of_separates hpart hrest
      refine ⟨middle, ?_, ?_⟩
      · rw [hbranch]
        refine mem_sequenceRests_reverse_cons.2 ⟨_, hfirst, ?_⟩
        rcases hlast with rfl | rfl
        · rw [rests_slash]
          exact List.mem_singleton_self middle
        · rw [rests_directories]
          exact List.mem_cons_self
      · rintro rfl
        rw [rests_directories] at hrest
        exact exists_directories hrest

end Reading

/-- Behind a part, the text goes on from what the parts in front of it leave. -/
theorem exists_of_push {r : Reading} {part : GlobPart} {text : Bytes} {P : Bytes → Prop}
    (h : ∃ rest ∈ sequenceRests (r.push part).branch.reverse text, P rest) :
    ∃ middle ∈ sequenceRests r.branch.reverse text, ∃ rest ∈ part.rests middle, P rest := by
  obtain ⟨rest, hrest, hp⟩ := h
  obtain ⟨middle, hmiddle, hpart⟩ := mem_sequenceRests_reverse_cons.1 hrest
  exact ⟨middle, hmiddle, rest, hpart, hp⟩

/-- A character that is read as it stands is admitted as it stands. -/
theorem exists_of_push_char {r : Reading} {c : Char} {s : List Char} {text : Bytes}
    (h : ∃ rest ∈ sequenceRests (r.push (.char c)).branch.reverse text,
      Admits ((r.push (.char c)).isFresh (some c)) s rest) :
    ∃ middle ∈ sequenceRests r.branch.reverse text, ∃ rest, Admits (c = '/') s rest
      ∧ middle = Utf8.encodeChar c ++ rest := by
  obtain ⟨middle, hmiddle, rest, hrest, hadmits⟩ := exists_of_push h
  rw [rests] at hrest
  exact ⟨middle, hmiddle, rest, hadmits, mem_afterPrefix hrest⟩

/-- Where a bracket or brace begins, the parts so far leave something. -/
theorem exists_of_begins {parts : List GlobPart} {out : Reading} (h : out.Begins parts)
    {text : Bytes} (accepts : [] ∈ sequenceRests out.outer text) :
    ∃ middle, middle ∈ sequenceRests parts text := by
  obtain ⟨more, houter, _⟩ := h
  rw [houter] at accepts
  obtain ⟨middle, hmiddle, _⟩ := mem_sequenceRests_append.1 accepts
  exact ⟨middle, hmiddle⟩

/-- **What the parts so far leave of a matched text, the rest of the pattern's text admits.** -/
theorem admits_of_read (r : Reading) (before : Option Char) (s : List Char) {out : Reading}
    (h : read r before s = .ok out) (closed : r.opened = [])
    (ends : before = some '/' → r.EndsPiece) {text : Bytes}
    (accepts : [] ∈ sequenceRests out.outer text) :
    ∃ middle ∈ sequenceRests r.branch.reverse text, Admits (r.isFresh before) s middle := by
  have endsChar {r : Reading} {c : Char} (hc : some c = some '/') : (r.push (.char c)).EndsPiece :=
    ⟨.char c, r.branch, rfl, .inr (.inl (congrArg _ (Option.some.inj hc)))⟩
  fun_induction read r before s with
  | case1 r before =>
    injection h with h
    subst h
    rw [Reading.outer, closed] at accepts
    exact ⟨[], accepts, .nil _⟩
  | case2 r before rest next shorter ih =>
    have hnext : next = r.doubleStar before rest := rfl
    clear_value next
    rcases Reading.doubleStar_closed closed before rest with
      hstars | ⟨fresh, ⟨rfl, hwide⟩ | ⟨behind, rfl, hwide⟩⟩
    · -- `**` is no piece of its own
      obtain rfl := hnext.trans hstars
      simp only [lt_irrefl, dite_false, ite_false] at ih h
      obtain ⟨middle, hmiddle, first, hfirst, second, hsecond, hadmits⟩ :=
        exists_of_push (exists_of_push (ih h closed (fun hslash => by cases hslash)))
      rw [rests] at hfirst hsecond
      obtain ⟨front, _, rfl⟩ := mem_afterMany hfirst
      obtain ⟨back, _, rfl⟩ := mem_afterMany hsecond
      exact ⟨_, hmiddle, .many _ front (.many _ back hadmits)⟩
    · obtain rfl := hnext.trans hwide
      obtain ⟨rest, hrest, _⟩ := ih h ((r.opened_wide _).trans closed) (fun hslash => by cases hslash)
      obtain ⟨middle, hmiddle, _⟩ := Reading.mem_of_wide fresh ends .everythingBelow hrest
      exact ⟨middle, hmiddle, fresh ▸ .everything middle⟩
    · obtain rfl := hnext.trans hwide
      have hshort : behind.length < ('/' :: behind).length := Nat.lt_succ_self _
      simp only [hshort, dite_true, ite_true] at ih h
      obtain ⟨rest, hrest, hadmits⟩ := ih h ((r.opened_wide _).trans closed)
        (fun _ => Reading.endsPiece_wide fresh ends)
      obtain ⟨middle, hmiddle, hwhole⟩ := Reading.mem_of_wide fresh ends .directories hrest
      obtain ⟨front, whole, rfl⟩ := hwhole rfl
      have hstart : (r.wide .directories).isFresh (some '/') = true := Bool.or_true _
      exact ⟨_, hmiddle, fresh ▸ .directories whole (hstart ▸ hadmits)⟩
  | case3 r before rest _ ih =>
    obtain ⟨middle, hmiddle, left, hleft, hadmits⟩ :=
      exists_of_push (ih h closed (fun hslash => by cases hslash))
    rw [rests] at hleft
    obtain ⟨front, _, rfl⟩ := mem_afterMany hleft
    exact ⟨_, hmiddle, .many _ front hadmits⟩
  | case4 r before rest ih =>
    obtain ⟨middle, hmiddle, left, hleft, hadmits⟩ :=
      exists_of_push (ih h closed (fun hslash => by cases hslash))
    rw [rests] at hleft
    obtain ⟨b, _, rfl⟩ := mem_afterOne hleft
    exact ⟨_, hmiddle, .any _ b hadmits⟩
  | case5 r before rest ih =>
    have begins : r.openBraces.Begins r.branch.reverse := by
      refine ⟨[], ?_, fun hopened => absurd hopened (List.cons_ne_nil _ _)⟩
      rw [Reading.openBraces, closed, List.append_nil]
      rfl
    obtain ⟨middle, hmiddle⟩ := exists_of_begins ((kept_begins _).read _ _ _ h begins) accepts
    exact ⟨middle, hmiddle, .bracket _ rest middle (.inr rfl)⟩
  | case6 r before rest e he => cases h
  | case7 r before rest next hnext ih =>
    rw [Reading.closeBraces, closed] at hnext
    cases hnext
  | case8 r before rest ih =>
    have hcomma : r.nextBranch = r.push (.char ',') := by rw [Reading.nextBranch, closed]
    rw [hcomma] at h ih
    obtain ⟨middle, hmiddle, left, hadmits, rfl⟩ := exists_of_push_char (ih h closed endsChar)
    exact ⟨_, hmiddle, .char _ hadmits⟩
  | case9 r before => cases h
  | case10 r before c rest ih =>
    obtain ⟨middle, hmiddle, left, hadmits, rfl⟩ := exists_of_push_char (ih h closed endsChar)
    exact ⟨_, hmiddle, .escaped _ hadmits⟩
  | case11 r before rest e he => cases h
  | case12 r before rest part behind hpart _ ih =>
    have begins : (r.push part).Begins r.branch.reverse := by
      refine ⟨[part], ?_, fun _ => List.cons_ne_nil _ _⟩
      rw [Reading.push, Reading.outer, closed]
      exact List.reverse_cons
    obtain ⟨middle, hmiddle⟩ := exists_of_begins ((kept_begins _).read _ _ _ h begins) accepts
    exact ⟨middle, hmiddle, .bracket _ rest middle (.inl rfl)⟩
  | case13 r before c rest _ _ _ _ _ _ _ _ _ ih =>
    obtain ⟨middle, hmiddle, left, hadmits, rfl⟩ := exists_of_push_char (ih h closed endsChar)
    exact ⟨_, hmiddle, .char _ hadmits⟩

/-- A pattern's text admits all that the pattern accepts, unless that is everything. -/
theorem admits_of_accepts {text path : String} {glob : Glob} (compiles : ofText text = .ok glob)
    (special : glob.isEverything = false) (accepts : glob.accepts path = true) :
    Admits true text.toList (Utf8.encode path.toList) := by
  obtain ⟨out, hread, hopened, hparts⟩ := exists_read compiles
  rw [Glob.accepts, special, Bool.false_or, List.any_eq_true] at accepts
  obtain ⟨left, hleft, hempty⟩ := accepts
  have houter : out.outer = glob.parts := by
    rw [hparts, Reading.outer, hopened]
    rfl
  -- all parts are read, and they leave nothing of the path
  rw [List.isEmpty_iff.1 hempty, ← houter] at hleft
  obtain ⟨middle, hmiddle, hadmits⟩ := admits_of_read .start none text.toList hread rfl
    (fun hslash => by cases hslash) hleft
  rw [Reading.start, List.reverse_nil, sequenceRests, List.mem_singleton] at hmiddle
  exact hmiddle ▸ hadmits

end Glob

/-! ## Patterns and candidates -/

/-- A pattern that begins with a mark is walked from the working directory. -/
theorem literalSegments_of_star {pattern : String} (h : ['*'] <+: pattern.toList) :
    literalSegments pattern = [] := by
  obtain ⟨first, rest, hpieces, hstar⟩ := exists_prefix_piece (show '/' ∉ ['*'] by decide) h
  have hmem : '*' ∈ first := hstar.subset List.mem_cons_self
  have hne : pattern ≠ "" := by
    rintro rfl
    cases List.prefix_nil.1 h
  -- the first piece holds a star, so it is a name and marked
  have hmark : isLiteral (Segment.ofCounted first) = false := by
    have hname : Segment.ofCounted first = .name (String.ofList first) := by
      rw [Segment.ofCounted, if_neg, if_neg, if_neg]
      all_goals
        rintro rfl
        revert hmem
        decide
    rw [hname, isLiteral, Bool.not_eq_false', hasGlobMark, String.toList_ofList, List.any_eq_true]
    exact ⟨'*', hmem, rfl⟩
  have hcounted : Path.countedPieces pattern = first :: rest.filter Path.counts := by
    rw [Path.countedPieces, hpieces]
    rfl
  rw [literalSegments_eq_map hne, hcounted, List.takeWhile_cons, hmark]
  rfl

/-- **A pattern with an idle piece in front of its first bracket or brace accepts nothing that its walk
    gives**, unless it accepts everything. -/
theorem not_accepts_of_idle {files : Files} (sound : files.Sound) {pattern path : String} {glob : Glob}
    (compiles : Glob.ofText pattern = .ok glob) (special : glob.isEverything = false)
    {front rest : List Char} (hpattern : pattern.toList = front ++ '/' :: rest)
    (hidle : Idle '/' '.' rest) (hbracket : '[' ∉ front) (hbrace : '\x7b' ∉ front)
    (hpath : path ∈ candidates files pattern) : glob.accepts path = false := by
  obtain ⟨hall, hfirst⟩ := allCount_of_mem_candidates sound hpath
  rw [← Bool.not_eq_true]
  intro accepts
  -- the path would have an idle piece as well, but a walk gives none that has
  rcases (Glob.admits_of_accepts compiles special accepts).hasIdle hpattern hidle hbracket hbrace with
    h | ⟨_, hstars, h⟩
  · exact Path.allCount_iff.1 hall (Utf8.hasIdle_of_encode h)
  · obtain ⟨piece, pieces, hpieces⟩ := List.exists_cons_of_ne_nil (splitChar_ne_nil '/' path.toList)
    have hcounts := hfirst (literalSegments_of_star
      ((List.prefix_append ['*'] ['*', '/']).trans hstars)) piece (hpieces ▸ List.mem_cons_self)
    rw [(idle_iff hpieces).1 (Utf8.idle_of_encode h)] at hcounts
    cases hcounts

end TestBench
