import Mathlib
import TestBench.Glob.Reader
import TestBench.Proofs.Decoding
/-
  What the text of a pattern says about the paths that it accepts.

  1. No encoded character begins another one, and only a slash has the byte of a slash in it.
  2. A part of a pattern can pass only so many slashes (`GlobPart.slashes`): those that it holds as
     characters, or any number if it stands for directories.  Reading a pattern without `**` and
     classes, the slashes of its parts are those of its text (`slashes_ofText`), so no path that it
     accepts has more.
  3. What is read in front of a slash stays in front: reading on changes the outer branch at its end
     only, and the part at the slash into one that still stands for a slash, if at all
     (`kept_beginWith`).
     So every accepted path begins with the characters in front of a slash, if none of them is a mark
     (`begins_of_accepts`).
-/
namespace TestBench

open TestBench.Text

/-! ## Encoded characters -/

namespace Text.Utf8

theorem toNat_byte (n : Nat) : (byte n).toNat = n % 256 := UInt8.toNat_ofNat'

/-- No encoded character begins another one. -/
theorem encodeChar_append_inj {c d : Char} {s t : Bytes}
    (h : encodeChar c ++ s = encodeChar d ++ t) : c = d ∧ s = t := by
  have hc : c.toNat ≤ 0x10FFFF := c.toNat_le_max
  have hd : d.toNat ≤ 0x10FFFF := d.toNat_le_max
  suffices hsame : c.toNat = d.toNat by
    have heq : c = d := Char.toNat_inj.1 hsame
    subst heq
    exact ⟨rfl, List.append_cancel_left h⟩
  rw [encodeChar, encodeChar] at h
  -- the first byte tells how many there are, and then each one tells some of the bits
  split_ifs at h
  all_goals
    simp only [List.cons_append, List.cons.injEq, ← UInt8.toNat_inj, toNat_byte] at h
    omega

/-- Every character has bytes. -/
theorem encodeChar_ne_nil (c : Char) : encodeChar c ≠ [] := by
  rw [encodeChar]
  split_ifs <;> exact List.cons_ne_nil _ _

/-- A text that begins with the bytes of another one begins with its characters. -/
theorem exists_eq_append_of_encode {s t : List Char} {rest : Bytes}
    (h : encode t = encode s ++ rest) : ∃ more, t = s ++ more := by
  induction s generalizing t with
  | nil => exact ⟨t, rfl⟩
  | cons c s ih =>
    rw [encode, encode, List.flatMap_cons, List.append_assoc] at h
    cases t with
    | nil =>
      exact absurd (List.append_eq_nil_iff.1 h.symm).1 (encodeChar_ne_nil c)
    | cons d t =>
      rw [List.flatMap_cons] at h
      -- the code has no prefixes, so the first bytes tell the first character
      obtain ⟨rfl, hrest⟩ := encodeChar_append_inj h
      obtain ⟨more, rfl⟩ := ih hrest
      exact ⟨more, rfl⟩

/-- The byte of a slash is in the code of a slash only. -/
theorem count_slash_encodeChar (c : Char) :
    (encodeChar c).count Glob.slash = if c = '/' then 1 else 0 := by
  by_cases h : c = '/'
  · rw [if_pos h, h]
    rfl
  · rw [if_neg h, List.count_eq_zero]
    intro hmem
    have hne : c.toNat ≠ 47 := fun heq => h (Char.toNat_inj.1 heq)
    have hc : c.toNat ≤ 0x10FFFF := c.toNat_le_max
    have hslash : Glob.slash.toNat = 47 := rfl
    rw [encodeChar] at hmem
    -- one case for each length of the code: all bytes of a long one are at least 128
    split_ifs at hmem
    all_goals
      simp only [List.mem_cons, List.not_mem_nil, or_false, ← UInt8.toNat_inj, toNat_byte,
        hslash] at hmem
      omega

theorem count_slash_encode (s : List Char) : (encode s).count Glob.slash = s.count '/' := by
  induction s with
  | nil => rfl
  | cons c s ih =>
    rw [encode] at ih ⊢
    rw [List.flatMap_cons, List.count_append, ih, count_slash_encodeChar, List.count_cons,
      Nat.add_comm]
    simp only [beq_iff_eq]

end Text.Utf8

/-! ## How many slashes a pattern can pass -/

namespace GlobPart

open Glob

mutual

/-- The slashes that a part can pass at most; of braces all branches count, though one is enough. -/
def slashes : GlobPart → ℕ∞
  | .char c => if c = '/' then 1 else 0
  | .any => 0
  | .many => 0
  | .alternatives branches => branchSlashes branches
  | _ => ⊤

/-- How many slashes parts one behind the other can pass. -/
def sequenceSlashes : List GlobPart → ℕ∞
  | [] => 0
  | part :: parts => part.slashes + sequenceSlashes parts

/-- A bound for what any one of the branches can pass. -/
def branchSlashes : List (List GlobPart) → ℕ∞
  | [] => 0
  | branch :: branches => sequenceSlashes branch + branchSlashes branches

end

theorem mem_afterPrefix {beginning text rest : Utf8.Bytes} (h : rest ∈ afterPrefix beginning text) :
    text = beginning ++ rest := by
  rw [afterPrefix] at h
  split at h
  · rename_i hprefix
    obtain ⟨more, rfl⟩ := List.isPrefixOf_iff_prefix.1 hprefix
    rw [List.mem_singleton.1 h, List.drop_left]
  · cases h

theorem mem_afterOne {pass : UInt8 → Bool} {text rest : Utf8.Bytes} (h : rest ∈ afterOne pass text) :
    ∃ b, pass b = true ∧ text = b :: rest := by
  cases text with
  | nil => cases h
  | cons b text =>
    rw [afterOne] at h
    split at h
    · rename_i hpass
      exact ⟨b, hpass, List.mem_singleton.1 h ▸ rfl⟩
    · cases h

/-- What stands in front of a rest are characters that may be passed. -/
theorem mem_afterMany {pass : UInt8 → Bool} {text rest : Utf8.Bytes}
    (h : rest ∈ afterMany pass text) :
    ∃ front, (∀ b ∈ front, pass b = true) ∧ text = front ++ rest := by
  induction text with
  | nil => exact ⟨[], by simp, (List.mem_singleton.1 h).symm⟩
  | cons b text ih =>
    rw [afterMany] at h
    -- passing ends here, or this byte may be passed and more behind it
    rcases List.mem_cons.1 h with rfl | h
    · exact ⟨[], by simp, rfl⟩
    · split at h
      · rename_i hpass
        obtain ⟨front, hfront, rfl⟩ := ih h
        exact ⟨b :: front, List.forall_mem_cons.2 ⟨hpass, hfront⟩, rfl⟩
      · cases h

theorem mem_sequenceRests_cons {part : GlobPart} {parts : List GlobPart} {text rest : Utf8.Bytes} :
    rest ∈ sequenceRests (part :: parts) text
      ↔ ∃ middle ∈ part.rests text, rest ∈ sequenceRests parts middle := by
  rw [sequenceRests, distinct, List.mem_eraseDups, List.mem_flatMap]

mutual

/-- What a part passes over has no more slashes than the part can pass. -/
theorem count_slash_rests : ∀ (part : GlobPart) {text rest : Utf8.Bytes}, rest ∈ part.rests text →
    (text.count slash : ℕ∞) ≤ part.slashes + rest.count slash
  | .char c, text, rest, h => by
    rw [rests] at h
    rw [mem_afterPrefix h, List.count_append, Utf8.count_slash_encodeChar, slashes]
    push_cast
    split_ifs <;> simp
  | .any, text, rest, h => by
    rw [rests] at h
    obtain ⟨b, hb, rfl⟩ := mem_afterOne h
    rw [List.count_cons_of_ne (by simpa using hb)]
    exact le_add_self
  | .many, text, rest, h => by
    rw [rests] at h
    obtain ⟨front, hfront, rfl⟩ := mem_afterMany h
    have hnone : front.count slash = 0 := List.count_eq_zero.2 fun hmem => by
      simpa using hfront slash hmem
    rw [List.count_append, hnone, Nat.zero_add]
    exact le_add_self
  | .alternatives branches, text, rest, h => by
    rw [rests] at h
    rw [slashes]
    split at h
    · rw [List.mem_singleton.1 h]
      exact le_add_self
    · exact count_slash_branchRests branches h
  -- the other parts pass any number
  | .directoriesFirst, _, _, _ => by simp [slashes]
  | .directories, _, _, _ => by simp [slashes]
  | .everythingBelow, _, _, _ => by simp [slashes]
  | .oneOf _ _, _, _, _ => by simp [slashes]

/-- The same of parts one behind the other. -/
theorem count_slash_sequenceRests : ∀ (parts : List GlobPart) {text rest : Utf8.Bytes},
    rest ∈ sequenceRests parts text →
      (text.count slash : ℕ∞) ≤ sequenceSlashes parts + rest.count slash
  | [], text, rest, h => by
    rw [sequenceRests] at h
    rw [List.mem_singleton.1 h]
    exact le_add_self
  | part :: parts, text, rest, h => by
    obtain ⟨middle, hmiddle, hrest⟩ := mem_sequenceRests_cons.1 h
    -- the first part passes up to the middle, the others from there
    calc (text.count slash : ℕ∞)
        ≤ part.slashes + middle.count slash := count_slash_rests part hmiddle
      _ ≤ part.slashes + (sequenceSlashes parts + rest.count slash) :=
        add_le_add_right (count_slash_sequenceRests parts hrest) _
      _ = sequenceSlashes (part :: parts) + rest.count slash := by
        rw [sequenceSlashes, add_assoc]

/-- And of alternatives, whichever is taken. -/
theorem count_slash_branchRests : ∀ (branches : List (List GlobPart)) {text rest : Utf8.Bytes},
    rest ∈ branchRests branches text →
      (text.count slash : ℕ∞) ≤ branchSlashes branches + rest.count slash
  | [], _, _, h => by cases h
  | branch :: branches, text, rest, h => by
    rw [branchRests] at h
    rw [branchSlashes]
    rcases List.mem_append.1 h with h | h
    · split at h
      · cases h
      · exact (count_slash_sequenceRests branch h).trans (add_le_add_left le_self_add _)
    · exact (count_slash_branchRests branches h).trans (add_le_add_left le_add_self _)

end

theorem sequenceSlashes_append (parts parts' : List GlobPart) :
    sequenceSlashes (parts ++ parts') = sequenceSlashes parts + sequenceSlashes parts' := by
  induction parts with
  | nil => exact (zero_add _).symm
  | cons part parts ih => rw [List.cons_append, sequenceSlashes, sequenceSlashes, ih, add_assoc]

theorem branchSlashes_append (branches branches' : List (List GlobPart)) :
    branchSlashes (branches ++ branches') = branchSlashes branches + branchSlashes branches' := by
  induction branches with
  | nil => exact (zero_add _).symm
  | cons branch branches ih =>
    rw [List.cons_append, branchSlashes, branchSlashes, ih, add_assoc]

theorem sequenceSlashes_reverse (parts : List GlobPart) :
    sequenceSlashes parts.reverse = sequenceSlashes parts := by
  induction parts with
  | nil => rfl
  | cons part parts ih =>
    rw [List.reverse_cons, sequenceSlashes_append, ih, sequenceSlashes, sequenceSlashes,
      sequenceSlashes, add_zero, add_comm]

theorem branchSlashes_reverse (branches : List (List GlobPart)) :
    branchSlashes branches.reverse = branchSlashes branches := by
  induction branches with
  | nil => rfl
  | cons branch branches ih =>
    rw [List.reverse_cons, branchSlashes_append, ih, branchSlashes, branchSlashes, branchSlashes,
      add_zero, add_comm]

end GlobPart

namespace Glob

open GlobPart

/-- The slashes of everything that was read so far. -/
def openSlashes : List Open → ℕ∞
  | [] => 0
  | o :: opened => sequenceSlashes o.before + branchSlashes o.branches + openSlashes opened

/-- How many slashes can be passed by what is read so far, the open braces included. -/
def Reading.slashes (r : Reading) : ℕ∞ := sequenceSlashes r.branch + openSlashes r.opened

namespace Reading

theorem slashes_push (r : Reading) (part : GlobPart) :
    (r.push part).slashes = r.slashes + part.slashes := by
  rw [push, slashes, slashes, sequenceSlashes, add_assoc, add_comm]

/-- Braces pass no slash by themselves. -/
theorem slashes_openBraces (r : Reading) : r.openBraces.slashes = r.slashes := by
  rw [openBraces, slashes, slashes, openSlashes, sequenceSlashes, branchSlashes, zero_add, add_zero]

theorem slashes_nextBranch (r : Reading) : r.nextBranch.slashes = r.slashes := by
  rw [nextBranch]
  split
  · rw [slashes_push, GlobPart.slashes, if_neg (by decide), add_zero]
  · rename_i o opened hopened
    rw [slashes, slashes, hopened, openSlashes, openSlashes, sequenceSlashes, branchSlashes,
      sequenceSlashes_reverse]
    ring

theorem slashes_closeBraces {r r' : Reading} (h : r.closeBraces = .ok r') :
    r'.slashes = r.slashes := by
  rw [closeBraces] at h
  split at h
  · cases h
  · rename_i o opened hopened
    injection h with h
    subst h
    rw [slashes, slashes, hopened, openSlashes, sequenceSlashes, GlobPart.slashes,
      branchSlashes_reverse, branchSlashes, sequenceSlashes_reverse]
    ring

end Reading

/-- A text in which a mark does not occur goes on without it. -/
theorem occursIn_of_cons {mark rest : List Char} {c : Char} (h : occursIn mark (c :: rest) = false) :
    occursIn mark rest = false := by
  rw [occursIn, splitOnce] at h
  split at h
  · cases h
  · rw [Option.isSome_map] at h
    exact h

/-- Reading goes on with no more slashes than the characters in between have. -/
theorem slashes_step {r r' out : Reading} (front : List Char) {rest : List Char}
    (h : r'.slashes ≤ r.slashes + front.count '/') (ih : out.slashes ≤ r'.slashes + rest.count '/') :
    out.slashes ≤ r.slashes + (front ++ rest).count '/' := by
  calc out.slashes
      ≤ r'.slashes + rest.count '/' := ih
    _ ≤ r.slashes + front.count '/' + rest.count '/' := add_le_add_left h _
    _ = r.slashes + (front ++ rest).count '/' := by
      rw [List.count_append, Nat.cast_add, add_assoc]

/-- A character that is read as it stands brings its own slash, if it is one. -/
theorem slashes_push_char (r : Reading) (c : Char) :
    (r.push (.char c)).slashes = r.slashes + [c].count '/' := by
  rw [Reading.slashes_push, GlobPart.slashes, List.count_singleton]
  simp only [beq_iff_eq]
  split_ifs <;> rfl

/-- Reading a text without `**` and classes, no more slashes are read than it has. -/
theorem slashes_read (r : Reading) (before : Option Char) (s : List Char) {out : Reading}
    (h : read r before s = .ok out) (plain : occursIn ['*', '*'] s = false) (noClass : '[' ∉ s) :
    out.slashes ≤ r.slashes + s.count '/' := by
  -- one case for each character: each adds the slashes of its part, a comma or brace none, and `**` and
  -- classes are excluded
  fun_induction read r before s with
  | case1 r before =>
    injection h with h
    exact h ▸ le_self_add
  | case2 r before rest => cases plain
  | case3 r before rest hone ih =>
    refine slashes_step ['*'] ?_ (ih h (occursIn_of_cons plain) (List.not_mem_of_not_mem_cons noClass))
    exact (Reading.slashes_push r .many).le
  | case4 r before rest ih =>
    refine slashes_step ['?'] ?_ (ih h (occursIn_of_cons plain) (List.not_mem_of_not_mem_cons noClass))
    exact (Reading.slashes_push r .any).le
  | case5 r before rest ih =>
    refine slashes_step ['\x7b'] ?_
      (ih h (occursIn_of_cons plain) (List.not_mem_of_not_mem_cons noClass))
    exact r.slashes_openBraces.le.trans le_self_add
  | case6 r before rest e he => cases h
  | case7 r before rest closed hclosed ih =>
    refine slashes_step ['\x7d'] ?_
      (ih h (occursIn_of_cons plain) (List.not_mem_of_not_mem_cons noClass))
    exact (Reading.slashes_closeBraces hclosed).le.trans le_self_add
  | case8 r before rest ih =>
    refine slashes_step [','] ?_ (ih h (occursIn_of_cons plain) (List.not_mem_of_not_mem_cons noClass))
    exact r.slashes_nextBranch.le.trans le_self_add
  | case9 r before => cases h
  | case10 r before c rest ih =>
    refine slashes_step ['\\', c] ?_ (ih h (occursIn_of_cons (occursIn_of_cons plain))
      (List.not_mem_of_not_mem_cons (List.not_mem_of_not_mem_cons noClass)))
    have hcount : ['\\', c].count '/' = [c].count '/' := List.count_cons_of_ne (by decide)
    rw [slashes_push_char, hcount]
  | case11 r before rest e he => cases h
  | case12 r before rest part behind hpart _ ih => exact absurd List.mem_cons_self noClass
  | case13 r before c rest _ _ _ _ _ _ _ _ _ ih =>
    refine slashes_step [c] ?_ (ih h (occursIn_of_cons plain) (List.not_mem_of_not_mem_cons noClass))
    exact (slashes_push_char r c).le

/-- A pattern is what was read of its text, with no braces open. -/
theorem exists_read {text : String} {glob : Glob} (h : ofText text = .ok glob) :
    ∃ r, read .start none text.toList = .ok r ∧ r.opened = [] ∧ glob.parts = r.branch.reverse := by
  obtain ⟨r, hread, hfinish⟩ := ok_of_bind_ok h
  rw [Reading.finish] at hfinish
  split at hfinish
  · rename_i hopened
    injection hfinish with hfinish
    exact ⟨r, hread, List.isEmpty_iff.1 hopened, hfinish ▸ rfl⟩
  · cases hfinish

/-- Without `**` and classes, a pattern can pass no more slashes than its text has. -/
theorem slashes_ofText {text : String} {glob : Glob} (h : ofText text = .ok glob)
    (plain : occursIn ['*', '*'] text.toList = false) (noClass : '[' ∉ text.toList) :
    sequenceSlashes glob.parts ≤ text.toList.count '/' := by
  obtain ⟨r, hread, hopened, hparts⟩ := exists_read h
  have hslashes := slashes_read .start none text.toList hread plain noClass
  rw [Reading.slashes, hopened, openSlashes, add_zero] at hslashes
  rw [hparts, sequenceSlashes_reverse]
  exact hslashes.trans (zero_add _).le

end Glob

/-- What a pattern accepts has no more slashes than it can pass. -/
theorem Glob.count_slash_of_accepts {glob : Glob} {path : String} (accepts : glob.accepts path = true) :
    (path.toList.count '/' : ℕ∞) ≤ GlobPart.sequenceSlashes glob.parts := by
  rw [Glob.accepts, Bool.or_eq_true, List.any_eq_true] at accepts
  -- a pattern for everything passes any number of slashes; any other must pass the path to its end
  rcases accepts with everything | ⟨rest, hrest, hempty⟩
  · rw [isEverything] at everything
    split at everything
    · rename_i hparts
      rw [hparts, GlobPart.sequenceSlashes, GlobPart.slashes, top_add]
      · exact le_top
      all_goals simp
    · cases everything
  · have hcount := GlobPart.count_slash_sequenceRests glob.parts hrest
    rw [Utf8.count_slash_encode, List.isEmpty_iff.1 hempty] at hcount
    exact hcount.trans (add_zero _).le

/-! ## What stands in front of a slash -/

namespace GlobPart

open Glob

/-- Parts that stand for a slash, and perhaps for more behind it. -/
inductive Separates : GlobPart → Prop where
  | slash : Separates (.char '/')
  | directories : Separates .directories
  | everythingBelow : Separates .everythingBelow

/-- Parts that begin with characters and a slash behind them. -/
def BeginWith (front : List Char) (parts : List GlobPart) : Prop :=
  ∃ part rest, part.Separates ∧ parts = front.map .char ++ part :: rest

namespace BeginWith

variable {front : List Char} {parts : List GlobPart}

/-- What stands in front stays there whatever is added behind. -/
theorem append (h : BeginWith front parts) (more : List GlobPart) : BeginWith front (parts ++ more) := by
  obtain ⟨part, rest, hpart, rfl⟩ := h
  exact ⟨part, rest ++ more, hpart, by rw [List.append_assoc, List.cons_append]⟩

/-- The last part can become another one that stands for a slash. -/
theorem replaceLast {last part : GlobPart} (h : BeginWith front (parts ++ [last]))
    (hpart : part.Separates) : BeginWith front (parts ++ [part]) := by
  obtain ⟨first, rest, hfirst, heq⟩ := h
  rcases List.eq_nil_or_concat rest with rfl | ⟨rest, x, rfl⟩
  · obtain ⟨hparts, _⟩ := List.append_inj' heq rfl
    exact ⟨part, [], hpart, by rw [hparts]⟩
  · rw [List.concat_eq_append, ← List.cons_append, ← List.append_assoc] at heq
    obtain ⟨hparts, _⟩ := List.append_inj' heq rfl
    exact ⟨first, rest ++ [part], hfirst, by rw [hparts, List.append_assoc, List.cons_append]⟩

end BeginWith

/-- A part that stands for a slash matches only what begins with one. -/
theorem slash_of_separates {part : GlobPart} (h : part.Separates) {text rest : Utf8.Bytes}
    (hrest : rest ∈ part.rests text) : ∃ more, text = slash :: more := by
  -- the slash itself, or a wide part that begins with one
  cases h with
  | slash =>
    rw [rests] at hrest
    exact ⟨rest, mem_afterPrefix hrest⟩
  | directories =>
    rw [rests] at hrest
    obtain ⟨behind, hbehind, _⟩ := List.mem_flatMap.1 hrest
    obtain ⟨b, hb, rfl⟩ := mem_afterOne hbehind
    exact ⟨behind, by rw [of_decide_eq_true hb]⟩
  | everythingBelow =>
    rw [rests] at hrest
    obtain ⟨behind, hbehind, _⟩ := List.mem_flatMap.1 hrest
    obtain ⟨b, hb, rfl⟩ := mem_afterOne hbehind
    exact ⟨behind, by rw [of_decide_eq_true hb]⟩

/-- Characters match what begins with their bytes, and the parts behind them what is left of it. -/
theorem encode_of_mem_sequenceRests {front : List Char} {parts : List GlobPart} :
    ∀ {text rest : Utf8.Bytes}, rest ∈ sequenceRests (front.map .char ++ parts) text →
      ∃ middle, text = Utf8.encode front ++ middle ∧ rest ∈ sequenceRests parts middle := by
  induction front with
  | nil => exact fun {text _} h => ⟨text, rfl, h⟩
  | cons c front ih =>
    intro text rest h
    rw [List.map_cons, List.cons_append] at h
    obtain ⟨behind, hbehind, hrest⟩ := mem_sequenceRests_cons.1 h
    rw [rests] at hbehind
    obtain ⟨middle, rfl, hmiddle⟩ := ih hrest
    refine ⟨middle, ?_, hmiddle⟩
    rw [mem_afterPrefix hbehind, Utf8.encode, Utf8.encode, List.flatMap_cons, List.append_assoc]

end GlobPart

namespace Glob

open GlobPart

/-- What a pattern accepts begins with the characters that it begins with, and a slash. -/
theorem begins_of_accepts {glob : Glob} {front : List Char} (h : BeginWith front glob.parts)
    {path : String} (accepts : glob.accepts path = true) :
    ∃ more, path.toList = front ++ '/' :: more := by
  obtain ⟨part, rest, hpart, hparts⟩ := h
  -- `**` alone accepts everything, but it stands for no slash
  have hnot : glob.isEverything = false := by
    rw [isEverything, hparts]
    cases front with
    | nil => cases hpart <;> rfl
    | cons c front => cases front <;> rfl
  rw [Glob.accepts, hnot, Bool.false_or, List.any_eq_true] at accepts
  obtain ⟨left, hleft, _⟩ := accepts
  rw [hparts] at hleft
  obtain ⟨middle, htext, hmiddle⟩ := encode_of_mem_sequenceRests hleft
  obtain ⟨behind, hbehind, _⟩ := mem_sequenceRests_cons.1 hmiddle
  obtain ⟨more, rfl⟩ := slash_of_separates hpart hbehind
  have hslash : Utf8.encode path.toList = Utf8.encode (front ++ ['/']) ++ more := by
    rw [htext, Utf8.encode, Utf8.encode, List.flatMap_append, List.append_assoc]
    rfl
  obtain ⟨more, hmore⟩ := Utf8.exists_eq_append_of_encode hslash
  exact ⟨more, by rw [hmore, List.append_assoc]; rfl⟩

namespace Reading

variable {r : Reading} {front : List Char}

/-- The branch that no braces are around, in the order of the text. -/
def outer (r : Reading) : List GlobPart :=
  ((r.opened.getLast?.map (·.before)).getD r.branch).reverse

/-- Parts come to the outer branch at its end only, or not at all. -/
theorem outer_push (h : BeginWith front r.outer) (part : GlobPart) :
    BeginWith front (r.push part).outer := by
  obtain ⟨branch, opened⟩ := r
  cases opened with
  | nil =>
    show BeginWith front (part :: branch).reverse
    rw [List.reverse_cons]
    exact h.append [part]
  | cons o opened => exact h

/-- Replacing the last part by one that separates keeps what stands in front of it. -/
theorem outer_replaceLast (h : BeginWith front r.outer) {part : GlobPart} (hpart : part.Separates) :
    BeginWith front (r.replaceLast part).outer := by
  obtain ⟨branch, opened⟩ := r
  rw [replaceLast]
  split
  · exact h
  · exact h
  · rename_i last rest _ _ hbranch
    -- the last part stands outside of all braces, or in the innermost ones, which stand behind
    cases opened with
    | nil =>
      change branch = last :: rest at hbranch
      subst hbranch
      show BeginWith front (part :: rest).reverse
      change BeginWith front (last :: rest).reverse at h
      rw [List.reverse_cons] at h ⊢
      exact h.replaceLast hpart
    | cons o opened => exact h
  · exact h

theorem outer_openBraces (h : BeginWith front r.outer) : BeginWith front r.openBraces.outer := by
  obtain ⟨branch, opened⟩ := r
  cases opened with
  | nil => exact h
  | cons o opened => exact h

theorem outer_nextBranch (h : BeginWith front r.outer) : BeginWith front r.nextBranch.outer := by
  obtain ⟨branch, opened⟩ := r
  cases opened with
  | nil => exact outer_push h _
  | cons o opened => cases opened <;> exact h

/-- Closing braces keeps what stands in front of them. -/
theorem outer_closeBraces (h : BeginWith front r.outer) {closed : Reading}
    (hclosed : r.closeBraces = .ok closed) : BeginWith front closed.outer := by
  obtain ⟨branch, opened⟩ := r
  cases opened with
  | nil => cases hclosed
  | cons o opened =>
    injection hclosed with hclosed
    subst hclosed
    -- the alternatives go behind what is outside, or into the braces around
    cases opened with
    | nil =>
      show BeginWith front (_ :: o.before).reverse
      rw [List.reverse_cons]
      exact h.append _
    | cons next opened => exact h

end Reading

/-- A property that every step of reading keeps; the last part is replaced only by one that stands for a
    slash. -/
structure Kept (P : Reading → Prop) : Prop where
  push : ∀ {r : Reading} (part : GlobPart), P r → P (r.push part)
  replaceLast : ∀ {r : Reading} {part : GlobPart}, part.Separates → P r → P (r.replaceLast part)
  openBraces : ∀ {r : Reading}, P r → P r.openBraces
  nextBranch : ∀ {r : Reading}, P r → P r.nextBranch
  closeBraces : ∀ {r closed : Reading}, r.closeBraces = .ok closed → P r → P closed

namespace Kept

variable {P : Reading → Prop} (kept : Kept P)
include kept

/-- Two stars replace the last part or add one, and both are kept. -/
theorem doubleStar {r : Reading} (h : P r) (before : Option Char) (rest : List Char) :
    P (r.doubleStar before rest).1 := by
  have stars : P ((r.push .many).push .many) := kept.push _ (kept.push _ h)
  have first : P (r.push .directoriesFirst) := kept.push _ h
  have below : P (r.replaceLast .everythingBelow) := kept.replaceLast .everythingBelow h
  have between : P (r.replaceLast .directories) := kept.replaceLast .directories h
  unfold Reading.doubleStar
  split
  · dsimp only
    split_ifs <;> assumption
  · dsimp only
    split_ifs <;> assumption

/-- What every step keeps is kept to the end. -/
theorem read (r : Reading) (before : Option Char) (s : List Char) {out : Reading}
    (h : Glob.read r before s = .ok out) (start : P r) : P out := by
  -- one case for each character that can be read
  fun_induction Glob.read r before s with
  | case1 r before =>
    injection h with h
    exact h ▸ start
  | case2 r before rest _ _ ih => exact ih h (kept.doubleStar start _ _)
  | case3 r before rest _ ih => exact ih h (kept.push _ start)
  | case4 r before rest ih => exact ih h (kept.push _ start)
  | case5 r before rest ih => exact ih h (kept.openBraces start)
  | case6 r before rest e he => cases h
  | case7 r before rest closed hclosed ih => exact ih h (kept.closeBraces hclosed start)
  | case8 r before rest ih => exact ih h (kept.nextBranch start)
  | case9 r before => cases h
  | case10 r before c rest ih => exact ih h (kept.push _ start)
  | case11 r before rest e he => cases h
  | case12 r before rest part behind hpart _ ih => exact ih h (kept.push _ start)
  | case13 r before c rest _ _ _ _ _ _ _ _ _ ih => exact ih h (kept.push _ start)

end Kept

/-- What stands in front of a slash stays there. -/
theorem kept_beginWith (front : List Char) : Kept fun r => BeginWith front r.outer where
  push part h := Reading.outer_push h part
  replaceLast hpart h := Reading.outer_replaceLast h hpart
  openBraces := Reading.outer_openBraces
  nextBranch := Reading.outer_nextBranch
  closeBraces hclosed h := Reading.outer_closeBraces h hclosed

/-- A character that stands for itself where no braces are open. -/
def IsLiteral (c : Char) : Prop := c ≠ '*' ∧ c ≠ '?' ∧ c ≠ '[' ∧ c ≠ '\x7b' ∧ c ≠ '\\'

/-- A character that stands for itself is read as it stands, if it closes no braces either. -/
theorem read_char {c : Char} (hc : IsLiteral c) (hclose : c ≠ '\x7d') (branch : List GlobPart)
    (before : Option Char) (rest : List Char) :
    read ⟨branch, []⟩ before (c :: rest) = read ⟨.char c :: branch, []⟩ (some c) rest := by
  obtain ⟨h₁, h₂, h₃, h₄, h₅⟩ := hc
  by_cases hcomma : c = ','
  · subst hcomma
    rw [read]
    rfl
  · rw [read]
    · rfl
    all_goals simp_all

/-- In a text that can be read, a character that stands for itself closes none. -/
theorem read_literal {c : Char} (hc : IsLiteral c) {branch : List GlobPart} {before : Option Char}
    {rest : List Char} {out : Reading} (h : read ⟨branch, []⟩ before (c :: rest) = .ok out) :
    read ⟨.char c :: branch, []⟩ (some c) rest = .ok out := by
  by_cases hclose : c = '\x7d'
  · subst hclose
    rw [read] at h
    cases h
  · rw [← read_char hc hclose branch before, h]

/-- So are several of them. -/
theorem read_front {front : List Char} (hfront : ∀ c ∈ front, IsLiteral c) :
    ∀ {branch : List GlobPart} {before : Option Char} {rest : List Char} {out : Reading},
      read ⟨branch, []⟩ before (front ++ rest) = .ok out →
        ∃ before', read ⟨(front.map .char).reverse ++ branch, []⟩ before' rest = .ok out := by
  induction front with
  | nil => exact fun {_ before _ _} h => ⟨before, h⟩
  | cons c front ih =>
    intro branch before rest out h
    have hnext := read_literal (hfront c List.mem_cons_self) h
    obtain ⟨before', hrest⟩ := ih (fun d hd => hfront d (List.mem_cons_of_mem c hd)) hnext
    refine ⟨before', ?_⟩
    rw [List.map_cons, List.reverse_cons, List.append_assoc]
    exact hrest

/-- A pattern begins with what stands in front of a slash in its text, if that holds no mark. -/
theorem beginWith_ofText {text : String} {glob : Glob} (h : ofText text = .ok glob)
    {front rest : List Char} (htext : text.toList = front ++ '/' :: rest)
    (hfront : ∀ c ∈ front, IsLiteral c) : BeginWith front glob.parts := by
  obtain ⟨r, hread, hopened, hparts⟩ := exists_read h
  have hall : ∀ c ∈ front ++ ['/'], IsLiteral c := by
    refine List.forall_mem_append.2 ⟨hfront, List.forall_mem_singleton.2 ?_⟩
    exact ⟨by decide, by decide, by decide, by decide, by decide⟩
  have hsplit : text.toList = (front ++ ['/']) ++ rest := by
    rw [htext, List.append_assoc]
    rfl
  rw [hsplit] at hread
  obtain ⟨before, hrest⟩ := read_front hall hread
  -- behind the slash, the branch at hand is the characters in front and the slash itself
  have begins : BeginWith front (Reading.mk (((front ++ ['/']).map .char).reverse ++ []) []).outer := by
    refine ⟨.char '/', [], .slash, ?_⟩
    show List.reverse (((front ++ ['/']).map GlobPart.char).reverse ++ []) = _
    rw [List.append_nil, List.reverse_reverse, List.map_append]
    rfl
  have hout := (kept_beginWith front).read _ _ _ hrest begins
  rw [Reading.outer, hopened] at hout
  exact hparts ▸ hout

end Glob

end TestBench
