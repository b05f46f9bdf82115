import Mathlib
import TestBench.Proofs.JsonTokens
/-
  Tokens of a value, put together again, and how deep a value may nest.

  1. `Json.nesting` counts the arrays and objects that are open at the deepest place of a value.
  2. A reader with some frames open reads the tokens of a value to that value, or stops, according to
     whether nesting and open frames together stay below the limit (`readIn`).  Items and fields
     are read alike: one after another, with a comma between them (`foldlM_separated`).
  3. Hence a printed value is read back iff it nests less deep than the limit (`parse?_of_spells`).
-/
namespace TestBench.Json

/-! ## Nesting -/

mutual

/-- How many arrays and objects are open at the deepest place of a value. -/
def nesting : Json → Nat
  | .array items => itemsNesting items + 1
  | .object fields => fieldsNesting fields + 1
  | _ => 0

/-- How deep the deepest item is. -/
def itemsNesting : List Json → Nat
  | [] => 0
  | v :: rest => max v.nesting (itemsNesting rest)

/-- How deep the deepest value is. -/
def fieldsNesting : List (String × Json) → Nat
  | [] => 0
  | (_, v) :: rest => max v.nesting (fieldsNesting rest)

end

/-- An array is one level deeper than its deepest item. -/
theorem nesting_array_le {items : List Json} {n : Nat} :
    (array items).nesting ≤ n + 1 ↔ ∀ v ∈ items, v.nesting ≤ n := by
  have hitems : itemsNesting items ≤ n ↔ ∀ v ∈ items, v.nesting ≤ n := by
    induction items with
    | nil => exact iff_of_true (Nat.zero_le n) fun _ h => absurd h List.not_mem_nil
    | cons v rest ih => rw [itemsNesting, Nat.max_le, ih, List.forall_mem_cons]
  rw [nesting, Nat.add_le_add_iff_right, hitems]

/-- An object is one level deeper than its deepest value. -/
theorem nesting_object_le {fields : List (String × Json)} {n : Nat} :
    (object fields).nesting ≤ n + 1 ↔ ∀ f ∈ fields, f.2.nesting ≤ n := by
  have hfields : fieldsNesting fields ≤ n ↔ ∀ f ∈ fields, f.2.nesting ≤ n := by
    induction fields with
    | nil => exact iff_of_true (Nat.zero_le n) fun _ h => absurd h List.not_mem_nil
    | cons f rest ih => rw [fieldsNesting, Nat.max_le, ih, List.forall_mem_cons]
  rw [nesting, Nat.add_le_add_iff_right, hfields]

/-- There is room for all parts of a value iff there is room for the value. -/
theorem forall_nesting_lt_iff {α : Type} (parts : List α) {part : α → Json} {v : Json}
    (le : ∀ n, v.nesting ≤ n + 1 ↔ ∀ x ∈ parts, (part x).nesting ≤ n) {opened : Nat}
    (room : opened + 1 < depthLimit) :
    (∀ x ∈ parts, (part x).nesting + (opened + 1) < depthLimit) ↔ v.nesting + opened < depthLimit := by
  obtain ⟨n, hlimit⟩ := Nat.exists_eq_add_of_lt room
  constructor
  · intro h
    -- one level is taken by the value that holds them
    have hle : v.nesting ≤ n + 1 := (le n).2 fun x hx => by
      have hx := h x hx
      omega
    omega
  · intro h x hx
    have hx : (part x).nesting ≤ n := (le n).1 (by omega) x hx
    omega

/-! ## Reading -/

/-- Items or fields that are read one after another, with commas between them. -/
theorem foldlM_separated {α : Type} (unit : α → List Token) (start stop : List α → ReadState)
    (Fits : α → Prop) [DecidablePred Fits] {xs : List α}
    (each : ∀ x ∈ xs, ∀ done, (unit x).foldlM readToken (start done)
      = if Fits x then some (stop (x :: done)) else none)
    (comma : ∀ done, readToken (stop done) (.mark ',') = some (start done)) (nonempty : xs ≠ []) :
    ∀ done, ([Token.mark ','].intercalate (xs.map unit)).foldlM readToken (start done)
      = if ∀ x ∈ xs, Fits x then some (stop (xs.reverse ++ done)) else none := by
  induction xs with
  | nil => exact absurd rfl nonempty
  | cons x rest ih =>
    intro done
    obtain ⟨hx, hrest⟩ := List.forall_mem_cons.1 each
    cases rest with
    | nil =>
      simp only [List.map_cons, List.map_nil, List.intercalate_singleton, List.forall_mem_singleton]
      exact hx done
    | cons y rest =>
      have hlater := ih hrest (List.cons_ne_nil y rest) (x :: done)
      have hcomma : [Token.mark ','].foldlM readToken (stop (x :: done))
          = some (start (x :: done)) := by
        rw [List.foldlM_cons, comma]
        rfl
      rw [List.map_cons, List.map_cons, List.intercalate_cons_cons, List.append_assoc,
        List.foldlM_append, hx done]
      have hreverse : (x :: y :: rest).reverse ++ done = (y :: rest).reverse ++ x :: done := by
        rw [List.reverse_cons, List.append_assoc]
        rfl
      -- the first part that does not fit stops the reader, whatever comes behind it
      by_cases hfits : Fits x
      · rw [if_pos hfits, Option.bind_eq_bind, Option.bind_some, List.foldlM_append, hcomma, hreverse]
        refine hlater.trans (if_congr ?_ rfl rfl)
        rw [List.forall_mem_cons (a := x), and_iff_right hfits]
      · rw [if_neg hfits, if_neg fun h => hfits (h x List.mem_cons_self)]
        rfl

/-- Below the limit a value is read to itself, and beyond it the reader stops. -/
def ReadIn (frames : List Frame) (v : Json) : Prop :=
  v.tokens.foldlM readToken ((.value, frames) : ReadState)
    = if v.nesting + frames.length < depthLimit then some (finish v frames) else none

section Frames

variable {frames : List Frame}

/-- A value that opens a frame needs room for it. -/
theorem readIn_of_openFrame {v : Json} {t : Token} {parts : List Token} {want : Want} {frame : Frame}
    (tokens : v.tokens = t :: parts) (opens : readToken (.value, frames) t = openFrame want frame frames)
    (nests : 0 < v.nesting) (inside : frames.length + 1 < depthLimit →
      parts.foldlM readToken ((want, frame :: frames) : ReadState)
        = if v.nesting + frames.length < depthLimit then some (finish v frames) else none) :
    ReadIn frames v := by
  rw [ReadIn, tokens, List.foldlM_cons, opens, openFrame]
  by_cases hroom : frames.length + 1 < depthLimit
  · rw [if_pos hroom]
    exact inside hroom
  · rw [if_neg hroom, if_neg (by omega)]
    rfl

/-- The first item or field comes first. -/
theorem exists_after_first {α : Type} (unit : α → List Token) (x : α) (rest : List α)
    (closing : List Token) : ∃ after,
      [Token.mark ','].intercalate ((x :: rest).map unit) ++ closing = unit x ++ after := by
  cases rest with
  | nil => exact ⟨_, congrArg (· ++ _) List.intercalate_singleton⟩
  | cons y rest =>
    rw [List.map_cons, List.map_cons, List.intercalate_cons_cons, List.append_assoc, List.append_assoc]
    exact ⟨_, rfl⟩

/-- An array may begin with any value. -/
theorem foldlM_itemOrEnd (v : Json) (after : List Token) :
    (v.tokens ++ after).foldlM readToken ((.itemOrEnd, frames) : ReadState)
      = (v.tokens ++ after).foldlM readToken ((.value, frames) : ReadState) := by
  have hfirst : ∃ t rest, v.tokens = t :: rest
      ∧ readToken (.itemOrEnd, frames) t = readToken (.value, frames) t := by
    cases v with
    | array items => exact ⟨_, _, rfl, rfl⟩
    | object fields => exact ⟨_, _, rfl, rfl⟩
    | _ => exact ⟨_, _, rfl, rfl⟩
  obtain ⟨t, rest, htokens, hfirst⟩ := hfirst
  rw [htokens, List.cons_append, List.foldlM_cons, List.foldlM_cons, hfirst]

/-- An array is read if its items are, one level further in. -/
theorem readIn_array {items : List Json}
    (each : ∀ v ∈ items, ∀ frames : List Frame, frames.length < depthLimit → ReadIn frames v) :
    ReadIn frames (.array items) := by
  refine readIn_of_openFrame ((tokens_array items).trans List.cons_append) rfl (Nat.succ_pos _)
    fun hroom => ?_
  have hfits := forall_nesting_lt_iff items (fun _ => nesting_array_le) hroom
  cases items with
  | nil => exact (if_pos (hfits.1 fun _ h => absurd h List.not_mem_nil)).symm
  | cons v rest =>
    -- the frame collects the items back to front, and is turned round when it is closed
    have hitems := foldlM_separated tokens (fun done => (.value, .array done :: frames))
      (fun done => (.itemEnd, .array done :: frames))
      (fun v => v.nesting + (frames.length + 1) < depthLimit)
      (fun v hv done => each v hv (.array done :: frames) hroom) (fun _ => rfl) (List.cons_ne_nil v rest)
    obtain ⟨after, hafter⟩ := exists_after_first tokens v rest [.mark ']']
    rw [hafter, foldlM_itemOrEnd, ← hafter, List.foldlM_append, hitems, List.append_nil]
    refine Eq.trans ?_ (if_congr hfits rfl rfl)
    split
    · show some (finish (.array (v :: rest).reverse.reverse) frames) = _
      rw [List.reverse_reverse]
    · rfl

/-- The key that was read last. -/
def lastKey : List (String × Json) → String
  | [] => ""
  | (key, _) :: _ => key

/-- An object is read if its values are, one level further in. -/
theorem readIn_object {fields : List (String × Json)}
    (each : ∀ f ∈ fields, ∀ frames : List Frame, frames.length < depthLimit → ReadIn frames f.2) :
    ReadIn frames (.object fields) := by
  refine readIn_of_openFrame ((tokens_object fields).trans List.cons_append) rfl (Nat.succ_pos _)
    fun hroom => ?_
  have hfits := forall_nesting_lt_iff fields (fun _ => nesting_object_le) hroom
  cases fields with
  | nil => exact (if_pos (hfits.1 fun _ h => absurd h List.not_mem_nil)).symm
  | cons f rest =>
    have hfields := foldlM_separated (fun f : String × Json => .text f.1 :: .mark ':' :: f.2.tokens)
      (fun done => (.key, .object done (lastKey done) :: frames))
      (fun done => (.fieldEnd, .object done (lastKey done) :: frames))
      (fun f => f.2.nesting + (frames.length + 1) < depthLimit)
      (fun f hf done => each f hf (.object done f.1 :: frames) hroom) (fun _ => rfl)
      (List.cons_ne_nil f rest)
    obtain ⟨after, hafter⟩ := exists_after_first
      (fun f : String × Json => .text f.1 :: .mark ':' :: f.2.tokens) f rest [.mark '\x7d']
    -- before the first field the frame may be closed as well, but a key is read alike
    have hfirst : (Token.text f.1 :: .mark ':' :: f.2.tokens ++ after).foldlM readToken
          (.keyOrEnd, .object [] "" :: frames)
        = (Token.text f.1 :: .mark ':' :: f.2.tokens ++ after).foldlM readToken
          (.key, .object [] (lastKey []) :: frames) := rfl
    rw [hafter, hfirst, ← hafter, List.foldlM_append, hfields []]
    refine Eq.trans ?_ (if_congr hfits rfl rfl)
    split
    · show some (finish (.object ((f :: rest).reverse ++ []).reverse) frames) = _
      rw [List.append_nil, List.reverse_reverse]
    · rfl

end Frames

/-- Below the limit a value is read to itself, and beyond it the reader stops. -/
theorem readIn (v : Json) : ∀ frames : List Frame, frames.length < depthLimit → ReadIn frames v := by
  induction v using Json.induct with
  | scalar v h =>
    intro frames hframes
    cases v with
    | array items => cases h
    | object fields => cases h
    | _ => exact (if_pos ((Nat.zero_add _).symm ▸ hframes)).symm
  | array items ih => exact fun _ _ => readIn_array ih
  | object fields ih => exact fun _ _ => readIn_object ih

/-- **A text that spells a value is read to it iff it does not nest too deep.** -/
theorem parse?_of_spells {s : String} {v : Json} (h : Spells s.toList v.tokens) :
    parse? s = if v.nesting < depthLimit then some v else none := by
  rw [parse?, h.tokens?_eq, Option.bind_some, readIn v [] (by decide)]
  have hlength : v.nesting + ([] : List Frame).length = v.nesting := rfl
  rw [hlength]
  by_cases hdeep : v.nesting < depthLimit
  · rw [if_pos hdeep, if_pos hdeep]
    rfl
  · rw [if_neg hdeep, if_neg hdeep]

end TestBench.Json
