import Mathlib
import TestBench.Executor.Scripted
import TestBench.Run.Step
/-
  What a step says under its reserved keys, and what is made of it.

  A step is resolved to an executor and three numbers.  A value that is not of the kind that its key asks
  for is passed over as if the key were missing.

  1. `Yaml.Writes` says which whole number a value writes.  What is read of a value is that number, if
     it fits a word (`wordOf?_eq_some_iff`).
  2. `Resolved.Honours` says that what a step was resolved to is what it says: defaults stand only where
     nothing is said.  `Step.Legible` says that the values under the keys are of the right kind.
  3. Each key by itself is honoured iff it is legible, and an illegible one leaves the default
     (`typeName_spec`, `read_number`).  So a resolved step is honoured iff it is legible, and
     whether it is resolved at all does not depend on its numbers (`honours_iff_legible`).
-/
namespace TestBench

open TestBench.Text

variable {ω : Type}

/-! ## Whole numbers in decimal -/

namespace Text

/-- Decimal digits, with at most one plus sign in front, and the number that they write. -/
def IsDecimal (s : List Char) (n : Nat) : Prop :=
  ∃ digits, (s = digits ∨ s = '+' :: digits) ∧ digits ≠ [] ∧ (∀ c ∈ digits, c.isDigit = true)
    ∧ n = Nat.ofDigitChars 10 digits 0

/-- In base ten the digits are those from zero to nine. -/
theorem digitIn?_ten (c : Char) :
    digitIn? 10 c = if c.isDigit = true then some (c.toNat - '0'.toNat) else none := by
  have hdigit : c.isDigit = true ↔ '0' ≤ c ∧ c ≤ '9' := by
    rw [Char.isDigit, Bool.and_eq_true, decide_eq_true_iff, decide_eq_true_iff]
    exact Iff.rfl
  rw [digitIn?]
  by_cases h : '0' ≤ c ∧ c ≤ '9'
  · have hle : c.toNat ≤ '9'.toNat := h.2
    have hvalue : c.toNat - '0'.toNat < 10 := by
      have h9 : '9'.toNat = '0'.toNat + 9 := rfl
      omega
    rw [if_pos h, if_pos (hdigit.2 h), Option.filter_some, if_pos (decide_eq_true hvalue)]
  · rw [if_neg h, if_neg (mt hdigit.1 h)]
    -- letters stand for ten and more
    split
    · rw [Option.filter_some, if_neg]
      rw [decide_eq_true_iff]
      omega
    · split
      · rw [Option.filter_some, if_neg]
        rw [decide_eq_true_iff]
        omega
      · rfl

/-- Decimal digits are read as the number that they write. -/
theorem digits?_ten {digits : List Char} {n : Nat} : digits? 10 digits = some n
    ↔ digits ≠ [] ∧ (∀ c ∈ digits, c.isDigit = true) ∧ n = Nat.ofDigitChars 10 digits 0 := by
  -- from any number on, as the fold goes over the digits
  have hfold (rest : List Char) : ∀ start : Nat,
      rest.foldlM (fun n c => (digitIn? 10 c).map (n * 10 + ·)) start = some n
        ↔ (∀ c ∈ rest, c.isDigit = true) ∧ n = Nat.ofDigitChars 10 rest start := by
    induction rest with
    | nil =>
      intro start
      rw [List.foldlM_nil]
      exact ⟨fun h => ⟨fun _ hc => absurd hc List.not_mem_nil, (Option.some.inj h).symm⟩,
        fun h => congrArg some h.2.symm⟩
    | cons c rest ih =>
      intro start
      rw [List.foldlM_cons, digitIn?_ten]
      by_cases hc : c.isDigit = true
      · rw [if_pos hc, List.forall_mem_cons, and_iff_right hc, Nat.mul_comm start 10]
        exact ih _
      · rw [if_neg hc]
        exact iff_of_false (fun h => nomatch h) fun h => hc (h.1 c List.mem_cons_self)
  cases digits with
  | nil => exact iff_of_false (fun h => nomatch h) fun h => h.1 rfl
  | cons c rest =>
    rw [digits?, hfold, and_iff_right (List.cons_ne_nil c rest)]
    intro h
    cases h

/-- No text writes two numbers. -/
theorem IsDecimal.unique {s : List Char} {m n : Nat} (hm : IsDecimal s m) (hn : IsDecimal s n) :
    m = n := by
  have hplus {digits : List Char} (h : ∀ c ∈ '+' :: digits, c.isDigit = true) : False :=
    absurd (h '+' List.mem_cons_self) (by decide)
  obtain ⟨ds, hds, _, hall, rfl⟩ := hm
  obtain ⟨es, hes, _, hall', rfl⟩ := hn
  rcases hds with hds | hds <;> rcases hes with hes | hes
  · rw [← hds, ← hes]
  · exact (hplus (hes ▸ hds.symm ▸ hall)).elim
  · exact (hplus (hds ▸ hes.symm ▸ hall')).elim
  · injection hds.symm.trans hes with _ h
    rw [h]

/-- A text is read as a word iff it writes a number that fits. -/
theorem word64_eq_some_iff {s : List Char} {n : Nat} :
    word64 s = some n ↔ IsDecimal s n ∧ n < wordLimit := by
  have hplus {digits : List Char} (h : ∀ c ∈ '+' :: digits, c.isDigit = true) : False :=
    absurd (h '+' List.mem_cons_self) (by decide)
  unfold word64 wholeBelow
  rw [Option.filter_eq_some_iff, decide_eq_true_iff]
  refine and_congr_left fun _ => ?_
  -- a sign is cut off at most once, and a second one is no digit
  split
  · rename_i rest
    rw [digits?_ten]
    constructor
    · exact fun h => ⟨rest, .inr rfl, h⟩
    · rintro ⟨digits, rfl | hs, h⟩
      · exact (hplus h.2.1).elim
      · injection hs with _ hs
        exact hs ▸ h
  · rename_i hsign
    rw [digits?_ten]
    constructor
    · exact fun h => ⟨s, .inl rfl, h⟩
    · rintro ⟨digits, rfl | hs, h⟩
      · exact h
      · exact absurd hs (hsign digits)

end Text

/-! ## What values write -/

namespace Yaml

/-- A value writes a whole number: it is the number, or its decimal text with blanks around it at
    most. -/
inductive Writes : Yaml → Nat → Prop
  | number (n : Nat) : Writes (.number (.int n)) n
  | text {s : String} {n : Nat} (decimal : IsDecimal (trim s.toList) n) : Writes (.text s) n

/-- What is read of a value is the number that it writes, if it fits a word. -/
theorem wordOf?_eq_some_iff {v : Yaml} {n : Nat} :
    Step.wordOf? v = some n ↔ v.Writes n ∧ n < wordLimit := by
  cases v with
  | number x =>
    cases x with
    | int k =>
      rw [Step.wordOf?]
      constructor
      · intro h
        split at h
        · rename_i hk
          -- an integer in a file is a word only if it is not negative
          injection h with h
          obtain rfl : k = (n : Int) := by omega
          exact ⟨.number n, by omega⟩
        · cases h
      · rintro ⟨h, hn⟩
        cases h
        rw [if_pos ⟨by omega, by omega⟩]
        rfl
    | float x => exact iff_of_false (fun h => nomatch h) fun h => nomatch h.1
  | text s =>
    rw [Step.wordOf?, word64_eq_some_iff]
    refine and_congr_left fun _ => ⟨.text, fun h => ?_⟩
    cases h with
    | text h => exact h
  | null => exact iff_of_false (fun h => nomatch h) fun h => nomatch h.1
  | bool b => exact iff_of_false (fun h => nomatch h) fun h => nomatch h.1
  | sequence items => exact iff_of_false (fun h => nomatch h) fun h => nomatch h.1
  | mapping entries => exact iff_of_false (fun h => nomatch h) fun h => nomatch h.1
  | tagged tag v => exact iff_of_false (fun h => nomatch h) fun h => nomatch h.1

/-- The type that a value under the type key names.  Tags around a text do not matter. -/
inductive NamesType : Option Yaml → String → Prop
  | absent : NamesType none Step.defaultType
  | empty {v : Yaml} (nothing : v.untagged = .text "") : NamesType (some v) Step.defaultType
  | text {v : Yaml} {name : String} (named : v.untagged = .text name) (nonempty : name ≠ "") :
      NamesType (some v) name

/-- The number that is asked for under a key: what is written there, or the default if the key is
    missing or null. -/
inductive AsksFor (default : Nat) : Option Yaml → Nat → Prop
  | absent : AsksFor default none default
  | null : AsksFor default (some .null) default
  | written {v : Yaml} {n : Nat} (writes : v.Writes n) : AsksFor default (some v) n

/-- Whether what stands under the type key names a type. -/
def TypeLegible (v? : Option Yaml) : Prop := ∀ v, v? = some v → ∃ name, v.untagged = .text name

/-- Whether what stands under the key of a number is nothing, or a number that fits a word. -/
def NumberLegible (v? : Option Yaml) : Prop :=
  ∀ v, v? = some v → v = .null ∨ ∃ n, v.Writes n ∧ n < wordLimit

variable {v? : Option Yaml} {default n : Nat}

/-- What is read under a key is what is asked for, if that is legible, and the default if not. -/
theorem read_number (default : Nat) (v? : Option Yaml) :
    (NumberLegible v? → AsksFor default v? ((v?.bind Step.wordOf?).getD default))
      ∧ (¬ NumberLegible v? → (v?.bind Step.wordOf?).getD default = default) := by
  cases v? with
  | none => exact ⟨fun _ => .absent, fun _ => rfl⟩
  | some v =>
    -- a value that writes no word leaves the default, and so does null, which asks for it
    cases hword : Step.wordOf? v with
    | none =>
      rw [Option.bind_some, hword]
      refine ⟨fun legible => ?_, fun _ => rfl⟩
      rcases legible v rfl with rfl | ⟨n, hn⟩
      · exact .null
      · rw [wordOf?_eq_some_iff.2 hn] at hword
        cases hword
    | some n =>
      rw [Option.bind_some, hword]
      have hn := wordOf?_eq_some_iff.1 hword
      refine ⟨fun _ => .written hn.1, fun illegible => absurd ?_ illegible⟩
      intro w hw
      injection hw with hw
      exact .inr ⟨n, hw ▸ hn⟩

/-- Where a number that fits a word is asked for, the key is legible. -/
theorem AsksFor.legible (asks : AsksFor default v? n) (fits : n < wordLimit) :
    NumberLegible v? := by
  intro v hv
  cases asks with
  | absent => cases hv
  | null =>
    injection hv with hv
    exact .inl hv.symm
  | written writes =>
    injection hv with hv
    exact .inr ⟨n, hv ▸ writes, fits⟩

end Yaml

/-! ## What a step is resolved to -/

namespace Step

/-- Everything under the reserved keys of a step is of the kind that its key asks for. -/
structure Legible (step : Step) : Prop where
  type : Yaml.TypeLegible (step.get? "type")
  retry : Yaml.NumberLegible (step.get? "retry")
  delay : Yaml.NumberLegible (step.get? "delay")
  timeout : Yaml.NumberLegible (step.get? "timeout")

/-- The type of a step is the one that it names, if it is legible, and that of scripts if not. -/
theorem typeName_spec (step : Step) :
    (Yaml.TypeLegible (step.get? "type") → Yaml.NamesType (step.get? "type") step.typeName)
      ∧ (¬ Yaml.TypeLegible (step.get? "type") → step.typeName = defaultType) := by
  rw [typeName]
  cases step.get? "type" with
  | none => exact ⟨fun _ => .absent, fun _ => rfl⟩
  | some v =>
    rw [Option.bind_some]
    cases htext : v.untagged with
    | text name =>
      refine ⟨fun _ => ?_, fun illegible => absurd ?_ illegible⟩
      · show Yaml.NamesType (some v) (if name.isEmpty then defaultType else name)
        -- an empty name stands for the usual type, like none at all
        by_cases hempty : name.isEmpty = true
        · rw [if_pos hempty]
          exact .empty (String.isEmpty_iff.1 hempty ▸ htext)
        · rw [if_neg hempty]
          exact .text htext (mt String.isEmpty_iff.2 hempty)
      · intro w hw
        injection hw with hw
        exact ⟨name, hw ▸ htext⟩
    | _ =>
      refine ⟨fun legible => ?_, fun _ => rfl⟩
      obtain ⟨name, hname⟩ := legible v rfl
      rw [htext] at hname
      cases hname

end Step

/-- What names a type is legible. -/
theorem Yaml.NamesType.legible {v? : Option Yaml} {name : String} (names : NamesType v? name) :
    TypeLegible v? := by
  intro v hv
  cases names with
  | absent => cases hv
  | empty nothing =>
    injection hv with hv
    exact ⟨"", hv ▸ nothing⟩
  | text named =>
    injection hv with hv
    exact ⟨name, hv ▸ named⟩

namespace Resolved

/-- What a step was resolved to is what its reserved keys say; defaults stand only where nothing is
    said, and a deadline of nothing counts as one second. -/
structure Honours (r : Resolved ω) (registry : Registry ω) (defaultTimeout : Nat) (step : Step) :
    Prop where
  executor : ∃ name factory, Yaml.NamesType (step.get? "type") name
    ∧ Json.lookup name registry.factories = some factory ∧ factory step = .ok r.executor
  retry : Yaml.AsksFor 0 (step.get? "retry") r.retry
  delay : Yaml.AsksFor 0 (step.get? "delay") r.delaySecs
  timeout : ∃ n, Yaml.AsksFor defaultTimeout (step.get? "timeout") n ∧ r.timeoutSecs = max 1 n

end Resolved

section Resolve

variable {registry : Registry ω} {defaultTimeout : Nat} {step : Step} {r : Resolved ω}

/-- A step is resolved iff the factory of its type accepts it. -/
theorem resolve_eq_ok_iff : resolve registry defaultTimeout step = .ok r
    ↔ (∃ factory, Json.lookup step.typeName registry.factories = some factory
          ∧ factory step = .ok r.executor)
      ∧ r.retry = ((step.get? "retry").bind Step.wordOf?).getD 0
      ∧ r.delaySecs = ((step.get? "delay").bind Step.wordOf?).getD 0
      ∧ r.timeoutSecs = max 1 (((step.get? "timeout").bind Step.wordOf?).getD defaultTimeout) := by
  obtain ⟨executor, retry, delaySecs, timeoutSecs⟩ := r
  rw [resolve, Registry.instantiate]
  -- only the factory can refuse a step, never its numbers
  cases Json.lookup step.typeName registry.factories with
  | none => exact iff_of_false (fun h => nomatch h) fun ⟨⟨_, h, _⟩, _⟩ => nomatch h
  | some factory =>
    simp only [Option.some.injEq, exists_eq_left']
    cases factory step with
    | error e => exact iff_of_false (fun h => nomatch h) fun h => nomatch h.1
    | ok e =>
      simp only [Except.map, Except.ok.injEq, Resolved.mk.injEq, Step.retry?, Step.delay?,
        Step.timeout?, Step.word?]
      exact ⟨fun ⟨h₁, h₂, h₃, h₄⟩ => ⟨h₁, h₂.symm, h₃.symm, h₄.symm⟩,
        fun ⟨h₁, h₂, h₃, h₄⟩ => ⟨h₁, h₂.symm, h₃.symm, h₄.symm⟩⟩

/-- No number that is read is wider than a word. -/
theorem read_lt (v? : Option Yaml) {default : Nat} (fits : default < wordLimit) :
    (v?.bind Step.wordOf?).getD default < wordLimit := by
  cases hword : v?.bind Step.wordOf? with
  | none => exact fits
  | some n =>
    obtain ⟨v, _, hn⟩ := Option.bind_eq_some_iff.1 hword
    exact (Yaml.wordOf?_eq_some_iff.1 hn).2

/-- **Reserved keys are honoured iff they are legible.**  A step is resolved whenever the factory of its
    type accepts it, whatever stands under its numbers.  What comes of it honours all reserved keys
    exactly if each of them is legible; an illegible type makes the step a script, and an illegible
    number is replaced by its default. -/
theorem honours_iff_legible (registry : Registry ω) {defaultTimeout : Nat}
    (fits : defaultTimeout < wordLimit) (step : Step) :
    ((∃ r, resolve registry defaultTimeout step = .ok r)
        ↔ ∃ factory e, Json.lookup step.typeName registry.factories = some factory
            ∧ factory step = .ok e)
      ∧ ∀ r, resolve registry defaultTimeout step = .ok r →
        (r.Honours registry defaultTimeout step ↔ step.Legible)
        ∧ (¬ Yaml.TypeLegible (step.get? "type") →
            ∃ factory, Json.lookup Step.defaultType registry.factories = some factory
              ∧ factory step = .ok r.executor)
        ∧ (¬ Yaml.NumberLegible (step.get? "retry") → r.retry = 0)
        ∧ (¬ Yaml.NumberLegible (step.get? "delay") → r.delaySecs = 0)
        ∧ (¬ Yaml.NumberLegible (step.get? "timeout") → r.timeoutSecs = max 1 defaultTimeout) := by
  have hpos : 0 < wordLimit := by decide
  have hone : 1 < wordLimit := by decide
  constructor
  · constructor
    · rintro ⟨r, h⟩
      obtain ⟨⟨factory, hlookup, haccepts⟩, _⟩ := resolve_eq_ok_iff.1 h
      exact ⟨factory, r.executor, hlookup, haccepts⟩
    · rintro ⟨factory, e, hlookup, haccepts⟩
      exact ⟨⟨e, _, _, _⟩, resolve_eq_ok_iff.2 ⟨⟨factory, hlookup, haccepts⟩, rfl, rfl, rfl⟩⟩
  · intro r h
    obtain ⟨⟨factory, hlookup, haccepts⟩, hretry, hdelay, htimeout⟩ := resolve_eq_ok_iff.1 h
    have hread := Yaml.read_number 0 (step.get? "retry")
    have hreadDelay := Yaml.read_number 0 (step.get? "delay")
    have hreadTimeout := Yaml.read_number defaultTimeout (step.get? "timeout")
    refine ⟨⟨fun honours => ?_, fun legible => ?_⟩, fun illegible => ?_, fun illegible => ?_,
      fun illegible => ?_, fun illegible => ?_⟩
    · obtain ⟨_, _, names, _⟩ := honours.executor
      obtain ⟨n, asks, hn⟩ := honours.timeout
      -- the deadline that is set fits a word, so the number that is asked for does
      have hfits : n < wordLimit := by
        have := read_lt (step.get? "timeout") fits
        omega
      exact ⟨names.legible, honours.retry.legible (hretry ▸ read_lt _ hpos),
        honours.delay.legible (hdelay ▸ read_lt _ hpos), asks.legible hfits⟩
    · exact ⟨⟨_, factory, step.typeName_spec.1 legible.type, hlookup, haccepts⟩,
        hretry ▸ hread.1 legible.retry, hdelay ▸ hreadDelay.1 legible.delay,
        ⟨_, hreadTimeout.1 legible.timeout, htimeout⟩⟩
    · exact ⟨factory, step.typeName_spec.2 illegible ▸ hlookup, haccepts⟩
    · exact hretry.trans (hread.2 illegible)
    · exact hdelay.trans (hreadDelay.2 illegible)
    · rw [htimeout, hreadTimeout.2 illegible]

end Resolve

/-- Two steps with one registry: one has a text, a null and a zero under its numbers, the other one has
    a number for its type and a fraction for its deadline. -/
theorem honours_iff_legible_fraction :
    let script : Script := ⟨[], none⟩
    let registry : Registry Stage := (Registry.empty.register "exec" fun _ =>
      .ok (script.executor "exec")).register "probe" fun _ => .ok (script.executor "probe")
    let plain : Step := ⟨[(.text "type", .text "probe"), (.text "retry", .text " +2 "),
      (.text "delay", .null), (.text "timeout", .number (.int 0))]⟩
    let odd : Step := ⟨[(.text "type", .number (.int 7)),
      (.text "timeout", .number (.float (Decimal.Binary64.ofRatio false 3 2)))]⟩
    60 < wordLimit
      ∧ (∃ r, resolve registry 60 plain = .ok r ∧ r.retry = 2 ∧ r.timeoutSecs = 1
          ∧ r.Honours registry 60 plain)
      ∧ ∃ r, resolve registry 60 odd = .ok r ∧ r.executor.start = (script.executor "exec").start
          ∧ r.timeoutSecs = 60 ∧ ¬ r.Honours registry 60 odd := by
  intro script registry plain odd
  have fits : 60 < wordLimit := by decide
  refine ⟨fits, ⟨_, rfl, by decide +kernel, rfl, ?_⟩, _, rfl, rfl, rfl, ?_⟩
  · refine (((honours_iff_legible registry fits plain).2 _ rfl).1).2 ⟨?_, ?_, ?_, ?_⟩
    · rintro _ ⟨⟩
      exact ⟨"probe", rfl⟩
    · rintro _ ⟨⟩
      exact .inr ⟨2, Yaml.wordOf?_eq_some_iff.1 (by decide +kernel)⟩
    · rintro _ ⟨⟩
      exact .inl rfl
    · rintro _ ⟨⟩
      exact .inr ⟨0, .number 0, by decide⟩
  · intro honours
    have legible := (((honours_iff_legible registry fits odd).2 _ rfl).1).1 honours
    obtain ⟨name, hname⟩ := legible.type _ rfl
    cases hname

end TestBench
