import Mathlib
import TestBench.Proofs.Task
/-
  Which value an alias has.

  1. Of all entries of a list that bind a name the last one counts (`Aliases.get?_ofEntries`).  So where
     lists are put behind each other, the last list that binds a name decides it
     (`Aliases.lastBound?_append`).
  2. An expansion looks names up and does nothing else with the aliases (`Aliases.expand_ofEntries`).
  3. Each executor that a suite calls is told the aliases of its context (`callsWith_suite`), whatever
     is answered on the way.
-/
namespace TestBench

variable {ω α β : Type}

/-! ## Looking names up -/

namespace Aliases

/-- The value that an entry binds a name to. -/
def boundIn? (name entry : String) : Option String :=
  (binding? entry).bind fun (bound, value) => if bound = name then some value else none

/-- The value that the last entry for a name binds it to. -/
def lastBound? (entries : List String) (name : String) : Option String :=
  entries.reverse.findSome? (boundIn? name)

/-- An entry binds its name over what was bound before, and leaves other names alone. -/
theorem get?_addEntry (aliases : Aliases) (entry name : String) :
    (aliases.addEntry entry).get? name = (boundIn? name entry).or (aliases.get? name) := by
  rw [addEntry, boundIn?]
  cases binding? entry with
  | none => rfl
  | some binding =>
    obtain ⟨bound, value⟩ := binding
    show (aliases.bind bound value).get? name
      = (if bound = name then some value else none).or (aliases.get? name)
    rw [get?_bind]
    by_cases h : bound = name
    · rw [if_pos h, if_pos h, Option.some_or]
    · rw [if_neg h, if_neg h, Option.none_or]

/-- Entries that are added take the place of what was bound before. -/
theorem get?_foldl (entries : List String) (name : String) : ∀ aliases : Aliases,
    (entries.foldl addEntry aliases).get? name
      = (lastBound? entries name).or (aliases.get? name) := by
  induction entries with
  | nil => exact fun _ => rfl
  | cons entry rest ih =>
    intro aliases
    rw [List.foldl_cons, ih, get?_addEntry, lastBound?, lastBound?, List.reverse_cons,
      List.findSome?_append, Option.or_assoc]
    congr 1
    rw [List.findSome?_singleton]

/-- The last entry for a name counts. -/
theorem get?_ofEntries (entries : List String) (name : String) :
    (ofEntries entries).get? name = lastBound? entries name := by
  rw [ofEntries, get?_foldl]
  exact Option.or_none

/-- The last list that binds a name decides it. -/
theorem lastBound?_append (front back : List String) (name : String) :
    lastBound? (front ++ back) name = (lastBound? back name).or (lastBound? front name) := by
  rw [lastBound?, lastBound?, lastBound?, List.reverse_append, List.findSome?_append]

/-- A text is expanded by the last entry for each name in it. -/
theorem expand_ofEntries (entries : List String) (text : String) :
    (ofEntries entries).expand text = String.ofList (expandFrom
      (fun name => (lastBound? entries (String.ofList name)).map String.toList) 0 text.toList) := by
  have hvalue : (ofEntries entries).value?
      = fun name => (lastBound? entries (String.ofList name)).map String.toList :=
    funext fun name => by rw [value?, get?_ofEntries]
  rw [expand, hvalue]

end Aliases

/-! ## Which aliases executors are told -/

namespace Task

/-- All calls of a task are told some aliases, whatever it is answered. -/
inductive CallsWith (aliases : Aliases) : Task ω α → Prop where
  | done (a : α) : CallsWith aliases (.done a)
  | resolving {site step next} (rest : ∀ found, CallsWith aliases (next found)) :
      CallsWith aliases (.resolving site step next)
  | invoking {site r call next} (told : call.aliases = aliases)
      (rest : ∀ outcome, CallsWith aliases (next outcome)) :
      CallsWith aliases (.invoking site r call next)

variable {aliases : Aliases} {t : Task ω α}

/-- A task of two parts calls with what its parts call with. -/
theorem CallsWith.bind {f : α → Task ω β} (h : CallsWith aliases t)
    (hf : ∀ a, CallsWith aliases (f a)) : CallsWith aliases (t.bind f) := by
  induction h with
  | done a => exact hf a
  | resolving _ ih => exact .resolving ih
  | invoking told _ ih => exact .invoking told ih

theorem CallsWith.map {f : α → β} (h : CallsWith aliases t) : CallsWith aliases (t.map f) :=
  h.bind fun a => .done (f a)

end Task

/-- All attempts of a step are the same call. -/
theorem callsWith_attempts (site : Site) (r : Resolved ω) (declared : List String) (call : Call)
    (left : Nat) : ∀ o : StepOutcome,
      Task.CallsWith call.aliases (attemptsTask site r declared call left o) := by
  induction left with
  | zero => exact fun o => .invoking rfl fun outcome => .done _
  | succ left ih =>
    refine fun o => .invoking rfl fun outcome => ?_
    split
    · exact .done _
    · exact ih _

/-- The steps of a case call with the aliases that the case was given. -/
theorem callsWith_steps (call : Call) (k : Nat) (steps : List Step) : ∀ (i : Nat) (c : Case),
    Task.CallsWith call.aliases (stepsTask call k i steps c : Task ω Case) := by
  induction steps with
  | nil => exact fun i c => .done c
  | cons step rest ih =>
    refine fun i c => .resolving fun found => ?_
    -- whatever is found, so this holds of every registry
    cases found with
    | error e => exact .done _
    | ok r =>
      refine (callsWith_attempts ⟨k, i⟩ r step.assertions call r.retry _).map.bind fun o => ?_
      dsimp only
      split
      · exact ih (i + 1) _
      · exact .done _

/-- So do the cases of a suite. -/
theorem callsWith_cases (aliases : Aliases) (suite workdir : String) (cases : List Case) :
    ∀ k : Nat, Task.CallsWith aliases
      (casesTask aliases suite workdir k cases : Task ω (List Case)) := by
  induction cases with
  | nil => exact fun k => .done []
  | cons c rest ih =>
    refine fun k => .bind ?_ fun c' => (ih (k + 1)).map
    split
    · exact .done c
    · exact callsWith_steps { aliases, suite, case := c.name, workdir } k c.steps 0 c

/-- Each executor that a suite calls is told the aliases of the context. -/
theorem callsWith_suite (ctx : Context ω) (s : Suite) :
    Task.CallsWith ctx.aliases (ctx.task s) :=
  (callsWith_cases ctx.aliases s.name (suiteDirectory s.package) s.cases 0).map

end TestBench
