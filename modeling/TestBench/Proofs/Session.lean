import Mathlib
import TestBench.Proofs.Interleaving
import TestBench.Proofs.Invocations
/-
  What can be seen of a whole run.

  1. A log lists what is seen, in the order in which it happens: the task of a file ends, a suite
     starts, an executor is invoked.
  2. `Schedule.Move` is a step of a schedule together with what is seen of it; every step is one
     (`Move.step`, `Step.exists_move`).
  3. `Session.Run` begins earlier, with a task for each file.  They end in any order, and only when all
     of them have ended are their suites let in.
  4. A session that has let suites in is a schedule of the suites in file order, behind a log of all
     files (`Session.Run.exists_moves`); hence no suite starts before every file has been read
     (`Session.Run.loaded_before_started`).
-/
namespace TestBench

variable {ω α : Type}

/-- What can be seen of a run. -/
inductive Happening (ω : Type) where
  /-- The task that reads a file has ended, with a suite or without one. -/
  | loaded (file : Nat)
  /-- A suite is let in with a permit, and from now on its task can go on. -/
  | started (suite : Nat)
  | invoked (suite : Nat) (call : Invocation ω)

namespace Happening

def startedSuite? : Happening ω → Option Nat
  | started n => some n
  | loaded _ | invoked _ _ => none

/-- An invocation and the suite that it is made for. -/
def invokedCall? : Happening ω → Option (Nat × Invocation ω)
  | invoked n call => some (n, call)
  | loaded _ | started _ => none

end Happening

namespace Task

/-- The invocation that a task asks for next, if it asks for one. -/
def nextCalls : Task ω α → ω → List (Invocation ω)
  | .invoking site r call _, w => [r.invocation site call w]
  | .done _, _ | .resolving _ _ _, _ => []

section Advance

variable {ctx : Context ω} {t t' : Task ω α} {w w' : ω} (h : t.advance ctx w = some (t', w'))
include h

/-- What a task invokes from here on is what it invokes next and what it invokes after that. -/
theorem invocations_of_advance : t.invocations ctx w = t.nextCalls w ++ t'.invocations ctx w' := by
  cases t with
  | done a => cases h
  | resolving site step next =>
    cases h
    rfl
  | invoking site r call next =>
    cases h
    rfl

/-- Answering a request brings a task no other result than playing it does. -/
theorem play_of_advance : t.play ctx w = t'.play ctx w' := by
  cases t with
  | done a => cases h
  | resolving site step next =>
    cases h
    rfl
  | invoking site r call next =>
    cases h
    rfl

end Advance
end Task

/-! ## Moves of a schedule -/

namespace Schedule

/-- A step of a schedule, and what is seen of it. -/
inductive Move (ctx : Context ω) (room : Nat) :
    Schedule ω → List (Happening ω) → Schedule ω → Prop where
  | start {st : Schedule ω} {s : Suite} {n permits : Nat} {rest : List (Suite × Nat)}
      (turn : st.waiting = (s, n) :: rest) (gate : st.permits = permits + 1) :
      Move ctx room st [.started n]
        { st with waiting := rest, permits, running := (ctx.task s, n) ::ₘ st.running }
  | advance {st : Schedule ω} {t t' : Task ω Suite} {n : Nat} {w : ω}
      {others : Multiset (Task ω Suite × Nat)} (turn : st.running = (t, n) ::ₘ others)
      (answer : t.advance ctx st.world = some (t', w)) :
      Move ctx room st ((t.nextCalls st.world).map (.invoked n))
        { st with running := (t', n) ::ₘ others, world := w }
  | finish {st : Schedule ω} {s : Suite} {n : Nat} {others : Multiset (Task ω Suite × Nat)}
      (turn : st.running = (.done s, n) ::ₘ others) :
      Move ctx room st [] { st with running := others, permits := st.permits + 1
                                    finished := (s, n) ::ₘ st.finished }
  | send {st : Schedule ω} {s : Suite} {n : Nat} {others : Multiset (Suite × Nat)}
      (turn : st.finished = (s, n) ::ₘ others) (fits : st.channel.length < room) :
      Move ctx room st [] { st with finished := others, channel := st.channel ++ [(s, n)] }
  | receive {st : Schedule ω} {s : Suite} {n : Nat} {rest : List (Suite × Nat)}
      (turn : st.channel = (s, n) :: rest) :
      Move ctx room st [] { st with channel := rest, recorded := st.recorded ++ [(s, n)]
                                    totals := st.totals.record s }

section Moves

variable {ctx : Context ω} {room parallel : Nat} {suites : List Suite} {w : ω}
  {st st' : Schedule ω} {log seen : List (Happening ω)}

/-- A move of the log is a step of the schedule. -/
theorem Move.step (h : Move ctx room st seen st') : Step ctx room st st' := by
  cases h with
  | start turn gate => exact .start turn gate
  | advance turn answer => exact .advance turn answer
  | finish turn => exact .finish turn
  | send turn fits => exact .send turn fits
  | receive turn => exact .receive turn

/-- And every step has something to say in the log. -/
theorem Step.exists_move (h : Step ctx room st st') : ∃ seen, Move ctx room st seen st' := by
  cases h with
  | start turn gate => exact ⟨_, .start turn gate⟩
  | advance turn answer => exact ⟨_, .advance turn answer⟩
  | finish turn => exact ⟨_, .finish turn⟩
  | send turn fits => exact ⟨_, .send turn fits⟩
  | receive turn => exact ⟨_, .receive turn⟩

/-- The states of a run of suites, and what has been seen of it so far. -/
inductive Moves (ctx : Context ω) (parallel : Nat) (suites : List Suite) (w : ω) :
    List (Happening ω) → Schedule ω → Prop where
  | initial : Moves ctx parallel suites w [] (initial parallel suites w)
  | move {log seen : List (Happening ω)} {st st' : Schedule ω}
      (moves : Moves ctx parallel suites w log st) (move : Move ctx (capacity suites) st seen st') :
      Moves ctx parallel suites w (log ++ seen) st'

/-- What moves lead to can be reached. -/
theorem Moves.reachable (h : Moves ctx parallel suites w log st) :
    Reachable ctx parallel suites w st := by
  induction h with
  | initial => exact .refl
  | move _ hmove ih => exact .tail ih hmove.step

/-- The first suites start, in the order of their files, and the others wait. -/
theorem Moves.started (h : Moves ctx parallel suites w log st) :
    ∃ k, log.filterMap Happening.startedSuite? = List.range k
      ∧ st.waiting = suites.zipIdx.drop k := by
  induction h with
  | initial => exact ⟨0, rfl, rfl⟩
  | move _ hmove ih =>
    obtain ⟨k, hstarted, hwaiting⟩ := ih
    rw [List.filterMap_append, hstarted]
    cases hmove with
    | @start s n permits rest turn gate =>
      -- whoever starts is the first to wait, and so has the next number
      have hdrop : suites.zipIdx.drop k = (s, n) :: rest := hwaiting.symm.trans turn
      have hget : suites.zipIdx[k]? = some (s, n) := by
        rw [← List.head?_drop, hdrop]
        rfl
      obtain rfl : k = n := by
        rw [List.getElem?_zipIdx, Nat.zero_add] at hget
        obtain ⟨_, _, heq⟩ := Option.map_eq_some_iff.1 hget
        injection heq
      refine ⟨k + 1, List.range_succ.symm, ?_⟩
      show rest = suites.zipIdx.drop (k + 1)
      rw [← List.tail_drop, hdrop]
      rfl
    | @advance t t' n w others turn answer =>
      refine ⟨k, ?_, hwaiting⟩
      rw [List.filterMap_eq_nil_iff.2 (List.forall_mem_map.2 fun _ _ => rfl), List.append_nil]
    | finish turn => exact ⟨k, List.append_nil _, hwaiting⟩
    | send turn fits => exact ⟨k, List.append_nil _, hwaiting⟩
    | receive turn => exact ⟨k, List.append_nil _, hwaiting⟩

end Moves
end Schedule

/-! ## Sessions -/

/-- A file, and what came of it once its task has ended: a suite, or nothing that can be run. -/
abbrev Reading := String × Option (Option Suite)

/-- A whole run at some moment: files are read, or suites are let in. -/
inductive Session (ω : Type) where
  | loading (readings : List Reading)
  | running (suites : List Suite) (schedule : Schedule ω)

namespace Session

/-- The suites that came of files, in file order. -/
def suitesOf (readings : List Reading) : List Suite := readings.filterMap fun r => r.2.join

/-- What a whole run of some files can come to, and what is seen on the way. -/
inductive Run (ctx : Context ω) (files : Files) (paths : List String) (parallel : Nat) (w : ω) :
    List (Happening ω) → Session ω → Prop where
  | begin : Run ctx files paths parallel w [] (.loading (paths.map fun path => (path, none)))
  /-- The task of any file ends. -/
  | load {log : List (Happening ω)} {front back : List Reading} {path : String}
      (run : Run ctx files paths parallel w log (.loading (front ++ (path, none) :: back))) :
      Run ctx files paths parallel w (log ++ [.loaded front.length])
        (.loading (front ++ (path, some (loadSuite files path).toOption) :: back))
  /-- All tasks have ended. -/
  | letIn {log : List (Happening ω)} {readings : List Reading}
      (run : Run ctx files paths parallel w log (.loading readings))
      (ended : ∀ r ∈ readings, r.2.isSome = true) :
      Run ctx files paths parallel w log
        (.running (suitesOf readings) (.initial parallel (suitesOf readings) w))
  | move {log seen : List (Happening ω)} {suites : List Suite} {st st' : Schedule ω}
      (run : Run ctx files paths parallel w log (.running suites st))
      (move : st.Move ctx (Schedule.capacity suites) seen st') :
      Run ctx files paths parallel w (log ++ seen) (.running suites st')

section Run

variable {ctx : Context ω} {files : Files} {paths : List String} {parallel : Nat} {w : ω}
  {log : List (Happening ω)}

/-- What holds while files are read. -/
structure Reads (files : Files) (paths : List String) (log : List (Happening ω))
    (readings : List Reading) : Prop where
  paths : readings.map Prod.fst = paths
  results : ∀ r ∈ readings, ∀ result, r.2 = some result → result = (loadSuite files r.1).toOption
  logged : ∀ (i : Nat) (r : Reading), readings[i]? = some r → r.2.isSome = true → .loaded i ∈ log
  /-- Nothing else is seen. -/
  quiet : ∀ e ∈ log, ∃ i, e = .loaded i

/-- At the beginning no file has been read. -/
theorem reads_begin : Reads files paths ([] : List (Happening ω))
    (paths.map fun path => (path, none)) where
  paths := by
    rw [List.map_map]
    exact List.map_id _
  results := by
    intro r hr result hresult
    obtain ⟨path, _, rfl⟩ := List.mem_map.1 hr
    cases hresult
  logged := by
    intro i r hr hended
    obtain ⟨path, _, rfl⟩ := List.mem_map.1 (List.mem_of_getElem? hr)
    cases hended
  quiet := fun _ he => absurd he List.not_mem_nil

/-- Reading one file more adds one entry to the log, and the result at its place. -/
theorem Reads.load {front back : List Reading} {path : String}
    (h : Reads files paths log (front ++ (path, none) :: back)) :
    Reads files paths (log ++ [.loaded front.length])
      (front ++ (path, some (loadSuite files path).toOption) :: back) where
  paths := by
    rw [← h.paths, List.map_append, List.map_append]
    rfl
  results := by
    intro r hr result hresult
    rcases List.mem_append.1 hr with hr | hr
    · exact h.results r (List.mem_append_left _ hr) result hresult
    · rcases List.mem_cons.1 hr with rfl | hr
      · exact (Option.some.inj hresult).symm
      · exact h.results r (List.mem_append_right _ (List.mem_cons_of_mem _ hr)) result hresult
  logged := by
    intro i r hr hended
    -- the file that was read now is the one behind the front; the others have not changed
    by_cases hi : i = front.length
    · exact List.mem_append_right _ (hi ▸ List.mem_singleton_self _)
    · refine List.mem_append_left _ (h.logged i r ?_ hended)
      rw [← hr]
      rcases Nat.lt_or_gt_of_ne hi with hlt | hgt
      · rw [List.getElem?_append_left hlt, List.getElem?_append_left hlt]
      · rw [List.getElem?_append_right (Nat.le_of_lt hgt),
          List.getElem?_append_right (Nat.le_of_lt hgt)]
        obtain ⟨j, hj⟩ : ∃ j, i - front.length = j + 1 := ⟨i - front.length - 1, by omega⟩
        rw [hj, List.getElem?_cons_succ, List.getElem?_cons_succ]
  quiet := by
    intro e he
    rcases List.mem_append.1 he with he | he
    · exact h.quiet e he
    · exact ⟨_, List.mem_singleton.1 he⟩

/-- Once all tasks have ended, the suites are those of the files in file order. -/
theorem Reads.suites_eq {readings : List Reading} (h : Reads files paths log readings)
    (ended : ∀ r ∈ readings, r.2.isSome = true) : suitesOf readings = loadAll files paths := by
  rw [suitesOf, loadAll, ← h.paths, List.filterMap_map]
  refine List.filterMap_congr ?_
  intro r hr
  obtain ⟨result, hresult⟩ := Option.isSome_iff_exists.1 (ended r hr)
  rw [Function.comp_apply, ← h.results r hr result hresult, hresult]
  rfl

/-- Once all tasks have ended, the log says so of every file. -/
theorem Reads.loaded {readings : List Reading} (h : Reads files paths log readings)
    (ended : ∀ r ∈ readings, r.2.isSome = true) : ∀ i < paths.length, .loaded i ∈ log := by
  intro i hi
  rw [← h.paths, List.length_map] at hi
  exact h.logged i readings[i] (List.getElem?_eq_getElem hi) (ended _ (List.getElem_mem hi))

/-- Where only files are read, nothing else is seen. -/
theorem filterMap_loads {β : Type} {f : Happening ω → Option β}
    (quiet : ∀ e ∈ log, ∃ i, e = .loaded i) (hf : ∀ i, f (.loaded i) = none) :
    log.filterMap f = [] := by
  refine List.filterMap_eq_nil_iff.2 fun e he => ?_
  obtain ⟨i, rfl⟩ := quiet e he
  exact hf i

/-- While files are loaded the log holds exactly those that have been read. -/
theorem Run.reads {readings : List Reading}
    (h : Run ctx files paths parallel w log (.loading readings)) :
    Reads files paths log readings := by
  generalize hsession : Session.loading readings = session at h
  induction h generalizing readings with
  | begin =>
    cases hsession
    exact reads_begin
  | load _ ih =>
    cases hsession
    exact (ih rfl).load
  | letIn => cases hsession
  | move => cases hsession

/-- A session that has let suites in is a schedule of them behind a log of all files. -/
theorem Run.exists_moves {suites : List Suite} {st : Schedule ω}
    (h : Run ctx files paths parallel w log (.running suites st)) :
    suites = loadAll files paths ∧ ∃ loads moves, log = loads ++ moves
      ∧ (∀ i < paths.length, .loaded i ∈ loads) ∧ (∀ e ∈ loads, ∃ i, e = .loaded i)
      ∧ st.Moves ctx parallel suites w moves := by
  -- the induction is on how the session came about, so its state has to be general
  generalize hsession : Session.running suites st = session at h
  induction h generalizing suites st with
  | begin => cases hsession
  | load => cases hsession
  -- here the barrier is: all files are in the log before the first suite
  | @letIn log readings run ended _ =>
    cases hsession
    refine ⟨run.reads.suites_eq ended, log, [], (List.append_nil log).symm, run.reads.loaded ended,
      run.reads.quiet, .initial⟩
  | @move log seen suites st₀ st' _ hmove ih =>
    cases hsession
    obtain ⟨hsuites, loads, moves, rfl, hloaded, hquiet, hmoves⟩ := ih rfl
    exact ⟨hsuites, loads, moves ++ seen, List.append_assoc .., hloaded, hquiet, hmoves.move hmove⟩

/-- Before a suite starts, all files have been read. -/
theorem Run.loaded_before_started {session : Session ω}
    (h : Run ctx files paths parallel w log session) {before after : List (Happening ω)} {n : Nat}
    (hlog : log = before ++ .started n :: after) : ∀ i < paths.length, .loaded i ∈ before := by
  have hstarted : Happening.started n ∈ log :=
    hlog ▸ List.mem_append_right _ List.mem_cons_self
  cases session with
  | loading readings =>
    obtain ⟨i, hi⟩ := h.reads.quiet _ hstarted
    cases hi
  | running suites st =>
    obtain ⟨_, loads, moves, hsplit, hloaded, hquiet, _⟩ := h.exists_moves
    -- no start is among the loads, so they are all in front of it
    intro i hi
    rcases List.append_eq_append_iff.1 (hsplit.symm.trans hlog) with
      ⟨front, hbefore, _⟩ | ⟨back, hloads, hback⟩
    · exact hbefore ▸ List.mem_append_left _ (hloaded i hi)
    · cases back with
      | nil => exact List.append_nil before ▸ hloads ▸ hloaded i hi
      | cons e back =>
        injection hback with he
        subst he
        obtain ⟨j, hj⟩ := hquiet _ (hloads ▸ List.mem_append_right _ List.mem_cons_self)
        cases hj

/-- Files can be read in their order. -/
theorem exists_reading (ctx : Context ω) (files : Files) (paths : List String) (parallel : Nat)
    (w : ω) (front back : List String) (h : paths = front ++ back) :
    ∃ log, Run ctx files paths parallel w log (.loading
      (front.map (fun path => (path, some (loadSuite files path).toOption))
        ++ back.map fun path => (path, none))) := by
  induction front using List.reverseRecOn generalizing back with
  | nil => exact ⟨[], h ▸ .begin⟩
  | append_singleton front path ih =>
    obtain ⟨log, hlog⟩ := ih (path :: back) (by rw [h, List.append_assoc]; rfl)
    rw [List.map_append, List.append_assoc]
    exact ⟨_, .load hlog⟩

/-- Every schedule of the suites of some files is part of a session. -/
theorem exists_run {st : Schedule ω} (h : st.Reachable ctx parallel (loadAll files paths) w) :
    ∃ log, Run ctx files paths parallel w log (.running (loadAll files paths) st) := by
  obtain ⟨log, hread⟩ :=
    exists_reading ctx files paths parallel w paths [] (List.append_nil paths).symm
  rw [List.map_nil, List.append_nil] at hread
  have hended : ∀ r ∈ paths.map fun path => (path, some (loadSuite files path).toOption),
      r.2.isSome = true := List.forall_mem_map.2 fun _ _ => rfl
  -- all files are read, so the suites may be let in; then the schedule is followed step by step
  have hlet := hread.letIn hended
  rw [hread.reads.suites_eq hended] at hlet
  induction h with
  | refl => exact ⟨log, hlet⟩
  | tail _ hstep ih =>
    obtain ⟨log', hrun⟩ := ih
    obtain ⟨seen, hmove⟩ := hstep.exists_move
    exact ⟨log' ++ seen, hrun.move hmove⟩

end Run
end Session
end TestBench
