import Mathlib
import TestBench.Executor.Scripted
import TestBench.Proofs.DistinctFiles
import TestBench.Proofs.Session
/-
  One suite at a time.

  Even if the gate lets in a single suite, two suites can be under way: one has given up its permit and
  waits to be sent, while the next one runs.  Their invocations do not mix all the same.

  1. The agenda of a moment is the task that runs, if one does, followed by the tasks of the suites that
     wait.  `callsInTurn` and `endsInTurn` say what it comes to if it is played in turn.
  2. What has been seen so far and what the agenda comes to are together the same in every state
     (`InTurn.move`), for a move only takes the agenda further.
  3. In the end the agenda is empty, so all that has been seen is what the suites do in file order
     (`Moves.calls_eq`).
-/
namespace TestBench

variable {ω : Type}

namespace Schedule

/-! ## An agenda -/

/-- Tasks in turn, each with the number of its suite. -/
abbrev Agenda (ω : Type) := List (Task ω Suite × Nat)

/-- The invocations of tasks that are played one after another. -/
def callsInTurn (ctx : Context ω) : Agenda ω → ω → List (Nat × Invocation ω)
  | [], _ => []
  | (t, n) :: rest, w => (t.invocations ctx w).map (n, ·) ++ callsInTurn ctx rest (t.play ctx w).2

/-- What tasks come to that are played one after another. -/
def endsInTurn (ctx : Context ω) : Agenda ω → ω → List (Suite × Nat)
  | [], _ => []
  | (t, n) :: rest, w => ((t.play ctx w).1, n) :: endsInTurn ctx rest (t.play ctx w).2

/-- The agenda of suites that wait. -/
def agendaOf (ctx : Context ω) (waiting : List (Suite × Nat)) : Agenda ω :=
  waiting.map fun x => (ctx.task x.1, x.2)

/-- The invocations of suites that run in file order, the first one with number `n`. -/
def fileOrderCalls (ctx : Context ω) : Nat → List Suite → Bench ω → List (Nat × Invocation ω)
  | _, [], _ => []
  | n, s :: rest, b =>
    ((ctx.task s).invocations ctx b.world).map (n, ·)
      ++ fileOrderCalls ctx (n + 1) rest (runSuite ctx s b).2

/-- What is ahead at the beginning are the calls of the suites one after another. -/
theorem callsInTurn_agendaOf (ctx : Context ω) (suites : List Suite) : ∀ (n : Nat) (b : Bench ω),
    callsInTurn ctx (agendaOf ctx (suites.zipIdx n)) b.world = fileOrderCalls ctx n suites b := by
  induction suites with
  | nil => exact fun _ _ => rfl
  | cons s rest ih =>
    intro n b
    rw [fileOrderCalls, ← ih (n + 1)]
    show _ ++ callsInTurn ctx _ ((ctx.task s).play ctx b.world).2 = _
    rw [play_suiteTask]
    rfl

/-- And what they end as is what they end as one after another. -/
theorem endsInTurn_agendaOf (ctx : Context ω) (suites : List Suite) : ∀ (n : Nat) (b : Bench ω),
    endsInTurn ctx (agendaOf ctx (suites.zipIdx n)) b.world
      = ((runEach ctx suites b).1.map (·.suite)).zipIdx n := by
  induction suites with
  | nil => exact fun _ _ => rfl
  | cons s rest ih =>
    intro n b
    show (((ctx.task s).play ctx b.world).1, n)
      :: endsInTurn ctx _ ((ctx.task s).play ctx b.world).2 = _
    rw [play_suiteTask]
    exact congrArg _ (ih (n + 1) (runSuite ctx s b).2)

/-! ## What every move keeps -/

section InTurn

variable {ctx : Context ω} {parallel room : Nat} {suites : List Suite} {w : ω}
  {st st' : Schedule ω} {log seen : List (Happening ω)}

/-- The suites run in turn: one of them at most is running, and what was seen and what is still to come
    are what all of them come to in file order. -/
structure InTurn (ctx : Context ω) (suites : List Suite) (w : ω) (log : List (Happening ω))
    (st : Schedule ω) (now : Agenda ω) : Prop where
  running : st.running = (now : Multiset (Task ω Suite × Nat))
  calls : log.filterMap Happening.invokedCall?
      ++ callsInTurn ctx (now ++ agendaOf ctx st.waiting) st.world
    = fileOrderCalls ctx 0 suites ⟨w, 0⟩
  ends : st.ended + (endsInTurn ctx (now ++ agendaOf ctx st.waiting) st.world : Multiset _)
    = (((runEach ctx suites ⟨w, 0⟩).1.map (·.suite)).zipIdx : Multiset (Suite × Nat))

/-- A session begins with everything ahead and nothing in the log. -/
theorem inTurn_initial (ctx : Context ω) (parallel : Nat) (suites : List Suite) (w : ω) :
    InTurn ctx suites w [] (initial parallel suites w) [] where
  running := rfl
  calls := callsInTurn_agendaOf ctx suites 0 ⟨w, 0⟩
  ends := (zero_add _).trans (congrArg _ (endsInTurn_agendaOf ctx suites 0 ⟨w, 0⟩))

/-- Where one suite at most runs, one that runs is the only one. -/
theorem InTurn.alone {now : Agenda ω} (h : InTurn ctx suites w log st now)
    (one : st.running.card ≤ 1) {t : Task ω Suite} {n : Nat}
    {others : Multiset (Task ω Suite × Nat)} (turn : st.running = (t, n) ::ₘ others) :
    others = 0 ∧ now = [(t, n)] := by
  have hothers : others = 0 := by
    rw [turn, Multiset.card_cons] at one
    exact Multiset.card_eq_zero.1 (by omega)
  have hnow : (now : Multiset (Task ω Suite × Nat)) = {(t, n)} := by
    rw [← h.running, turn, hothers]
    rfl
  exact ⟨hothers, Multiset.coe_eq_singleton.1 hnow⟩

/-- With a single permit a move takes the next thing from what is ahead into the log. -/
theorem InTurn.move {now : Agenda ω} (h : InTurn ctx suites w log st now)
    (one : st.permits + st.running.card = 1) (hmove : Move ctx room st seen st') :
    ∃ now', InTurn ctx suites w (log ++ seen) st' now' := by
  have hcalls := h.calls
  have hends := h.ends
  cases hmove with
  | @start s n permits rest turn gate =>
    -- nobody runs, and the agenda stays the same: its first task is now under way
    have hnow : now = [] := by
      have hcard : st.running.card = 0 := by omega
      rw [h.running, Multiset.coe_card] at hcard
      exact List.length_eq_zero_iff.1 hcard
    subst hnow
    rw [turn] at hcalls hends
    refine ⟨[(ctx.task s, n)], ?_, ?_, hends⟩
    · show (ctx.task s, n) ::ₘ st.running = _
      rw [h.running]
      rfl
    · rw [List.filterMap_append]
      exact (congrArg (· ++ _) (List.append_nil _)).trans hcalls
  | @advance t t' n w' others turn answer =>
    obtain ⟨rfl, rfl⟩ := h.alone (by omega) turn
    have hseen : ((t.nextCalls st.world).map (Happening.invoked n)).filterMap
        Happening.invokedCall? = (t.nextCalls st.world).map (n, ·) := by
      rw [List.filterMap_map, ← List.filterMap_eq_map]
      rfl
    refine ⟨[(t', n)], rfl, ?_, ?_⟩
    · rw [← hcalls, List.filterMap_append, hseen, List.append_assoc]
      show _ ++ (_ ++ ((t'.invocations ctx w').map (n, ·) ++ callsInTurn ctx _ (t'.play ctx w').2))
        = _ ++ ((t.invocations ctx st.world).map (n, ·)
          ++ callsInTurn ctx _ (t.play ctx st.world).2)
      rw [Task.invocations_of_advance answer, Task.play_of_advance answer, List.map_append,
        List.append_assoc]
    · rw [← hends]
      show st.ended + (((t'.play ctx w').1, n) :: endsInTurn ctx _ (t'.play ctx w').2 : Multiset _)
        = st.ended
          + (((t.play ctx st.world).1, n) :: endsInTurn ctx _ (t.play ctx st.world).2 : Multiset _)
      rw [Task.play_of_advance answer]
  | @finish s n others turn =>
    obtain ⟨rfl, rfl⟩ := h.alone (by omega) turn
    refine ⟨[], rfl, ?_, ?_⟩
    · rw [List.append_nil]
      exact hcalls
    · -- the suite that has run is no longer on the agenda, but among those that have ended
      let others : Multiset (Suite × Nat) := endsInTurn ctx (agendaOf ctx st.waiting) st.world
      rw [← hends]
      show (s, n) ::ₘ st.finished + (st.channel : Multiset (Suite × Nat))
        + (st.recorded : Multiset (Suite × Nat)) + others = st.ended + (s, n) ::ₘ others
      rw [Multiset.cons_add, Multiset.cons_add, Multiset.cons_add, Multiset.add_cons]
      rfl
  | @send s n others turn fits =>
    have hended : others + ((st.channel ++ [(s, n)] : List _) : Multiset (Suite × Nat))
        + (st.recorded : Multiset (Suite × Nat)) = st.ended := by
      simp only [ended, turn, ← Multiset.coe_add, Multiset.coe_singleton,
        ← Multiset.singleton_add]
      abel
    refine ⟨now, h.running, ?_, (congrArg (· + _) hended).trans hends⟩
    rw [List.append_nil]
    exact hcalls
  | @receive s n rest turn =>
    have hended : st.finished + (rest : Multiset (Suite × Nat))
        + ((st.recorded ++ [(s, n)] : List _) : Multiset (Suite × Nat)) = st.ended := by
      simp only [ended, turn, ← Multiset.coe_add, ← Multiset.cons_coe, ← Multiset.singleton_add]
      abel
    refine ⟨now, h.running, ?_, (congrArg (· + _) hended).trans hends⟩
    rw [List.append_nil]
    exact hcalls

/-- So all moves are made in turn. -/
theorem Moves.inTurn (h : Moves ctx parallel suites w log st) (single : parallel ≤ 1) :
    ∃ now, InTurn ctx suites w log st now := by
  induction h with
  | initial => exact ⟨[], inTurn_initial ctx parallel suites w⟩
  | @move log seen st st' moves hmove ih =>
    obtain ⟨now, hnow⟩ := ih
    have hpermits := moves.reachable.valid.permits
    exact hnow.move (by omega) hmove

/-- What has been seen is how the run in file order begins. -/
theorem Moves.calls_prefix (h : Moves ctx parallel suites w log st) (single : parallel ≤ 1) :
    log.filterMap Happening.invokedCall? <+: fileOrderCalls ctx 0 suites ⟨w, 0⟩ := by
  obtain ⟨now, hnow⟩ := h.inTurn single
  exact ⟨_, hnow.calls⟩

/-- When nobody can go on, nobody waits and nobody runs. -/
theorem Valid.all_recorded (hv : Valid ctx parallel suites st)
    (halted : st.Halted ctx (capacity suites)) :
    st.waiting = [] ∧ st.running = 0 ∧ st.ended = (st.recorded : Multiset (Suite × Nat)) := by
  have hall := congrArg Multiset.card hv.numbers
  have hrecorded := (hv.recorded_of_halted halted).length_eq
  simp only [allNumbers, Schedule.numbers, Multiset.card_add, Multiset.card_map, Multiset.coe_card,
    Multiset.card_range, List.length_map, List.length_range] at hall hrecorded
  have hfinished : st.finished = 0 := Multiset.card_eq_zero.1 (by omega)
  have hchannel : st.channel = [] := List.length_eq_zero_iff.1 (by omega)
  refine ⟨List.length_eq_zero_iff.1 (by omega), Multiset.card_eq_zero.1 (by omega), ?_⟩
  rw [ended, hfinished, hchannel]
  simp only [Multiset.coe_nil, zero_add]

/-- In the end, all has been seen that suites do in file order, and what they came to is recorded. -/
theorem Moves.calls_eq (h : Moves ctx parallel suites w log st) (single : parallel ≤ 1)
    (halted : st.Halted ctx (capacity suites)) :
    log.filterMap Happening.invokedCall? = fileOrderCalls ctx 0 suites ⟨w, 0⟩
      ∧ st.recorded.Perm ((runEach ctx suites ⟨w, 0⟩).1.map (·.suite)).zipIdx := by
  obtain ⟨now, hrunning, hcalls, hends⟩ := h.inTurn single
  obtain ⟨hwaiting, hnobody, hended⟩ := h.reachable.valid.all_recorded halted
  have hnow : now = [] := by
    rw [hnobody] at hrunning
    exact (Multiset.coe_eq_zero now).1 hrunning.symm
  rw [hnow, hwaiting] at hcalls hends
  refine ⟨(List.append_nil _).symm.trans hcalls, Multiset.coe_eq_coe.1 ?_⟩
  rw [← hended, ← hends]
  exact (add_zero _).symm

end InTurn
end Schedule
/-! ## Sessions -/

/-- A suite from a file has the path of the file as its package. -/
theorem package_of_loadSuite {files : Files} {path : String} {s : Suite}
    (h : loadSuite files path = .ok s) : s.package = path := by
  obtain ⟨_, decoded, _, rfl⟩ := exists_decoded_of_loadSuite h
  rfl

/-- Suites from different files have different packages. -/
theorem packages_nodup {files : Files} {paths : List String} (distinct : paths.Nodup) :
    ((loadAll files paths).map (·.package)).Nodup := by
  refine List.Sublist.nodup ?_ distinct
  rw [loadAll, List.map_filterMap]
  induction paths with
  | nil => exact List.Sublist.refl []
  | cons path rest ih =>
    have hrest := ih (List.nodup_cons.1 distinct).2
    -- a file that cannot be loaded is left out, any other one gives its path to its suite
    cases hload : loadSuite files path with
    | error e =>
      rw [List.filterMap_cons_none (by rw [hload]; rfl)]
      exact hrest.cons path
    | ok s =>
      have hpackage := package_of_loadSuite hload
      rw [List.filterMap_cons_some (b := path) (by rw [hload, ← hpackage]; rfl)]
      exact hrest.cons_cons path

/-- What the gate sees to, in a session that has let suites in. -/
structure Session.Gated (ctx : Context ω) (parallel : Nat) (suites : List Suite) (w : ω)
    (calls : List (Nat × Invocation ω)) (st : Schedule ω) : Prop where
  /-- Permits are free or held by suites that have started and not ended. -/
  permits : st.permits + st.running.card = max 1 parallel
  width : st.running.card ≤ max 1 parallel
  /-- One suite at a time: what is seen is the beginning of the run in file order. -/
  inTurn : parallel ≤ 1 → calls <+: Schedule.fileOrderCalls ctx 0 suites ⟨w, 0⟩
  /-- In the end it is all of it, and suites with different packages leave the totals of that run. -/
  complete : parallel ≤ 1 → st.Halted ctx (Schedule.capacity suites) →
    calls = Schedule.fileOrderCalls ctx 0 suites ⟨w, 0⟩
      ∧ ((suites.map (·.package)).Nodup →
        st.totals.sortByPackage = (collect (runEach ctx suites ⟨w, 0⟩).1).sortByPackage)

/-- What is invoked in a session has passed the gate. -/
theorem Schedule.Moves.gated {ctx : Context ω} {parallel : Nat} {suites : List Suite} {w : ω}
    {log : List (Happening ω)} {st : Schedule ω} (h : Moves ctx parallel suites w log st) :
    Session.Gated ctx parallel suites w (log.filterMap Happening.invokedCall?) st where
  permits := h.reachable.valid.permits
  width := h.reachable.valid.permits ▸ Nat.le_add_left _ _
  inTurn := h.calls_prefix
  complete := by
    intro single halted
    obtain ⟨hcalls, hrecorded⟩ := h.calls_eq single halted
    refine ⟨hcalls, fun distinct => ?_⟩
    have hperm : (st.recorded.map Prod.fst).Perm
        ((runEach ctx suites ⟨w, 0⟩).1.map (·.suite)) := by
      have hfirst := hrecorded.map Prod.fst
      rwa [List.zipIdx_map_fst] at hfirst
    rw [h.reachable.valid.totals]
    -- the same suites in any order have the same totals, if their packages tell them apart
    exact Totals.sortByPackage_ofSuites hperm
      ((h.reachable.packages_perm halted).nodup_iff.2 distinct)

/-- **The gate lets suites in one after another.**  Before any suite starts all files have been read,
    and suites start in the order of their files, as many at once as there are permits.  With a single
    permit the invocations are those of the suites in file order, one suite after the other, and the
    files that a path stands for leave the totals of that run. -/
theorem session_in_file_order (ctx : Context ω) (files : Files) (paths : List String)
    (parallel : Nat) (w : ω) {log : List (Happening ω)} {session : Session ω}
    (run : Session.Run ctx files paths parallel w log session) :
    (∀ before n after, log = before ++ .started n :: after →
        ∀ i < paths.length, .loaded i ∈ before)
      ∧ (∃ k, log.filterMap Happening.startedSuite? = List.range k)
      ∧ (∀ suites st, session = .running suites st →
        suites = loadAll files paths
          ∧ Session.Gated ctx parallel suites w (log.filterMap Happening.invokedCall?) st)
      ∧ ∀ path, files.Sound → discover files path = .ok paths →
        ((loadAll files paths).map (·.package)).Nodup := by
  refine ⟨fun before n after => run.loaded_before_started, ?_, ?_,
    fun path sound found => packages_nodup (discover_nodup sound found)⟩
  · cases session with
    | loading readings => exact ⟨0, Session.filterMap_loads run.reads.quiet fun _ => rfl⟩
    -- the log is a front that only loads, and behind it the moves of a schedule
    | running suites st =>
      obtain ⟨_, loads, moves, rfl, _, hquiet, hmoves⟩ := run.exists_moves
      obtain ⟨k, hstarted, _⟩ := hmoves.started
      refine ⟨k, ?_⟩
      rw [List.filterMap_append, Session.filterMap_loads hquiet fun _ => rfl]
      exact hstarted
  · rintro suites st rfl
    obtain ⟨hsuites, loads, moves, rfl, _, hquiet, hmoves⟩ := run.exists_moves
    refine ⟨hsuites, ?_⟩
    rw [List.filterMap_append, Session.filterMap_loads hquiet fun _ => rfl]
    exact hmoves.gated

/-- Two files of a directory, with a step each, behind a gate for one suite at a time. -/
theorem session_in_file_order_two_files :
    let text (name : String) :=
      "name: " ++ name ++ "\ntestcases:\n  - name: c\n    steps:\n      - type: probe\n"
    let file (name : String) : FileNode :=
      .file (Text.Utf8.encode (text name).toList) FileNode.standardMode
    let files : Files := ⟨.directory [("a.yml", file "a"), ("b.yml", file "b")], []⟩
    let paths := ["./a.yml", "./b.yml"]
    let script : Script := ⟨[⟨0, .give .null⟩], none⟩
    let registry := Registry.empty.register "probe" fun _ => .ok (script.executor "probe")
    let ctx : Context Stage := ⟨Aliases.empty, registry, Settings.standard⟩
    ∃ log st, Session.Run ctx files paths 1 Stage.empty log (.running (loadAll files paths) st)
      ∧ (log.filterMap Happening.invokedCall?).map Prod.fst = [0, 1]
      ∧ st.totals.sortByPackage
        = (collect (runEach ctx (loadAll files paths) ⟨Stage.empty, 0⟩).1).sortByPackage := by
  intro text file files paths script registry ctx
  have sound : files.Sound := by
    have hname (name : String) (h : name = "a.yml" ∨ name = "b.yml") : IsName name := by
      rcases h with rfl | rfl
      · exact ⟨by decide, by decide, by decide, by decide⟩
      · exact ⟨by decide, by decide, by decide, by decide⟩
    refine .directory (by decide) ?_ ?_
    · exact List.forall_mem_cons.2 ⟨hname _ (.inl rfl), List.forall_mem_singleton.2 (hname _ (.inr rfl))⟩
    · exact List.forall_mem_cons.2 ⟨.file _ _, List.forall_mem_singleton.2 (.file _ _)⟩
  have found : discover files "." = .ok paths := by
    have hdirectory : files.isDirectory "." = true := by decide +kernel
    have hlist : files.list "." = .ok [("a.yml", file "a"), ("b.yml", file "b")] := rfl
    have hkept : (paths.filter fun path =>
        files.isFile path && (some suiteExtension).all (Path.extension? path == some ·)) = paths := by
      decide +kernel
    have hsorted : sortPaths paths = paths := List.mergeSort_of_pairwise (by decide)
    rw [discover, if_pos hdirectory, filesIn, hlist]
    exact congrArg Except.ok ((congrArg sortPaths hkept).trans hsorted)
  have calls : (Schedule.fileOrderCalls ctx 0 (loadAll files paths) ⟨Stage.empty, 0⟩).map Prod.fst
      = [0, 1] := by decide +kernel
  have reach := Schedule.fileOrder_reachable ctx 1 (loadAll files paths) Stage.empty
  obtain ⟨log, run⟩ := Session.exists_run reach
  obtain ⟨_, _, hgated, hpackages⟩ := session_in_file_order ctx files paths 1 Stage.empty run
  obtain ⟨hcalls, htotals⟩ :=
    (hgated _ _ rfl).2.complete (Nat.le_refl 1) (Schedule.idle_halted _ _ _ _)
  exact ⟨log, _, run, hcalls ▸ calls, htotals (hpackages "." sound found)⟩

end TestBench
