import Mathlib
import TestBench.Proofs.Bookkeeping
import TestBench.Proofs.RejectedFiles
/-
  What is recorded of the suites that were loaded.

  1. A suite from a file has counted its cases and holds no record (`Suite.waits_of_loadSuite`), so
     whatever it ends as is counted.
  2. When nobody can go on, the recorded suites are what the loaded ones ended as, one for each
     (`Schedule.Reachable.exists_results`), and the totals are those of counted suites
     (`Session.Run.accounts`).
-/
namespace TestBench

variable {ω : Type}

/-! ## Suites from files -/

namespace Suite

variable {s : Suite}

/-- A suite from a file waits. -/
theorem waits_of_loadSuite {files : Files} {path : String} (h : loadSuite files path = .ok s) :
    s.Waits := by
  obtain ⟨node, decoded, hdecode, rfl⟩ := exists_decoded_of_loadSuite h
  exact ⟨rfl, (unrun_of_decodeSuite hdecode).cases⟩

/-- A suite that was loaded has no records yet. -/
theorem waits_of_mem_loadAll {files : Files} {paths : List String} (h : s ∈ loadAll files paths) :
    s.Waits := by
  obtain ⟨path, _, hload⟩ := List.mem_filterMap.1 h
  exact waits_of_loadSuite (ok_of_toOption hload)

end Suite

/-! ## What the totals are made of -/

/-- Sorting by package and recording can change places. -/
theorem Totals.sortByPackage_eq (suites : List Suite) : (ofSuites suites).sortByPackage
    = ofSuites (suites.mergeSort fun a b => a.package ≤ b.package) := by
  have hperm := List.mergeSort_perm suites fun a b => a.package ≤ b.package
  have hok := (hperm.map Suite.okCases).sum_nat
  have hko := (hperm.map Suite.failedCases).sum_nat
  have hskipped := (hperm.map Suite.skipped).sum_nat
  simp only [ofSuites_eq, sortByPackage, hok, hko, hskipped]

namespace Schedule

variable {ctx : Context ω} {parallel : Nat} {suites : List Suite} {w : ω} {st : Schedule ω}

/-- When nobody can go on, the recorded suites are what the suites of the run ended as, one for each. -/
theorem Reachable.exists_results (h : Reachable ctx parallel suites w st)
    (halted : st.Halted ctx (capacity suites)) :
    ∃ results, List.Forall₂ Suite.RanTo suites results
      ∧ (st.recorded.map Prod.fst).Perm results := by
  have hnumbers := h.valid.recorded_of_halted halted
  -- the recorded suites in the order of their numbers
  have hsorted : ∃ sorted, List.Forall₂ (fun n x => x.2 = n) (List.range suites.length) sorted
      ∧ sorted.Perm st.recorded := by
    refine List.perm_comp_forall₂ hnumbers.symm ?_
    rw [List.forall₂_map_left_iff]
    exact List.forall₂_same.2 fun _ _ => rfl
  obtain ⟨sorted, hsorted, hperm⟩ := hsorted
  obtain ⟨hlength, hget⟩ := List.forall₂_iff_get.1 hsorted
  rw [List.length_range] at hlength
  refine ⟨sorted.map Prod.fst, ?_, (hperm.map Prod.fst).symm⟩
  refine List.forall₂_iff_get.2 ⟨by rw [List.length_map, hlength], fun i hi hi' => ?_⟩
  have hsort : i < sorted.length := hlength ▸ hi
  have hnumber : (sorted[i]).2 = i := by
    have hi'' := hget i (by rw [List.length_range]; exact hi) hsort
    rw [List.get_eq_getElem, List.get_eq_getElem, List.getElem_range] at hi''
    exact hi''
  have hended : sorted[i] ∈ st.ended :=
    Multiset.mem_add.2 (.inr (Multiset.mem_coe.2 (hperm.subset (List.getElem_mem hsort))))
  obtain ⟨s, hs, hend⟩ := h.canEnd_of_ended _ hended
  rw [hnumber, List.getElem?_eq_getElem hi] at hs
  injection hs with hs
  rw [List.get_eq_getElem, List.get_eq_getElem, List.getElem_map, hs]
  exact Suite.ranTo_of_canEnd hend

end Schedule

/-- The totals of a run of files, and what the loaded suites ended as. -/
theorem Session.Run.accounts {ctx : Context ω} {files : Files} {paths : List String}
    {parallel : Nat} {w : ω} {log : List (Happening ω)} {suites : List Suite} {st : Schedule ω}
    (run : Session.Run ctx files paths parallel w log (.running suites st))
    (halted : st.Halted ctx (Schedule.capacity suites)) :
    ∃ results, List.Forall₂ Suite.RanTo (loadAll files paths) results
      ∧ st.totals.sortByPackage.suites.Perm results
      ∧ (st.recorded.map Prod.fst).Perm st.totals.sortByPackage.suites
      ∧ (∀ s ∈ st.totals.sortByPackage.suites, s.Counted)
      ∧ st.totals.sortByPackage.Accounts st.totals.sortByPackage.suites := by
  obtain ⟨rfl, _, _, _, _, _, moves⟩ := run.exists_moves
  have reach := moves.reachable
  obtain ⟨results, hresults, hperm⟩ := reach.exists_results halted
  -- what is shown is what was recorded, put in the order of packages
  let sorted := (st.recorded.map Prod.fst).mergeSort fun a b => a.package ≤ b.package
  have htotals : st.totals.sortByPackage = Totals.ofSuites sorted := by
    rw [reach.valid.totals, Totals.sortByPackage_eq]
  have hrecorded : sorted.Perm (st.recorded.map Prod.fst) := List.mergeSort_perm _ _
  have hsorted : sorted.Perm results := hrecorded.trans hperm
  -- each recorded suite is one that a loaded suite ran to, so its counts are its records
  have hcounted : ∀ s' ∈ sorted, s'.Counted := by
    intro s' hs'
    obtain ⟨i, hi, rfl⟩ := List.getElem_of_mem (hsorted.subset hs')
    obtain ⟨hlength, hget⟩ := List.forall₂_iff_get.1 hresults
    have hran := hget i (hlength ▸ hi) hi
    exact hran.counted (Suite.waits_of_mem_loadAll (List.get_mem _ _))
  have haccounts : (Totals.ofSuites sorted).Accounts sorted := Totals.accounts_ofSuites hcounted
  have hsuites : (Totals.ofSuites sorted).suites = sorted := haccounts.suites
  rw [htotals, hsuites]
  exact ⟨results, hresults, hsorted, hrecorded.symm, hcounted, haccounts⟩

end TestBench
