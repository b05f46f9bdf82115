import Mathlib
import TestBench.Totals
/-
  Totals do not depend on the order in which suites are recorded.

  1. Recording is a fold; `ofSuites_eq` gives it in closed form: the list of suites as recorded, and
     each counter as a sum over them.
  2. Sums do not see the order, so two orders of the same suites leave the same counters.
  3. Sorting by package undoes the order of the list too, as long as no two suites share a package
     (`sortByPackage_ofSuites`).
-/
namespace TestBench

/-- The cases of a suite that recording counts as passed. -/
def Suite.okCases (s : Suite) : Nat := s.total - (s.failedCases + s.skipped)

namespace Totals

/-- The totals of suites that are recorded one after another. -/
def ofSuites (suites : List Suite) : Totals := suites.foldl record empty

/-! ## The closed form of recording -/

/-- Recording from totals whose counters add up adds the list and the sum of each count. -/
theorem foldl_record (suites : List Suite) : ∀ t : Totals, t.total = t.ok + t.ko + t.skipped →
    suites.foldl record t =
      { suites := t.suites ++ suites
        ok := t.ok + (suites.map Suite.okCases).sum
        ko := t.ko + (suites.map Suite.failedCases).sum
        skipped := t.skipped + (suites.map Suite.skipped).sum
        total := t.ok + (suites.map Suite.okCases).sum + (t.ko + (suites.map Suite.failedCases).sum)
          + (t.skipped + (suites.map Suite.skipped).sum) } := by
  induction suites with
  | nil =>
    intro t h
    simp only [List.foldl_nil, List.append_nil, List.map_nil, List.sum_nil, Nat.add_zero, ← h]
  | cons s rest ih =>
    intro t _
    have hs : s.total - (s.failedCases + s.skipped) = s.okCases := rfl
    -- the counters add up after every record, so the rest may begin from there
    rw [List.foldl_cons, ih (t.record s) rfl]
    simp only [record, hs, List.append_assoc, List.singleton_append, List.map_cons, List.sum_cons,
      Nat.add_assoc]

/-- The counters are sums over the recorded suites, and the total is the sum of the other three. -/
theorem ofSuites_eq (suites : List Suite) :
    ofSuites suites =
      { suites
        ok := (suites.map Suite.okCases).sum
        ko := (suites.map Suite.failedCases).sum
        skipped := (suites.map Suite.skipped).sum
        total := (suites.map Suite.okCases).sum + (suites.map Suite.failedCases).sum
          + (suites.map Suite.skipped).sum } := by
  rw [ofSuites, foldl_record suites empty rfl]
  simp only [empty, List.nil_append, Nat.zero_add]

/-! ## Any order -/

/-- Suites with different packages have one order by package. -/
theorem mergeSort_package_eq {as bs : List Suite} (h : as.Perm bs)
    (distinct : (as.map (·.package)).Nodup) :
    as.mergeSort (fun a b => a.package ≤ b.package)
      = bs.mergeSort (fun a b => a.package ≤ b.package) := by
  have sorted (l : List Suite) : (l.mergeSort fun a b => a.package ≤ b.package).Pairwise
      fun a b => decide (a.package ≤ b.package) = true := by
    apply List.pairwise_mergeSort
    · intro a b c hab hbc
      exact decide_eq_true (String.le_trans (of_decide_eq_true hab) (of_decide_eq_true hbc))
    · intro a b
      rw [Bool.or_eq_true, decide_eq_true_iff, decide_eq_true_iff]
      exact String.le_total _ _
  -- two sorted lists of the same suites can only differ where packages are the same, and none are
  refine List.Perm.eq_of_pairwise ?_ (sorted as) (sorted bs)
    ((List.mergeSort_perm _ _).trans (h.trans (List.mergeSort_perm _ _).symm))
  intro a b ha hb hab hba
  have hpackage : a.package = b.package :=
    String.le_antisymm (of_decide_eq_true hab) (of_decide_eq_true hba)
  exact List.inj_on_of_nodup_map distinct (List.mem_mergeSort.1 ha)
    (h.symm.subset (List.mem_mergeSort.1 hb)) hpackage

/-- Once sorted by package, the totals are the same for every order of recording. -/
theorem sortByPackage_ofSuites {as bs : List Suite} (h : as.Perm bs)
    (distinct : (as.map (·.package)).Nodup) :
    (ofSuites as).sortByPackage = (ofSuites bs).sortByPackage := by
  have hok := (h.map Suite.okCases).sum_nat
  have hko := (h.map Suite.failedCases).sum_nat
  have hskipped := (h.map Suite.skipped).sum_nat
  simp only [ofSuites_eq, sortByPackage, mergeSort_package_eq h distinct, hok, hko, hskipped]

end Totals
end TestBench
