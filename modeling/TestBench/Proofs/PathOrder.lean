import Mathlib
import TestBench.Discovery
/-
  The order of paths.

  Segments are ordered like their ranks, and names among each other like texts; paths are ordered like
  words over segments.  Both orders are linear, so sorted paths with different segments come strictly
  one after another (`sortPaths_strict`).
-/
namespace TestBench

namespace Segment

variable {a b c : Segment}

/-- A segment is less by its rank, or among names by the name. -/
theorem lt_iff : a.lt b = true
    ↔ a.rank < b.rank ∨ ∃ s t : String, a = name s ∧ b = name t ∧ s < t := by
  cases a <;> cases b <;> simp [lt, rank]

theorem name_of_rank_eq {s : String} (h : a.rank = (name s).rank) : ∃ t, a = name t := by
  cases a with
  | name t => exact ⟨t, rfl⟩
  | _ => cases h

theorem eq_of_rank_eq (h : a.rank = b.rank) : a = b ∨ ∃ s t, a = name s ∧ b = name t := by
  cases b with
  | name t =>
    obtain ⟨s, rfl⟩ := name_of_rank_eq h
    exact .inr ⟨s, t, rfl, rfl⟩
  | _ => cases a <;> first | exact .inl rfl | cases h

/-- Of two segments at most one is less. -/
theorem lt_asymm (h : a.lt b = true) (h' : b.lt a = true) : False := by
  rcases lt_iff.1 h with hrank | ⟨s, t, rfl, rfl, hst⟩
  · rcases lt_iff.1 h' with hrank' | ⟨s, t, rfl, rfl, _⟩
    · omega
    · exact absurd hrank (Nat.lt_irrefl _)
  · rcases lt_iff.1 h' with hrank' | ⟨_, _, hs, ht, hts⟩
    · exact absurd hrank' (Nat.lt_irrefl _)
    · injection hs with hs
      injection ht with ht
      subst hs ht
      exact String.lt_asymm hst hts

/-- The order of segments is transitive. -/
theorem lt_trans (h : a.lt b = true) (h' : b.lt c = true) : a.lt c = true := by
  refine lt_iff.2 ?_
  rcases lt_iff.1 h with hrank | ⟨s, t, rfl, rfl, hst⟩
  · rcases lt_iff.1 h' with hrank' | ⟨t, u, rfl, rfl, _⟩
    · exact .inl (hrank.trans hrank')
    · exact .inl hrank
  · rcases lt_iff.1 h' with hrank' | ⟨_, u, ht, rfl, htu⟩
    · exact .inl hrank'
    · injection ht with ht
      subst ht
      exact .inr ⟨s, u, rfl, rfl, String.lt_trans hst htu⟩

/-- Of two different segments one is less. -/
theorem lt_or_lt (h : a ≠ b) : a.lt b = true ∨ b.lt a = true := by
  rcases Nat.lt_trichotomy a.rank b.rank with hrank | hrank | hrank
  · exact .inl (lt_iff.2 (.inl hrank))
  · rcases eq_of_rank_eq hrank with heq | ⟨s, t, rfl, rfl⟩
    · exact absurd heq h
    · have hne : s ≠ t := fun heq => h (congrArg name heq)
      by_cases hst : s < t
      · exact .inl (lt_iff.2 (.inr ⟨s, t, rfl, rfl, hst⟩))
      · by_cases hts : t < s
        · exact .inr (lt_iff.2 (.inr ⟨t, s, rfl, rfl, hts⟩))
        · exact absurd (String.le_antisymm (String.not_lt.1 hts) (String.not_lt.1 hst)) hne
  · exact .inr (lt_iff.2 (.inl hrank))

end Segment

namespace Path

/-- Of two lists of segments one is not behind the other. -/
theorem segmentsLe_total (as bs : List Segment) :
    segmentsLe as bs = true ∨ segmentsLe bs as = true := by
  induction as generalizing bs with
  | nil => exact .inl rfl
  | cons a as ih =>
    cases bs with
    | nil => exact .inr rfl
    | cons b bs =>
      rw [segmentsLe, segmentsLe]
      -- the first difference decides; equal segments are passed over
      by_cases h : a = b
      · rw [if_pos h, if_pos h.symm]
        exact ih bs
      · rw [if_neg h, if_neg (Ne.symm h)]
        exact Segment.lt_or_lt h

/-- The order of lists of segments is transitive. -/
theorem segmentsLe_trans {as bs cs : List Segment} (h : segmentsLe as bs = true)
    (h' : segmentsLe bs cs = true) : segmentsLe as cs = true := by
  induction as generalizing bs cs with
  | nil => rfl
  | cons a as ih =>
    cases bs with
    | nil => cases h
    | cons b bs =>
      cases cs with
      | nil => cases h'
      | cons c cs =>
        rw [segmentsLe] at h h' ⊢
        -- if one of the two first segments is shared, the other comparison decides; if none is, the
        -- outer ones differ as well, for the order is asymmetric
        by_cases hab : a = b
        · subst hab
          rw [if_pos rfl] at h
          split at h'
          · rename_i hac
            rw [if_pos hac]
            exact ih h h'
          · rename_i hac
            rw [if_neg hac]
            exact h'
        · rw [if_neg hab] at h
          by_cases hbc : b = c
          · subst hbc
            rw [if_neg hab]
            exact h
          · rw [if_neg hbc] at h'
            have hac : a ≠ c := by
              rintro rfl
              exact Segment.lt_asymm h h'
            rw [if_neg hac]
            exact Segment.lt_trans h h'

/-- Lists of segments that are not behind each other are equal. -/
theorem segmentsLe_antisymm {as bs : List Segment} (h : segmentsLe as bs = true)
    (h' : segmentsLe bs as = true) : as = bs := by
  induction as generalizing bs with
  | nil =>
    cases bs with
    | nil => rfl
    | cons b bs => cases h'
  | cons a as ih =>
    cases bs with
    | nil => cases h
    | cons b bs =>
      rw [segmentsLe] at h h'
      by_cases hab : a = b
      · rw [if_pos hab] at h
        rw [if_pos hab.symm] at h'
        rw [hab, ih h h']
      · rw [if_neg hab] at h
        rw [if_neg (Ne.symm hab)] at h'
        exact (Segment.lt_asymm h h').elim

end Path

/-- Sorted paths are in order. -/
theorem sortPaths_pairwise (paths : List String) :
    (sortPaths paths).Pairwise (Path.le · · = true) := by
  have htrans (p q r : String) (h : Path.le p q = true) (h' : Path.le q r = true) :
      Path.le p r = true := Path.segmentsLe_trans h h'
  have htotal (p q : String) : (Path.le p q || Path.le q p) = true :=
    Bool.or_eq_true_iff.2 (Path.segmentsLe_total _ _)
  exact List.pairwise_mergeSort htrans htotal paths

/-- Sorted paths with different segments come strictly one after another. -/
theorem sortPaths_strict {paths : List String} (nodup : paths.Nodup)
    (distinct : ∀ p ∈ paths, ∀ q ∈ paths, Path.segments p = Path.segments q → p = q) :
    (sortPaths paths).Pairwise fun p q => Path.le p q = true ∧ Path.le q p = false := by
  have hperm : (sortPaths paths).Perm paths := List.mergeSort_perm _ _
  refine ((sortPaths_pairwise paths).and (hperm.nodup_iff.2 nodup)).imp_of_mem ?_
  rintro p q hp hq ⟨hle, hne⟩
  refine ⟨hle, Bool.eq_false_iff.2 fun hge => hne ?_⟩
  exact distinct p (hperm.subset hp) q (hperm.subset hq) (Path.segmentsLe_antisymm hle hge)

end TestBench
