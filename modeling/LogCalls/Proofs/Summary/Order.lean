/-
LogCalls/Proofs/Summary/Order.lean

A summary does not depend on the order of its results.  The totals count, and the
table is in the order of the paths; so where a path tells its result, summaries
with the same results are printed alike (`draw_perm`).
-/
import LogCalls.Summary

namespace LogCalls.Summary

variable {s s' : Summary}

theorem sorted_perm (h : s.Perm s')
    (hkey : ∀ a ∈ s, ∀ b ∈ s, a.path.text = b.path.text → a = b) : s.sorted = s'.sorted := by
  have htrans : ∀ a b c : FileResult, decide (a.path.text ≤ b.path.text) = true →
      decide (b.path.text ≤ c.path.text) = true → decide (a.path.text ≤ c.path.text) = true := by
    simp only [decide_eq_true_eq]
    exact fun _ _ _ => String.le_trans
  have htotal : ∀ a b : FileResult,
      (decide (a.path.text ≤ b.path.text) || decide (b.path.text ≤ a.path.text)) = true := by
    simp only [Bool.or_eq_true, decide_eq_true_eq]
    exact fun _ _ => String.le_total _ _
  refine List.Perm.eq_of_pairwise ?_ (List.pairwise_mergeSort htrans htotal s)
    (List.pairwise_mergeSort htrans htotal s')
    (((List.mergeSort_perm s _).trans h).trans (List.mergeSort_perm s' _).symm)
  intro a b ha hb hab hba
  rw [decide_eq_true_eq] at hab hba
  exact hkey a (List.mem_mergeSort.mp ha) b (h.mem_iff.mpr (List.mem_mergeSort.mp hb))
    (String.le_antisymm hab hba)

theorem converted_perm (h : s.Perm s') : s.converted = s'.converted := by
  induction h with
  | nil => rfl
  | cons r _ ih => exact congrArg (r.converted + ·) ih
  | swap a b r => exact Nat.add_left_comm b.converted a.converted (converted r)
  | trans _ _ ih ih' => exact ih.trans ih'

/-- Summaries with the same results are printed alike, if no two results of one
path differ. -/
theorem draw_perm (h : s.Perm s')
    (hkey : ∀ a ∈ s, ∀ b ∈ s, a.path.text = b.path.text → a = b) : s.draw = s'.draw := by
  have htable : s.table = s'.table := by
    unfold table
    rw [sorted_perm h hkey]
  have htotals : s.totals = s'.totals := by
    have hfailures : s.failures = s'.failures := h.countP_eq _
    rw [totals, totals, converted_perm h, h.length_eq, hfailures]
  show s.table.draw ++ _ = s'.table.draw ++ _
  rw [htable, htotals]

theorem exitCode_perm (h : s.Perm s') : s.exitCode = s'.exitCode := by
  rw [exitCode, exitCode, h.any_eq]

end LogCalls.Summary
