import TreeExtraction.Text.Basic

/-! # The order of texts

Texts are compared unit by unit, which orders them totally. So a list of distinct texts that is
sorted ascends strictly.
-/

namespace TreeExtraction.Text

variable {a b : Text} {ts : List Text}

theorem before_iff : before a b = true ↔ a < b :=
  decide_eq_true_iff

theorem not_before_iff : (!before b a) = true ↔ a ≤ b := by
  rw [Bool.not_eq_true', ← Bool.not_eq_true, before_iff]
  exact List.not_lt

theorem lt_of_le_of_ne (hle : a ≤ b) (hne : a ≠ b) : a < b := by
  by_cases hlt : a < b
  · exact hlt
  · exact absurd (List.le_antisymm hle (List.not_lt.1 hlt)) hne

theorem lt_or_eq_or_gt (a b : Text) : a < b ∨ a = b ∨ b < a := by
  by_cases heq : a = b
  · exact .inr (.inl heq)
  · rcases List.le_total a b with hle | hle
    · exact .inl (lt_of_le_of_ne hle heq)
    · exact .inr (.inr (lt_of_le_of_ne hle (Ne.symm heq)))

/-! ## Sorting -/

theorem mem_sort : a ∈ sort ts ↔ a ∈ ts :=
  (List.mergeSort_perm ts _).mem_iff

theorem pairwise_le_sort (ts : List Text) : (sort ts).Pairwise (· ≤ ·) := by
  refine (List.pairwise_mergeSort ?_ ?_ ts).imp not_before_iff.1
  · intro a b c hab hbc
    rw [not_before_iff] at hab hbc ⊢
    exact List.le_trans hab hbc
  · intro a b
    rw [Bool.or_eq_true, not_before_iff, not_before_iff]
    exact List.le_total a b

/-- Distinct texts ascend strictly when they are sorted. -/
theorem pairwise_lt_sort (h : ts.Nodup) : (sort ts).Pairwise (· < ·) := by
  have hdistinct : (sort ts).Nodup := (List.mergeSort_perm ts _).nodup_iff.2 h
  exact ((pairwise_le_sort ts).and hdistinct).imp fun ⟨hle, hne⟩ => lt_of_le_of_ne hle hne

end TreeExtraction.Text
