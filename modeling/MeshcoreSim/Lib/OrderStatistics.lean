import Mathlib.Algebra.BigOperators.Group.List.Basic
import Mathlib.Algebra.Order.BigOperators.Group.List
import Mathlib.Algebra.Order.Field.Basic
import Mathlib.Data.List.Sort
import Mathlib.Tactic.Positivity

/-!
Order statistics: the entries of a list at the places of its order, and its mean.

* `length_sub_le_countP`, `lt_countP` — how many entries lie on the two sides of a place.
* `average_le`, `le_average` — the mean lies between two bounds of the entries.
-/

namespace MeshcoreSim.Lib

section Order

variable {α : Type} [LE α] [DecidableLE α] {l : List α} {k : ℕ}

/-- The entries in increasing order. -/
def sorted (l : List α) : List α := l.mergeSort (· ≤ ·)

theorem sorted_perm (l : List α) : (sorted l).Perm l := List.mergeSort_perm _ _

@[simp] theorem length_sorted (l : List α) : (sorted l).length = l.length := List.length_mergeSort _

@[simp] theorem mem_sorted {x : α} : x ∈ sorted l ↔ x ∈ l := (sorted_perm l).mem_iff

variable [Std.IsLinearOrder α]

theorem pairwise_sorted (l : List α) : (sorted l).Pairwise (· ≤ ·) := by
  refine (List.pairwise_mergeSort ?_ ?_ l).imp of_decide_eq_true
  · intro a b c ab bc
    exact decide_eq_true (Std.le_trans (of_decide_eq_true ab) (of_decide_eq_true bc))
  · intro a b
    simpa using Std.le_total (a := a) (b := b)

/-- Later places hold larger entries. -/
theorem getElem_sorted_le {j k : ℕ} (le : j ≤ k) (inside : k < (sorted l).length) :
    (sorted l)[j] ≤ (sorted l)[k] := by
  rcases le.eq_or_lt with rfl | lt
  · exact Std.le_refl _
  · exact List.pairwise_iff_getElem.mp (pairwise_sorted l) j k _ inside lt

/-- More entries than its place are at most as large as an entry. -/
theorem lt_countP (inside : k < (sorted l).length) :
    k < l.countP (· ≤ (sorted l)[k]) := by
  rw [← (sorted_perm l).countP_eq]
  have first : ((sorted l).take (k + 1)).countP (· ≤ (sorted l)[k]) = k + 1 := by
    rw [List.countP_eq_length.mpr, List.length_take, min_eq_left inside]
    intro x mem
    obtain ⟨j, here, rfl⟩ := List.mem_iff_getElem.mp mem
    rw [List.length_take, lt_min_iff] at here
    rw [List.getElem_take]
    exact decide_eq_true (getElem_sorted_le (Nat.le_of_lt_succ here.1) inside)
  have sub := (List.take_sublist (k + 1) (sorted l)).countP_le (p := (· ≤ (sorted l)[k]))
  omega

/-- All entries from its place on are at least as large as an entry. -/
theorem length_sub_le_countP (inside : k < (sorted l).length) :
    l.length - k ≤ l.countP ((sorted l)[k] ≤ ·) := by
  rw [← (sorted_perm l).countP_eq]
  have rest : ((sorted l).drop k).countP ((sorted l)[k] ≤ ·) = l.length - k := by
    rw [List.countP_eq_length.mpr, List.length_drop, length_sorted]
    intro x mem
    obtain ⟨j, here, rfl⟩ := List.mem_iff_getElem.mp mem
    rw [List.length_drop] at here
    rw [List.getElem_drop]
    exact decide_eq_true (getElem_sorted_le (Nat.le_add_right k j) (by omega))
  have sub := (List.drop_sublist k (sorted l)).countP_le (p := ((sorted l)[k] ≤ ·))
  omega

end Order

section Mean

variable {R : Type} [Field R] [LinearOrder R] [IsStrictOrderedRing R] {l : List R} {bound : R}

/-- The mean of a list that is not empty. -/
def average (l : List R) : R := l.sum / l.length

theorem average_le (some : l ≠ []) (above : ∀ x ∈ l, x ≤ bound) : average l ≤ bound := by
  have positive : (0 : R) < l.length := by exact_mod_cast List.length_pos_iff.mpr some
  rw [average, div_le_iff₀ positive, mul_comm, ← nsmul_eq_mul]
  exact List.sum_le_card_nsmul l bound above

theorem le_average (some : l ≠ []) (below : ∀ x ∈ l, bound ≤ x) : bound ≤ average l := by
  have positive : (0 : R) < l.length := by exact_mod_cast List.length_pos_iff.mpr some
  rw [average, le_div_iff₀ positive, mul_comm, ← nsmul_eq_mul]
  exact List.card_nsmul_le_sum l bound below

end Mean

end MeshcoreSim.Lib
