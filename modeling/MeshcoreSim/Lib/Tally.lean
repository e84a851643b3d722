import Mathlib.Algebra.BigOperators.Group.List.Basic
import Mathlib.Algebra.Order.BigOperators.Group.List
import Mathlib.Data.List.Nodup
import Mathlib.Data.List.Perm.Subperm

/-!
Tallies that are taken over a selection of what should be counted.

* `perm_iff_sum_eq` — distinct elements of positive weight: a selection has the whole
  weight exactly when it is the whole.
* `filterMap_perm_iff` — two selections without repetition give the same figures exactly when
  what each has alone does.
-/

namespace MeshcoreSim.Lib

variable {α β : Type}

theorem perm_iff_sum_eq {M : Type} [AddCommMonoid M] [PartialOrder M] [IsOrderedCancelAddMonoid M]
    {weight : α → M} {l m : List α} (distinct : l.Nodup) (sub : l ⊆ m)
    (positive : ∀ x ∈ m, 0 < weight x) :
    l.Perm m ↔ (l.map weight).sum = (m.map weight).sum := by
  constructor
  · exact fun perm => (perm.map weight).sum_eq
  · intro same
    obtain ⟨l', perm, sublist⟩ := distinct.subperm sub
    obtain ⟨rest, all⟩ := sublist.exists_perm_append
    have total := (all.map weight).sum_eq
    rw [List.map_append, List.sum_append, (perm.map weight).sum_eq, ← same] at total
    have nothing : (rest.map weight).sum = 0 := left_eq_add.mp total
    cases rest with
    | nil =>
        rw [List.append_nil] at all
        exact (all.trans perm).symm
    | cons x rest =>
        have more : ∀ y ∈ x :: rest, 0 < weight y := fun y mem =>
          positive y (all.symm.subset (List.mem_append_right _ mem))
        have moreThanNothing : 0 < ((x :: rest).map weight).sum :=
          List.sum_pos _ (by simpa using more) (by simp)
        exact absurd nothing moreThanNothing.ne'

section

variable [BEq α] [LawfulBEq α]

/-- What two lists without repetition share, in the order of one or of the other. -/
theorem filter_mem_perm {l m : List α} (hl : l.Nodup) (hm : m.Nodup) :
    (l.filter (· ∈ m)).Perm (m.filter (· ∈ l)) := by
  refine (List.perm_ext_iff_of_nodup (hl.filter _) (hm.filter _)).mpr fun x => ?_
  simp only [List.mem_filter, decide_eq_true_eq]
  exact and_comm

theorem filterMap_perm_split (l m : List α) (f : α → Option β) :
    (l.filterMap f).Perm
      ((l.filter (· ∈ m)).filterMap f ++ (l.filter (· ∉ m)).filterMap f) := by
  rw [← List.filterMap_append]
  refine (((List.filter_append_perm (fun x => decide (x ∈ m)) l).symm).filterMap f).trans ?_
  apply List.Perm.of_eq
  simp

theorem filterMap_perm_iff {l m : List α} (hl : l.Nodup) (hm : m.Nodup) {f : α → Option β} :
    (l.filterMap f).Perm (m.filterMap f) ↔
      ((l.filter (· ∉ m)).filterMap f).Perm ((m.filter (· ∉ l)).filterMap f) := by
  have left := filterMap_perm_split l m f
  have shared := (filter_mem_perm hl hm).filterMap f
  have right := (filterMap_perm_split m l f).trans (shared.symm.append_right _)
  constructor
  · intro same
    exact (List.perm_append_left_iff _).mp ((left.symm.trans same).trans right)
  · intro same
    exact (left.trans (same.append_left _)).trans right.symm

end

end MeshcoreSim.Lib
