import Mathlib.Order.Bounds.Defs
import Mathlib.Order.Lattice

/-!
Tables whose entries apply from a threshold on, in increasing order of the thresholds.

* `reach_isGreatest` — the walk ends at the entry with the greatest threshold that is reached.
-/

namespace MeshcoreSim.Lib

variable {α β : Type} [LinearOrder β] {key : α → β} {n : β} {best : α} {rest : List α}

/-- Walk through a table as long as its thresholds are reached. -/
def reach (key : α → β) (n : β) : α → List α → α
  | best, [] => best
  | best, e :: rest => if key e ≤ n then reach key n e rest else best

theorem reach_mem (best : α) (rest : List α) : reach key n best rest ∈ best :: rest := by
  induction rest generalizing best with
  | nil => exact List.mem_cons_self
  | cons e rest ih =>
      rw [reach]
      split_ifs
      · exact List.mem_cons_of_mem _ (ih e)
      · exact List.mem_cons_self

theorem key_reach_le (reached : key best ≤ n) (rest : List α) :
    key (reach key n best rest) ≤ n := by
  induction rest generalizing best with
  | nil => exact reached
  | cons e rest ih =>
      rw [reach]
      split_ifs with further
      · exact ih further
      · exact reached

/-- Where the thresholds increase, none that is reached is above that of the entry. -/
theorem le_key_reach (sorted : (best :: rest).Pairwise fun a b => key a < key b) :
    ∀ e ∈ best :: rest, key e ≤ n → key e ≤ key (reach key n best rest) := by
  induction rest generalizing best with
  | nil =>
      intro e mem _
      rw [List.mem_singleton.mp mem, reach]
  | cons first rest ih =>
      obtain ⟨below, sorted'⟩ := List.pairwise_cons.mp sorted
      intro e mem reached
      rw [reach]
      split_ifs with further
      · rcases List.mem_cons.mp mem with rfl | later
        · exact (below first List.mem_cons_self).le.trans
            (ih sorted' first List.mem_cons_self further)
        · exact ih sorted' e later reached
      · -- The thresholds behind one that is not reached are not reached either.
        rcases List.mem_cons.mp mem with rfl | later
        · exact le_rfl
        · rcases List.mem_cons.mp later with rfl | behind
          · exact absurd reached further
          · have above := (List.pairwise_cons.mp sorted').1 e behind
            exact absurd (above.le.trans reached) further

/-- The entry is the one with the greatest threshold that is reached. -/
theorem reach_isGreatest (sorted : (best :: rest).Pairwise fun a b => key a < key b)
    (reached : key best ≤ n) :
    IsGreatest {k | ∃ e ∈ best :: rest, key e = k ∧ k ≤ n} (key (reach key n best rest)) := by
  refine ⟨⟨_, reach_mem best rest, rfl, key_reach_le reached rest⟩, ?_⟩
  rintro k ⟨e, mem, rfl, below⟩
  exact le_key_reach sorted e mem below

end MeshcoreSim.Lib
