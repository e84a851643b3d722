import Mathlib.Data.List.Basic

/-!
Buffers that hold pieces of one size, one behind the other.

* `chunks_flatten` — the pieces of a buffer that is put together from pieces.
* `memcpy_middle` — writing over a part of a buffer.
-/

namespace MeshcoreSim.Lib

variable {α : Type} {size count : ℕ}

/-- The piece number `i`. -/
def chunk (size : ℕ) (l : List α) (i : ℕ) : List α := (l.drop (i * size)).take size

/-- The first `count` pieces. -/
def chunks (size count : ℕ) (l : List α) : List (List α) := (List.range count).map (chunk size l)

/-- Write `src` over a part of `dst`; `none` where it does not fit. -/
def memcpy (dst : List α) (offset : ℕ) (src : List α) : Option (List α) :=
  if offset + src.length ≤ dst.length then
    some (dst.take offset ++ src ++ dst.drop (offset + src.length))
  else none

@[simp] theorem length_chunks (l : List α) : (chunks size count l).length = count := by
  simp [chunks]

theorem length_chunk {l : List α} {i : ℕ} (inside : i < count) (enough : count * size ≤ l.length) :
    (chunk size l i).length = size := by
  have next : (i + 1) * size ≤ count * size := Nat.mul_le_mul_right size inside
  rw [Nat.succ_mul] at next
  rw [chunk, List.length_take, List.length_drop]
  omega

theorem length_of_mem_chunks {l c : List α} (enough : count * size ≤ l.length)
    (mem : c ∈ chunks size count l) : c.length = size := by
  obtain ⟨i, inside, rfl⟩ := List.mem_map.mp mem
  exact length_chunk (List.mem_range.mp inside) enough

/-- The pieces do not depend on what follows them. -/
theorem chunks_take (l : List α) :
    chunks size count (l.take (count * size)) = chunks size count l := by
  refine List.map_congr_left fun i mem => ?_
  have next : (i + 1) * size ≤ count * size :=
    Nat.mul_le_mul_right size (List.mem_range.mp mem)
  rw [Nat.succ_mul] at next
  rw [chunk, chunk, List.drop_take, List.take_take, Nat.min_eq_left (by omega)]

theorem length_flatten_of_forall {L : List (List α)} (all : ∀ c ∈ L, c.length = size) :
    L.flatten.length = L.length * size := by
  induction L with
  | nil => simp
  | cons c L ih =>
      rw [List.flatten_cons, List.length_append, all c List.mem_cons_self,
        ih fun d mem => all d (List.mem_cons_of_mem _ mem), List.length_cons, Nat.succ_mul]
      omega

/-- The pieces of a buffer that is put together from pieces. -/
theorem chunks_flatten {L : List (List α)} (all : ∀ c ∈ L, c.length = size) (rest : List α) :
    chunks size L.length (L.flatten ++ rest) = L := by
  refine List.ext_getElem (by simp) fun i inside bounded => ?_
  simp only [chunks, List.getElem_map, List.getElem_range, chunk]
  have split : L = L.take i ++ L[i] :: L.drop (i + 1) := by simp
  have skipped : (L.take i).flatten.length = i * size := by
    rw [length_flatten_of_forall fun c mem => all c (List.mem_of_mem_take mem),
      List.length_take_of_le (by omega)]
  have width : L[i].length = size := all _ (List.getElem_mem _)
  have shape : L.flatten ++ rest =
      (L.take i).flatten ++ (L[i] ++ ((L.drop (i + 1)).flatten ++ rest)) := by
    have joined := congrArg (fun M => M.flatten ++ rest) split
    simpa only [List.flatten_append, List.flatten_cons, List.append_assoc] using joined
  rw [shape, ← skipped, List.drop_left, ← width, List.take_left]

/-- A write over a part as long as what is written. -/
theorem memcpy_middle {before middle after src : List α} {offset : ℕ}
    (place : offset = before.length) (fits : src.length = middle.length) :
    memcpy (before ++ (middle ++ after)) offset src = some (before ++ (src ++ after)) := by
  subst place
  rw [memcpy, if_pos (by simp only [List.length_append]; omega), List.take_left,
    List.drop_append, List.drop_eq_nil_of_le (by omega), Nat.add_sub_cancel_left, fits,
    List.drop_left, List.nil_append, List.append_assoc]

end MeshcoreSim.Lib
