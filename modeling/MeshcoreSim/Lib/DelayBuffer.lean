import Mathlib.Data.List.Basic
import Mathlib.Data.List.Induction
import Mathlib.Data.Nat.Find
import Mathlib.Order.Lattice

/-!
A buffer of items with deadlines, from which a drain takes what is due.

Places in a list of operations identify the items, so that equal items are told apart.

* `First` — the drain that has to take an item: the first one at or after its deadline.
* `after_eq` — the buffer holds the items that no drain has had to take, in their order.
* `due_eq` — a drain takes exactly the items that it has to take, in their order.
* `left_eq` — what is left is what no drain has had to take.
-/

namespace MeshcoreSim.Lib

variable {τ α : Type} [LinearOrder τ]

inductive DelayOp (τ α : Type) where
  | put (deadline : τ) (item : α)
  | drain (now : τ)

namespace DelayOp

/-- A drain at or after the deadline. -/
def reaches (deadline : τ) : DelayOp τ α → Bool
  | .put _ _ => false
  | .drain now => deadline ≤ now

end DelayOp

namespace DelayBuffer

/-- What a drain takes. -/
def due (buffer : List (τ × α)) (now : τ) : List α :=
  (buffer.filter fun entry => decide (entry.1 ≤ now)).map Prod.snd

def step (buffer : List (τ × α)) : DelayOp τ α → List (τ × α)
  | .put deadline item => buffer ++ [(deadline, item)]
  | .drain now => buffer.filter fun entry => decide (now < entry.1)

/-- The buffer after some operations. -/
def after (ops : List (DelayOp τ α)) : List (τ × α) := ops.foldl step []

/-- The drain at place `j` is the first one at or after the deadline of the item that is put at
place `i`. -/
structure First (ops : List (DelayOp τ α)) (i j : ℕ) : Prop where
  later : i < j
  reaches : ∃ deadline item now, ops[i]? = some (.put deadline item) ∧
    ops[j]? = some (.drain now) ∧ deadline ≤ now ∧
    ∀ k now', i < k → k < j → ops[k]? = some (.drain now') → now' < deadline

/-- The item that is put at a place. -/
def item? (ops : List (DelayOp τ α)) (i : ℕ) : Option α :=
  match ops[i]? with
  | some (.put _ item) => some item
  | _ => none

/-- The entry that is put at a place, unless a drain reaches its deadline later. -/
def waiting (ops : List (DelayOp τ α)) (i : ℕ) : Option (τ × α) :=
  match ops[i]? with
  | some (.put deadline item) =>
      if (ops.drop (i + 1)).any (DelayOp.reaches deadline) then none else some (deadline, item)
  | _ => none

variable {ops : List (DelayOp τ α)} {i j : ℕ}

theorem after_concat (ops : List (DelayOp τ α)) (op : DelayOp τ α) :
    after (ops ++ [op]) = step (after ops) op := by
  simp [after]

/-- A drain at the end takes an entry that it reaches. -/
theorem waiting_concat (inside : i < ops.length) (op : DelayOp τ α) :
    waiting (ops ++ [op]) i = (waiting ops i).filter fun entry => !op.reaches entry.1 := by
  unfold waiting
  rw [List.getElem?_append_left inside, List.drop_append_of_le_length (by omega)]
  cases ops[i]? with
  | none => rfl
  | some op' =>
      cases op' with
      | drain now => rfl
      | put deadline item =>
          simp only [List.any_append, List.any_cons, List.any_nil, Bool.or_false]
          by_cases reached : (ops.drop (i + 1)).any (DelayOp.reaches deadline)
          · simp [reached]
          · by_cases last : op.reaches deadline <;> simp [reached, last, Option.filter]

/-- The buffer holds the entries that no drain has reached, in the order in which they were
put. -/
theorem after_eq (ops : List (DelayOp τ α)) :
    after ops = (List.range ops.length).filterMap (waiting ops) := by
  induction ops using List.reverseRecOn with
  | nil => rfl
  | append_singleton ops op ih =>
      have older : (List.range ops.length).filterMap (waiting (ops ++ [op])) =
          (after ops).filter fun entry => !op.reaches entry.1 := by
        rw [ih, List.filter_filterMap]
        refine List.filterMap_congr fun i mem => ?_
        rw [waiting_concat (List.mem_range.mp mem)]
      rw [after_concat, List.length_append, List.length_singleton, List.range_succ,
        List.filterMap_append, older]
      cases op with
      | put deadline item => simp [step, waiting, DelayOp.reaches]
      | drain now => simp [step, waiting, DelayOp.reaches, ← decide_not]

theorem any_reaches_eq_false_iff {deadline : τ} :
    (ops.drop (i + 1)).any (DelayOp.reaches deadline) = false ↔
      ∀ k now, i < k → ops[k]? = some (.drain now) → now < deadline := by
  rw [List.any_eq_false]
  constructor
  · intro none_ k now later drain
    have mem : DelayOp.drain now ∈ ops.drop (i + 1) := by
      refine List.mem_iff_getElem?.mpr ⟨k - (i + 1), ?_⟩
      rw [List.getElem?_drop, Nat.add_sub_cancel' later, drain]
    simpa [DelayOp.reaches] using none_ _ mem
  · intro early op mem reached
    obtain ⟨k, at_⟩ := List.mem_iff_getElem?.mp mem
    rw [List.getElem?_drop] at at_
    cases op with
    | put => cases reached
    | drain now =>
        exact absurd (of_decide_eq_true reached) (not_le.mpr (early _ now (by omega) at_))

/-- An entry waits if it has been put and all drains since were early. -/
theorem waiting_eq_some_iff {deadline : τ} {item : α} :
    waiting ops i = some (deadline, item) ↔ ops[i]? = some (.put deadline item) ∧
      ∀ k now, i < k → ops[k]? = some (.drain now) → now < deadline := by
  rw [← any_reaches_eq_false_iff]
  unfold waiting
  constructor
  · intro waits
    split at waits
    · rename_i deadline' item' put
      split at waits
      · cases waits
      · rename_i unreached
        cases waits
        exact ⟨put, Bool.eq_false_iff.mpr unreached⟩
    · cases waits
  · rintro ⟨put, unreached⟩
    simp [put, unreached]

omit [LinearOrder τ] in
theorem item?_eq_some_iff {item : α} :
    item? ops i = some item ↔ ∃ deadline, ops[i]? = some (.put deadline item) := by
  unfold item?
  constructor
  · intro put
    split at put
    · rename_i deadline item' at_
      cases put
      exact ⟨deadline, at_⟩
    · cases put
  · rintro ⟨deadline, put⟩
    rw [put]

omit [LinearOrder τ] in
/-- What is collected place by place are the items of the places that contribute. -/
theorem exists_places (ops : List (DelayOp τ α)) (n : ℕ) (entryAt : ℕ → Option (τ × α))
    (same : ∀ i entry, entryAt i = some entry → item? ops i = some entry.2) :
    ∃ places : List ℕ, places.Pairwise (· < ·) ∧
      (∀ i, i ∈ places ↔ i < n ∧ (entryAt i).isSome) ∧
      ((List.range n).filterMap entryAt).map Prod.snd = places.filterMap (item? ops) := by
  refine ⟨(List.range n).filter fun i => (entryAt i).isSome, List.pairwise_lt_range.filter _,
    by simp, ?_⟩
  rw [List.map_filterMap, List.filterMap_filter]
  refine List.filterMap_congr fun i _ => ?_
  cases known : entryAt i with
  | none => simp
  | some entry => simp [same i entry known]

/-- The entries that wait when a drain at place `j` comes and reaches them are those that it is
the first to reach. -/
theorem waiting_take_iff {now : τ} (drain : ops[j]? = some (.drain now)) :
    (i < j ∧ ∃ entry, waiting (ops.take j) i = some entry ∧ entry.1 ≤ now) ↔ First ops i j := by
  constructor
  · rintro ⟨before, ⟨deadline, item⟩, waits, reached⟩
    obtain ⟨put, early⟩ := waiting_eq_some_iff.mp waits
    rw [List.getElem?_take_of_lt before] at put
    refine ⟨before, deadline, item, now, put, drain, reached, fun k now' above below drain' => ?_⟩
    exact early k now' above (by rwa [List.getElem?_take_of_lt below])
  · rintro ⟨before, deadline, item, now', put, drain', reached, early⟩
    obtain rfl : now = now' := by simpa using drain.symm.trans drain'
    refine ⟨before, (deadline, item), waiting_eq_some_iff.mpr ⟨?_, ?_⟩, reached⟩
    · rwa [List.getElem?_take_of_lt before]
    · intro k now' above at_
      rw [List.getElem?_take] at at_
      split at at_
      · rename_i below
        exact early k now' above below at_
      · cases at_

/-- An item is taken by one drain at most. -/
theorem First.unique {j' : ℕ} (first : First ops i j) (first' : First ops i j') : j = j' := by
  obtain ⟨before, deadline, item, now, put, drain, reached, early⟩ := first
  obtain ⟨before', deadline', item', now', put', drain', reached', early'⟩ := first'
  obtain ⟨rfl, rfl⟩ : deadline = deadline' ∧ item = item' := by simpa using put.symm.trans put'
  rcases lt_trichotomy j j' with less | same | less
  · exact absurd reached (not_le.mpr (early' j now before less drain))
  · exact same
  · exact absurd reached' (not_le.mpr (early j' now' before' less drain'))

/-- An item that some drain reaches is taken, by that drain or by an earlier one. -/
theorem exists_first {deadline now : τ} {item : α} (put : ops[i]? = some (.put deadline item))
    (drain : ops[j]? = some (.drain now)) (before : i < j) (reached : deadline ≤ now) :
    ∃ k ≤ j, First ops i k := by
  classical
  have some_ : ∃ k, i < k ∧ ∃ now, ops[k]? = some (.drain now) ∧ deadline ≤ now :=
    ⟨j, before, now, drain, reached⟩
  obtain ⟨after_, now', drain', reached'⟩ := Nat.find_spec some_
  refine ⟨Nat.find some_, Nat.find_min' some_ ⟨before, now, drain, reached⟩, after_,
    deadline, item, now', put, drain', reached', ?_⟩
  intro k now'' above below drain''
  by_contra late
  exact Nat.find_min some_ below ⟨above, now'', drain'', not_lt.mp late⟩

/-- A drain takes the items that it is the first to reach, in the order in which they were put. -/
theorem due_eq {now : τ} (drain : ops[j]? = some (.drain now)) :
    ∃ places : List ℕ, places.Pairwise (· < ·) ∧ (∀ i, i ∈ places ↔ First ops i j) ∧
      due (after (ops.take j)) now = places.filterMap (item? ops) := by
  have inside : j < ops.length := (List.getElem?_eq_some_iff.mp drain).1
  let entryAt (i : ℕ) : Option (τ × α) :=
    (waiting (ops.take j) i).filter fun entry => decide (entry.1 ≤ now)
  have same : ∀ i entry, entryAt i = some entry → item? ops i = some entry.2 := by
    rintro i ⟨deadline, item⟩ known
    obtain ⟨put, -⟩ := waiting_eq_some_iff.mp (Option.filter_eq_some_iff.mp known).1
    rw [List.getElem?_take] at put
    split at put
    · exact item?_eq_some_iff.mpr ⟨deadline, put⟩
    · cases put
  obtain ⟨places, ordered, chosen, items⟩ := exists_places ops j entryAt same
  refine ⟨places, ordered, fun i => ?_, ?_⟩
  · rw [chosen, ← waiting_take_iff drain]
    refine and_congr_right fun _ => ?_
    simp only [entryAt, Option.isSome_filter, Option.any_eq_true, decide_eq_true_eq]
  · rw [due, after_eq, List.length_take_of_le (Nat.le_of_lt inside), List.filter_filterMap, ← items]

/-- The items that are left are those that no drain was to take, in the order in which they were
put. -/
theorem left_eq (ops : List (DelayOp τ α)) :
    ∃ places : List ℕ, places.Pairwise (· < ·) ∧
      (∀ i, i ∈ places ↔ (item? ops i).isSome ∧ ∀ j, ¬ First ops i j) ∧
      (after ops).map Prod.snd = places.filterMap (item? ops) := by
  have same : ∀ i entry, waiting ops i = some entry → item? ops i = some entry.2 := by
    rintro i ⟨deadline, item⟩ waits
    exact item?_eq_some_iff.mpr ⟨deadline, (waiting_eq_some_iff.mp waits).1⟩
  obtain ⟨places, ordered, chosen, items⟩ := exists_places ops ops.length (waiting ops) same
  refine ⟨places, ordered, fun i => ?_, by rw [after_eq, items]⟩
  rw [chosen]
  constructor
  · rintro ⟨-, waits⟩
    obtain ⟨⟨deadline, item⟩, waits⟩ := Option.isSome_iff_exists.mp waits
    obtain ⟨put, early⟩ := waiting_eq_some_iff.mp waits
    refine ⟨by rw [same i _ waits]; rfl, ?_⟩
    rintro j ⟨later, deadline', item', now, put', drain, reached, -⟩
    obtain ⟨rfl, -⟩ : deadline = deadline' ∧ item = item' := by simpa using put.symm.trans put'
    exact absurd reached (not_le.mpr (early j now later drain))
  · rintro ⟨isPut, none_⟩
    obtain ⟨item, put⟩ := Option.isSome_iff_exists.mp isPut
    obtain ⟨deadline, put⟩ := item?_eq_some_iff.mp put
    refine ⟨(List.getElem?_eq_some_iff.mp put).1, ?_⟩
    rw [Option.isSome_iff_exists]
    refine ⟨(deadline, item), waiting_eq_some_iff.mpr ⟨put, fun k now later drain => ?_⟩⟩
    by_contra reached
    obtain ⟨j, -, first⟩ := exists_first put drain later (not_lt.mp reached)
    exact none_ j first

end DelayBuffer

end MeshcoreSim.Lib
