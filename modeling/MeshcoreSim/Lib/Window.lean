import Mathlib.Algebra.Order.Field.Basic
import Mathlib.Tactic.Linarith

/-!
Half-open windows of time and how long two of them overlap.

A `Window K` is a pair of endpoints in a linearly ordered field. Two windows
overlap when each starts before the other stops, so touching windows do not
overlap. `overlap` is the length of the common part; it is meaningful (positive)
for overlapping windows that are themselves non-empty.

* `overlap_le_of_stop_le` — a window that stops by `c` covers at most the first
  `c - start` of the other one.
* `overlap_le_iff_tail` — a window longer than `f` that starts inside another one
  overlaps it by at most `f` exactly when it only reaches that one's last `f`.
* `overlap_le_of_within` — shrinking a window shrinks the overlap.
-/

namespace MeshcoreSim.Lib

/-- A window of time, from `start` to `stop`. -/
structure Window (K : Type) where
  start : K
  stop : K
  deriving DecidableEq

namespace Window

variable {K : Type} [Field K] {a b : Window K} {c d f : K}

/-- The length of a window. -/
def length (a : Window K) : K := a.stop - a.start

/-- The window seen after a delay. -/
def shift (a : Window K) (d : K) : Window K := ⟨a.start + d, a.stop + d⟩

@[simp] theorem length_shift (a : Window K) (d : K) : (a.shift d).length = a.length := by
  simp [length, shift]

variable [LinearOrder K]

/-- Each window starts before the other stops. -/
def Overlaps (a b : Window K) : Prop := a.start < b.stop ∧ b.start < a.stop

instance (a b : Window K) : Decidable (Overlaps a b) := inferInstanceAs (Decidable (_ ∧ _))

/-- The length of the common part of two overlapping windows. -/
def overlap (a b : Window K) : K := min a.stop b.stop - max a.start b.start

omit [Field K] in
theorem Overlaps.symm (h : Overlaps a b) : Overlaps b a := ⟨h.2, h.1⟩

theorem overlap_comm (a b : Window K) : overlap a b = overlap b a := by
  simp only [overlap, min_comm, max_comm]

/-- `a` neither starts before `b` nor stops after it. -/
def Within (a b : Window K) : Prop := b.start ≤ a.start ∧ a.stop ≤ b.stop

variable [IsStrictOrderedRing K]

theorem Within.shift (within : Within a b) (d : K) : Within (a.shift d) (b.shift d) :=
  ⟨add_le_add_left within.1 d, add_le_add_left within.2 d⟩

/-- A window within another one has no longer overlap with a third one. -/
theorem overlap_le_of_within {p : Window K} (within : Within a b) : overlap p a ≤ overlap p b :=
  sub_le_sub (min_le_min_left _ within.2) (max_le_max_left _ within.1)

/-- An overlap is no longer than the first window. -/
theorem overlap_le_length (a b : Window K) : overlap a b ≤ a.length :=
  sub_le_sub (min_le_left _ _) (le_max_left _ _)

/-- Two windows that are not empty and overlap have a common part. -/
theorem overlap_pos (overlaps : Overlaps a b) (nonemptyA : 0 < a.length)
    (nonemptyB : 0 < b.length) : 0 < overlap a b := by
  unfold length at nonemptyA nonemptyB
  rw [overlap, sub_pos, max_lt_iff, lt_min_iff, lt_min_iff]
  exact ⟨⟨sub_pos.mp nonemptyA, overlaps.1⟩, overlaps.2, sub_pos.mp nonemptyB⟩

/-- A window that has stopped by `c` covers at most the first `c - a.start` of `a`. -/
theorem overlap_le_of_stop_le (h : b.stop ≤ c) : overlap a b ≤ c - a.start :=
  sub_le_sub ((min_le_right _ _).trans h) (le_max_left _ _)

/-- When `b` is longer than `f` and starts inside `a`, the overlap is at most `f`
exactly when `b` only reaches the last `f` of `a`. -/
theorem overlap_le_iff_tail (long : f < b.length) (inside : a.start < b.start) :
    overlap a b ≤ f ↔ a.stop - f ≤ b.start := by
  unfold length at long
  unfold overlap
  rw [max_eq_right inside.le]
  rcases le_total a.stop b.stop with outlasts | contained
  · rw [min_eq_left outlasts]
    constructor <;> intro h <;> linarith
  · rw [min_eq_right contained]
    constructor <;> intro h <;> linarith

end Window

end MeshcoreSim.Lib
