import Mathlib.Algebra.Group.Units.Basic
import Mathlib.Data.BitVec
import Mathlib.Logic.Function.Basic

/-!
Mixing steps of pseudo-random generators that lose nothing.

A word xor its own shift determines the word: the bits that the shift leaves alone are there, and
each of them gives the next ones.

* `xorShiftRight_injective`, `xorShiftLeft_injective` — for every shift by at least one bit.
* `rotate_eq_zero` — a rotation of a word other than zero is not zero.
-/

namespace MeshcoreSim.Lib.WordMixing

variable {w k : ℕ}

theorem xorShiftRight_injective (positive : 0 < k) :
    Function.Injective fun z : BitVec w => z ^^^ (z >>> k) := by
  intro z z' same
  -- From the highest bit down, where the shift brings in zeros.
  have bits : ∀ distance i, w ≤ i + distance → z.getLsbD i = z'.getLsbD i := by
    intro distance
    induction distance using Nat.strong_induction_on with
    | _ distance ih =>
        intro i near
        by_cases inside : i < w
        · have here := congrArg (fun word => BitVec.getLsbD word i) same
          simp only [BitVec.getLsbD_xor, BitVec.getLsbD_ushiftRight] at here
          have higher : z.getLsbD (k + i) = z'.getLsbD (k + i) :=
            ih (distance - 1) (by omega) (k + i) (by omega)
          rwa [higher, Bool.xor_left_inj] at here
        · rw [BitVec.getLsbD_of_ge _ _ (not_lt.mp inside),
            BitVec.getLsbD_of_ge _ _ (not_lt.mp inside)]
  exact BitVec.eq_of_getLsbD_eq fun i inside => bits w i (Nat.le_add_left _ _)

theorem xorShiftLeft_injective (positive : 0 < k) :
    Function.Injective fun z : BitVec w => z ^^^ (z <<< k) := by
  intro z z' same
  -- From the lowest bit up.
  have bits : ∀ i, z.getLsbD i = z'.getLsbD i := by
    intro i
    induction i using Nat.strong_induction_on with
    | _ i ih =>
        by_cases inside : i < w
        · have here := congrArg (fun word => BitVec.getLsbD word i) same
          simp only [BitVec.getLsbD_xor, BitVec.getLsbD_shiftLeft] at here
          by_cases low : i < k
          · simpa [low] using here
          · rwa [ih (i - k) (by omega), Bool.xor_left_inj] at here
        · rw [BitVec.getLsbD_of_ge _ _ (not_lt.mp inside),
            BitVec.getLsbD_of_ge _ _ (not_lt.mp inside)]
  exact BitVec.eq_of_getLsbD_eq fun i _ => bits i

/-- Every bit of the word is in one of the two halves of the rotation. -/
theorem rotate_eq_zero {z : BitVec w} (inside : k ≤ w)
    (zero : z <<< k ||| z >>> (w - k) = 0#w) : z = 0#w := by
  refine BitVec.eq_of_getLsbD_eq fun i within => ?_
  by_cases high : w - k ≤ i
  · have there := congrArg (fun word => BitVec.getLsbD word (i - (w - k))) zero
    have place : w - k + (i - (w - k)) = i := by omega
    simp only [BitVec.getLsbD_or, BitVec.getLsbD_ushiftRight, place, BitVec.getLsbD_zero] at there
    rw [(Bool.or_eq_false_iff.mp there).2, BitVec.getLsbD_zero]
  · have there := congrArg (fun word => BitVec.getLsbD word (i + k)) zero
    have bounds : i + k < w ∧ ¬ i + k < k := by omega
    simp only [BitVec.getLsbD_or, BitVec.getLsbD_shiftLeft, BitVec.getLsbD_zero,
      Nat.add_sub_cancel] at there
    have first := (Bool.or_eq_false_iff.mp there).1
    simpa [bounds] using first

end MeshcoreSim.Lib.WordMixing
