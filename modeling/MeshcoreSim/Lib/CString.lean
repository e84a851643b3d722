import Mathlib.Data.List.TakeWhile

/-!
C strings, as the memory that their pointers may read.

A pointer is the list of the bytes from its target to the end of that memory; it is moved on by
dropping bytes. To read through the empty list is to read out of bounds, and a function that does
so returns `none`.

* `strstr_found`, `strstr_skip` — where a search ends, and what it passes.
* `strstr_inBounds` — a search stops at the NUL, or before it.
-/

namespace MeshcoreSim.Lib.CString

abbrev Pointer := List UInt8

/-- The string in a buffer: its bytes up to the first NUL, and the NUL. -/
def cstr (buffer : List UInt8) : Pointer := buffer.takeWhile (· ≠ 0) ++ [0]

/-- There is a NUL to stop at. -/
def Terminated (p : Pointer) : Prop := 0 ∈ p

/-- `strstr`, with the null pointer as the inner `none`. -/
def strstr (needle : List UInt8) : Pointer → Option (Option Pointer)
  | [] => none
  | c :: p =>
      if needle <+: c :: p then some (some (c :: p))
      else if c = 0 then some none
      else strstr needle p

theorem cstr_of_noNul {bytes : List UInt8} (noNul : 0 ∉ bytes) : cstr bytes = bytes ++ [0] := by
  unfold cstr
  rw [List.takeWhile_eq_self_iff.mpr]
  intro c mem
  have nonzero : c ≠ 0 := fun zero => noNul (zero ▸ mem)
  simpa using nonzero

theorem terminated_cstr (buffer : List UInt8) : Terminated (cstr buffer) := by
  simp [Terminated, cstr]

theorem Terminated.ne_nil {p : Pointer} (terminated : Terminated p) : p ≠ [] :=
  List.ne_nil_of_mem terminated

/-- Past a byte that is no NUL there still is one. -/
theorem Terminated.tail {c : UInt8} {p : Pointer} (terminated : Terminated (c :: p))
    (nonzero : c ≠ 0) : Terminated p :=
  (List.mem_cons.mp terminated).resolve_left nonzero.symm

/-- Past a prefix without a NUL there still is one. -/
theorem Terminated.drop {s p : Pointer} (terminated : Terminated (s ++ p)) (noNul : 0 ∉ s) :
    Terminated p :=
  (List.mem_append.mp terminated).resolve_left noNul

variable {needle : List UInt8}

theorem strstr_found (needle rest : List UInt8) (nonempty : needle ≠ []) :
    strstr needle (needle ++ rest) = some (some (needle ++ rest)) := by
  cases needle with
  | nil => exact absurd rfl nonempty
  | cons c needle => exact if_pos (List.prefix_append _ _)

theorem strstr_skip {c : UInt8} {p : Pointer} (other : ¬ needle <+: c :: p) (nonzero : c ≠ 0) :
    strstr needle (c :: p) = strstr needle p := by
  rw [strstr, if_neg other, if_neg nonzero]

/-- A search passes over a byte that the needle does not begin with. -/
theorem strstr_pass {first c : UInt8} {p : Pointer} (other : c ≠ first) (nonzero : c ≠ 0) :
    strstr (first :: needle) (c :: p) = strstr (first :: needle) p :=
  strstr_skip (fun found => other (List.cons_prefix_cons.mp found).1.symm) nonzero

theorem strstr_append {first : UInt8} {s p : Pointer}
    (others : ∀ c ∈ s, c ≠ first ∧ c ≠ 0) :
    strstr (first :: needle) (s ++ p) = strstr (first :: needle) p := by
  induction s with
  | nil => rfl
  | cons c s ih =>
      obtain ⟨other, nonzero⟩ := others c List.mem_cons_self
      rw [List.cons_append, strstr_pass other nonzero,
        ih fun c mem => others c (List.mem_cons_of_mem _ mem)]

/-- A search reads no further than the NUL, and what it finds lies before it. -/
theorem strstr_inBounds (noNul : 0 ∉ needle) {p : Pointer} (terminated : Terminated p) :
    strstr needle p = some none ∨
      ∃ rest, strstr needle p = some (some (needle ++ rest)) ∧ Terminated rest := by
  induction p with
  | nil => exact absurd rfl terminated.ne_nil
  | cons c p ih =>
      rw [strstr]
      by_cases found : needle <+: c :: p
      · obtain ⟨rest, eq⟩ := found
        refine Or.inr ⟨rest, ?_, Terminated.drop (eq ▸ terminated) noNul⟩
        rw [if_pos ⟨rest, eq⟩, eq]
      · rw [if_neg found]
        by_cases zero : c = 0
        · exact Or.inl (if_pos zero)
        · rw [if_neg zero]
          exact ih (terminated.tail zero)

end MeshcoreSim.Lib.CString
