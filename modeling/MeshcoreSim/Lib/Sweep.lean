import Mathlib.Data.List.Nodup
import Mathlib.Data.List.Perm.Basic

/-!
Arrays that are kept without gaps.

`sweep f` walks over an array in place. The element at the current place is kept, in the form that
`f` gives it, or removed: then the last element moves into its place and is looked at next. The
outer `Option` of `f` is a failure, which ends the walk.

`modifyFirst` writes through a pointer to the first element with a property.

* `sweep_perm` — a sweep is `List.filterMap`, up to the order of the elements.
* `find?_modifyFirst` — reading after such a write.
* `forall₂_filter_modifyFirst` — what it leaves of the elements with a property.
* `Follow.trans` — elements that move and change, over two steps.
* `find?_eq_some_iff_mem`, `find?_filterMap` — arrays whose elements have distinct keys.
-/

namespace MeshcoreSim.Lib

variable {α κ : Type}

/-- Move the last element into place `i`, and forget the last place. -/
def swapRemove (i : ℕ) (l : List α) : List α :=
  match l.getLast? with
  | none => []
  | some last => (l.set i last).dropLast

def sweepLoop (f : α → Option (Option α)) : ℕ → ℕ → List α → Option (List α)
  | 0, _, l => some l
  | fuel + 1, i, l =>
      match l[i]? with
      | none => some l
      | some x =>
          match f x with
          | none => none
          | some none => sweepLoop f fuel i (swapRemove i l)
          | some (some y) => sweepLoop f fuel (i + 1) (l.set i y)

/-- Every round of the loop moves on or shortens the array, so its length is fuel enough. -/
def sweep (f : α → Option (Option α)) (l : List α) : Option (List α) := sweepLoop f l.length 0 l

theorem swapRemove_append_last (before : List α) (x : α) :
    swapRemove before.length (before ++ [x]) = before := by
  simp [swapRemove]

theorem swapRemove_append (before after : List α) (x last : α) :
    swapRemove before.length (before ++ x :: (after ++ [last])) = before ++ last :: after := by
  have shape : before ++ x :: (after ++ [last]) = (before ++ x :: after) ++ [last] := by simp
  rw [swapRemove, shape, List.getLast?_concat]
  simp only
  rw [← shape, List.set_append_right _ _ (Nat.le_refl _), Nat.sub_self, List.set_cons_zero]
  have shape' : before ++ last :: (after ++ [last]) = (before ++ last :: after) ++ [last] := by simp
  rw [shape', List.dropLast_concat]

/-- The loop from a place on: what is before it stays, and what is kept of the rest follows in
some order. -/
theorem sweepLoop_perm {f : α → Option (Option α)} {g : α → Option α} {fuel : ℕ}
    (before : List α) {rest : List α} (enough : rest.length ≤ fuel)
    (total : ∀ x ∈ rest, f x = some (g x)) :
    ∃ l, sweepLoop f fuel before.length (before ++ rest) = some l ∧
      l.Perm (before ++ rest.filterMap g) := by
  induction fuel generalizing before rest with
  | zero =>
      obtain rfl : rest = [] := List.length_eq_zero_iff.mp (by omega)
      exact ⟨_, rfl, by simp⟩
  | succ fuel ih =>
      cases rest with
      | nil => exact ⟨before, by simp [sweepLoop], by simp⟩
      | cons x rest =>
          have here : (before ++ x :: rest)[before.length]? = some x := by simp
          have value := total x List.mem_cons_self
          rw [sweepLoop, here]
          simp only [value]
          cases kept : g x with
          | some y =>
              have moved : (before ++ x :: rest).set before.length y = (before ++ [y]) ++ rest := by
                simp
              have place : before.length + 1 = (before ++ [y]).length := by simp
              obtain ⟨l, swept, perm⟩ := @ih (before ++ [y]) rest
                (Nat.le_of_succ_le_succ enough) fun z mem => total z (List.mem_cons_of_mem _ mem)
              refine ⟨l, ?_, ?_⟩
              · simp only
                rw [moved, place, swept]
              · rw [List.filterMap_cons_some kept]
                simpa using perm
          | none =>
              rw [List.filterMap_cons_none kept]
              simp only
              rcases List.eq_nil_or_concat rest with rfl | ⟨after, last, rfl⟩
              · rw [swapRemove_append_last]
                have swept := @ih before [] (Nat.zero_le _) nofun
                simpa using swept
              · rw [List.concat_eq_append, swapRemove_append]
                have rotated : (last :: after).Perm (after ++ [last]) :=
                  (List.perm_append_singleton last after).symm
                obtain ⟨l, swept, perm⟩ := @ih before (last :: after)
                  (by simpa using enough) fun z mem =>
                    total z (List.mem_cons_of_mem _ (by simpa using rotated.mem_iff.mp mem))
                exact ⟨l, swept, perm.trans ((rotated.filterMap g).append_left before)⟩

theorem sweep_perm {f : α → Option (Option α)} {g : α → Option α} {l : List α}
    (total : ∀ x ∈ l, f x = some (g x)) :
    ∃ l', sweep f l = some l' ∧ l'.Perm (l.filterMap g) :=
  sweepLoop_perm [] (Nat.le_refl _) total

/-- Write through a pointer to the first element with a property. -/
def modifyFirst (p : α → Bool) (f : α → α) : List α → List α
  | [] => []
  | x :: l => if p x then f x :: l else x :: modifyFirst p f l

/-- What is in the array after the write was there before, or is what was written. -/
theorem mem_modifyFirst {p : α → Bool} {f : α → α} {l : List α} {y : α}
    (mem : y ∈ modifyFirst p f l) : y ∈ l ∨ ∃ x ∈ l, l.find? p = some x ∧ y = f x := by
  induction l with
  | nil => cases mem
  | cons x l ih =>
      rw [modifyFirst] at mem
      by_cases found : p x = true
      · rw [if_pos found] at mem
        rcases List.mem_cons.mp mem with rfl | mem
        · exact Or.inr ⟨x, List.mem_cons_self, List.find?_cons_of_pos found, rfl⟩
        · exact Or.inl (List.mem_cons_of_mem _ mem)
      · rw [if_neg found] at mem
        rcases List.mem_cons.mp mem with rfl | mem
        · exact Or.inl List.mem_cons_self
        · rcases ih mem with old | ⟨z, old, first, rfl⟩
          · exact Or.inl (List.mem_cons_of_mem _ old)
          · exact Or.inr ⟨z, List.mem_cons_of_mem _ old,
              (List.find?_cons_of_neg found).trans first, rfl⟩

theorem map_modifyFirst {p : α → Bool} {f : α → α} {key : α → κ} (kept : ∀ x, key (f x) = key x)
    (l : List α) : (modifyFirst p f l).map key = l.map key := by
  induction l with
  | nil => rfl
  | cons x l ih =>
      rw [modifyFirst]
      split <;> simp [kept, ih]

/-- A write changes the number of elements with a property by one at most. -/
theorem countP_modifyFirst_le (p q : α → Bool) (f : α → α) (l : List α) :
    (modifyFirst p f l).countP q ≤ l.countP q + 1 := by
  induction l with
  | nil => exact Nat.zero_le _
  | cons x l ih =>
      rw [modifyFirst]
      split
      · rw [List.countP_cons, List.countP_cons]
        split <;> split <;> omega
      · rw [List.countP_cons, List.countP_cons]
        omega

/-- It does not raise the number where what is written does not have the property, unless the
element that was there had it. -/
theorem countP_modifyFirst_of_imp {p q : α → Bool} {f : α → α}
    (imp : ∀ x, q (f x) = true → q x = true) (l : List α) :
    (modifyFirst p f l).countP q ≤ l.countP q := by
  induction l with
  | nil => exact Nat.zero_le _
  | cons x l ih =>
      rw [modifyFirst]
      split
      · rw [List.countP_cons, List.countP_cons]
        have := imp x
        split <;> split <;> simp_all
      · rw [List.countP_cons, List.countP_cons]
        omega

/-- Among the elements with a property that the write does not change, it rewrites one at most. -/
theorem forall₂_filter_modifyFirst {p q : α → Bool} {f : α → α} {R : α → α → Prop} {l : List α}
    (same : ∀ x, q (f x) = q x) (refl : ∀ x, q x = true → R x x)
    (write : ∀ x, l.find? p = some x → q x = true → R x (f x)) :
    List.Forall₂ R (l.filter q) ((modifyFirst p f l).filter q) := by
  have unchanged (l : List α) : List.Forall₂ R (l.filter q) (l.filter q) :=
    List.forall₂_same.mpr fun x mem => refl x (List.mem_filter.mp mem).2
  induction l with
  | nil => exact .nil
  | cons x l ih =>
      rw [modifyFirst]
      cases found : p x with
      | true =>
          rw [if_pos rfl, List.filter_cons, List.filter_cons, same]
          cases holds : q x with
          | true => exact .cons (write x (List.find?_cons_of_pos found) holds) (unchanged l)
          | false => exact unchanged l
      | false =>
          have rest := ih fun y first holds =>
            write y ((List.find?_cons_of_neg (by simp [found])).trans first) holds
          rw [if_neg Bool.false_ne_true, List.filter_cons, List.filter_cons]
          cases holds : q x with
          | true => exact .cons (refl x holds) rest
          | false => exact rest

/-- Replacing an element without a property by another one without it. -/
theorem filter_set_of_neg {q : α → Bool} {l : List α} {i : ℕ} {x y : α} (here : l[i]? = some x)
    (old : q x = false) (new : q y = false) : (l.set i y).filter q = l.filter q := by
  induction l generalizing i with
  | nil => rfl
  | cons z l ih =>
      cases i with
      | zero =>
          obtain rfl : z = x := Option.some.inj here
          rw [List.set_cons_zero, List.filter_cons_of_neg (by simp [new]),
            List.filter_cons_of_neg (by simp [old])]
      | succ i => rw [List.set_cons_succ, List.filter_cons, List.filter_cons, ih here]

/-- Reading by key after a write to the element with a key. -/
theorem find?_modifyFirst [DecidableEq κ] {key : α → κ} {f : α → α}
    (kept : ∀ x, key (f x) = key x) (k k' : κ) (l : List α) :
    (modifyFirst (fun x => key x = k) f l).find? (fun x => key x = k') =
      if k' = k then (l.find? fun x => key x = k').map f else l.find? fun x => key x = k' := by
  induction l with
  | nil => simp [modifyFirst]
  | cons x l ih =>
      rw [modifyFirst]
      by_cases here : key x = k
      · by_cases same : k' = k
        · subst same
          simp [here, kept]
        · have other : ¬ k = k' := fun eq => same eq.symm
          simp [here, kept, same, other]
      · by_cases same : k' = k
        · subst same
          simp only [if_true] at ih
          simp [here, ih]
        · simp only [if_neg same] at ih
          by_cases there : key x = k'
          · simp [same, there]
          · simp [here, same, there, ih]

/-! ### Elements that move -/

/-- The elements of an array at other places and in another form: each follows one of before. -/
def Follow {β : Type} (R : α → β → Prop) (l : List α) (l' : List β) : Prop :=
  ∃ kept : List β, kept.Perm l' ∧ List.Forall₂ R l kept

theorem Follow.refl {R : α → α → Prop} {l : List α} (refl : ∀ x ∈ l, R x x) : Follow R l l :=
  ⟨l, .refl l, List.forall₂_same.mpr refl⟩

/-- In an array with the same elements they may as well stand elsewhere. -/
theorem Follow.of_perm {β : Type} {R : α → β → Prop} {l m : List α} {n : List β}
    (perm : m.Perm l) (follow : Follow R m n) : Follow R l n := by
  obtain ⟨kept, same, related⟩ := follow
  obtain ⟨kept', related', same'⟩ := List.perm_comp_forall₂ perm.symm related
  exact ⟨kept', same'.trans same, related'⟩

/-- What holds of all elements of the later array is known of the one that follows. -/
theorem Follow.imp {β : Type} {R T : α → β → Prop} {l : List α} {l' : List β}
    (follow : Follow R l l') (imp : ∀ x, ∀ y ∈ l', R x y → T x y) : Follow T l l' := by
  obtain ⟨kept, perm, related⟩ := follow
  refine ⟨kept, perm, List.forall₂_iff_zip.mpr ⟨related.length_eq, fun pair => ?_⟩⟩
  exact imp _ _ (perm.mem_iff.mp (List.of_mem_zip pair).2) (List.forall₂_zip related pair)

theorem Follow.trans {β γ : Type} {R : α → β → Prop} {S : β → γ → Prop} {T : α → γ → Prop}
    {l : List α} {m : List β} {n : List γ} (first : Follow R l m) (second : Follow S m n)
    (both : ∀ x y z, R x y → S y z → T x z) : Follow T l n := by
  obtain ⟨kept, perm, related⟩ := first
  obtain ⟨kept', perm', related'⟩ := second.of_perm perm.symm
  refine ⟨kept', perm', ?_⟩
  clear perm perm' second
  induction related generalizing kept' with
  | nil =>
      cases related'
      exact .nil
  | cons here _ ih =>
      obtain - | ⟨here', rest⟩ := related'
      exact .cons (both _ _ _ here here') (ih _ rest)

/-! ### Distinct keys -/

section

variable [DecidableEq κ] {key : α → κ} {l l' : List α}

/-- Reading by key finds the element that has it. -/
theorem find?_eq_some_iff_mem (distinct : (l.map key).Nodup) {k : κ} {x : α} :
    l.find? (fun x => key x = k) = some x ↔ x ∈ l ∧ key x = k := by
  constructor
  · intro found
    exact ⟨List.mem_of_find?_eq_some found, by simpa using List.find?_some found⟩
  · rintro ⟨mem, rfl⟩
    cases found : l.find? (fun y => key y = key x) with
    | none => exact absurd (decide_eq_true rfl) (List.find?_eq_none.mp found x mem)
    | some y =>
        have same : key y = key x := by simpa using List.find?_some found
        rw [List.inj_on_of_nodup_map distinct (List.mem_of_find?_eq_some found) mem same]

theorem find?_perm (distinct : (l.map key).Nodup) (perm : l'.Perm l) (k : κ) :
    l'.find? (fun x => key x = k) = l.find? fun x => key x = k := by
  have distinct' : (l'.map key).Nodup := (perm.map key).nodup_iff.mpr distinct
  ext x
  rw [find?_eq_some_iff_mem distinct', find?_eq_some_iff_mem distinct, perm.mem_iff]

omit [DecidableEq κ] in
theorem nodup_filterMap {g : α → Option α} (kept : ∀ x y, g x = some y → key y = key x)
    (distinct : (l.map key).Nodup) : ((l.filterMap g).map key).Nodup := by
  refine distinct.sublist ?_
  induction l with
  | nil => simp
  | cons x l ih =>
      have rest := ih (List.nodup_cons.mp distinct).2
      cases image : g x with
      | none =>
          rw [List.filterMap_cons_none image]
          exact rest.cons _
      | some y =>
          rw [List.filterMap_cons_some image, List.map_cons, List.map_cons, kept x y image]
          exact rest.cons_cons _

/-- Reading by key after every element has been changed or removed. -/
theorem find?_filterMap {g : α → Option α} (kept : ∀ x y, g x = some y → key y = key x)
    (distinct : (l.map key).Nodup) (k : κ) :
    (l.filterMap g).find? (fun x => key x = k) = (l.find? fun x => key x = k).bind g := by
  ext y
  rw [find?_eq_some_iff_mem (nodup_filterMap kept distinct), List.mem_filterMap,
    Option.bind_eq_some_iff]
  constructor
  · rintro ⟨⟨x, mem, image⟩, rfl⟩
    exact ⟨x, (find?_eq_some_iff_mem distinct).mpr ⟨mem, (kept x y image).symm⟩, image⟩
  · rintro ⟨x, found, image⟩
    obtain ⟨mem, rfl⟩ := (find?_eq_some_iff_mem distinct).mp found
    exact ⟨⟨x, mem, image⟩, kept x y image⟩

end

end MeshcoreSim.Lib
