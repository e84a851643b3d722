import Mathlib.Data.List.Perm.Basic

/-!
Lists of which only the first element of each key counts.

An element has a key or is passed over. The first element with a key is accepted or not, and the
later ones with this key are passed over either way. Where a first element fails, the whole list
does.

* `accepted_concat`, `unfailing_concat` — one more element.
* `accepted_perm_iff` — the accepted keys do not depend on the order exactly if the elements of each
  key are all accepted or all not.
* `outcome_perm_iff` — the same for lists that may fail.
-/

namespace MeshcoreSim.Lib

variable {α κ : Type} [DecidableEq κ]

/-- The first element with the key is accepted. -/
def Accepted (key : α → Option κ) (accept : α → Prop) (l : List α) (k : κ) : Prop :=
  ∃ x, l.find? (fun x => key x = some k) = some x ∧ accept x

variable {key : α → Option κ} {accept : α → Prop} {l : List α} {k : κ}

theorem find?_key_eq_none_iff :
    l.find? (fun x => key x = some k) = none ↔ ∀ x ∈ l, key x ≠ some k := by
  simp

theorem accepted_cons_of_key {x : α} (here : key x = some k) :
    Accepted key accept (x :: l) k ↔ accept x := by
  simp [Accepted, here]

/-- An element counts if its key is new. -/
theorem accepted_concat (x : α) :
    Accepted key accept (l ++ [x]) k ↔ Accepted key accept l k ∨
      (∀ y ∈ l, key y ≠ some k) ∧ key x = some k ∧ accept x := by
  unfold Accepted
  rw [List.find?_append, ← find?_key_eq_none_iff]
  cases found : l.find? fun x => key x = some k with
  | some y => simp
  | none =>
      by_cases here : key x = some k
      · simp [here]
      · simp [here]

/-- Where the elements of a key agree, any of them decides. -/
theorem accepted_iff_of_agree
    (agree : ∀ x ∈ l, ∀ y ∈ l, ∀ k, key x = some k → key y = some k → (accept x ↔ accept y)) :
    Accepted key accept l k ↔ ∃ x ∈ l, key x = some k ∧ accept x := by
  constructor
  · rintro ⟨x, first, accepted⟩
    exact ⟨x, List.mem_of_find?_eq_some first, by simpa using List.find?_some first, accepted⟩
  · rintro ⟨x, mem, here, accepted⟩
    cases first : l.find? fun x => key x = some k with
    | none => exact absurd here (find?_key_eq_none_iff.mp first x mem)
    | some y =>
        have hereToo : key y = some k := by simpa using List.find?_some first
        have memToo := List.mem_of_find?_eq_some first
        exact ⟨y, first, (agree x mem y memToo k here hereToo).mp accepted⟩

theorem accepted_perm_iff :
    (∀ l' : List α, l'.Perm l → ∀ k, Accepted key accept l' k ↔ Accepted key accept l k) ↔
      ∀ x ∈ l, ∀ y ∈ l, ∀ k, key x = some k → key y = some k → (accept x ↔ accept y) := by
  constructor
  · -- Either element can be the first one.
    intro independent x memX y memY k keyX keyY
    obtain ⟨beforeX, afterX, splitX⟩ := List.append_of_mem memX
    obtain ⟨beforeY, afterY, splitY⟩ := List.append_of_mem memY
    have permX : (x :: (beforeX ++ afterX)).Perm l := splitX ▸ List.perm_middle.symm
    have permY : (y :: (beforeY ++ afterY)).Perm l := splitY ▸ List.perm_middle.symm
    have viaX : accept x ↔ Accepted key accept l k :=
      (accepted_cons_of_key keyX).symm.trans (independent _ permX k)
    have viaY : accept y ↔ Accepted key accept l k :=
      (accepted_cons_of_key keyY).symm.trans (independent _ permY k)
    exact viaX.trans viaY.symm
  · intro agree l' perm k
    have agree' : ∀ x ∈ l', ∀ y ∈ l', ∀ k, key x = some k → key y = some k →
        (accept x ↔ accept y) := fun x memX y memY =>
      agree x (perm.mem_iff.mp memX) y (perm.mem_iff.mp memY)
    rw [accepted_iff_of_agree agree, accepted_iff_of_agree agree']
    simp only [perm.mem_iff]

/-! ### Failure -/

/-- No first element of a key fails. -/
def Unfailing (key : α → Option κ) (fails : α → Prop) (l : List α) : Prop :=
  ∀ k x, l.find? (fun x => key x = some k) = some x → ¬ fails x

variable {fails : α → Prop}

theorem unfailing_concat (x : α) :
    Unfailing key fails (l ++ [x]) ↔
      Unfailing key fails l ∧ ∀ k, key x = some k → (∀ y ∈ l, key y ≠ some k) → ¬ fails x := by
  have first (k : κ) : (l ++ [x]).find? (fun x => key x = some k) =
      (l.find? fun x => key x = some k).or (if key x = some k then some x else none) := by
    rw [List.find?_append]
    by_cases here : key x = some k <;> simp [here]
  unfold Unfailing
  simp only [first, Option.or_eq_some_iff, ← find?_key_eq_none_iff]
  constructor
  · intro sound
    exact ⟨fun k y found => sound k y (.inl found),
      fun k here new => sound k x (.inr ⟨new, if_pos here⟩)⟩
  · rintro ⟨sound, last⟩ k y (found | ⟨new, found⟩)
    · exact sound k y found
    · split_ifs at found with here
      cases found
      exact last k here new

/-- Some key has elements, and all of them fail. -/
def Doomed (key : α → Option κ) (fails : α → Prop) (l : List α) : Prop :=
  ∃ k, (∃ x ∈ l, key x = some k) ∧ ∀ x ∈ l, key x = some k → fails x

theorem Doomed.not_unfailing (doomed : Doomed key fails l) : ¬ Unfailing key fails l := by
  obtain ⟨k, ⟨x, mem, here⟩, all⟩ := doomed
  intro sound
  cases first : l.find? fun x => key x = some k with
  | none => exact find?_key_eq_none_iff.mp first x mem here
  | some y =>
      exact sound k y first
        (all y (List.mem_of_find?_eq_some first) (by simpa using List.find?_some first))

/-- Elements that do not fail can be put first. -/
theorem exists_perm_unfailing (saved : ¬ Doomed key fails l) :
    ∃ l', l'.Perm l ∧ Unfailing key fails l' := by
  classical
  refine ⟨l.filter (fun x => ¬ fails x) ++ l.filter fun x => ¬ ¬ fails x, ?_, fun k x first => ?_⟩
  · simpa using List.filter_append_perm (fun x => decide ¬ fails x) l
  · rw [List.find?_append] at first
    cases good : (l.filter fun x => ¬ fails x).find? fun x => key x = some k with
    | some y =>
        rw [good, Option.some_or] at first
        obtain rfl := Option.some.inj first
        simpa using (List.mem_filter.mp (List.mem_of_find?_eq_some good)).2
    | none =>
        intro bad
        rw [good, Option.none_or] at first
        have mem := (List.mem_filter.mp (List.mem_of_find?_eq_some first)).1
        have here : key x = some k := by simpa using List.find?_some first
        refine saved ⟨k, ⟨x, mem, here⟩, fun y memY hereY => ?_⟩
        by_contra fine
        have works : y ∈ l.filter fun x => ¬ fails x :=
          List.mem_filter.mpr ⟨memY, by simpa using fine⟩
        exact find?_key_eq_none_iff.mp good y works hereY

/-- An element that fails can be put first. -/
theorem exists_perm_failing {x : α} (mem : x ∈ l) (here : key x = some k) (bad : fails x) :
    ∃ l', l'.Perm l ∧ ¬ Unfailing key fails l' := by
  obtain ⟨before, after, rfl⟩ := List.append_of_mem mem
  refine ⟨x :: (before ++ after), List.perm_middle.symm, fun sound => ?_⟩
  exact sound k x (by simp [here]) bad

/-- Whether the list fails, and what is accepted if not, does not depend on the order exactly if it
fails in every order, or no element with a key fails and those of each key are all accepted or all
not. -/
theorem outcome_perm_iff :
    (∀ l' : List α, l'.Perm l → (Unfailing key fails l' ↔ Unfailing key fails l) ∧
      (Unfailing key fails l → ∀ k, Accepted key accept l' k ↔ Accepted key accept l k)) ↔
      Doomed key fails l ∨ (∀ x ∈ l, (key x).isSome → ¬ fails x) ∧
        ∀ x ∈ l, ∀ y ∈ l, ∀ k, key x = some k → key y = some k → (accept x ↔ accept y) := by
  have unfailing_of_none {l : List α} (none : ∀ x ∈ l, (key x).isSome → ¬ fails x) :
      Unfailing key fails l := by
    intro k x first
    have here : key x = some k := by simpa using List.find?_some first
    exact none x (List.mem_of_find?_eq_some first) (by simp [here])
  constructor
  · intro independent
    by_cases doomed : Doomed key fails l
    · exact .inl doomed
    · obtain ⟨l', perm, sound'⟩ := exists_perm_unfailing doomed
      have sound := (independent l' perm).1.mp sound'
      refine .inr ⟨fun x mem hasKey bad => ?_, accepted_perm_iff.mp fun l' perm =>
        (independent l' perm).2 sound⟩
      obtain ⟨k, here⟩ := Option.isSome_iff_exists.mp hasKey
      obtain ⟨l'', perm', unsound⟩ := exists_perm_failing mem here bad
      exact unsound ((independent l'' perm').1.mpr sound)
  · rintro (doomed | ⟨none, agree⟩) l' perm
    · have doomed' : Doomed key fails l' := by
        obtain ⟨k, ⟨x, mem, here⟩, all⟩ := doomed
        exact ⟨k, ⟨x, perm.mem_iff.mpr mem, here⟩, fun y mem => all y (perm.mem_iff.mp mem)⟩
      exact ⟨iff_of_false doomed'.not_unfailing doomed.not_unfailing,
        fun sound => absurd sound doomed.not_unfailing⟩
    · have none' : ∀ x ∈ l', (key x).isSome → ¬ fails x := fun x mem =>
        none x (perm.mem_iff.mp mem)
      exact ⟨iff_of_true (unfailing_of_none none') (unfailing_of_none none),
        fun _ => accepted_perm_iff.mpr agree l' perm⟩

end MeshcoreSim.Lib
