import Mathlib.Algebra.BigOperators.Group.List.Basic
import Mathlib.Algebra.GroupWithZero.Nat
import Mathlib.Data.List.Induction
import Mathlib.Data.List.Nodup

/-!
Insertion-ordered dictionaries.

A `Dict κ ν` is a list of key-value entries with pairwise distinct keys, in the
order in which the keys were first inserted. Writing an existing key keeps its
place; writing a new key appends it. These are the laws of the built-in mapping
of several languages, and iteration order is observable: whoever walks the
entries and stops at the first hit sees the oldest one.

The key facts are `get?_set` (reading after a write), `mem_entries_iff` (an entry
is there exactly when reading its key returns it), `mem_entries_set` (what a
write does to the entries), and the accounting lemmas for `sumBy`, which say how
the total of a measure over the values changes with one write.
-/

namespace MeshcoreSim.Lib

variable {κ ν μ : Type}

/-- Overwrite the entry of `k` in place, or append a new one. -/
def setEntry [DecidableEq κ] (k : κ) (v : ν) : List (κ × ν) → List (κ × ν)
  | [] => [(k, v)]
  | (k', v') :: rest => if k' = k then (k, v) :: rest else (k', v') :: setEntry k v rest

/-- A write keeps the keys, and appends the written one when it is new. -/
theorem keys_setEntry [DecidableEq κ] (k : κ) (v : ν) (l : List (κ × ν)) :
    (setEntry k v l).map Prod.fst =
      if k ∈ l.map Prod.fst then l.map Prod.fst else l.map Prod.fst ++ [k] := by
  induction l with
  | nil => simp [setEntry]
  | cons e rest ih =>
    obtain ⟨k', v'⟩ := e
    by_cases same : k' = k
    · subst same
      simp [setEntry]
    · have other : ¬ k = k' := fun h => same h.symm
      simp only [setEntry, if_neg same, List.map_cons, ih, List.mem_cons, other, false_or]
      split <;> simp

/-- Reading the head entry or reading on. -/
theorem lookup_cons_ite [DecidableEq κ] (k k' : κ) (v : ν) (l : List (κ × ν)) :
    ((k', v) :: l).lookup k = if k = k' then some v else l.lookup k := by
  by_cases h : k = k'
  · simp [h]
  · have : (k == k') = false := by simpa using h
    simp [List.lookup_cons, this, h]

/-- An insertion-ordered dictionary: its entries, with pairwise distinct keys. -/
structure Dict (κ ν : Type) where
  entries : List (κ × ν)
  nodup : (entries.map Prod.fst).Nodup

namespace Dict

/-- The dictionary without entries. -/
def empty : Dict κ ν := ⟨[], List.nodup_nil⟩

/-- The keys, oldest first. -/
def keys (d : Dict κ ν) : List κ := d.entries.map Prod.fst

/-- The values, in the order of their keys. -/
def values (d : Dict κ ν) : List ν := d.entries.map Prod.snd

/-- Keep the entries whose value passes `p`. -/
def filterValues (p : ν → Bool) (d : Dict κ ν) : Dict κ ν where
  entries := d.entries.filter fun e => p e.2
  nodup := d.nodup.sublist (List.filter_sublist.map _)

/-- Remove a key. -/
def erase [DecidableEq κ] (d : Dict κ ν) (k : κ) : Dict κ ν where
  entries := d.entries.filter fun e => e.1 ≠ k
  nodup := d.nodup.sublist (List.filter_sublist.map _)

/-- Apply `f` to every value. -/
def mapValues (f : ν → μ) (d : Dict κ ν) : Dict κ μ where
  entries := d.entries.map fun e => (e.1, f e.2)
  nodup := by simpa [List.map_map, Function.comp_def] using d.nodup

/-- The total of a measure over the values. -/
def sumBy (f : ν → ℕ) (d : Dict κ ν) : ℕ := (d.values.map f).sum

theorem mem_filterValues (d : Dict κ ν) {p : ν → Bool} {e : κ × ν} :
    e ∈ (d.filterValues p).entries ↔ e ∈ d.entries ∧ p e.2 = true :=
  List.mem_filter

variable [DecidableEq κ]

/-- The value of `k`, if there is one. -/
def get? (d : Dict κ ν) (k : κ) : Option ν := d.entries.lookup k

/-- Write the value of `k`. -/
def set (d : Dict κ ν) (k : κ) (v : ν) : Dict κ ν where
  entries := setEntry k v d.entries
  nodup := by
    rw [keys_setEntry]
    split
    · exact d.nodup
    · rename_i new
      exact List.nodup_append.mpr ⟨d.nodup, List.nodup_singleton k, fun a ha b hb => by
        rintro rfl
        exact new (List.mem_singleton.mp hb ▸ ha)⟩

/-- Build a dictionary from bindings; a later binding of a key overwrites an
earlier one. -/
def ofList (l : List (κ × ν)) : Dict κ ν := l.foldl (fun d e => d.set e.1 e.2) empty

/-- Add one to a counter; an absent counter counts as zero. -/
def incr (d : Dict κ ℕ) (k : κ) : Dict κ ℕ := d.set k ((d.get? k).getD 0 + 1)

/-! ### Reading -/

theorem get?_set (d : Dict κ ν) (k k' : κ) (v : ν) :
    (d.set k v).get? k' = if k' = k then some v else d.get? k' := by
  show (setEntry k v d.entries).lookup k' = if k' = k then some v else d.entries.lookup k'
  induction d.entries with
  | nil => by_cases h : k' = k <;> simp [setEntry, h]
  | cons e rest ih =>
    obtain ⟨k₀, v₀⟩ := e
    by_cases same : k₀ = k
    · subst same
      by_cases h : k' = k₀ <;> simp [setEntry, lookup_cons_ite, h]
    · by_cases h : k' = k₀
      · subst h
        simp [setEntry, same]
      · simp [setEntry, same, lookup_cons_ite, h, ih]

@[simp] theorem get?_set_self (d : Dict κ ν) (k : κ) (v : ν) : (d.set k v).get? k = some v := by
  simp [get?_set]

theorem get?_set_of_ne (d : Dict κ ν) {k k' : κ} (v : ν) (h : k' ≠ k) :
    (d.set k v).get? k' = d.get? k' := by
  simp [get?_set, h]

theorem get?_erase (d : Dict κ ν) (k k' : κ) :
    (d.erase k).get? k' = if k' = k then none else d.get? k' := by
  show (d.entries.filter fun e => e.1 ≠ k).lookup k' =
    if k' = k then none else d.entries.lookup k'
  induction d.entries with
  | nil => simp
  | cons e rest ih =>
    obtain ⟨k₀, v₀⟩ := e
    by_cases same : k₀ = k
    · subst same
      by_cases h : k' = k₀ <;> simpa [lookup_cons_ite, h] using ih
    · by_cases h : k' = k₀
      · subst h
        simp [same]
      · simpa [same, lookup_cons_ite, h] using ih

/-- An entry is in the dictionary exactly when reading its key returns it. -/
theorem mem_entries_iff (d : Dict κ ν) {k : κ} {v : ν} :
    (k, v) ∈ d.entries ↔ d.get? k = some v := by
  obtain ⟨l, distinct⟩ := d
  show (k, v) ∈ l ↔ l.lookup k = some v
  induction l with
  | nil => simp
  | cons e rest ih =>
    obtain ⟨k₀, v₀⟩ := e
    obtain ⟨fresh, distinctRest⟩ := List.nodup_cons.mp distinct
    by_cases same : k = k₀
    · subst same
      have notLater : (k, v) ∉ rest := fun h => fresh (List.mem_map.mpr ⟨_, h, rfl⟩)
      simp [notLater, eq_comm]
    · simp [lookup_cons_ite, same, ih distinctRest]

theorem get?_eq_none_iff (d : Dict κ ν) {k : κ} : d.get? k = none ↔ ∀ e ∈ d.entries, e.1 ≠ k := by
  show d.entries.lookup k = none ↔ _
  rw [List.lookup_eq_none_iff]
  apply forall₂_congr
  intro e _
  simp only [bne_iff_ne, ne_eq]
  exact not_congr eq_comm

/-- The keys are what can be read. -/
theorem mem_keys_iff (d : Dict κ ν) {k : κ} : k ∈ d.keys ↔ (d.get? k).isSome := by
  unfold keys
  rw [List.mem_map, Option.isSome_iff_exists]
  constructor
  · rintro ⟨⟨k, v⟩, mem, rfl⟩
    exact ⟨v, d.mem_entries_iff.mp mem⟩
  · rintro ⟨v, known⟩
    exact ⟨(k, v), d.mem_entries_iff.mpr known, rfl⟩

/-! ### Writing -/

/-- What a write does to the entries: the new entry, and the old entries of the
other keys. -/
theorem mem_entries_set (d : Dict κ ν) {k : κ} {v : ν} {e : κ × ν} :
    e ∈ (d.set k v).entries ↔ e = (k, v) ∨ (e ∈ d.entries ∧ e.1 ≠ k) := by
  obtain ⟨k', v'⟩ := e
  rw [mem_entries_iff, mem_entries_iff, get?_set]
  by_cases h : k' = k
  · subst h
    simp only [if_true, Option.some.injEq, Prod.mk.injEq, true_and, ne_eq, not_true_eq_false,
      and_false, or_false]
    exact eq_comm
  · simp [h]

theorem keys_set (d : Dict κ ν) (k : κ) (v : ν) :
    (d.set k v).keys = if k ∈ d.keys then d.keys else d.keys ++ [k] := keys_setEntry k v d.entries

/-- What holds of all values after a write. -/
theorem forall_set (d : Dict κ ν) {k : κ} {v : ν} {Q : ν → Prop} :
    (∀ e ∈ (d.set k v).entries, Q e.2) ↔ Q v ∧ ∀ e ∈ d.entries, e.1 ≠ k → Q e.2 := by
  simp only [mem_entries_set]
  constructor
  · intro all
    exact ⟨all (k, v) (.inl rfl), fun e mem other => all e (.inr ⟨mem, other⟩)⟩
  · rintro ⟨written, rest⟩ e (rfl | ⟨mem, other⟩)
    · exact written
    · exact rest e mem other

/-- What holds of all values holds of what is read with a default, and of the other values. -/
theorem forall_getD (d : Dict κ ν) (k : κ) {fresh : ν} {Q : ν → Prop} (new : Q fresh) :
    (∀ e ∈ d.entries, Q e.2) ↔
      Q ((d.get? k).getD fresh) ∧ ∀ e ∈ d.entries, e.1 ≠ k → Q e.2 := by
  constructor
  · intro all
    refine ⟨?_, fun e mem _ => all e mem⟩
    cases known : d.get? k with
    | none => exact new
    | some v => exact all (k, v) (d.mem_entries_iff.mpr known)
  · rintro ⟨read, rest⟩ ⟨k', v⟩ mem
    by_cases same : k' = k
    · subst same
      rw [d.mem_entries_iff.mp mem] at read
      exact read
    · exact rest (k', v) mem same

theorem setEntry_of_new {k : κ} (v : ν) {l : List (κ × ν)} (new : ∀ e ∈ l, e.1 ≠ k) :
    setEntry k v l = l ++ [(k, v)] := by
  induction l with
  | nil => rfl
  | cons e rest ih =>
    have head : e.1 ≠ k := new e List.mem_cons_self
    simp only [setEntry, if_neg head, List.cons_append]
    rw [ih fun e' he' => new e' (List.mem_cons_of_mem _ he')]

/-- A write of a new key appends it. -/
theorem entries_set_of_none (d : Dict κ ν) {k : κ} (v : ν) (new : d.get? k = none) :
    (d.set k v).entries = d.entries ++ [(k, v)] :=
  setEntry_of_new v (d.get?_eq_none_iff.mp new)

theorem ofList_concat (l : List (κ × ν)) (e : κ × ν) :
    ofList (l ++ [e]) = (ofList l).set e.1 e.2 := by
  simp [ofList]

/-- A key whose bindings agree has their value. -/
theorem get?_ofList_of_agree {l : List (κ × ν)} {k : κ} {v : ν} (mem : (k, v) ∈ l)
    (agree : ∀ e ∈ l, e.1 = k → e.2 = v) : (ofList l).get? k = some v := by
  induction l using List.reverseRecOn with
  | nil => cases mem
  | append_singleton l e ih =>
      rw [ofList_concat, get?_set]
      split
      · rename_i same
        rw [agree e (by simp) same.symm]
      · rename_i other
        refine ih ?_ fun e' earlier => agree e' (List.mem_append_left _ earlier)
        rcases List.mem_append.mp mem with earlier | last
        · exact earlier
        · cases List.mem_singleton.mp last
          exact absurd rfl other

/-- The entries of a dictionary that is built from bindings are among them. -/
theorem mem_of_mem_ofList {l : List (κ × ν)} {e : κ × ν} (mem : e ∈ (ofList l).entries) :
    e ∈ l := by
  induction l using List.reverseRecOn with
  | nil => cases mem
  | append_singleton l last ih =>
      rw [ofList_concat] at mem
      rcases (mem_entries_set _).mp mem with rfl | ⟨earlier, -⟩
      · exact List.mem_append_right _ (List.mem_singleton.mpr rfl)
      · exact List.mem_append_left _ (ih earlier)

/-- A key that is bound at all is in the dictionary. -/
theorem isSome_get?_ofList {l : List (κ × ν)} {e : κ × ν} (mem : e ∈ l) :
    ((ofList l).get? e.1).isSome := by
  induction l using List.reverseRecOn with
  | nil => cases mem
  | append_singleton l last ih =>
      rw [ofList_concat, get?_set]
      split
      · rfl
      · rename_i other
        rcases List.mem_append.mp mem with earlier | now
        · exact ih earlier
        · exact absurd (congrArg Prod.fst (List.mem_singleton.mp now)) other

/-- Bindings of different keys are all kept. -/
theorem keys_ofList_of_nodup {l : List (κ × ν)} (distinct : (l.map Prod.fst).Nodup) :
    (ofList l).keys = l.map Prod.fst := by
  induction l using List.reverseRecOn with
  | nil => rfl
  | append_singleton l e ih =>
      rw [List.map_append] at distinct ⊢
      obtain ⟨earlier, -, apart⟩ := List.nodup_append.mp distinct
      have new : (ofList l).get? e.1 = none := by
        rw [← Option.not_isSome_iff_eq_none, ← mem_keys_iff, ih earlier]
        exact fun mem => apart e.1 mem e.1 (by simp) rfl
      rw [ofList_concat, keys, entries_set_of_none _ _ new, List.map_append, ← keys, ih earlier,
        List.map_singleton]

/-- A table that is built from a list of keys. -/
theorem get?_ofList_map {keys : List κ} {f : κ → ν} {k : κ} (mem : k ∈ keys) :
    (ofList (keys.map fun k => (k, f k))).get? k = some (f k) := by
  refine get?_ofList_of_agree (List.mem_map.mpr ⟨k, mem, rfl⟩) fun e inTable same => ?_
  obtain ⟨k', -, rfl⟩ := List.mem_map.mp inTable
  exact congrArg f same

/-! ### Entries up to their order -/

omit [DecidableEq κ] in
theorem nodup_entries (d : Dict κ ν) : d.entries.Nodup := .of_map _ d.nodup

theorem mem_entries_erase (d : Dict κ ν) {k : κ} {e : κ × ν} :
    e ∈ (d.erase k).entries ↔ e ∈ d.entries ∧ e.1 ≠ k := by
  unfold erase
  simp [List.mem_filter]

/-- A write puts one entry in the place of the one that has the key. -/
theorem entries_set_perm (d : Dict κ ν) (k : κ) (v : ν) :
    (d.set k v).entries.Perm ((k, v) :: (d.erase k).entries) := by
  have fresh : (k, v) ∉ (d.erase k).entries := fun mem => (d.mem_entries_erase.mp mem).2 rfl
  refine (List.perm_ext_iff_of_nodup (nodup_entries _)
    (List.nodup_cons.mpr ⟨fresh, nodup_entries _⟩)).mpr fun e => ?_
  rw [mem_entries_set, List.mem_cons, mem_entries_erase]

/-- The entry of a key, and the others. -/
theorem entries_perm_erase (d : Dict κ ν) {k : κ} {v : ν} (known : d.get? k = some v) :
    d.entries.Perm ((k, v) :: (d.erase k).entries) := by
  have fresh : (k, v) ∉ (d.erase k).entries := fun mem => (d.mem_entries_erase.mp mem).2 rfl
  refine (List.perm_ext_iff_of_nodup (nodup_entries _)
    (List.nodup_cons.mpr ⟨fresh, nodup_entries _⟩)).mpr fun e => ?_
  rw [List.mem_cons, mem_entries_erase]
  obtain ⟨k', v'⟩ := e
  constructor
  · intro mem
    by_cases same : k' = k
    · subst same
      have sameValue := (d.mem_entries_iff.mp mem).symm.trans known
      exact .inl (by rw [Option.some.inj sameValue])
    · exact .inr ⟨mem, same⟩
  · rintro (same | ⟨mem, -⟩)
    · cases same
      exact d.mem_entries_iff.mpr known
    · exact mem

theorem values_set_perm (d : Dict κ ν) (k : κ) (v : ν) :
    (d.set k v).values.Perm (v :: (d.erase k).values) := (d.entries_set_perm k v).map Prod.snd

theorem values_perm_erase (d : Dict κ ν) {k : κ} {v : ν} (known : d.get? k = some v) :
    d.values.Perm (v :: (d.erase k).values) := (d.entries_perm_erase known).map Prod.snd

/-- Removing a key that is not there changes nothing. -/
theorem entries_erase_of_none (d : Dict κ ν) {k : κ} (absent : d.get? k = none) :
    (d.erase k).entries = d.entries :=
  List.filter_eq_self.mpr fun e mem => by simpa using d.get?_eq_none_iff.mp absent e mem

theorem values_erase_sublist (d : Dict κ ν) (k : κ) : (d.erase k).values.Sublist d.values :=
  List.filter_sublist.map Prod.snd

theorem values_erase_of_none (d : Dict κ ν) {k : κ} (absent : d.get? k = none) :
    (d.erase k).values = d.values := congrArg (List.map Prod.snd) (d.entries_erase_of_none absent)

/-- What the entries list together, after an update of a key that makes it list `x` as well. -/
theorem flatMap_set_getD {β : Type} (d : Dict κ ν) (k : κ) {fresh : ν} {update : ν → ν}
    {f : κ × ν → List β} {x : β} (none : f (k, fresh) = [])
    (adds : ∀ v, (f (k, update v)).Perm (x :: f (k, v))) :
    ((d.set k (update ((d.get? k).getD fresh))).entries.flatMap f).Perm
      (x :: d.entries.flatMap f) := by
  refine ((d.entries_set_perm k _).flatMap_right f).trans ?_
  rw [List.flatMap_cons]
  refine ((adds _).append_right _).trans ?_
  rw [List.cons_append]
  apply List.Perm.cons
  cases known : d.get? k with
  | none => rw [Option.getD_none, none, d.entries_erase_of_none known, List.nil_append]
  | some v => exact ((d.entries_perm_erase known).flatMap_right f).symm

/-! ### Many writes -/

/-- A key that no write is about keeps its value. -/
theorem get?_foldl_set_of_notMem {l : List (κ × ν)} {k : κ} (absent : k ∉ l.map Prod.fst)
    (d : Dict κ ν) : (l.foldl (fun d e => d.set e.1 e.2) d).get? k = d.get? k := by
  induction l generalizing d with
  | nil => rfl
  | cons e rest ih =>
      obtain ⟨other, later⟩ := not_or.mp (mt List.mem_cons.mpr absent)
      rw [List.foldl_cons, ih later, get?_set_of_ne _ _ other]

/-- Of writes to different keys, each one can be read afterwards. -/
theorem get?_foldl_set_of_mem {l : List (κ × ν)} {k : κ} {v : ν}
    (distinct : (l.map Prod.fst).Nodup) (mem : (k, v) ∈ l) (d : Dict κ ν) :
    (l.foldl (fun d e => d.set e.1 e.2) d).get? k = some v := by
  induction l generalizing d with
  | nil => cases mem
  | cons e rest ih =>
      obtain ⟨fresh, distinctRest⟩ := List.nodup_cons.mp distinct
      rw [List.foldl_cons]
      rcases List.mem_cons.mp mem with rfl | later
      · rw [get?_foldl_set_of_notMem fresh, get?_set_self]
      · exact ih distinctRest later _

/-- The order of writes to different keys does not matter. -/
theorem get?_foldl_set_perm {l l' : List (κ × ν)} (distinct : (l.map Prod.fst).Nodup)
    (perm : l.Perm l') (d : Dict κ ν) (k : κ) :
    (l.foldl (fun d e => d.set e.1 e.2) d).get? k =
      (l'.foldl (fun d e => d.set e.1 e.2) d).get? k := by
  have distinct' : (l'.map Prod.fst).Nodup := (perm.map Prod.fst).nodup_iff.mp distinct
  by_cases written : k ∈ l.map Prod.fst
  · obtain ⟨⟨k, v⟩, mem, rfl⟩ := List.mem_map.mp written
    rw [get?_foldl_set_of_mem distinct mem, get?_foldl_set_of_mem distinct' (perm.mem_iff.mp mem)]
  · have written' : k ∉ l'.map Prod.fst := fun h => written ((perm.map Prod.fst).mem_iff.mpr h)
    rw [get?_foldl_set_of_notMem written, get?_foldl_set_of_notMem written']

/-! ### Groups -/

/-- Collect the elements of a list by their keys. -/
def groupBy {α : Type} (key : α → κ) (l : List α) : Dict κ (List α) :=
  l.foldl (fun d x => d.set (key x) ((d.get? (key x)).getD [] ++ [x])) empty

theorem groupBy_concat {α : Type} (key : α → κ) (l : List α) (x : α) :
    groupBy key (l ++ [x]) =
      (groupBy key l).set (key x) (((groupBy key l).get? (key x)).getD [] ++ [x]) :=
  List.foldl_concat _ _ _ _

/-- A group holds the elements with its key, and there are no empty groups. -/
theorem get?_groupBy {α : Type} (key : α → κ) (l : List α) (k : κ) :
    (groupBy key l).get? k =
      if l.filter (key · = k) = [] then none else some (l.filter (key · = k)) := by
  induction l using List.reverseRecOn with
  | nil => rfl
  | append_singleton l x ih =>
      rw [groupBy_concat, get?_set, List.filter_append]
      by_cases same : k = key x
      · subst same
        have earlier : ((groupBy key l).get? (key x)).getD [] = l.filter (key · = key x) := by
          rw [ih]
          split
          · rename_i nothing
            rw [nothing, Option.getD_none]
          · rfl
        simp only [earlier]
        simp
      · have other : ¬ key x = k := fun eq => same eq.symm
        rw [if_neg same, ih]
        simp [other]

/-- The groups come in the order in which their keys first occur. -/
theorem keys_groupBy_concat {α : Type} (key : α → κ) (l : List α) (x : α) :
    (groupBy key (l ++ [x])).keys =
      if key x ∈ (groupBy key l).keys then (groupBy key l).keys
      else (groupBy key l).keys ++ [key x] := by
  rw [groupBy_concat, keys_set]

theorem mem_keys_groupBy {α : Type} {key : α → κ} {l : List α} {k : κ} :
    k ∈ (groupBy key l).keys ↔ ∃ x ∈ l, key x = k := by
  rw [mem_keys_iff, get?_groupBy]
  split
  · rename_i nothing
    simpa using nothing
  · rename_i something
    simpa using something

theorem values_groupBy {α : Type} (key : α → κ) (l : List α) :
    (groupBy key l).values = (groupBy key l).keys.map fun k => l.filter (key · = k) := by
  rw [keys, List.map_map]
  refine List.map_congr_left fun ⟨k, group⟩ mem => ?_
  have read := (mem_entries_iff _).mp mem
  rw [get?_groupBy] at read
  split at read
  · cases read
  · exact (Option.some.inj read).symm

/-- The groups hold every element once. -/
theorem flatten_values_groupBy {α : Type} (key : α → κ) (l : List α) :
    (groupBy key l).values.flatten.Perm l := by
  have grouped : ((groupBy key l).entries.flatMap Prod.snd).Perm l := by
    induction l using List.reverseRecOn with
    | nil => exact .nil
    | append_singleton l x ih =>
        rw [groupBy_concat]
        have adds := (groupBy key l).flatMap_set_getD (key x) (f := Prod.snd) rfl
          fun group => List.perm_append_singleton x group
        exact adds.trans ((ih.cons x).trans (List.perm_append_singleton x l).symm)
  rwa [values, ← List.flatMap_def]

theorem setEntry_map (f : ν → μ) (k : κ) (v : ν) (l : List (κ × ν)) :
    (setEntry k v l).map (fun e => (e.1, f e.2)) =
      setEntry k (f v) (l.map fun e => (e.1, f e.2)) := by
  induction l with
  | nil => rfl
  | cons e rest ih =>
      by_cases same : e.1 = k
      · simp [setEntry, same]
      · simp [setEntry, same, ih]

theorem get?_mapValues (f : ν → μ) (d : Dict κ ν) (k : κ) :
    (d.mapValues f).get? k = (d.get? k).map f := by
  show (d.entries.map fun e => (e.1, f e.2)).lookup k = (d.entries.lookup k).map f
  induction d.entries with
  | nil => rfl
  | cons e rest ih =>
      rw [List.map_cons, lookup_cons_ite, lookup_cons_ite, ih]
      split_ifs <;> rfl

theorem mapValues_set (f : ν → μ) (d : Dict κ ν) (k : κ) (v : ν) :
    (d.set k v).mapValues f = (d.mapValues f).set k (f v) := by
  simp only [mapValues, set, setEntry_map]

/-- A table that each element updates at its key holds what the groups come to. -/
theorem foldl_set_getD {α : Type} {key : α → κ} {f : List α → ν} {add : α → ν → ν}
    (concat : ∀ group x, f (group ++ [x]) = add x (f group)) (l : List α) :
    l.foldl (fun d x => d.set (key x) (add x ((d.get? (key x)).getD (f [])))) empty =
      (groupBy key l).mapValues f := by
  induction l using List.reverseRecOn with
  | nil => rfl
  | append_singleton l x ih =>
      have old : (((groupBy key l).mapValues f).get? (key x)).getD (f []) =
          f (((groupBy key l).get? (key x)).getD []) := by
        rw [get?_mapValues]
        cases (groupBy key l).get? (key x) <;> rfl
      rw [List.foldl_concat, ih, groupBy_concat, mapValues_set, concat, old]

/-! ### Totals -/

/-- The total after writing a new key. -/
theorem sumBy_set_of_none (d : Dict κ ν) {k : κ} (v : ν) (f : ν → ℕ) (new : d.get? k = none) :
    (d.set k v).sumBy f = d.sumBy f + f v := by
  simp [sumBy, values, d.entries_set_of_none v new]

/-- The total after overwriting a key: the old value's share is replaced by the
new value's. -/
theorem sumBy_set_of_some (d : Dict κ ν) {k : κ} {v₀ : ν} (v : ν) (f : ν → ℕ)
    (old : d.get? k = some v₀) : (d.set k v).sumBy f + f v₀ = d.sumBy f + f v := by
  obtain ⟨l, distinct⟩ := d
  replace old : l.lookup k = some v₀ := old
  show (((setEntry k v l).map Prod.snd).map f).sum + f v₀ = ((l.map Prod.snd).map f).sum + f v
  clear distinct
  induction l with
  | nil => simp at old
  | cons e rest ih =>
    obtain ⟨k', v'⟩ := e
    by_cases same : k' = k
    · subst same
      obtain rfl : v' = v₀ := by simpa using old
      simp [setEntry]
      omega
    · have other : ¬ k = k' := fun h => same h.symm
      have inRest : rest.lookup k = some v₀ := by simpa [lookup_cons_ite, other] using old
      have := ih inRest
      simp only [setEntry, if_neg same, List.map_cons, List.sum_cons]
      omega

/-- The total after an update of a key, which starts from `fresh` where the key is new. -/
theorem sumBy_set_getD (d : Dict κ ν) (k : κ) {fresh : ν} {update : ν → ν} {f : ν → ℕ} {n : ℕ}
    (zero : f fresh = 0) (adds : ∀ v, f (update v) = f v + n) :
    (d.set k (update ((d.get? k).getD fresh))).sumBy f = d.sumBy f + n := by
  cases known : d.get? k with
  | none => rw [sumBy_set_of_none _ _ _ known, adds, Option.getD_none, zero, zero_add]
  | some v =>
      have replaced := d.sumBy_set_of_some (update v) f known
      rw [adds] at replaced
      rw [Option.getD_some]
      omega

theorem get?_incr (d : Dict κ ℕ) (k k' : κ) :
    ((d.incr k).get? k').getD 0 = (d.get? k').getD 0 + if k' = k then 1 else 0 := by
  by_cases h : k' = k
  · subst h
    simp [incr]
  · simp [incr, get?_set_of_ne _ _ h, h]

/-- Counting adds one to the total of the counters. -/
@[simp] theorem sumBy_incr (d : Dict κ ℕ) (k : κ) : (d.incr k).sumBy id = d.sumBy id + 1 := by
  cases h : d.get? k with
  | none => simp [incr, sumBy_set_of_none _ _ _ h, h]
  | some n =>
    have := d.sumBy_set_of_some (n + 1) id h
    simp only [incr, h, Option.getD_some, id] at this ⊢
    omega

end Dict

end MeshcoreSim.Lib
