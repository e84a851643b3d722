import MeshcoreSim.Nexthop.Calls

/-!
The victim that `rt_upsert` picks in a full table.

The README ranks the unpinned entries in three choices, and the comments in `rt_upsert` let the
stalest go first among entries of one choice. The loop compares ages of used routes only where
their use counts are equal, so among those it does not look past the use count of the first.

* `worst_worstLoop` — what the loop finds, for every table.
* `evictsByPriority_iff` — when the victim is one that the documented priority allows.
-/

namespace MeshcoreSim.Nexthop

/-- The choice of the README that an unpinned entry belongs to: metric-only, learned but never used,
in use. -/
def RouteEntry.choice (e : RouteEntry) : ℕ :=
  if e.pathBytes = 0 then 1 else if e.useCount = 0 then 2 else 3

/-- The documented priority: an earlier choice goes first, then the stalest. -/
def RouteEntry.EvictedBefore (e e' : RouteEntry) : Prop :=
  e.choice < e'.choice ∨ e.choice = e'.choice ∧ e'.counter < e.counter

/-- The entries that may be evicted. -/
def candidates (routes : List RouteEntry) : List RouteEntry :=
  routes.filter fun e => ¬ e.pinned

/-- The entry of a new destination. -/
def newRoute (dest revPath : Bytes) (pathBytes hashSz metric : ℕ) : RouteEntry :=
  ⟨dest, revPath.take (min pathBytes rtPathCap), min pathBytes rtPathCap, hashSz, metric, 0, 0⟩

/-- The new entry replaces an unpinned one that no other unpinned one is to be evicted before, the
other entries stay, and nothing changes if all are pinned. -/
def EvictsByPriority (table : Table) (dest revPath : Bytes) (pathBytes hashSz metric : ℕ) : Prop :=
  ∃ table' upsert, rtUpsert table dest revPath pathBytes hashSz metric = some (table', upsert) ∧
    (candidates table.routes = [] → table' = table) ∧
    (candidates table.routes ≠ [] → ∃ i victim, table.routes[i]? = some victim ∧
      victim.pinned = false ∧
      (∀ e ∈ candidates table.routes, ¬ e.EvictedBefore victim) ∧
      table'.routes = table.routes.set i (newRoute dest revPath pathBytes hashSz metric))

/-- If all unpinned entries are in use, one that has the use count of the first is as stale as
any. -/
def AgeDecides (routes : List RouteEntry) : Prop :=
  (∀ e ∈ candidates routes, e.choice = 3) → ∀ first, (candidates routes).head? = some first →
    ∃ e ∈ candidates routes, e.useCount = first.useCount ∧
      ∀ e' ∈ candidates routes, e'.counter ≤ e.counter

/-! ### The loop -/

/-- Entries whose ages the loop compares. -/
def RouteEntry.Rivals (e e' : RouteEntry) : Prop :=
  e.choice = e'.choice ∧ (e'.choice = 3 → e.useCount = e'.useCount)

theorem preferred_iff (entry worst : RouteEntry) :
    preferred entry worst = true ↔
      entry.choice < worst.choice ∨ entry.Rivals worst ∧ worst.counter < entry.counter := by
  simp only [preferred, RouteEntry.Rivals, RouteEntry.choice]
  by_cases entryUseless : entry.pathBytes = 0 <;> by_cases worstUseless : worst.pathBytes = 0 <;>
    by_cases entryUnused : entry.useCount = 0 <;> by_cases worstUnused : worst.useCount = 0 <;>
    simp [entryUseless, worstUseless, entryUnused, worstUnused]
  exact .inl (Nat.pos_of_ne_zero worstUnused)

theorem RouteEntry.choice_le (e : RouteEntry) : e.choice ≤ 3 := by
  unfold choice
  split_ifs <;> decide

theorem mem_candidates {routes : List RouteEntry} {e : RouteEntry} :
    e ∈ candidates routes ↔ e ∈ routes ∧ e.pinned = false := by
  simp [candidates]

theorem candidates_concat (routes : List RouteEntry) (e : RouteEntry) :
    candidates (routes ++ [e]) = candidates routes ++ if e.pinned then [] else [e] := by
  rw [candidates, List.filter_append]
  cases pinned : e.pinned <;> simp [candidates, pinned]

/-- What the loop knows of the worst entry that it has seen. -/
structure Worst (routes : List RouteEntry) (i : ℕ) (worst : RouteEntry) : Prop where
  here : routes[i]? = some worst
  unpinned : worst.pinned = false
  choice : ∀ e ∈ candidates routes, worst.choice ≤ e.choice
  stalest : ∀ e ∈ candidates routes, e.Rivals worst → e.counter ≤ worst.counter
  first : worst.choice = 3 → ∀ first, (candidates routes).head? = some first →
    first.useCount = worst.useCount

/-- The state of the loop after some entries. -/
def Searched (routes : List RouteEntry) : Option (ℕ × RouteEntry) → Prop
  | none => candidates routes = []
  | some (i, worst) => Worst routes i worst

section

variable {routes : List RouteEntry} {i : ℕ} {worst e : RouteEntry}

theorem Worst.mem (found : Worst routes i worst) : worst ∈ candidates routes :=
  mem_candidates.mpr ⟨List.mem_of_getElem? found.here, found.unpinned⟩

theorem Worst.head? (found : Worst routes i worst) (later : List RouteEntry) :
    (candidates routes ++ later).head? = (candidates routes).head? := by
  rw [List.head?_append_of_ne_nil _ (List.ne_nil_of_mem found.mem)]

/-- A pinned entry is skipped. -/
theorem Searched.pinned {found : Option (ℕ × RouteEntry)} (searched : Searched routes found)
    (pinned : e.pinned = true) : Searched (routes ++ [e]) found := by
  have same : candidates (routes ++ [e]) = candidates routes := by
    rw [candidates_concat, if_pos pinned, List.append_nil]
  cases found with
  | none => exact same.trans searched
  | some found =>
      obtain ⟨here, unpinned, choice, stalest, first⟩ := searched
      have inside := (List.getElem?_eq_some_iff.mp here).1
      refine ⟨?_, unpinned, ?_, ?_, ?_⟩
      · rw [List.getElem?_append_left inside, here]
      · rwa [same]
      · rwa [same]
      · rwa [same]

theorem Worst.start (none' : candidates routes = []) (unpinned : e.pinned = false) :
    Worst (routes ++ [e]) routes.length e := by
  have only : candidates (routes ++ [e]) = [e] := by
    rw [candidates_concat, none', if_neg (by simp [unpinned]), List.nil_append]
  refine ⟨List.getElem?_concat_length, unpinned, ?_, ?_, ?_⟩
  · rw [only]
    exact fun e' mem => (List.mem_singleton.mp mem) ▸ le_rfl
  · rw [only]
    exact fun e' mem _ => (List.mem_singleton.mp mem) ▸ le_rfl
  · rw [only]
    rintro - first head
    cases head
    rfl

/-- A preferred entry takes over. -/
theorem Worst.replace (found : Worst routes i worst) (unpinned : e.pinned = false)
    (prefers : preferred e worst = true) : Worst (routes ++ [e]) routes.length e := by
  have all : candidates (routes ++ [e]) = candidates routes ++ [e] := by
    rw [candidates_concat, if_neg (by simp [unpinned])]
  have notLater : e.choice ≤ worst.choice := by
    rcases (preferred_iff e worst).mp prefers with earlier | ⟨rivals, -⟩
    · exact earlier.le
    · exact rivals.1.le
  refine ⟨List.getElem?_concat_length, unpinned, ?_, ?_, ?_⟩
  · rw [all]
    intro e' mem
    rcases List.mem_append.mp mem with old | new
    · exact notLater.trans (found.choice e' old)
    · exact (List.mem_singleton.mp new) ▸ le_rfl
  · rw [all]
    intro e' mem rivals
    rcases List.mem_append.mp mem with old | new
    · rcases (preferred_iff e worst).mp prefers with earlier | ⟨rivals', older⟩
      · have := found.choice e' old
        have := rivals.1
        omega
      · have through : e'.Rivals worst :=
          ⟨rivals.1.trans rivals'.1, fun used =>
            (rivals.2 (rivals'.1.trans used)).trans (rivals'.2 used)⟩
        exact (found.stalest e' old through).trans older.le
    · exact (List.mem_singleton.mp new) ▸ le_rfl
  · rw [all, found.head?]
    intro used first head
    rcases (preferred_iff e worst).mp prefers with earlier | ⟨rivals, -⟩
    · have := worst.choice_le
      omega
    · have usedToo := rivals.1.symm.trans used
      exact (found.first usedToo first head).trans (rivals.2 usedToo).symm

/-- Any other entry is passed by. -/
theorem Worst.keep (found : Worst routes i worst) (prefers : preferred e worst = false) :
    Worst (routes ++ [e]) i worst := by
  have inside := (List.getElem?_eq_some_iff.mp found.here).1
  have not' : ¬ (e.choice < worst.choice ∨ e.Rivals worst ∧ worst.counter < e.counter) := by
    rw [← preferred_iff, prefers]
    exact Bool.false_ne_true
  rw [not_or, not_and, not_lt, not_lt] at not'
  have seen : ∀ e' ∈ candidates (routes ++ [e]), e' ∈ candidates routes ∨ e' = e := by
    intro e' mem
    obtain ⟨listed, unpinned⟩ := mem_candidates.mp mem
    rcases List.mem_append.mp listed with old | new
    · exact .inl (mem_candidates.mpr ⟨old, unpinned⟩)
    · exact .inr (List.mem_singleton.mp new)
  refine ⟨?_, found.unpinned, ?_, ?_, ?_⟩
  · rw [List.getElem?_append_left inside, found.here]
  · intro e' mem
    rcases seen e' mem with old | rfl
    · exact found.choice e' old
    · exact not'.1
  · intro e' mem rivals
    rcases seen e' mem with old | rfl
    · exact found.stalest e' old rivals
    · exact not'.2 rivals
  · rw [candidates_concat, found.head?]
    exact found.first

/-- One iteration. -/
theorem searched_worstLoop (rest : List RouteEntry) {found : Option (ℕ × RouteEntry)}
    (searched : Searched routes found) :
    Searched (routes ++ rest) (worstLoop found routes.length rest) := by
  induction rest generalizing routes found with
  | nil =>
      rw [List.append_nil]
      exact searched
  | cons e rest ih =>
      have length : (routes ++ [e]).length = routes.length + 1 := by simp
      simp only [worstLoop]
      rw [← length, List.append_cons]
      apply ih
      cases pinned : e.pinned with
      | true => exact searched.pinned pinned
      | false =>
          rcases found with - | ⟨j, worst⟩
          · exact Worst.start searched pinned
          · cases prefers : preferred e worst with
            | true =>
                simp only [prefers, Bool.false_eq_true, if_false, if_true]
                exact Worst.replace searched pinned prefers
            | false =>
                simp only [prefers, Bool.false_eq_true, if_false]
                exact Worst.keep searched prefers

end

/-- What the loop finds. -/
theorem worst_worstLoop (routes : List RouteEntry) : Searched routes (worstLoop none 0 routes) := by
  have start : Searched [] none := rfl
  exact searched_worstLoop routes start

/-! ### The victim -/

section

variable {routes : List RouteEntry} {i : ℕ} {worst : RouteEntry}

/-- Ages are compared among all entries of an earlier choice than the last, and among the used
entries with the use count of the first. -/
theorem Worst.minimal_iff (found : Worst routes i worst) :
    (∀ e ∈ candidates routes, ¬ e.EvictedBefore worst) ↔ AgeDecides routes := by
  constructor
  · intro minimal used first head
    have usedToo := used worst found.mem
    refine ⟨worst, found.mem, (found.first usedToo first head).symm, fun e mem => ?_⟩
    by_contra older
    exact minimal e mem (.inr ⟨(used e mem).trans usedToo.symm, not_le.mp older⟩)
  · rintro decides e mem (earlier | ⟨same, older⟩)
    · exact absurd (found.choice e mem) (not_le.mpr earlier)
    · by_cases used : worst.choice = 3
      · -- All are in use, and the worst is as old as any with the use count of the first.
        have all : ∀ e ∈ candidates routes, e.choice = 3 := fun e mem =>
          le_antisymm e.choice_le (used.symm.trans_le (found.choice e mem))
        obtain ⟨first, head⟩ : ∃ first, (candidates routes).head? = some first :=
          Option.isSome_iff_exists.mp (by simpa using List.ne_nil_of_mem found.mem)
        obtain ⟨oldest, mem', count, most⟩ := decides all first head
        have rivals : oldest.Rivals worst :=
          ⟨(all oldest mem').trans used.symm, fun _ => count.trans (found.first used first head)⟩
        have := found.stalest oldest mem' rivals
        have := most e mem
        omega
      · have rivals : e.Rivals worst := ⟨same, fun used' => absurd used' used⟩
        exact absurd (found.stalest e mem rivals) (not_le.mpr older)

end

section

variable {table : Table} {dest revPath : Bytes} {pathBytes hashSz metric : ℕ}
  (full : table.routes.length = rtMaxRoutes) (new : rtFind table.routes dest = none)
  (admitted : table.admitsThisCycle < rtAdmitPerCycle) (usable : 0 < pathBytes)
include full new admitted usable

/-- What `rt_upsert` does with the result of the search. -/
theorem rtUpsert_full : rtUpsert table dest revPath pathBytes hashSz metric =
    match worstLoop none 0 table.routes with
    | none => some (table, .allPinned)
    | some (i, victim) =>
        some ({ table with
          routes := table.routes.set i (newRoute dest revPath pathBytes hashSz metric)
          admitsThisCycle := table.admitsThisCycle + 1 }, .evicted victim) := by
  have limit : rtAdmitPerCycle = 16 := rfl
  simp only [rtUpsert, new]
  rw [if_neg (by omega), if_neg (by omega)]
  cases worstLoop none 0 table.routes with
  | none => rfl
  | some found =>
      simp only [if_neg usable.ne', u8_of_lt (show table.admitsThisCycle + 1 < 256 by omega)]
      rfl

omit full admitted usable in
/-- The place of the new entry shows which one it has replaced. -/
theorem place_unique {i j : ℕ} {victim : RouteEntry} (here : table.routes[j]? = some victim)
    (same : table.routes.set i (newRoute dest revPath pathBytes hashSz metric) =
      table.routes.set j (newRoute dest revPath pathBytes hashSz metric)) : i = j := by
  by_contra other
  have inside := (List.getElem?_eq_some_iff.mp here).1
  have kept := congrArg (·[j]?) same
  simp only [List.getElem?_set_ne other, here, List.getElem?_set_self inside,
    Option.some.injEq] at kept
  have known : victim.dest = dest := congrArg RouteEntry.dest kept
  have unknown := List.find?_eq_none.mp new victim (List.mem_of_getElem? here)
  simp [known] at unknown

end

/-- The victim is one that the documented priority allows, unless all unpinned entries are in use
and none that is as stale as any has the use count of the first. -/
theorem evictsByPriority_iff {table : Table} {dest revPath : Bytes} {pathBytes hashSz metric : ℕ}
    (full : table.routes.length = rtMaxRoutes) (new : rtFind table.routes dest = none)
    (admitted : table.admitsThisCycle < rtAdmitPerCycle) (usable : 0 < pathBytes) :
    EvictsByPriority table dest revPath pathBytes hashSz metric ↔ AgeDecides table.routes := by
  have search := worst_worstLoop table.routes
  have result := @rtUpsert_full table dest revPath pathBytes hashSz metric full new admitted usable
  unfold EvictsByPriority
  rw [result]
  generalize worstLoop none 0 table.routes = outcome at search ⊢
  rcases outcome with - | ⟨i, worst⟩
  · have pinned : candidates table.routes = [] := search
    constructor
    · intro _ _ first head
      simp [pinned] at head
    · intro _
      exact ⟨_, _, rfl, fun _ => rfl, fun some' => absurd pinned some'⟩
  · have found : Worst table.routes i worst := search
    have some' := List.ne_nil_of_mem found.mem
    rw [← found.minimal_iff]
    constructor
    · rintro ⟨table', upsert, done, -, victim⟩
      cases done
      obtain ⟨j, victim, here, -, minimal, same⟩ := victim some'
      obtain rfl := place_unique new here same
      cases here.symm.trans found.here
      exact minimal
    · intro minimal
      exact ⟨_, _, rfl, fun none' => absurd none' some', fun _ =>
        ⟨i, worst, found.here, found.unpinned, minimal, rfl⟩⟩

/-! ### Tables -/

/-- A full table of direct routes over one relay, in use. -/
def usedTable (useCount age : ℕ → ℕ) : Table :=
  ⟨(List.range rtMaxRoutes).map fun n =>
    ⟨[UInt8.ofNat n, 0, 0, 0], [0xA1], 1, 1, 2, age n, useCount n⟩, 0, 0⟩

/-- All entries have been used once. -/
theorem evictsByPriority_iff_once :
    EvictsByPriority (usedTable (fun _ => 1) (· % 4)) [200, 0, 0, 0] [0xA2] 1 1 2 := by
  refine (evictsByPriority_iff (by decide +kernel) (by decide +kernel) (by decide)
    (by decide)).mpr fun _ first head => ?_
  have first' : (candidates (usedTable (fun _ => 1) (· % 4)).routes).head? =
      some ⟨[0, 0, 0, 0], [0xA1], 1, 1, 2, 0, 1⟩ := by decide +kernel
  cases first'.symm.trans head
  exact ⟨⟨[3, 0, 0, 0], [0xA1], 1, 1, 2, 3, 1⟩, by decide +kernel, rfl, by decide +kernel⟩

/-- Every well-formed full table evicts by the documented priority. -/
def AlwaysEvictsByPriority : Prop :=
  ∀ (table : Table) (dest revPath : Bytes) (pathBytes hashSz metric : ℕ),
    Node.WellFormed table → table.routes.length = rtMaxRoutes →
      rtFind table.routes dest = none → table.admitsThisCycle < rtAdmitPerCycle → 0 < pathBytes →
        EvictsByPriority table dest revPath pathBytes hashSz metric

/-- All entries have been used once, except for a stale one that has been used twice. It stays, and
the first entry is evicted. -/
def staleSecond : Table := usedTable (if · = 1 then 2 else 1) (if · = 1 then 3 else 0)

/-- The first byte of a destination tells the entries apart. -/
theorem distinct_usedTable (useCount age : ℕ → ℕ) :
    ((usedTable useCount age).routes.map RouteEntry.dest).Nodup := by
  rw [usedTable, List.map_map]
  refine List.Nodup.map_on (fun m small n small' same => ?_) List.nodup_range
  rw [List.mem_range, rtMaxRoutes] at small small'
  have bytes := congrArg UInt8.toNat (List.head_eq_of_cons_eq same)
  rw [UInt8.toNat_ofNat', UInt8.toNat_ofNat'] at bytes
  omega

theorem wellFormed_staleSecond : Node.WellFormed staleSecond where
  count := by decide +kernel
  distinct := distinct_usedTable _ _
  dest := by decide +kernel
  cap := by decide +kernel
  shape := by decide +kernel
  age := by decide +kernel
  admits := by decide

theorem not_alwaysEvictsByPriority : ¬ AlwaysEvictsByPriority := by
  intro claim
  obtain ⟨table', upsert, done, -, victim⟩ :=
    claim staleSecond [200, 0, 0, 0] [0xA2] 1 1 2 wellFormed_staleSecond (by decide +kernel)
      (by decide +kernel) (by decide) (by decide)
  have result : rtUpsert staleSecond [200, 0, 0, 0] [0xA2] 1 1 2 =
      some ({ staleSecond with
        routes := staleSecond.routes.set 0 (newRoute [200, 0, 0, 0] [0xA2] 1 1 2)
        admitsThisCycle := 1 }, .evicted ⟨[0, 0, 0, 0], [0xA1], 1, 1, 2, 0, 1⟩) := by
    decide +kernel
  cases result.symm.trans done
  obtain ⟨j, victim, here, -, minimal, same⟩ := victim (by decide +kernel)
  obtain rfl := place_unique (by decide +kernel) here same
  have first : staleSecond.routes[0]? = some ⟨[0, 0, 0, 0], [0xA1], 1, 1, 2, 0, 1⟩ := by
    decide +kernel
  cases first.symm.trans here
  refine minimal ⟨[1, 0, 0, 0], [0xA1], 1, 1, 2, 3, 2⟩ (by decide +kernel) (.inr ?_)
  decide

end MeshcoreSim.Nexthop
