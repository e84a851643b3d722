import MeshcoreSim.Nexthop

/-!
The routing table over any run of calls.

The slot of a key is what `rt_find` finds for it. `aged` and `offered` say what ageing and an advert
do to a slot, and the in-place operations do this to every slot (`tick_eq`, `rtUpsert_eq`). The
invariant counts the entries of each age against the adverts since the last ageing.

* `Packet.heard_eq` — the path that an advert offers.
* `Table.hear_eq` — an advert ages the slots where it is due, is never dropped, and changes the slot
  of its key only.
-/

namespace MeshcoreSim.Nexthop

open Lib

theorem u8_of_lt {n : ℕ} (small : n < 256) : u8 n = some n := if_pos small

/-! ### What an advert offers -/

namespace Packet

variable (packet : Packet)

/-- The relays of a packet, in the order in which it passed them. -/
def relays : List Bytes :=
  chunks packet.info.pathSize packet.info.pathCount packet.info.pathBytes

/-- The path to the sender of an advert; nothing where it is too long. -/
def stored : Bytes :=
  if packet.info.pathCount * packet.info.pathSize > rtPathCap then []
  else packet.relays.reverse.flatten

/-- Hops to the sender of an advert. -/
def metric : ℕ := packet.info.pathCount + 1

theorem pathSize_mem : 1 ≤ packet.info.pathSize ∧ packet.info.pathSize ≤ 3 := by
  have sizes := packet.inRange.pathSize
  simp only [List.mem_cons, List.not_mem_nil, or_false] at sizes
  omega

theorem length_pathBytes :
    packet.info.pathBytes.length = packet.info.pathCount * packet.info.pathSize :=
  packet.inRange.pathBytes

theorem length_of_mem_relays {r : Bytes} (mem : r ∈ packet.relays) :
    r.length = packet.info.pathSize :=
  length_of_mem_chunks packet.length_pathBytes.ge mem

@[simp] theorem length_relays : packet.relays.length = packet.info.pathCount := length_chunks _

theorem length_reverse_flatten :
    packet.relays.reverse.flatten.length = packet.info.pathCount * packet.info.pathSize := by
  have sizes : ∀ r ∈ packet.relays.reverse, r.length = packet.info.pathSize := fun r mem =>
    packet.length_of_mem_relays (List.mem_reverse.mp mem)
  rw [length_flatten_of_forall sizes, List.length_reverse, length_relays]

theorem length_stored : packet.stored.length ≤ rtPathCap ∧
    (packet.stored.length = 0 ∨
      packet.stored.length = packet.info.pathSize * (packet.metric - 1)) := by
  unfold stored metric
  split_ifs with long
  · exact ⟨Nat.zero_le _, Or.inl rfl⟩
  · rw [length_reverse_flatten]
    exact ⟨Nat.not_lt.mp long, Or.inr (Nat.mul_comm _ _)⟩

/-- The relay that iteration `i` copies. -/
theorem reverse_take_succ {i : ℕ} (inside : i < packet.info.pathCount) :
    packet.relays.reverse.take (i + 1) =
      packet.relays.reverse.take i ++
        [chunk packet.info.pathSize packet.info.pathBytes (packet.info.pathCount - 1 - i)] := by
  rw [List.take_add_one, List.getElem?_eq_getElem (by simpa using inside)]
  simp [relays, chunks]

theorem length_take_reverse {i : ℕ} (inside : i ≤ packet.info.pathCount) :
    (packet.relays.reverse.take i).flatten.length = i * packet.info.pathSize := by
  have sizes : ∀ r ∈ packet.relays.reverse.take i, r.length = packet.info.pathSize := fun r mem =>
    packet.length_of_mem_relays (List.mem_reverse.mp (List.mem_of_mem_take mem))
  rw [length_flatten_of_forall sizes, List.length_take_of_le (by simpa using inside)]

/-- The loop fills the array from the front with the relays from the last one on. -/
theorem reverseLoop_eq (short : packet.info.pathCount * packet.info.pathSize ≤ rtPathCap) {i : ℕ}
    (inside : i ≤ packet.info.pathCount) :
    reverseLoop packet.info.pathBytes packet.info.pathSize packet.info.pathCount i =
      some ((packet.relays.reverse.take i).flatten ++
        List.replicate (rtPathCap - i * packet.info.pathSize) 0, i * packet.info.pathSize) := by
  induction i with
  | zero => simp [reverseLoop]
  | succ i ih =>
      have smaller : (i + 1) * packet.info.pathSize ≤
          packet.info.pathCount * packet.info.pathSize := Nat.mul_le_mul_right _ inside
      have source : (packet.info.pathCount - 1 - i) * packet.info.pathSize ≤
          packet.info.pathCount * packet.info.pathSize := Nat.mul_le_mul_right _ (by omega)
      have cap : rtPathCap = 64 := rfl
      rw [Nat.succ_mul] at smaller
      have room : rtPathCap - i * packet.info.pathSize =
          packet.info.pathSize + (rtPathCap - (i + 1) * packet.info.pathSize) := by
        rw [Nat.succ_mul]
        omega
      have last : packet.info.pathCount - 1 - i < packet.info.pathCount := by omega
      have width : (chunk packet.info.pathSize packet.info.pathBytes
          (packet.info.pathCount - 1 - i)).length = packet.info.pathSize :=
        length_chunk last packet.length_pathBytes.ge
      rw [reverseLoop, ih (by omega)]
      simp only [Option.bind_eq_bind, Option.bind_some]
      rw [u8_of_lt (by omega), u8_of_lt (by omega), u8_of_lt (by omega), room,
        List.replicate_add]
      simp only [Option.bind_some]
      change (memcpy _ _ (chunk packet.info.pathSize packet.info.pathBytes
        (packet.info.pathCount - 1 - i))).bind _ = _
      rw [memcpy_middle (packet.length_take_reverse (by omega)).symm
        (by rw [width, List.length_replicate]), Option.bind_some]
      rw [packet.reverse_take_succ (by omega)]
      simp [Nat.succ_mul]

/-- What `onAdvertRecv` passes on: the array, and how much of it is the path. -/
theorem heard_of_short (short : packet.info.pathCount * packet.info.pathSize ≤ rtPathCap) :
    packet.heard =
      some ⟨packet.relays.reverse.flatten ++
          List.replicate (rtPathCap - packet.info.pathCount * packet.info.pathSize) 0,
        packet.info.pathCount * packet.info.pathSize, packet.info.pathSize, packet.metric⟩ := by
  have count := packet.inRange.pathCount
  have cap : rtPathCap = 64 := rfl
  have whole : packet.relays.reverse.take packet.info.pathCount = packet.relays.reverse :=
    List.take_of_length_le (by simp)
  unfold heard
  simp only [Option.bind_eq_bind]
  rw [u8_of_lt (by omega), u8_of_lt (by omega)]
  simp only [Option.bind_some]
  rw [if_neg (Nat.not_lt.mpr short), packet.reverseLoop_eq short (Nat.le_refl _), whole]
  rfl

theorem heard_of_long (long : packet.info.pathCount * packet.info.pathSize > rtPathCap) :
    packet.heard =
      some ⟨List.replicate rtPathCap 0, 0, packet.info.pathSize, packet.metric⟩ := by
  have count := packet.inRange.pathCount
  obtain ⟨-, size⟩ := packet.pathSize_mem
  have product : packet.info.pathCount * packet.info.pathSize ≤ 63 * 3 :=
    Nat.mul_le_mul (by omega) size
  unfold heard
  simp only [Option.bind_eq_bind]
  rw [u8_of_lt (by omega), u8_of_lt (by omega)]
  simp only [Option.bind_some]
  rw [if_pos long]
  rfl

/-- The first `revBytes` bytes of the array are the path that is stored. -/
theorem heard_eq : ∃ revPath, packet.heard =
    some ⟨revPath, packet.stored.length, packet.info.pathSize, packet.metric⟩ ∧
      revPath.take packet.stored.length = packet.stored := by
  by_cases long : packet.info.pathCount * packet.info.pathSize > rtPathCap
  · have nothing : packet.stored = [] := if_pos long
    rw [packet.heard_of_long long, nothing]
    exact ⟨_, rfl, rfl⟩
  · have path : packet.stored = packet.relays.reverse.flatten := if_neg long
    rw [packet.heard_of_short (Nat.not_lt.mp long), path, packet.length_reverse_flatten]
    refine ⟨_, rfl, ?_⟩
    rw [← packet.length_reverse_flatten, List.take_left]

end Packet

/-! ### Slots -/

/-- What one round of ageing makes of an unpinned entry. -/
def aged (e : RouteEntry) : Option RouteEntry :=
  if e.age + 1 > rtMaxAge then none else some { e with age := e.age + 1 }

/-- The entry that an advert makes. -/
def Packet.entry (packet : Packet) (dest : Bytes) : RouteEntry :=
  ⟨dest, packet.stored, packet.stored.length, packet.info.pathSize, packet.metric, 0, 0⟩

/-- What an advert makes of an entry for its key. -/
def Packet.refresh (packet : Packet) (e : RouteEntry) : RouteEntry :=
  { packet.entry e.dest with useCount := e.useCount }

/-- What an advert makes of the slot of its key. -/
def Packet.offered (packet : Packet) (dest : Bytes) : Option RouteEntry → RouteEntry
  | none => packet.entry dest
  | some e => if packet.metric ≤ e.metric then packet.refresh e else e

structure RouteEntry.Good (e : RouteEntry) : Prop where
  dest : e.dest.length = 4
  path : e.path.length = e.pathBytes
  cap : e.pathBytes ≤ rtPathCap
  shape : e.pathBytes = 0 ∨ e.pathBytes = e.hashSz * (e.metric - 1)
  age : e.age ≤ rtMaxAge

theorem RouteEntry.Good.unpinned {e : RouteEntry} (good : e.Good) : e.pinned = false := by
  refine Nat.testBit_lt_two_pow (Nat.lt_of_le_of_lt good.age ?_)
  decide

theorem RouteEntry.Good.counter {e : RouteEntry} (good : e.Good) : e.counter = e.age := by
  have age := good.age
  have max : rtMaxAge = 3 := rfl
  exact Nat.mod_eq_of_lt (by omega)

theorem ageEntry_eq {e : RouteEntry} (good : e.Good) : ageEntry e = some (aged e) := by
  have age := good.age
  have max : rtMaxAge = 3 := rfl
  rw [ageEntry, good.unpinned, if_neg Bool.false_ne_true, good.counter, u8_of_lt (by omega)]
  rfl

theorem dest_of_aged {e e' : RouteEntry} (kept : aged e = some e') : e'.dest = e.dest := by
  unfold aged at kept
  split_ifs at kept
  cases kept
  rfl

theorem RouteEntry.Good.aged {e e' : RouteEntry} (good : e.Good) (kept : aged e = some e') :
    e'.Good := by
  unfold Nexthop.aged at kept
  split_ifs at kept with young
  cases kept
  exact { good with age := Nat.not_lt.mp young }

theorem PubKey.length_dest (id : PubKey) : id.dest.length = 4 :=
  List.length_take_of_le (by rw [id.length_bytes]; decide)

theorem Packet.good_entry (packet : Packet) {dest : Bytes} (length : dest.length = 4) :
    (packet.entry dest).Good :=
  ⟨length, rfl, packet.length_stored.1, packet.length_stored.2, Nat.zero_le _⟩

theorem Packet.good_refresh (packet : Packet) {e : RouteEntry} (good : e.Good) :
    (packet.refresh e).Good :=
  { packet.good_entry good.dest with }

theorem dest_update {path : Bytes} {pathBytes hashSz metric : ℕ} (e : RouteEntry) :
    (e.update path pathBytes hashSz metric).dest = e.dest := rfl

theorem Packet.update_eq (packet : Packet) {e : RouteEntry} (good : e.Good) :
    e.update packet.stored packet.stored.length packet.info.pathSize packet.metric =
      packet.refresh e := by
  rw [RouteEntry.update, good.unpinned]
  rfl

/-! ### The invariant -/

/-- The number of entries of an age. -/
def held (age : ℕ) (routes : List RouteEntry) : ℕ := routes.countP fun e => e.age = age

/-- At most `fresh` entries are new since the last ageing, and at most one for each of the adverts
between two rounds of it has any other age. -/
structure Table.Within (table : Table) (fresh : ℕ) : Prop where
  distinct : (table.routes.map RouteEntry.dest).Nodup
  good : ∀ e ∈ table.routes, e.Good
  admits : table.admitsThisCycle ≤ fresh
  young : held 0 table.routes ≤ fresh
  old : ∀ age, 1 ≤ age → age ≤ rtMaxAge → held age table.routes ≤ rtAgeEvery

/-- The invariant between two calls. -/
def Table.Good (table : Table) : Prop := table.Within (table.advertSeen % rtAgeEvery + 1)

theorem Table.good_empty : Table.empty.Good :=
  ⟨List.nodup_nil, nofun, Nat.zero_le _, Nat.zero_le _, fun _ _ _ => Nat.zero_le _⟩

/-- Every entry has an age from 0 to 3. -/
theorem length_eq_held {routes : List RouteEntry} (good : ∀ e ∈ routes, e.Good) :
    routes.length = held 0 routes + held 1 routes + held 2 routes + held 3 routes := by
  induction routes with
  | nil => rfl
  | cons e routes ih =>
      have rest := ih fun e' mem => good e' (List.mem_cons_of_mem _ mem)
      have age : e.age ≤ 3 := (good e List.mem_cons_self).age
      simp only [held, List.countP_cons, decide_eq_true_eq, List.length_cons] at rest ⊢
      split_ifs <;> omega

theorem Table.Within.length_le {table : Table} {fresh : ℕ} (within : table.Within fresh) :
    table.routes.length ≤ fresh + 48 := by
  have sum := length_eq_held within.good
  have young := within.young
  have one := within.old 1 (by decide) (by decide)
  have two := within.old 2 (by decide) (by decide)
  have three := within.old 3 (by decide) (by decide)
  have every : rtAgeEvery = 16 := rfl
  omega

/-- Ageing moves the entries of one age on to the next one. -/
theorem held_filterMap_aged {routes : List RouteEntry} :
    held 0 (routes.filterMap aged) = 0 ∧
      ∀ age, held (age + 1) (routes.filterMap aged) ≤ held age routes := by
  induction routes with
  | nil => exact ⟨rfl, fun _ => Nat.le_refl _⟩
  | cons e routes ih =>
      obtain ⟨young, old⟩ := ih
      by_cases expired : e.age + 1 > rtMaxAge
      · have gone : aged e = none := if_pos expired
        rw [List.filterMap_cons_none gone]
        refine ⟨young, fun age => (old age).trans ?_⟩
        exact (List.sublist_cons_self e routes).countP_le
      · have kept : aged e = some { e with age := e.age + 1 } := if_neg expired
        rw [List.filterMap_cons_some kept]
        refine ⟨?_, fun age => ?_⟩
        · rw [held, List.countP_cons_of_neg (by simp)]
          exact young
        · have next := old age
          simp only [held, List.countP_cons, decide_eq_true_eq, Nat.add_right_cancel_iff] at next ⊢
          omega

/-- A round of ageing ages every slot. -/
theorem rtAgeEntries_eq {table : Table} {fresh : ℕ} (within : table.Within fresh)
    (full : fresh ≤ rtAgeEvery) :
    ∃ table', rtAgeEntries table = some table' ∧ table'.advertSeen = table.advertSeen ∧
      table'.Within 0 ∧
      ∀ dest, rtFind table'.routes dest = (rtFind table.routes dest).bind aged := by
  obtain ⟨routes, swept, perm⟩ := sweep_perm (l := table.routes) (g := aged)
    fun e mem => ageEntry_eq (within.good e mem)
  have counts (age : ℕ) : held age routes = held age (table.routes.filterMap aged) :=
    perm.countP_eq _
  have distinct : ((table.routes.filterMap aged).map RouteEntry.dest).Nodup :=
    nodup_filterMap (fun _ _ => dest_of_aged) within.distinct
  rw [rtAgeEntries, swept]
  refine ⟨_, rfl, rfl, ⟨?_, ?_, Nat.zero_le _, ?_, ?_⟩, fun dest => ?_⟩
  · exact (perm.map _).nodup_iff.mpr distinct
  · intro e mem
    obtain ⟨e₀, mem₀, kept⟩ := List.mem_filterMap.mp (perm.mem_iff.mp mem)
    exact (within.good e₀ mem₀).aged kept
  · simp only [counts, held_filterMap_aged.1]
    exact Nat.zero_le _
  · rintro (_ | age) positive bounded
    · cases positive
    · simp only [counts]
      refine (held_filterMap_aged.2 age).trans ?_
      cases age with
      | zero => exact within.young.trans full
      | succ age => exact within.old _ (Nat.le_add_left _ _) (Nat.le_of_succ_le bounded)
  · rw [rtFind, rtFind, find?_perm distinct perm,
      find?_filterMap (fun _ _ => dest_of_aged) within.distinct]

/-- Counting an advert: every sixteenth one ages every slot. -/
theorem Table.tick_eq {table : Table} (good : table.Good) :
    ∃ ticked, table.tick = some ticked ∧
      ticked.advertSeen = (table.advertSeen + 1) % 2 ^ 32 ∧
      ticked.Within (ticked.advertSeen % rtAgeEvery) ∧
      ∀ dest, rtFind ticked.routes dest =
        if ticked.advertSeen % rtAgeEvery = 0 then (rtFind table.routes dest).bind aged
        else rtFind table.routes dest := by
  have every : rtAgeEvery = 16 := rfl
  have counted : Table.Within { table with advertSeen := (table.advertSeen + 1) % 2 ^ 32 }
      (table.advertSeen % rtAgeEvery + 1) := { good with }
  unfold Table.tick
  simp only
  by_cases ageing : (table.advertSeen + 1) % 2 ^ 32 % rtAgeEvery = 0
  · obtain ⟨ticked, done, seen, within, slots⟩ :=
      rtAgeEntries_eq counted (Nat.mod_lt _ (by decide))
    rw [if_pos ageing]
    refine ⟨ticked, done, seen, ?_, fun dest => ?_⟩
    · rw [seen, ageing]
      exact within
    · rw [seen, if_pos ageing, slots]
  · have next : (table.advertSeen + 1) % 2 ^ 32 % rtAgeEvery =
        table.advertSeen % rtAgeEvery + 1 := by
      rw [every] at ageing ⊢
      omega
    rw [if_neg ageing]
    refine ⟨_, rfl, rfl, ?_, fun dest => ?_⟩
    · rw [next]
      exact counted
    · rw [if_neg ageing]

/-! ### What an advert writes -/

/-- The table with the path of an advert in the entry of its key. -/
def Table.refreshed (table : Table) (dest : Bytes) (packet : Packet) : Table :=
  { table with
    routes :=
      modifyFirst (fun e => e.dest = dest)
        (.update packet.stored packet.stored.length packet.info.pathSize packet.metric)
        table.routes }

/-- The table with a new entry for the key of an advert. -/
def Table.inserted (table : Table) (dest : Bytes) (packet : Packet) : Table :=
  { table with
    routes := table.routes ++ [packet.entry dest]
    admitsThisCycle := table.admitsThisCycle + 1 }

section

variable {table : Table} {fresh : ℕ} {dest : Bytes} {packet : Packet}

theorem Table.Within.mono (within : table.Within fresh) : table.Within (fresh + 1) :=
  { within with
    admits := within.admits.trans (Nat.le_succ _)
    young := within.young.trans (Nat.le_succ _) }

theorem Table.Within.refreshed (within : table.Within fresh) :
    (table.refreshed dest packet).Within (fresh + 1) where
  distinct := by
    rw [Table.refreshed, map_modifyFirst dest_update]
    exact within.distinct
  good := by
    intro e mem
    rcases mem_modifyFirst mem with old | ⟨e₀, mem₀, -, rfl⟩
    · exact within.good e old
    · rw [packet.update_eq (within.good e₀ mem₀)]
      exact packet.good_refresh (within.good e₀ mem₀)
  admits := within.admits.trans (Nat.le_succ _)
  young := (countP_modifyFirst_le _ _ _ _).trans (Nat.succ_le_succ within.young)
  old := by
    intro age positive bounded
    refine (countP_modifyFirst_of_imp (fun e counted => ?_) _).trans
      (within.old age positive bounded)
    have pin : rtPinnedBit = 128 := rfl
    have max : rtMaxAge = 3 := rfl
    have written := of_decide_eq_true counted
    simp only [RouteEntry.update] at written
    split_ifs at written <;> omega

theorem rtFind_refreshed (within : table.Within fresh) {e : RouteEntry}
    (found : rtFind table.routes dest = some e) (dest' : Bytes) :
    rtFind (table.refreshed dest packet).routes dest' =
      if dest' = dest then some (packet.refresh e) else rtFind table.routes dest' := by
  have good := within.good e (List.mem_of_find?_eq_some found)
  simp only [rtFind, Table.refreshed] at found ⊢
  rw [find?_modifyFirst dest_update]
  split_ifs with here
  · rw [here, found, Option.map_some, packet.update_eq good]
  · rfl

theorem Table.Within.inserted (within : table.Within fresh) (length : dest.length = 4)
    (new : rtFind table.routes dest = none) :
    (table.inserted dest packet).Within (fresh + 1) where
  distinct := by
    rw [Table.inserted, List.map_append, List.map_singleton]
    refine List.nodup_append.mpr ⟨within.distinct, List.nodup_singleton _, ?_⟩
    rintro _ mem _ mem'
    obtain ⟨e, isEntry, rfl⟩ := List.mem_map.mp mem
    rw [List.mem_singleton.mp mem']
    exact of_decide_eq_false (Bool.eq_false_iff.mpr (List.find?_eq_none.mp new e isEntry))
  good := by
    intro e mem
    rcases List.mem_append.mp mem with old | last
    · exact within.good e old
    · rw [List.mem_singleton.mp last]
      exact packet.good_entry length
  admits := Nat.succ_le_succ within.admits
  young := by
    rw [held, Table.inserted, List.countP_append]
    exact Nat.add_le_add within.young (by simp [Packet.entry])
  old := by
    intro age positive bounded
    rw [held, Table.inserted, List.countP_append]
    have other : ¬ 0 = age := by omega
    simpa [Packet.entry, other, held] using within.old age positive bounded

theorem rtFind_inserted (new : rtFind table.routes dest = none) (dest' : Bytes) :
    rtFind (table.inserted dest packet).routes dest' =
      if dest' = dest then some (packet.entry dest) else rtFind table.routes dest' := by
  rw [rtFind, Table.inserted, List.find?_append]
  split_ifs with here
  · subst here
    simp only [rtFind] at new
    simp [new, Packet.entry]
  · have other : ¬ dest = dest' := fun same => here same.symm
    simp [rtFind, Packet.entry, other]

end

/-- Up to 15 adverts after a round of ageing, an advert is never dropped: it finds its slot or a
free place, and changes its slot only. -/
theorem rtUpsert_eq {table : Table} {fresh : ℕ} (within : table.Within fresh) (free : fresh < 16)
    (packet : Packet) (id : PubKey) {revPath : Bytes}
    (path : revPath.take packet.stored.length = packet.stored) :
    ∃ table' upsert, rtUpsert table id.dest revPath packet.stored.length packet.info.pathSize
        packet.metric = some (table', upsert) ∧
      table'.advertSeen = table.advertSeen ∧ table'.Within (fresh + 1) ∧
      upsert ∈ [Upsert.refreshed, .longer, .inserted] ∧
      ∀ dest, rtFind table'.routes dest =
        if dest = id.dest then some (packet.offered id.dest (rtFind table.routes id.dest))
        else rtFind table.routes dest := by
  have fits : min packet.stored.length rtPathCap = packet.stored.length :=
    Nat.min_eq_left packet.length_stored.1
  unfold rtUpsert
  simp only [fits, path]
  cases found : rtFind table.routes id.dest with
  | some e =>
      simp only [Packet.offered]
      by_cases better : packet.metric ≤ e.metric
      · rw [if_pos better, if_pos better]
        exact ⟨table.refreshed id.dest packet, .refreshed, rfl, rfl, within.refreshed,
          List.mem_cons_self, rtFind_refreshed within found⟩
      · rw [if_neg better, if_neg better]
        refine ⟨table, .longer, rfl, rfl, within.mono, by simp, fun dest => ?_⟩
        split_ifs with here
        · rw [here, found]
        · rfl
  | none =>
      have length := within.length_le
      have admits := within.admits
      have limit : rtAdmitPerCycle = 16 := rfl
      have slots : rtMaxRoutes = 128 := rfl
      simp only [Packet.offered]
      rw [if_neg (by omega), if_pos (by omega), u8_of_lt (by omega), u8_of_lt (by omega)]
      exact ⟨table.inserted id.dest packet, .inserted, rfl, rfl,
        within.inserted id.length_dest found, by simp, rtFind_inserted found⟩

/-- An advert ages the slots where it is due, and offers its path to the slot of its key. -/
theorem Table.hear_eq {table : Table} (good : table.Good) (id : PubKey) (packet : Packet) :
    ∃ ticked table' upsert, table.tick = some ticked ∧
      table.hear id packet = some (table', upsert) ∧
      ticked.Within (ticked.advertSeen % rtAgeEvery) ∧ table'.Good ∧
      upsert ∈ [Upsert.refreshed, .longer, .inserted] ∧
      table'.advertSeen = (table.advertSeen + 1) % 2 ^ 32 ∧
      ∀ dest, rtFind table'.routes dest =
        let slot (dest : Bytes) :=
          if (table.advertSeen + 1) % 2 ^ 32 % rtAgeEvery = 0 then
            (rtFind table.routes dest).bind aged
          else rtFind table.routes dest
        if dest = id.dest then some (packet.offered id.dest (slot id.dest)) else slot dest := by
  obtain ⟨revPath, heard, path⟩ := packet.heard_eq
  obtain ⟨ticked, tick, seen, within, slots⟩ := Table.tick_eq good
  obtain ⟨table', upsert, done, kept, within', outcome, slots'⟩ :=
    rtUpsert_eq within (Nat.mod_lt _ (by decide)) packet id path
  refine ⟨ticked, table', upsert, tick, ?_, within, ?_, outcome, kept.trans seen, fun dest => ?_⟩
  · simp only [Table.hear, heard, tick, Option.bind_eq_bind, Option.bind_some, done]
  · rw [Table.Good, kept]
    exact within'
  · simp only [slots', slots, seen]

end MeshcoreSim.Nexthop
