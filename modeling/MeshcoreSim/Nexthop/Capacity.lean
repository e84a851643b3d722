import MeshcoreSim.Nexthop.History

/-!
How many peers the routing table remembers.

A node hears one advert of every peer in each round, always in one order. An entry then lives as
long as at most three rounds of ageing go by until its peer is heard again. At the end of a round
the first peer of the round has waited longest, for one advert less than there are peers.

* `remembers_iff` — all peers are in the table after every round exactly when there are at most 49.
* `not_remembers_hundred` — a network of 100 peers.
-/

namespace MeshcoreSim.Nexthop

open Lib

/-- What an advert says about its sender and the route to it. -/
def Advert.route (a : Advert) : PubKey × ℕ × ℕ × Bytes :=
  (a.id, a.packet.info.pathCount, a.packet.info.pathSize, a.packet.info.pathBytes)

/-- Every round has the same peers, in the same order and with the same paths. -/
def Periodic (round : ℕ → List Advert) : Prop :=
  ∀ m, (round m).map Advert.route = (round 0).map Advert.route

/-- The adverts of the first `m` rounds. -/
def firstRounds (round : ℕ → List Advert) (m : ℕ) : List Advert := (List.range m).flatMap round

/-- After every completed round the table has an entry for each of the peers. -/
def Remembers (selfId : PubKey) (round : ℕ → List Advert) : Prop :=
  ∀ m, 1 ≤ m → ∃ node effects,
    exec Node.step (Node.init selfId) ((firstRounds round m).map Advert.call) =
      some (node, effects) ∧
    ∀ a ∈ round 0, ∃ e ∈ node.table.routes, e.dest = a.dest

/-! ### An entry that is not refreshed -/

/-- An entry after a number of rounds of ageing. -/
def olderBy (n : ℕ) (e : RouteEntry) : Option RouteEntry :=
  if e.age + n ≤ rtMaxAge then some { e with age := e.age + n } else none

theorem bind_aged_olderBy (n : ℕ) (e : RouteEntry) :
    (olderBy n e).bind aged = olderBy (n + 1) e := by
  unfold olderBy aged
  by_cases alive : e.age + (n + 1) ≤ rtMaxAge
  · rw [if_pos (by omega), if_pos alive, Option.bind_some]
    exact if_neg (by simp only; omega)
  · rw [if_neg alive]
    split_ifs with before
    · exact if_pos (by simp only; omega)
    · rfl

/-- Adverts of other keys only let an entry age. -/
theorem slot_idle {adverts later : List Advert} {dest : Bytes} {e : RouteEntry}
    (live : slot adverts dest = some e) (idle : ∀ a ∈ later, a.dest ≠ dest) :
    slot (adverts ++ later) dest =
      olderBy (rounds (adverts ++ later).length - rounds adverts.length) e := by
  have every : rtAgeEvery = 16 := rfl
  induction later using List.reverseRecOn with
  | nil =>
      rw [List.append_nil, Nat.sub_self, live]
      exact (if_pos (good_of_slot live).age).symm
  | append_singleton later a ih =>
      have before := ih fun b mem => idle b (List.mem_append_left _ mem)
      have other : ¬ dest = a.dest := fun same =>
        idle a (List.mem_append_right _ List.mem_cons_self) same.symm
      rw [← List.append_assoc, slot_concat, if_neg other, found_eq, before]
      simp only [rounds, every, List.length_append, List.length_singleton]
      split_ifs with ageing
      · rw [bind_aged_olderBy]
        congr 1
        omega
      · congr 1
        omega

/-- Where all adverts of a key have paths of one length, each of them refreshes the entry. -/
theorem slot_refreshed {adverts : List Advert} {a : Advert}
    (sameLength : ∀ b ∈ adverts, b.dest = a.dest → b.metric = a.metric) :
    ∃ e, slot (adverts ++ [a]) a.dest = some e ∧ e.age = 0 := by
  refine ⟨_, (slot_concat adverts a a.dest).trans (if_pos rfl), ?_⟩
  cases isFound : found adverts a.dest with
  | none => rfl
  | some e =>
      obtain ⟨e₀, live, older⟩ := found_eq_some isFound
      obtain ⟨before, upto, best, later, rfl, back⟩ := goesBack_of_slot live
      have metric : e.metric = a.metric := by
        rw [older, ← sameLength best (by simp) (back.key.trans (dest_of_slot live))]
        exact back.metric
      have better : a.packet.metric ≤ e.metric := metric.ge
      rw [Packet.offered, if_pos better]
      rfl

/-- An entry is there as long as three rounds of ageing at most have followed the last advert of its
key. -/
theorem isSome_slot_iff {before after : List Advert} {a : Advert}
    (sameLength : ∀ b ∈ before, b.dest = a.dest → b.metric = a.metric)
    (last : ∀ b ∈ after, b.dest ≠ a.dest) :
    (slot (before ++ a :: after) a.dest).isSome = true ↔
      rounds (before.length + 1 + after.length) - rounds (before.length + 1) ≤ rtMaxAge := by
  obtain ⟨e, live, fresh⟩ := slot_refreshed sameLength
  have shape : before ++ a :: after = (before ++ [a]) ++ after := by simp
  rw [shape, slot_idle live last, olderBy, fresh]
  simp only [List.length_append, List.length_singleton, Nat.zero_add]
  split_ifs with alive
  · simp [alive]
  · simp [alive]

/-! ### Rounds -/

section

variable {round : ℕ → List Advert}

theorem firstRounds_succ (round : ℕ → List Advert) (m : ℕ) :
    firstRounds round (m + 1) = firstRounds round m ++ round m := by
  simp [firstRounds, List.range_succ]

theorem mem_firstRounds {m : ℕ} {a : Advert} : a ∈ firstRounds round m ↔ ∃ r < m, a ∈ round r := by
  simp [firstRounds]

variable (periodic : Periodic round)
include periodic

theorem length_round (m : ℕ) : (round m).length = (round 0).length := by
  have same := congrArg List.length (periodic m)
  rwa [List.length_map, List.length_map] at same

theorem length_firstRounds (m : ℕ) : (firstRounds round m).length = m * (round 0).length := by
  induction m with
  | zero => simp [firstRounds]
  | succ m ih =>
      rw [firstRounds_succ, List.length_append, ih, length_round periodic m, Nat.succ_mul]

theorem map_dest_round (m : ℕ) : (round m).map Advert.dest = (round 0).map Advert.dest := by
  have same := congrArg (List.map fun route => route.1.dest) (periodic m)
  rwa [List.map_map, List.map_map] at same

/-- A peer has the same route in every round. -/
theorem metric_eq (distinct : ((round 0).map Advert.dest).Nodup) {m m' : ℕ} {a b : Advert}
    (mem : a ∈ round m) (mem' : b ∈ round m') (same : b.dest = a.dest) :
    b.metric = a.metric := by
  have first {m : ℕ} {a : Advert} (mem : a ∈ round m) : ∃ a₀ ∈ round 0, a₀.route = a.route := by
    have listed : a.route ∈ (round m).map Advert.route := List.mem_map_of_mem mem
    rw [periodic m] at listed
    exact List.mem_map.mp listed
  obtain ⟨a₀, memA, routeA⟩ := first mem
  obtain ⟨b₀, memB, routeB⟩ := first mem'
  have dest {a b : Advert} (route : a.route = b.route) : a.dest = b.dest :=
    congrArg (fun route => route.1.dest) route
  have one : b₀ = a₀ :=
    List.inj_on_of_nodup_map distinct memB memA
      ((dest routeB).trans (same.trans (dest routeA).symm))
  subst one
  exact congrArg (fun route => route.2.1 + 1) (routeB.symm.trans routeA)

/-- The entry of the peer that is heard at place `i` of each round, after `m + 1` rounds. -/
theorem isSome_slot_round (distinct : ((round 0).map Advert.dest).Nodup) (m : ℕ) {i : ℕ}
    (inside : i < (round 0).length) :
    (slot (firstRounds round (m + 1)) (round 0)[i].dest).isSome = true ↔
      rounds ((m + 1) * (round 0).length) - rounds (m * (round 0).length + i + 1) ≤ rtMaxAge := by
  have length := length_round periodic m
  have inside' : i < (round m).length := by omega
  have dests := map_dest_round periodic m
  have dest : (round m)[i].dest = (round 0)[i].dest := by
    have entry := congrArg (fun l => l[i]?) dests
    simpa [inside, inside'] using entry
  have distinct' : ((round m).map Advert.dest).Nodup := dests ▸ distinct
  have shape : round m = (round m).take i ++ (round m)[i] :: (round m).drop (i + 1) := by simp
  have whole : firstRounds round (m + 1) =
      (firstRounds round m ++ (round m).take i) ++ (round m)[i] :: (round m).drop (i + 1) := by
    rw [firstRounds_succ, List.append_assoc, ← shape]
  rw [whole, ← dest, isSome_slot_iff, List.length_append, List.length_take_of_le (by omega),
    List.length_drop, length_firstRounds periodic, length]
  · have total : m * (round 0).length + i + 1 + ((round 0).length - (i + 1)) =
        (m + 1) * (round 0).length := by
      rw [Nat.succ_mul]
      omega
    rw [total]
  · intro b mem same
    rcases List.mem_append.mp mem with earlier | now
    · obtain ⟨r, -, inRound⟩ := mem_firstRounds.mp earlier
      exact metric_eq periodic distinct (List.getElem_mem inside') inRound same
    · exact metric_eq periodic distinct (List.getElem_mem inside') (List.mem_of_mem_take now) same
  · intro b mem same
    have shape' := congrArg (List.map Advert.dest) shape
    rw [List.map_append, List.map_cons] at shape'
    rw [shape'] at distinct'
    have later := (List.nodup_cons.mp (List.nodup_append.mp distinct').2.1).1
    exact later (same ▸ List.mem_map_of_mem mem)

end

/-- At most 49 peers: the wait of the first peer of a round never spans four rounds of ageing. -/
theorem rounds_le_iff {n : ℕ} (some : 0 < n) :
    (∀ m, rounds ((m + 1) * n) - rounds (m * n + 1) ≤ rtMaxAge) ↔ n ≤ 49 := by
  have every : rtAgeEvery = 16 := rfl
  have max : rtMaxAge = 3 := rfl
  simp only [rounds, every, max]
  constructor
  · intro all
    by_contra more
    by_cases many : 64 ≤ n
    · have first := all 0
      rw [Nat.zero_mul, Nat.zero_add, Nat.one_mul] at first
      omega
    · -- From 50 to 63 peers, one of the first rounds starts late enough between two ageings.
      have table : ∀ n < 64, 50 ≤ n → ∃ m < 16, ¬ (m + 1) * n / 16 - (m * n + 1) / 16 ≤ 3 := by
        decide +kernel
      obtain ⟨m, -, tooLong⟩ := table n (by omega) (by omega)
      exact tooLong (all m)
  · intro few m
    rw [Nat.succ_mul]
    omega

/-! ### Networks -/

section

variable {selfId : PubKey} {round : ℕ → List Advert}

theorem received_firstRounds (periodic : Periodic round)
    (others : ∀ a ∈ round 0, a.id ≠ selfId) (m : ℕ) :
    received selfId (firstRounds round m) = firstRounds round m := by
  refine List.filter_eq_self.mpr fun a mem => decide_eq_true ?_
  obtain ⟨r, -, inRound⟩ := mem_firstRounds.mp mem
  have listed : a.route ∈ (round r).map Advert.route := List.mem_map_of_mem inRound
  rw [periodic r] at listed
  obtain ⟨a₀, mem₀, route⟩ := List.mem_map.mp listed
  have same : a₀.id = a.id := congrArg Prod.fst route
  exact same ▸ others a₀ mem₀

/-- The table remembers the peers where their slots are taken. -/
theorem remembers_iff_slot (periodic : Periodic round) (others : ∀ a ∈ round 0, a.id ≠ selfId) :
    Remembers selfId round ↔
      ∀ m, ∀ a ∈ round 0, (slot (firstRounds round (m + 1)) a.dest).isSome = true := by
  have slots (m : ℕ) : ∃ node effects,
      exec Node.step (Node.init selfId) ((firstRounds round m).map Advert.call) =
        some (node, effects) ∧
      ∀ dest, (slot (firstRounds round m) dest).isSome = true ↔
        ∃ e ∈ node.table.routes, e.dest = dest := by
    obtain ⟨node, effects, run, heard⟩ :=
      exec_adverts (Node.good_init selfId) (firstRounds round m)
    have ids : (Node.init selfId).selfId = selfId := rfl
    rw [ids, received_firstRounds periodic others] at heard
    refine ⟨node, effects, run, fun dest => ?_⟩
    have heard' : Table.empty.hearAll (firstRounds round m) = some node.table := heard
    rw [slot, heard', Option.bind_some, rtFind, List.find?_isSome]
    simp
  constructor
  · intro remembers m a mem
    obtain ⟨node, effects, run, taken⟩ := slots (m + 1)
    obtain ⟨node', effects', run', live⟩ := remembers (m + 1) (Nat.le_add_left 1 m)
    rw [run] at run'
    cases run'
    exact (taken a.dest).mpr (live a mem)
  · intro taken m positive
    obtain ⟨m, rfl⟩ : ∃ m', m = m' + 1 := ⟨m - 1, by omega⟩
    obtain ⟨node, effects, run, live⟩ := slots (m + 1)
    exact ⟨node, effects, run, fun a mem => (live a.dest).mp (taken m a mem)⟩

/-- All peers are remembered after every round exactly when there are at most 49 of them. -/
theorem remembers_iff (periodic : Periodic round) (distinct : ((round 0).map Advert.dest).Nodup)
    (others : ∀ a ∈ round 0, a.id ≠ selfId) :
    Remembers selfId round ↔ (round 0).length ≤ 49 := by
  rw [remembers_iff_slot periodic others]
  rcases Nat.eq_zero_or_pos (round 0).length with none | some
  · rw [List.length_eq_zero_iff.mp none]
    simp
  · rw [← rounds_le_iff some]
    constructor
    · intro taken m
      have first := taken m _ (List.getElem_mem some)
      rwa [isSome_slot_round periodic distinct m some] at first
    · intro short m a mem
      obtain ⟨i, inside, rfl⟩ := List.getElem_of_mem mem
      rw [isSome_slot_round periodic distinct m inside]
      have every : rtAgeEvery = 16 := rfl
      have wait := short m
      simp only [rounds, every] at wait ⊢
      omega

end

def oneHop (n : ℕ) : Advert := ⟨oneHopAdvert, keyOf n, []⟩

theorem distinct_oneHop {ids : List ℕ} (small : ∀ n ∈ ids, n < 256) (distinct : ids.Nodup) :
    ((ids.map oneHop).map Advert.dest).Nodup := by
  rw [List.map_map]
  refine distinct.map_on fun n mem n' mem' same => ?_
  have bytes : UInt8.ofNat n = UInt8.ofNat n' := (List.cons.inj same).1
  have values := congrArg UInt8.toNat bytes
  rwa [UInt8.toNat_ofNat_of_lt' (small n mem), UInt8.toNat_ofNat_of_lt' (small n' mem')] at values

theorem remembers_iff_three : Remembers (keyOf 0) fun _ => [1, 2, 3].map oneHop :=
  (remembers_iff (fun _ => rfl) (distinct_oneHop (by decide) (by decide)) (by decide)).mpr
    (by decide)

/-- The peers of a node in a network of 100: after the first round the first of them has expired. -/
theorem not_remembers_hundred :
    let round := fun _ : ℕ => (List.range' 1 99).map oneHop
    Periodic round ∧ (round 0).length = 99 ∧ ((round 0).map Advert.dest).Nodup ∧
      (∀ a ∈ round 0, a.id ≠ keyOf 0 ∧ 1 ≤ a.packet.info.pathCount) ∧
      ¬ Remembers (keyOf 0) round := by
  have small : ∀ n ∈ List.range' 1 99, n < 256 := by decide
  have distinct := distinct_oneHop small (by decide +kernel)
  have others : ∀ a ∈ (List.range' 1 99).map oneHop,
      a.id ≠ keyOf 0 ∧ 1 ≤ a.packet.info.pathCount := by decide +kernel
  have periodic : Periodic fun _ => (List.range' 1 99).map oneHop := fun _ => rfl
  refine ⟨periodic, rfl, distinct, others, fun remembers => ?_⟩
  have here : oneHop 1 ∈ (List.range' 1 99).map oneHop :=
    List.mem_map_of_mem (List.mem_range'_1.mpr ⟨Nat.le_refl _, by decide⟩)
  have slots := remembers_iff_slot periodic fun a mem => (others a mem).1
  have taken := slots.mp remembers 0 (oneHop 1) here
  have some : 0 < ((List.range' 1 99).map oneHop).length := by simp
  have first := (isSome_slot_round periodic distinct 0 (i := 0) some).mp taken
  simp [rounds, rtAgeEvery, rtMaxAge] at first

end MeshcoreSim.Nexthop
