import Mathlib.Data.Rat.Sqrt
import Mathlib.Data.Sym.Sym2
import MeshcoreSim.ImportTopology
import MeshcoreSim.Lib.FirstWins
import MeshcoreSim.Lib.Partial

/-!
Conversion of a live network map to a simulator topology (`tools/fetch_topology.py`).

The endpoints of an observed edge are coordinates, which `resolve` takes to the device at these
coordinates or within 100 m of them. `buildTopology` keeps one edge of each pair of devices: the
first observation that passes the filters marks its pair, and is dropped afterwards if it is too
long. A distance that cannot be computed raises, which is `none` here.

Values of the snapshot that are absent have their defaults here. Radio and simulation parameters,
which are written to the output as they are, are left out, and so is what only the statistics read.

* `foldlM_addEdge` — when the loop returns, and the pairs that get an edge.
* `orderIndependent_iff` — when these do not depend on the order of the observations.
-/

namespace MeshcoreSim.FetchTopology

open Lib ImportTopology

/-! ### The snapshot -/

/-- `_coord_key`. -/
def coordKey (lat lon : ℚ) : ℚ × ℚ := (roundTo lat 5, roundTo lon 5)

/-- A value of `"devices"`. -/
structure Device where
  lat : ℚ := 0
  lon : ℚ := 0
  role : String := ""
  snr : Option ℚ := none
  deriving DecidableEq, Repr

/-- An element of `"history_edges"`, with the coordinates of its ends. -/
structure HistoryEdge where
  count : ℤ := 0
  a : List ℚ := []
  b : List ℚ := []
  deriving DecidableEq, Repr

structure Snapshot where
  devices : Dict String Device
  historyEdges : List HistoryEdge

/-- The arguments of `build_topology`. -/
structure FetchParams where
  minEdgeCount : ℤ := 1
  onlyRelays : Bool := false
  maxDistanceKm : ℚ := 50
  deriving DecidableEq, Repr

/-! ### Nodes -/

/-- An element of `nodes_raw`: the node, and what is kept of the device. -/
structure NodeRaw where
  node : NodeConfig
  lat : ℚ
  lon : ℚ
  snr : Option ℚ
  deriving DecidableEq, Repr

def NodeRaw.name (n : NodeRaw) : String := n.node.name

/-- `role.lower().replace("-", "_")`. -/
def roleStr (role : String) : String := role.map fun c => if c = '-' then '_' else c.toLower

/-- The node of a device, unless it has no GPS fix or is filtered by its role. -/
def nodeRaw (params : FetchParams) (entry : String × Device) : Option NodeRaw :=
  let (deviceId, dev) := entry
  if |dev.lat| < 1 / 1000 ∧ |dev.lon| < 1 / 1000 then none
  else if params.onlyRelays ∧ roleStr dev.role ≠ "repeater" then none
  else
    some
      { node :=
          { NodeConfig.named deviceId with
            relay := roleStr dev.role = "repeater"
            roomServer := roleStr dev.role = "room_server"
            lat := some (roundTo dev.lat 6)
            lon := some (roundTo dev.lon 6) }
        lat := dev.lat
        lon := dev.lon
        snr := dev.snr }

def nodesRaw (params : FetchParams) (devices : Dict String Device) : List NodeRaw :=
  devices.entries.filterMap (nodeRaw params)

/-! ### Endpoints -/

/-- `coord_exact`: of nodes at the same place, the last one. -/
def coordExact (nodes : List NodeRaw) : Dict (ℚ × ℚ) String :=
  .ofList (nodes.map fun n => (coordKey n.lat n.lon, n.name))

/-- The search for the nearest node: the first of those at the smallest distance. -/
def nearest (lib : GeoLib) (lat lon : ℚ) (nodes : List NodeRaw) : Option (Option (ℚ × String)) :=
  nodes.foldlM (fun best n => (lib.haversineKm lat lon n.lat n.lon).map fun d =>
    match best with
    | none => some (d, n.name)
    | some (bestDist, bestId) => if d < bestDist then some (d, n.name) else some (bestDist, bestId))
    none

/-- `_resolve`, with `none` where it raises. -/
def resolve (lib : GeoLib) (nodes : List NodeRaw) (lat lon : ℚ) : Option (Option String) :=
  let fallback := (nearest lib lat lon nodes).map fun best =>
    best.bind fun (bestDist, bestId) => if bestDist < 1 / 10 then some bestId else none
  match (coordExact nodes).get? (coordKey lat lon) with
  | some cand => if cand ≠ "" ∧ cand ∈ nodes.map NodeRaw.name then some (some cand) else fallback
  | none => fallback

/-! ### Edges -/

/-- An element of `edges_raw`. -/
structure EdgeRaw where
  edge : EdgeConfig
  count : ℤ
  distKm : ℚ
  deriving DecidableEq, Repr

/-- The pair of nodes that an edge joins. -/
def EdgeRaw.pair (e : EdgeRaw) : Sym2 String := s(e.edge.a, e.edge.b)

/-- The edges so far, and the pairs that were seen. -/
structure EdgeState where
  edgesRaw : List EdgeRaw
  seenPairs : List (Sym2 String)

/-- `node_snr.get(name, _DEFAULT_SNR)`. -/
def nodeSnr (nodes : List NodeRaw) (name : String) : ℚ :=
  ((Dict.ofList (nodes.filterMap fun n => n.snr.map fun snr => (n.name, snr))).get? name).getD 6

/-- The edge of an observation; its SNR is the mean of the nodes' last-known values. -/
def edgeRaw (nodes : List NodeRaw) (idA idB : String) (count : ℤ) (dist : ℚ) : EdgeRaw where
  edge :=
    { a := idA
      b := idB
      loss := 5 / 100
      latencyMs := 20
      snr := roundTo ((nodeSnr nodes idA + nodeSnr nodes idB) / 2) 1
      aToB := none
      bToA := none }
  count := count
  distKm := roundTo dist 2

/-- One round of the loop over the history edges. -/
def addEdge (lib : GeoLib) (params : FetchParams) (nodes : List NodeRaw) (state : EdgeState)
    (hedge : HistoryEdge) : Option EdgeState :=
  if hedge.count < params.minEdgeCount then some state
  else
    match hedge.a, hedge.b with
    | lat1 :: lon1 :: _, lat2 :: lon2 :: _ => do
        match ← resolve lib nodes lat1 lon1, ← resolve lib nodes lat2 lon2 with
        | some idA, some idB =>
            if idA = idB then some state
            else if idA ∉ nodes.map NodeRaw.name ∨ idB ∉ nodes.map NodeRaw.name then some state
            else if s(idA, idB) ∈ state.seenPairs then some state
            else
              let seen := state.seenPairs ++ [s(idA, idB)]
              (lib.haversineKm lat1 lon1 lat2 lon2).map fun dist =>
                if params.maxDistanceKm < dist then ⟨state.edgesRaw, seen⟩
                else ⟨state.edgesRaw ++ [edgeRaw nodes idA idB hedge.count dist], seen⟩
        | _, _ => some state
    | _, _ => some state

/-- What is returned: the nodes and edges of the topology, and the same with what is kept for the
statistics. -/
structure FetchedTopology where
  nodes : List NodeConfig
  edges : List EdgeConfig
  nodesRaw : List NodeRaw
  edgesRaw : List EdgeRaw

/-- `build_topology`; the strongest edges come first. -/
def buildTopology (lib : GeoLib) (params : FetchParams) (snapshot : Snapshot) :
    Option FetchedTopology :=
  let nodes := nodesRaw params snapshot.devices
  (snapshot.historyEdges.foldlM (addEdge lib params nodes) ⟨[], []⟩).map fun state =>
    let edges := state.edgesRaw.mergeSort fun e e' => e'.count ≤ e.count
    ⟨nodes.map NodeRaw.node, edges.map EdgeRaw.edge, nodes, edges⟩

/-- The tool returns, and an edge of the output joins the pair. -/
def Joins (lib : GeoLib) (params : FetchParams) (snapshot : Snapshot) (pair : Sym2 String) : Prop :=
  ∃ topology, buildTopology lib params snapshot = some topology ∧
    ∃ e ∈ topology.edges, s(e.a, e.b) = pair

/-- In every order of the history edges the tool raises, or in every order it returns edges between
the same pairs. -/
def OrderIndependent (lib : GeoLib) (params : FetchParams) (snapshot : Snapshot) : Prop :=
  ∀ historyEdges : List HistoryEdge, historyEdges.Perm snapshot.historyEdges →
    ((buildTopology lib params { snapshot with historyEdges := historyEdges }).isSome ↔
      (buildTopology lib params snapshot).isSome) ∧
    ∀ pair, Joins lib params { snapshot with historyEdges := historyEdges } pair ↔
      Joins lib params snapshot pair

/-! ### Observations -/

/-- The two nodes that a history edge is an observation of, and its length, if that can be computed;
`none` if its ends cannot be resolved without an exception. -/
def observation (lib : GeoLib) (params : FetchParams) (nodes : List NodeRaw)
    (hedge : HistoryEdge) : Option (Option (String × String × Option ℚ)) :=
  if hedge.count < params.minEdgeCount then some none
  else
    match hedge.a, hedge.b with
    | lat1 :: lon1 :: _, lat2 :: lon2 :: _ =>
        (resolve lib nodes lat1 lon1).bind fun endA =>
          (resolve lib nodes lat2 lon2).map fun endB =>
            match endA, endB with
            | some idA, some idB =>
                if idA = idB then none
                else if idA ∉ nodes.map NodeRaw.name ∨ idB ∉ nodes.map NodeRaw.name then none
                else some (idA, idB, lib.haversineKm lat1 lon1 lat2 lon2)
            | _, _ => none
    | _, _ => some none

/-- The ends of an edge are resolved without an exception. -/
def Resolvable (lib : GeoLib) (params : FetchParams) (nodes : List NodeRaw)
    (hedge : HistoryEdge) : Prop :=
  (observation lib params nodes hedge).isSome

/-- The pair of an observation. -/
def observed (lib : GeoLib) (params : FetchParams) (nodes : List NodeRaw)
    (hedge : HistoryEdge) : Option (Sym2 String) :=
  (observation lib params nodes hedge).join.map fun (idA, idB, _) => s(idA, idB)

/-- The length of an observation is plausible. -/
def Plausible (lib : GeoLib) (params : FetchParams) (nodes : List NodeRaw) (hedge : HistoryEdge) :
    Prop :=
  ∃ idA idB dist, observation lib params nodes hedge = some (some (idA, idB, some dist)) ∧
    dist ≤ params.maxDistanceKm

/-- The length of an observation cannot be computed. -/
def Immeasurable (lib : GeoLib) (params : FetchParams) (nodes : List NodeRaw)
    (hedge : HistoryEdge) : Prop :=
  ∃ idA idB, observation lib params nodes hedge = some (some (idA, idB, none))

section

variable {lib : GeoLib} {params : FetchParams} {nodes : List NodeRaw}

theorem addEdge_eq (state : EdgeState) (hedge : HistoryEdge) :
    addEdge lib params nodes state hedge =
      (observation lib params nodes hedge).bind fun found =>
        match found with
        | none => some state
        | some (idA, idB, length) =>
            if s(idA, idB) ∈ state.seenPairs then some state
            else
              length.map fun dist =>
                if params.maxDistanceKm < dist then
                  ⟨state.edgesRaw, state.seenPairs ++ [s(idA, idB)]⟩
                else
                  ⟨state.edgesRaw ++ [edgeRaw nodes idA idB hedge.count dist],
                    state.seenPairs ++ [s(idA, idB)]⟩ := by
  unfold addEdge observation
  by_cases rare : hedge.count < params.minEdgeCount
  · rw [if_pos rare, if_pos rare]
    rfl
  rw [if_neg rare, if_neg rare]
  rcases hedge.a with - | ⟨lat1, - | ⟨lon1, restA⟩⟩
  · rfl
  · rfl
  rcases hedge.b with - | ⟨lat2, - | ⟨lon2, restB⟩⟩
  · rfl
  · rfl
  simp only [Option.bind_eq_bind]
  cases resolve lib nodes lat1 lon1 with
  | none => rfl
  | some endA =>
      cases resolve lib nodes lat2 lon2 with
      | none => rfl
      | some endB =>
          simp only [Option.bind_some, Option.map_some]
          rcases endA with - | idA
          · rfl
          rcases endB with - | idB
          · rfl
          simp only
          by_cases same : idA = idB
          · rw [if_pos same, if_pos same]
          rw [if_neg same, if_neg same]
          by_cases unknown : idA ∉ nodes.map NodeRaw.name ∨ idB ∉ nodes.map NodeRaw.name
          · rw [if_pos unknown, if_pos unknown]
          · rw [if_neg unknown, if_neg unknown]

/-- The loop returns if all ends are resolved and each pair's first observation has a length; then
these are the pairs that are seen, and those that get an edge. -/
structure Outcome (lib : GeoLib) (params : FetchParams) (nodes : List NodeRaw)
    (historyEdges : List HistoryEdge) (outcome : Option EdgeState) : Prop where
  returns : outcome.isSome ↔ (∀ hedge ∈ historyEdges, Resolvable lib params nodes hedge) ∧
    Unfailing (observed lib params nodes) (Immeasurable lib params nodes) historyEdges
  seen : ∀ state, outcome = some state → ∀ pair, pair ∈ state.seenPairs ↔
    ∃ hedge ∈ historyEdges, observed lib params nodes hedge = some pair
  joined : ∀ state, outcome = some state → ∀ pair, (∃ e ∈ state.edgesRaw, e.pair = pair) ↔
    Accepted (observed lib params nodes) (Plausible lib params nodes) historyEdges pair

variable {earlier : List HistoryEdge} {hedge : HistoryEdge} {state : EdgeState} {idA idB : String}

/-- A loop that has raised does not return later. -/
theorem Outcome.raised (outcome : Outcome lib params nodes earlier none) :
    Outcome lib params nodes (earlier ++ [hedge]) none where
  returns := by
    refine iff_of_false Bool.false_ne_true fun ⟨resolvable, unfailing⟩ => ?_
    have before := outcome.returns.mpr ⟨fun h mem => resolvable h (List.mem_append_left _ mem),
      ((unfailing_concat hedge).mp unfailing).1⟩
    cases before
  seen state none := by cases none
  joined state none := by cases none

/-- An edge that is no observation, or of a pair that was seen. -/
theorem Outcome.skip (outcome : Outcome lib params nodes earlier (some state))
    (resolvable : Resolvable lib params nodes hedge)
    (old : ∀ pair, observed lib params nodes hedge = some pair → pair ∈ state.seenPairs) :
    Outcome lib params nodes (earlier ++ [hedge]) (some state) where
  returns := by
    obtain ⟨resolvable', unfailing⟩ := outcome.returns.mp rfl
    refine iff_of_true rfl ⟨?_, (unfailing_concat hedge).mpr ⟨unfailing, fun pair here new => ?_⟩⟩
    · exact List.forall_mem_append.mpr ⟨resolvable', List.forall_mem_singleton.mpr resolvable⟩
    · obtain ⟨h, mem, seen⟩ := (outcome.seen state rfl pair).mp (old pair here)
      exact absurd seen (new h mem)
  seen := by
    rintro _ ⟨⟩ pair
    rw [outcome.seen state rfl pair]
    simp only [List.mem_append, List.mem_singleton, or_and_right, exists_or, exists_eq_left]
    exact (or_iff_left_of_imp fun here => (outcome.seen state rfl pair).mp (old pair here)).symm
  joined := by
    rintro _ ⟨⟩ pair
    rw [outcome.joined state rfl pair, accepted_concat]
    refine (or_iff_left_of_imp fun ⟨new, here, _⟩ => ?_).symm
    obtain ⟨h, mem, seen⟩ := (outcome.seen state rfl pair).mp (old pair here)
    exact absurd seen (new h mem)

/-- A new pair is seen, and gets an edge if the length is plausible. -/
theorem Outcome.see (outcome : Outcome lib params nodes earlier (some state)) {dist : ℚ}
    (found : observation lib params nodes hedge = some (some (idA, idB, some dist)))
    (new : s(idA, idB) ∉ state.seenPairs) {added : List EdgeRaw}
    (pairs : ∀ e ∈ added, e.pair = s(idA, idB))
    (short : added ≠ [] ↔ dist ≤ params.maxDistanceKm) :
    Outcome lib params nodes (earlier ++ [hedge])
      (some ⟨state.edgesRaw ++ added, state.seenPairs ++ [s(idA, idB)]⟩) := by
  have isPair : observed lib params nodes hedge = some s(idA, idB) := by simp [observed, found]
  have unseen (pair : Sym2 String) : (∀ h ∈ earlier, observed lib params nodes h ≠ some pair) ↔
      pair ∉ state.seenPairs := by simp [outcome.seen state rfl pair]
  obtain ⟨resolvable, unfailing⟩ := outcome.returns.mp rfl
  refine ⟨iff_of_true rfl ⟨?_, (unfailing_concat hedge).mpr ⟨unfailing, ?_⟩⟩, ?_, ?_⟩
  · have here : Resolvable lib params nodes hedge := by simp [Resolvable, found]
    exact List.forall_mem_append.mpr ⟨resolvable, List.forall_mem_singleton.mpr here⟩
  · rintro pair - - ⟨idA', idB', immeasurable⟩
    cases found.symm.trans immeasurable
  · rintro _ ⟨⟩ pair
    rw [List.mem_append, outcome.seen state rfl pair, List.mem_singleton]
    simp only [List.mem_append, List.mem_singleton, or_and_right, exists_or, exists_eq_left, isPair,
      Option.some.injEq]
    exact or_congr_right eq_comm
  · rintro _ ⟨⟩ pair
    have isPlausible : Plausible lib params nodes hedge ↔ added ≠ [] := by
      rw [short]
      simp [Plausible, found]
    rw [accepted_concat, unseen, isPair, isPlausible, ← outcome.joined state rfl pair]
    simp only [List.mem_append, or_and_right, exists_or]
    refine or_congr_right ⟨?_, ?_⟩
    · rintro ⟨e, mem, rfl⟩
      rw [pairs e mem]
      exact ⟨new, rfl, List.ne_nil_of_mem mem⟩
    · rintro ⟨-, same, nonempty⟩
      obtain ⟨e, mem⟩ := List.exists_mem_of_ne_nil _ nonempty
      exact ⟨e, mem, (pairs e mem).trans (Option.some.inj same)⟩

/-- One more edge. -/
theorem Outcome.step (outcome : Outcome lib params nodes earlier (some state)) :
    Outcome lib params nodes (earlier ++ [hedge]) (addEdge lib params nodes state hedge) := by
  rw [addEdge_eq]
  cases found : observation lib params nodes hedge with
  | none =>
      refine ⟨iff_of_false Bool.false_ne_true fun ⟨resolvable, _⟩ => ?_, nofun, nofun⟩
      have here := resolvable hedge (List.mem_append_right _ List.mem_cons_self)
      rw [Resolvable, found] at here
      cases here
  | some here =>
      have resolvable : Resolvable lib params nodes hedge := by simp [Resolvable, found]
      rw [Option.bind_some]
      rcases here with - | ⟨idA, idB, length⟩
      · exact outcome.skip resolvable fun pair isPair => by simp [observed, found] at isPair
      have isPair : observed lib params nodes hedge = some s(idA, idB) := by
        simp [observed, found]
      simp only
      by_cases old : s(idA, idB) ∈ state.seenPairs
      · rw [if_pos old]
        exact outcome.skip resolvable fun pair same =>
          Option.some.inj (isPair.symm.trans same) ▸ old
      rw [if_neg old]
      cases length with
      | none =>
          refine ⟨iff_of_false Bool.false_ne_true fun ⟨_, unfailing⟩ => ?_, nofun, nofun⟩
          refine ((unfailing_concat hedge).mp unfailing).2 _ isPair (fun h mem seen => ?_)
            ⟨idA, idB, found⟩
          exact old ((outcome.seen state rfl _).mpr ⟨h, mem, seen⟩)
      | some dist =>
          rw [Option.map_some]
          by_cases far : params.maxDistanceKm < dist
          · have dropped := @Outcome.see _ _ _ _ _ _ _ _ outcome _ found old []
              (fun e mem => by cases mem) (iff_of_false (fun nonempty => nonempty rfl) (not_le.mpr far))
            rw [List.append_nil] at dropped
            rwa [if_pos far]
          · rw [if_neg far]
            exact outcome.see found old (fun e mem => by rw [List.mem_singleton.mp mem]; rfl)
              (iff_of_true (List.cons_ne_nil _ _) (not_lt.mp far))

/-- The whole loop. -/
theorem foldlM_addEdge (historyEdges : List HistoryEdge) :
    Outcome lib params nodes historyEdges
      (historyEdges.foldlM (addEdge lib params nodes) ⟨[], []⟩) := by
  induction historyEdges using List.reverseRecOn with
  | nil =>
      refine ⟨by simp [Unfailing], ?_, ?_⟩
      · rintro state ⟨⟩ pair
        simp
      · rintro state ⟨⟩ pair
        simp [Accepted]
  | append_singleton earlier hedge ih =>
      rw [List.foldlM_append, Option.bind_eq_bind]
      cases run : earlier.foldlM (addEdge lib params nodes) ⟨[], []⟩ with
      | none => exact (run ▸ ih).raised
      | some state =>
          simp only [Option.bind_some, List.foldlM_cons, List.foldlM_nil, bind_pure]
          exact (run ▸ ih).step

end

section

variable {lib : GeoLib} {params : FetchParams} {snapshot : Snapshot}

/-- The tool returns exactly if no end and no first length raises. -/
theorem buildTopology_isSome_iff :
    (buildTopology lib params snapshot).isSome ↔
      (∀ hedge ∈ snapshot.historyEdges,
        Resolvable lib params (nodesRaw params snapshot.devices) hedge) ∧
      Unfailing (observed lib params (nodesRaw params snapshot.devices))
        (Immeasurable lib params (nodesRaw params snapshot.devices)) snapshot.historyEdges := by
  rw [← (foldlM_addEdge snapshot.historyEdges).returns, buildTopology, Option.isSome_map]

theorem joins_iff_edgesRaw {pair : Sym2 String} :
    Joins lib params snapshot pair ↔
      ∃ state, snapshot.historyEdges.foldlM
          (addEdge lib params (nodesRaw params snapshot.devices)) ⟨[], []⟩ = some state ∧
        ∃ e ∈ state.edgesRaw, e.pair = pair := by
  simp only [Joins, buildTopology, Option.map_eq_some_iff, exists_exists_and_eq_and, List.mem_map,
    List.mem_mergeSort]
  rfl

/-- The pairs that the tool joins. -/
theorem joins_iff {pair : Sym2 String} :
    Joins lib params snapshot pair ↔ (buildTopology lib params snapshot).isSome ∧
      Accepted (observed lib params (nodesRaw params snapshot.devices))
        (Plausible lib params (nodesRaw params snapshot.devices)) snapshot.historyEdges pair := by
  rw [joins_iff_edgesRaw, buildTopology, Option.isSome_map, Option.isSome_iff_exists]
  have outcome := @foldlM_addEdge lib params (nodesRaw params snapshot.devices)
    snapshot.historyEdges
  constructor
  · rintro ⟨state, run, edge⟩
    exact ⟨⟨state, run⟩, (outcome.joined state run pair).mp edge⟩
  · rintro ⟨⟨state, run⟩, accepted⟩
    exact ⟨state, run, (outcome.joined state run pair).mpr accepted⟩

end

/-- The order of the history edges does not matter exactly if the tool raises in every order, since
an end cannot be resolved or no observation of a pair has a length, or if all observations have one
and those of each pair are all of plausible length or all not. -/
theorem orderIndependent_iff (lib : GeoLib) (params : FetchParams) (snapshot : Snapshot) :
    OrderIndependent lib params snapshot ↔
      (∃ hedge ∈ snapshot.historyEdges,
        ¬ Resolvable lib params (nodesRaw params snapshot.devices) hedge) ∨
      (∃ pair, (∃ hedge ∈ snapshot.historyEdges,
          observed lib params (nodesRaw params snapshot.devices) hedge = some pair) ∧
        ∀ hedge ∈ snapshot.historyEdges,
          observed lib params (nodesRaw params snapshot.devices) hedge = some pair →
          Immeasurable lib params (nodesRaw params snapshot.devices) hedge) ∨
      (∀ hedge ∈ snapshot.historyEdges,
        (observed lib params (nodesRaw params snapshot.devices) hedge).isSome →
        ¬ Immeasurable lib params (nodesRaw params snapshot.devices) hedge) ∧
      ∀ hedge ∈ snapshot.historyEdges, ∀ hedge' ∈ snapshot.historyEdges, ∀ pair,
        observed lib params (nodesRaw params snapshot.devices) hedge = some pair →
        observed lib params (nodesRaw params snapshot.devices) hedge' = some pair →
        (Plausible lib params (nodesRaw params snapshot.devices) hedge ↔
          Plausible lib params (nodesRaw params snapshot.devices) hedge') := by
  by_cases resolvable : ∀ hedge ∈ snapshot.historyEdges,
      Resolvable lib params (nodesRaw params snapshot.devices) hedge
  · have none : ¬ ∃ hedge ∈ snapshot.historyEdges,
        ¬ Resolvable lib params (nodesRaw params snapshot.devices) hedge :=
      fun ⟨hedge, mem, unresolvable⟩ => unresolvable (resolvable hedge mem)
    have returns (historyEdges : List HistoryEdge)
        (perm : historyEdges.Perm snapshot.historyEdges) :
        (buildTopology lib params { snapshot with historyEdges := historyEdges }).isSome ↔
          Unfailing (observed lib params (nodesRaw params snapshot.devices))
            (Immeasurable lib params (nodesRaw params snapshot.devices)) historyEdges :=
      buildTopology_isSome_iff.trans
        (and_iff_right fun hedge mem => resolvable hedge (perm.mem_iff.mp mem))
    rw [or_iff_right none]
    refine Iff.trans ?_ outcome_perm_iff
    refine forall_congr' fun historyEdges => forall_congr' fun perm => ?_
    rw [returns historyEdges perm, returns snapshot.historyEdges (.refl _)]
    refine and_congr_right fun same => ?_
    have joins (pair : Sym2 String) : Joins lib params snapshot pair ↔ _ :=
      joins_iff.trans (and_congr_left' (returns snapshot.historyEdges (.refl _)))
    have joins' (pair : Sym2 String) :
        Joins lib params { snapshot with historyEdges := historyEdges } pair ↔ _ :=
      joins_iff.trans (and_congr_left' ((returns historyEdges perm).trans same))
    refine (forall_congr' fun pair => iff_congr (joins' pair) (joins pair)).trans ?_
    exact ⟨fun equal unfailing pair => by simpa [unfailing] using equal pair,
      fun equal pair => and_congr_right fun unfailing => equal unfailing pair⟩
  · have raises (historyEdges : List HistoryEdge) (perm : historyEdges.Perm snapshot.historyEdges) :
        ¬ (buildTopology lib params { snapshot with historyEdges := historyEdges }).isSome :=
      fun returned => resolvable fun hedge mem =>
        (buildTopology_isSome_iff.mp returned).1 hedge (perm.mem_iff.mpr mem)
    push Not at resolvable
    refine iff_of_true (fun historyEdges perm => ?_) (.inl resolvable)
    exact ⟨iff_of_false (raises historyEdges perm) (raises _ (.refl _)),
      fun pair => iff_of_false (fun joins => raises historyEdges perm (joins_iff.mp joins).1)
        fun joins => raises _ (.refl _) (joins_iff.mp joins).1⟩

/-- Near the equator. -/
def equator : GeoLib where
  radians x := x * (355 / 113) / 180
  sin x := x
  cos _ := 1
  asin x := x
  sqrt := Rat.sqrt

/-- Two devices that are 49.97 km apart. -/
def twoDevices : Dict String Device :=
  .ofList [("left", { lat := 0, lon := 1, role := "repeater" }),
    ("right", { lat := 0, lon := 14494 / 10000, role := "repeater" })]

/-- An observation at their coordinates. -/
def exactly : HistoryEdge := { count := 7, a := [0, 1], b := [0, 14494 / 10000] }

/-- An observation with one end 89 m behind the right device. -/
def behind : HistoryEdge := { count := 3, a := [0, 1], b := [0, 14502 / 10000] }

/-- The pairs that are joined in a run of the loop. -/
def pairsJoined (historyEdges : List HistoryEdge) : Option (List (Sym2 String)) :=
  (historyEdges.foldlM (addEdge equator {} (nodesRaw {} twoDevices)) ⟨[], []⟩).map fun state =>
    state.edgesRaw.map EdgeRaw.pair

theorem joins_iff_pairsJoined {historyEdges : List HistoryEdge} {pair : Sym2 String} :
    Joins equator {} ⟨twoDevices, historyEdges⟩ pair ↔ ∃ pairs ∈ pairsJoined historyEdges,
      pair ∈ pairs := by
  simp [joins_iff_edgesRaw, pairsJoined]

/-- Where the longer observation comes first, the devices are not joined. -/
theorem not_orderIndependent :
    ¬ ∀ lib params snapshot, OrderIndependent lib params snapshot := by
  intro claim
  have sameEdges := (claim equator {} ⟨twoDevices, [exactly, behind]⟩ [behind, exactly]
    (.swap ..)).2 s("left", "right")
  have first : pairsJoined [exactly, behind] = some [s("left", "right")] := by decide +kernel
  have second : pairsJoined [behind, exactly] = some [] := by decide +kernel
  rw [joins_iff_pairsJoined, joins_iff_pairsJoined, first, second] at sameEdges
  simp at sameEdges

end MeshcoreSim.FetchTopology
