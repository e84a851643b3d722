import MeshcoreSim.Lib.Way
import MeshcoreSim.Router.Spread
import MeshcoreSim.TopologyFile

/-!
Grid topologies (`topologies/gen_grid.py`): the file that the script writes, and the network that is
loaded from it.

* `grid_network` — the nodes, the endpoints, and the links of every node.
* `grid_hops` — the number of hops from the source to every node.
* `grid_spread` — how long a packet of the source takes to every node at least.
-/

namespace MeshcoreSim.Grid

open Lib

/-- A row and a column. -/
abbrev Cell := ℕ × ℕ

/-- The options of the script beside the size. -/
structure Options where
  loss : ℚ
  latencyMs : ℚ
  snr : ℚ
  warmupSecs : ℚ
  durationSecs : ℚ
  trafficIntervalSecs : ℚ
  advertIntervalSecs : ℚ
  defaultBinary : String

def nodeName (row col : ℤ) : NodeName := "n_" ++ toString row ++ "_" ++ toString col

/-- The cells in the order of the two loops. -/
def cells (rows cols : ℕ) : List Cell :=
  (List.range rows).flatMap fun r => (List.range cols).map fun c => (r, c)

def cellName (cell : Cell) : NodeName := nodeName cell.1 cell.2

/-- An item of the list of nodes. -/
def nodeDict (src dst name : NodeName) : JsonDoc :=
  .dict
    [("name", some (.string name)),
      ("relay", some (.bool (name ≠ src ∧ name ≠ dst)))]

/-- An item of the list of edges. -/
def edgeDict (o : Options) (a b : NodeName) : JsonDoc :=
  .dict
    [("a", some (.string a)),
      ("b", some (.string b)),
      ("loss", some (.float o.loss)),
      ("latency_ms", some (.float o.latencyMs)),
      ("snr", some (.float o.snr))]

/-- The pairs of cells that one iteration of the loop joins. -/
def joined (rows cols : ℕ) (cell : Cell) : List (Cell × Cell) :=
  (if cell.2 + 1 < cols then [(cell, (cell.1, cell.2 + 1))] else []) ++
    if cell.1 + 1 < rows then [(cell, (cell.1 + 1, cell.2))] else []

def comment (rows cols : ℕ) (src dst : NodeName) : String :=
  toString rows ++ "×" ++ toString cols ++ " grid topology. SOURCE=" ++ src ++
    " (endpoint) → DEST=" ++ dst ++ " (endpoint). All " ++ toString ((rows * cols : ℤ) - 2) ++
    " interior nodes are relays."

def genGrid (rows cols : ℕ) (o : Options) : JsonDoc :=
  let src := nodeName 0 0
  let dst := nodeName (rows - 1) (cols - 1)
  .dict
    [("_comment", some (.string (comment rows cols src dst))),
      ("nodes", some (.list ((cells rows cols).map fun cell => nodeDict src dst (cellName cell)))),
      ("edges", some (.list (((cells rows cols).flatMap (joined rows cols)).map fun pair =>
        edgeDict o (cellName pair.1) (cellName pair.2)))),
      ("radio", some (.dict
        [("sf", some (.int 10)),
          ("bw_hz", some (.int 250000)),
          ("cr", some (.int 1)),
          ("preamble_symbols", some (.int 8))])),
      ("simulation", some (.dict
        [("warmup_secs", some (.float o.warmupSecs)),
          ("duration_secs", some (.float o.durationSecs)),
          ("traffic_interval_secs", some (.float o.trafficIntervalSecs)),
          ("advert_interval_secs", some (.float o.advertIntervalSecs)),
          ("default_binary", some (.string o.defaultBinary))]))]

/-- `main`: the file that is written; nothing for a grid that is too small. -/
def main? (rows : ℤ) (cols : Option ℤ) (o : Options) : Option JsonDoc :=
  let cols := cols.getD rows
  if rows < 2 ∨ cols < 2 then none else some (genGrid rows.toNat cols.toNat o)

/-! ### What is loaded -/

def nodeConfig (rows cols : ℕ) (cell : Cell) : NodeConfig :=
  { NodeConfig.named (cellName cell) with
    relay := cellName cell ≠ nodeName 0 0 ∧ cellName cell ≠ nodeName (rows - 1) (cols - 1) }

def edgeConfig (o : Options) (pair : Cell × Cell) : EdgeConfig :=
  ⟨cellName pair.1, cellName pair.2, o.loss, o.latencyMs, o.snr, none, none⟩

/-- The topology that is loaded from the file. -/
def gridTopology (now : ℤ) (rows cols : ℕ) (o : Options) : TopologyParams where
  nodes := (cells rows cols).map (nodeConfig rows cols)
  edges := ((cells rows cols).flatMap (joined rows cols)).map (edgeConfig o)
  simulation := ⟨o.warmupSecs, o.durationSecs, o.trafficIntervalSecs, o.advertIntervalSecs, now,
    if o.defaultBinary = "" then "./node_agent/build/node_agent" else o.defaultBinary, none, none⟩
  radio := some ⟨⟨10, 250000, 1, 8⟩, RadioConfig.default.noiseFloorDBm⟩

theorem loadNode_nodeDict (rows cols : ℕ) (cell : Cell) :
    loadNode (nodeDict (nodeName 0 0) (nodeName (rows - 1) (cols - 1)) (cellName cell)) =
      some (nodeConfig rows cols cell) := rfl

theorem loadEdge_edgeDict (o : Options) (pair : Cell × Cell) :
    loadEdge (edgeDict o (cellName pair.1) (cellName pair.2)) = some (edgeConfig o pair) := rfl

theorem loadSimulation_dict (now : ℤ) (rows cols : ℕ) (o : Options) :
    loadSimulation now (.dict
      [("warmup_secs", some (.float o.warmupSecs)),
        ("duration_secs", some (.float o.durationSecs)),
        ("traffic_interval_secs", some (.float o.trafficIntervalSecs)),
        ("advert_interval_secs", some (.float o.advertIntervalSecs)),
        ("default_binary", some (.string o.defaultBinary))]) =
      some (gridTopology now rows cols o).simulation := by
  have binary (sim : JsonDoc)
      (current : sim.get? "default_binary" = some (some (.string o.defaultBinary)))
      (legacy : sim.get? "agent_binary" = some none) : loadBinary sim =
      some (if o.defaultBinary = "" then "./node_agent/build/node_agent" else o.defaultBinary) := by
    have truthy : (JsonDoc.string o.defaultBinary).truthy = decide (o.defaultBinary ≠ "") := rfl
    rw [loadBinary, current, legacy]
    simp only [Option.bind_eq_bind, Option.bind_some, Option.filter_some, truthy]
    by_cases empty : o.defaultBinary = ""
    · simp [empty, JsonDoc.string?_string]
    · simp [empty, JsonDoc.string?_string]
  rw [loadSimulation, binary _ rfl rfl]
  rfl

/-- What is loaded from the file that the script writes. -/
theorem loadTopology_genGrid (now : ℤ) (rows cols : ℕ) (o : Options) :
    loadTopology now (genGrid rows cols o) = some (gridTopology now rows cols o) := by
  have nodes : (genGrid rows cols o).withDefault "nodes" (.list []) JsonDoc.iter? =
      some ((cells rows cols).map fun cell =>
        nodeDict (nodeName 0 0) (nodeName (rows - 1) (cols - 1)) (cellName cell)) := rfl
  have edges : (genGrid rows cols o).withDefault "edges" (.list []) JsonDoc.iter? =
      some (((cells rows cols).flatMap (joined rows cols)).map fun pair =>
        edgeDict o (cellName pair.1) (cellName pair.2)) := rfl
  have simulation : (genGrid rows cols o).withDefault "simulation" (.object [])
      (loadSimulation now) = some (gridTopology now rows cols o).simulation :=
    loadSimulation_dict now rows cols o
  have radio : (genGrid rows cols o).get? "radio" = some (some (.dict
      [("sf", some (.int 10)), ("bw_hz", some (.int 250000)), ("cr", some (.int 1)),
        ("preamble_symbols", some (.int 8))])) := rfl
  have modem : loadRadio (rawRadio (some (.dict
      [("sf", some (.int 10)), ("bw_hz", some (.int 250000)), ("cr", some (.int 1)),
        ("preamble_symbols", some (.int 8))]))) = some (some ⟨10, 250000, 1, 8⟩) := by
    simp [JsonDoc.dict, rawRadio, loadRadio, radioField, Dict.ofList, Dict.get?_set,
      JsonDoc.toJson, JsonDoc.int, Json.int?]
  simp only [loadTopology, nodes, edges, radio, simulation, modem, Option.bind_eq_bind,
    Option.bind_some, mapM_map_of_reads (loadNode_nodeDict rows cols),
    mapM_map_of_reads (loadEdge_edgeDict o)]
  rfl

/-! ### Names and cells -/

theorem mem_cells {rows cols : ℕ} {cell : Cell} :
    cell ∈ cells rows cols ↔ cell.1 < rows ∧ cell.2 < cols := by
  obtain ⟨r, c⟩ := cell
  simp [cells]

theorem nodup_cells (rows cols : ℕ) : (cells rows cols).Nodup := by
  refine List.nodup_flatMap.mpr ⟨fun r _ => ?_, ?_⟩
  · exact List.nodup_range.map fun c c' same => (Prod.mk.inj same).2
  · refine List.nodup_range.imp fun other => ?_
    rintro cell mem mem'
    obtain ⟨c, -, rfl⟩ := List.mem_map.mp mem
    obtain ⟨c', -, same⟩ := List.mem_map.mp mem'
    exact other (Prod.mk.inj same).1.symm

theorem toList_cellName (cell : Cell) :
    (cellName cell).toList =
      'n' :: '_' :: (Nat.toDigits 10 cell.1 ++ '_' :: Nat.toDigits 10 cell.2) := by
  have digits (n : ℕ) : (toString (n : ℤ)).toList = Nat.toDigits 10 n := by
    change (Nat.repr n).toList = _
    simp [Nat.repr]
  rw [cellName, nodeName]
  simp only [String.toList_append, digits]
  simp

theorem underscore_notMem_toDigits (n : ℕ) : '_' ∉ Nat.toDigits 10 n := by
  intro mem
  have digit := Nat.isDigit_of_mem_toDigits (by decide) (by decide) mem
  exact absurd digit (by decide)

theorem toDigits_injective : Function.Injective (Nat.toDigits 10) := by
  intro m n same
  have value := congrArg (Nat.ofDigitChars 10 · 0) same
  simpa [Nat.ofDigitChars_toDigits] using value

/-- The name of a node says its cell. -/
theorem cellName_injective : Function.Injective cellName := by
  intro p q same
  have chars := congrArg String.toList same
  rw [toList_cellName, toList_cellName] at chars
  obtain ⟨rows, -, cols⟩ := (List.append_cons_inj_of_notMem (underscore_notMem_toDigits _)
    (underscore_notMem_toDigits _)).mp (List.cons.inj (List.cons.inj chars).2).2
  exact Prod.ext (toDigits_injective rows) (toDigits_injective cols)

/-! ### Links -/

/-- A cell of the grid. -/
def Inside (rows cols : ℕ) (cell : Cell) : Prop := cell.1 < rows ∧ cell.2 < cols

/-- Two cells next to each other in a row or in a column. -/
def Adjacent (p q : Cell) : Prop :=
  p.1 = q.1 ∧ (p.2 + 1 = q.2 ∨ q.2 + 1 = p.2) ∨ p.2 = q.2 ∧ (p.1 + 1 = q.1 ∨ q.1 + 1 = p.1)

/-- The link to a cell. -/
def linkTo (o : Options) (cell : Cell) : EdgeLink := ⟨cellName cell, o.loss, o.latencyMs, o.snr⟩

/-- The pairs of cells that are joined. -/
def pairs (rows cols : ℕ) : List (Cell × Cell) := (cells rows cols).flatMap (joined rows cols)

/-- Every pair in both directions. -/
def ways (rows cols : ℕ) : List (Cell × Cell) :=
  (pairs rows cols).flatMap fun pair => [pair, pair.swap]

variable {rows cols : ℕ}

theorem mem_joined {cell p q : Cell} :
    (p, q) ∈ joined rows cols cell ↔
      p = cell ∧ (q = (p.1, p.2 + 1) ∧ q.2 < cols ∨ q = (p.1 + 1, p.2) ∧ q.1 < rows) := by
  rw [joined, List.mem_append]
  split_ifs with right below below
  all_goals
    simp only [List.mem_singleton, List.not_mem_nil, Prod.mk.injEq, or_false, false_or]
    grind

theorem mem_pairs {p q : Cell} :
    (p, q) ∈ pairs rows cols ↔ Inside rows cols p ∧ Inside rows cols q ∧
      (q = (p.1, p.2 + 1) ∨ q = (p.1 + 1, p.2)) := by
  simp only [pairs, List.mem_flatMap, mem_cells, mem_joined, Inside]
  grind

/-- A pair leads away from the source. -/
theorem ascends {pair : Cell × Cell} (mem : pair ∈ pairs rows cols) :
    pair.1.1 + pair.1.2 + 1 = pair.2.1 + pair.2.2 := by
  obtain ⟨p, q⟩ := pair
  obtain ⟨-, -, rfl | rfl⟩ := mem_pairs.mp mem
  · exact Nat.add_assoc _ _ _
  · exact Nat.add_right_comm _ _ _

theorem nodup_pairs (rows cols : ℕ) : (pairs rows cols).Nodup := by
  refine List.nodup_flatMap.mpr ⟨fun cell _ => ?_, (nodup_cells rows cols).imp fun other => ?_⟩
  · rw [joined]
    split_ifs <;> simp
  · rintro ⟨p, q⟩ mem mem'
    exact other ((mem_joined.mp mem).1.symm.trans (mem_joined.mp mem').1)

theorem mem_ways {p q : Cell} :
    (p, q) ∈ ways rows cols ↔ Inside rows cols p ∧ Inside rows cols q ∧ Adjacent p q := by
  have split : (p, q) ∈ ways rows cols ↔ (p, q) ∈ pairs rows cols ∨ (q, p) ∈ pairs rows cols := by
    rw [ways, List.mem_flatMap]
    constructor
    · rintro ⟨pair, mem, here⟩
      rcases List.mem_pair.mp here with rfl | turned
      · exact .inl mem
      · obtain rfl : pair = (q, p) := by rw [← Prod.swap_swap pair, ← turned]; rfl
        exact .inr mem
    · rintro (mem | mem)
      · exact ⟨_, mem, List.mem_pair.mpr (.inl rfl)⟩
      · exact ⟨_, mem, List.mem_pair.mpr (.inr rfl)⟩
  rw [split, mem_pairs, mem_pairs, Adjacent]
  grind

/-- No direction of a pair comes twice. -/
theorem nodup_ways (rows cols : ℕ) : (ways rows cols).Nodup := by
  have up {pair : Cell × Cell} (mem : pair ∈ pairs rows cols) : pair.swap ∉ pairs rows cols := by
    intro mem'
    have there := ascends mem
    have back := ascends mem'
    simp only [Prod.fst_swap, Prod.snd_swap] at back
    omega
  have pairwise := (nodup_pairs rows cols).imp_of_mem
    (S := fun pair pair' => [pair, pair.swap].Disjoint [pair', pair'.swap]) ?_
  · refine List.nodup_flatMap.mpr ⟨fun pair mem => ?_, pairwise⟩
    refine List.nodup_cons.mpr ⟨fun same => up mem ?_, List.nodup_singleton _⟩
    exact List.mem_singleton.mp same ▸ mem
  · intro pair pair' mem mem' other
    have flipped : pair ≠ pair'.swap := fun same => up mem' (same ▸ mem)
    have flipped' : pair.swap ≠ pair' := fun same => up mem (same ▸ mem')
    have both : pair.swap ≠ pair'.swap := fun same => other (Prod.swap_injective same)
    simp [List.Disjoint, other, flipped, flipped', both]

/-- The cells around a cell, in the order of its links. -/
def around (rows cols : ℕ) (cell : Cell) : List Cell :=
  ((ways rows cols).filter fun way => way.1 = cell).map Prod.snd

theorem mem_around {cell other : Cell} :
    other ∈ around rows cols cell ↔
      Inside rows cols cell ∧ Inside rows cols other ∧ Adjacent cell other := by
  rw [← mem_ways, around, List.mem_map]
  constructor
  · rintro ⟨way, kept, rfl⟩
    obtain ⟨mem, same⟩ := List.mem_filter.mp kept
    exact of_decide_eq_true same ▸ mem
  · intro mem
    exact ⟨(cell, other), List.mem_filter.mpr ⟨mem, decide_eq_true rfl⟩, rfl⟩

theorem nodup_around (rows cols : ℕ) (cell : Cell) : (around rows cols cell).Nodup := by
  refine ((nodup_ways rows cols).filter _).map_on ?_
  intro way mem way' mem' same
  have start := of_decide_eq_true (List.mem_filter.mp mem).2
  have start' := of_decide_eq_true (List.mem_filter.mp mem').2
  exact Prod.ext (start.trans start'.symm) same

/-! ### The network -/

/-- The graph of a grid. -/
structure IsGrid (rows cols : ℕ) (o : Options) (topo : TopologyParams) (t : Topology) : Prop where
  names : t.allNames = (cells rows cols).map cellName
  distinct : (topo.nodes.map (·.name)).Nodup
  relays : (topo.nodes.countP (·.relay) : ℤ) = rows * cols - 2
  nodes : ∀ cell, Inside rows cols cell →
    ∃ node, t.nodeMap.get? (cellName cell) = some node ∧
      (node.relay = true ↔ cell ≠ (0, 0) ∧ cell ≠ (rows - 1, cols - 1))
  neighbours : ∀ cell, Inside rows cols cell →
    ∃ others : List Cell, t.neighbours (cellName cell) = others.map (linkTo o) ∧ others.Nodup ∧
      ∀ other, other ∈ others ↔ Inside rows cols other ∧ Adjacent cell other

theorem directed_gridTopology (now : ℤ) (rows cols : ℕ) (o : Options) :
    (gridTopology now rows cols o).edges.flatMap EdgeConfig.directed =
      (ways rows cols).map fun way => (cellName way.1, linkTo o way.2) := by
  rw [gridTopology, ways, pairs, List.flatMap_map, List.map_flatMap]
  rfl

theorem linksFrom_ways (o : Options) (cell : Cell) (all : List (Cell × Cell)) :
    Topology.linksFrom (all.map fun way => (cellName way.1, linkTo o way.2)) (cellName cell) =
      ((all.filter fun way => way.1 = cell).map Prod.snd).map (linkTo o) := by
  rw [Topology.linksFrom, List.filter_map, List.map_map, List.map_map]
  have same : (fun p : NodeName × EdgeLink => decide (p.1 = cellName cell)) ∘
      (fun way : Cell × Cell => (cellName way.1, linkTo o way.2)) =
        fun way => decide (way.1 = cell) := by
    funext way
    simp [cellName_injective.eq_iff]
  rw [same]
  rfl

theorem names_gridTopology (now : ℤ) (rows cols : ℕ) (o : Options) :
    (gridTopology now rows cols o).nodes.map (·.name) = (cells rows cols).map cellName := by
  rw [gridTopology, List.map_map]
  rfl

theorem length_cells (rows cols : ℕ) : (cells rows cols).length = rows * cols := by
  simp [cells, List.length_flatMap]

theorem corner_eq (rows cols : ℕ) (large : 2 ≤ rows ∧ 2 ≤ cols) :
    nodeName (rows - 1) (cols - 1) = cellName (rows - 1, cols - 1) := by
  rw [cellName]
  congr 1 <;> omega

/-- All cells but two are relays. -/
theorem countP_relay (now : ℤ) (large : 2 ≤ rows ∧ 2 ≤ cols) (o : Options) :
    ((gridTopology now rows cols o).nodes.countP (·.relay) : ℤ) = rows * cols - 2 := by
  have isRelay : (fun cell : Cell => (nodeConfig rows cols cell).relay) =
      fun cell => (cell != (0, 0)) && (cell != (rows - 1, cols - 1)) := by
    funext cell
    have source : nodeName 0 0 = cellName (0, 0) := rfl
    simp only [nodeConfig, corner_eq rows cols large, source, ne_eq, cellName_injective.eq_iff]
    simp [bne, Bool.decide_and, Bool.beq_eq_decide_eq]
  have distinct := nodup_cells rows cols
  have first : (0, 0) ∈ (cells rows cols).erase (rows - 1, cols - 1) := by
    refine (distinct.mem_erase_iff).mpr ⟨?_, mem_cells.mpr ⟨by omega, by omega⟩⟩
    intro same
    have rows' : 0 = rows - 1 := congrArg Prod.fst same
    omega
  have last : (rows - 1, cols - 1) ∈ cells rows cols :=
    mem_cells.mpr ⟨by simp; omega, by simp; omega⟩
  have count : (cells rows cols).countP (fun cell => (nodeConfig rows cols cell).relay) =
      rows * cols - 1 - 1 := by
    rw [isRelay, List.countP_eq_length_filter, ← List.filter_filter, ← distinct.erase_eq_filter,
      ← (distinct.erase _).erase_eq_filter, List.length_erase_of_mem first,
      List.length_erase_of_mem last, length_cells]
  have many : 2 * 2 ≤ rows * cols := Nat.mul_le_mul large.1 large.2
  rw [gridTopology, List.countP_map]
  have counted : (cells rows cols).countP ((·.relay) ∘ nodeConfig rows cols) =
      rows * cols - 1 - 1 := count
  rw [counted]
  push_cast [Nat.sub_sub, Nat.cast_sub (show 1 + 1 ≤ rows * cols by omega)]
  omega

/-- The simulator accepts the topology, and builds a grid from it. -/
theorem isGrid_gridTopology (now : ℤ) (large : 2 ≤ rows ∧ 2 ≤ cols) (o : Options) :
    ∃ t, (gridTopology now rows cols o).topology? = some t ∧
      IsGrid rows cols o (gridTopology now rows cols o) t := by
  have named := names_gridTopology now rows cols o
  have distinct : ((gridTopology now rows cols o).nodes.map (·.name)).Nodup :=
    named ▸ (nodup_cells rows cols).map cellName_injective
  have between : ∀ e ∈ (gridTopology now rows cols o).edges,
      e.a ∈ (gridTopology now rows cols o).nodes.map (·.name) ∧
        e.b ∈ (gridTopology now rows cols o).nodes.map (·.name) := by
    rw [named]
    intro e mem
    obtain ⟨pair, isPair, rfl⟩ := List.mem_map.mp mem
    obtain ⟨first, second, -⟩ := mem_pairs.mp isPair
    exact ⟨List.mem_map_of_mem (mem_cells.mpr first), List.mem_map_of_mem (mem_cells.mpr second)⟩
  obtain ⟨t, built⟩ := Option.isSome_iff_exists.mp (isSome_topology? between)
  have nodeMap : t.nodeMap = Dict.ofList ((gridTopology now rows cols o).nodes.map fun n =>
      (n.name, n)) := by
    obtain ⟨adj, -, rfl⟩ := Option.map_eq_some_iff.mp built
    rfl
  have keys : ((gridTopology now rows cols o).nodes.map fun n => (n.name, n)).map Prod.fst =
      (gridTopology now rows cols o).nodes.map (·.name) := by
    rw [List.map_map]
    rfl
  refine ⟨t, built, ?_, distinct, countP_relay now large o, fun cell inside => ?_,
    fun cell inside => ?_⟩
  · rw [Topology.allNames, nodeMap, Dict.keys_ofList_of_nodup (keys ▸ distinct), keys, named]
  · refine ⟨nodeConfig rows cols cell, ?_, ?_⟩
    · rw [nodeMap]
      refine Dict.get?_ofList_of_agree (List.mem_map.mpr
        ⟨nodeConfig rows cols cell, List.mem_map_of_mem (mem_cells.mpr inside), rfl⟩) ?_
      rintro e mem same
      obtain ⟨node, isNode, rfl⟩ := List.mem_map.mp mem
      obtain ⟨other, -, rfl⟩ := List.mem_map.mp isNode
      exact congrArg (nodeConfig rows cols) (cellName_injective same)
    · have source : nodeName 0 0 = cellName (0, 0) := rfl
      simp only [nodeConfig, corner_eq rows cols large, source, ne_eq, cellName_injective.eq_iff,
        decide_eq_true_eq]
  · refine ⟨around rows cols cell, ?_, nodup_around rows cols cell, fun other => ?_⟩
    · rw [Topology.neighbours_eq built, TopologyConfig.directed]
      exact (congrArg (Topology.linksFrom · _) (directed_gridTopology now rows cols o)).trans
        (linksFrom_ways o cell _)
    · rw [mem_around]
      exact and_iff_right inside

/-! ### Hops -/

/-- A node that forwards packets. -/
def relays (t : Topology) (name : NodeName) : Prop :=
  ∃ node, t.nodeMap.get? name = some node ∧ node.relay = true

/-- The number of the diagonal that a cell lies on. -/
def diagonal (cell : Cell) : ℕ := cell.1 + cell.2

variable {o : Options} {topo : TopologyParams} {t : Topology}

theorem linked_iff (grid : IsGrid rows cols o topo t) {cell : Cell}
    (inside : Inside rows cols cell) {name : NodeName} :
    t.Linked (cellName cell) name ↔
      ∃ other, Inside rows cols other ∧ Adjacent cell other ∧ cellName other = name := by
  obtain ⟨others, links, -, around⟩ := grid.neighbours cell inside
  rw [Topology.Linked, links]
  constructor
  · rintro ⟨link, mem, rfl⟩
    obtain ⟨other, isOther, rfl⟩ := List.mem_map.mp mem
    obtain ⟨inside', adjacent⟩ := (around other).mp isOther
    exact ⟨other, inside', adjacent, rfl⟩
  · rintro ⟨other, inside', adjacent, rfl⟩
    exact ⟨linkTo o other, List.mem_map_of_mem ((around other).mpr ⟨inside', adjacent⟩), rfl⟩

/-- The cell above, or the cell on the left in the first row. -/
theorem exists_before {cell : Cell} (inside : Inside rows cols cell) (away : 0 < diagonal cell) :
    ∃ before, Inside rows cols before ∧ Adjacent before cell ∧
      diagonal before + 1 = diagonal cell := by
  obtain ⟨r, c⟩ := cell
  cases r with
  | zero =>
      cases c with
      | zero => exact absurd away (Nat.lt_irrefl _)
      | succ c => exact ⟨(0, c), ⟨inside.1, Nat.lt_of_succ_lt inside.2⟩, .inl ⟨rfl, .inl rfl⟩, rfl⟩
  | succ r =>
      exact ⟨(r, c), ⟨Nat.lt_of_succ_lt inside.1, inside.2⟩, .inr ⟨rfl, .inl rfl⟩,
        (Nat.add_right_comm r 1 c).symm⟩

/-- Along the first row, and down. -/
theorem exists_way (grid : IsGrid rows cols o topo t) {n : ℕ} {cell : Cell}
    (inside : Inside rows cols cell) (far : diagonal cell = n + 1) :
    ∃ via, Way t.Linked (relays t) (cellName (0, 0)) (cellName cell) via ∧ via.length = n := by
  induction n generalizing cell with
  | zero =>
      obtain ⟨before, beside, adjacent, same⟩ := exists_before inside (by omega)
      obtain rfl : before = (0, 0) := by
        have zero : before.1 + before.2 = 0 := Nat.succ_injective (same.trans far)
        exact Prod.ext (Nat.eq_zero_of_add_eq_zero zero).1 (Nat.eq_zero_of_add_eq_zero zero).2
      exact ⟨[], .direct ((linked_iff grid beside).mpr ⟨cell, inside, adjacent, rfl⟩), rfl⟩
  | succ n ih =>
      obtain ⟨before, beside, adjacent, same⟩ := exists_before inside (by omega)
      obtain ⟨via, way, length⟩ := ih beside (by omega)
      have between : before ≠ (0, 0) ∧ before ≠ (rows - 1, cols - 1) := by
        obtain ⟨down, right⟩ := inside
        unfold diagonal at same far
        constructor
        all_goals
          rintro rfl
          simp only at same
          omega
      obtain ⟨node, isNode, relay⟩ := grid.nodes before beside
      refine ⟨via ++ [cellName before], way.snoc ⟨node, isNode, relay.mpr between⟩ ?_, ?_⟩
      · exact (linked_iff grid beside).mpr ⟨cell, inside, adjacent, rfl⟩
      · rw [List.length_append, length, List.length_singleton]

/-- No link crosses more than one diagonal. -/
theorem abs_diagonal_le {p q : Cell} (adjacent : Adjacent p q) :
    |(diagonal q : ℤ) - diagonal p| ≤ 1 := by
  obtain ⟨r, c⟩ := p
  obtain ⟨r', c'⟩ := q
  simp only [Adjacent] at adjacent
  simp only [diagonal, Nat.cast_add]
  rw [abs_le]
  omega

theorem diagonal_le (grid : IsGrid rows cols o topo t) {forwards : NodeName → Prop}
    {cell : Cell} (start : Inside rows cols (0, 0)) {via : List NodeName}
    (way : Way t.Linked forwards (cellName (0, 0)) (cellName cell) via) :
    diagonal cell ≤ via.length + 1 := by
  have lifts (p : { cell // Inside rows cols cell }) (name : NodeName)
      (link : t.Linked (cellName p) name) :
      ∃ q : { cell // Inside rows cols cell }, cellName q = name ∧ Adjacent p q := by
    obtain ⟨q, inside, adjacent, isName⟩ := (linked_iff grid p.2).mp link
    exact ⟨⟨q, inside⟩, isName, adjacent⟩
  obtain ⟨⟨last, inside⟩, between, isCell, rfl, lifted⟩ :=
    Way.lift (f := fun p : { cell // Inside rows cols cell } => cellName p)
      (a := ⟨(0, 0), start⟩) lifts way
  obtain rfl : last = cell := cellName_injective isCell
  have far : |(diagonal last : ℤ) - 0| ≤ between.length + 1 :=
    lifted.potential_le (f := fun p : { cell // Inside rows cols cell } => (diagonal p.1 : ℤ))
      fun _ _ => abs_diagonal_le
  rw [sub_zero, Nat.abs_cast] at far
  rw [List.length_map]
  omega

/-- Every file that the script writes is loaded as a grid with as many relays as its comment
says. -/
theorem grid_network (now : ℤ) (rows : ℤ) (cols : Option ℤ) (o : Options) (file : JsonDoc)
    (written : main? rows cols o = some file) :
    ∃ topo t, loadTopology now file = some topo ∧ topo.topology? = some t ∧
      IsGrid rows.toNat (cols.getD rows).toNat o topo t := by
  rw [main?] at written
  split_ifs at written with small
  obtain rfl := Option.some.inj written
  have large : 2 ≤ rows.toNat ∧ 2 ≤ (cols.getD rows).toNat := by omega
  obtain ⟨t, built, grid⟩ := isGrid_gridTopology now large o
  exact ⟨_, t, loadTopology_genGrid now _ _ o, built, grid⟩

/-- The options of a small grid without losses. -/
def lossless : Options := ⟨0, 20, 8, 10, 120, 10, 30, "./node_agent/build/node_agent"⟩

/-- A square: two relays and two endpoints. -/
theorem grid_network_square :
    ∃ file topo t, main? 2 none lossless = some file ∧ loadTopology 0 file = some topo ∧
      topo.topology? = some t ∧ topo.nodes.countP (·.relay) = 2 ∧
      t.allNames = ["n_0_0", "n_0_1", "n_1_0", "n_1_1"] := by
  obtain ⟨topo, t, loaded, built, grid⟩ := grid_network 0 2 none lossless _ rfl
  have relays : (topo.nodes.countP (·.relay) : ℤ) = 2 := grid.relays
  exact ⟨_, topo, t, rfl, loaded, built, by exact_mod_cast relays,
    grid.names.trans (by decide +kernel)⟩

/-- The least number of hops from the source over relays is the number of the diagonal, up to
`rows + cols - 2` hops to the destination. -/
theorem grid_hops (now : ℤ) (rows : ℤ) (cols : Option ℤ) (o : Options) (file : JsonDoc)
    (written : main? rows cols o = some file) :
    ∃ topo t, loadTopology now file = some topo ∧ topo.topology? = some t ∧
      ∀ cell, Inside rows.toNat (cols.getD rows).toNat cell → cell ≠ (0, 0) →
        (∃ via, Way t.Linked (relays t) (cellName (0, 0)) (cellName cell) via ∧
          via.length + 1 = diagonal cell) ∧
        ∀ via, Way t.Linked (relays t) (cellName (0, 0)) (cellName cell) via →
          diagonal cell ≤ via.length + 1 := by
  rw [main?] at written
  split_ifs at written with small
  obtain rfl := Option.some.inj written
  have large : 2 ≤ rows.toNat ∧ 2 ≤ (cols.getD rows).toNat := by omega
  obtain ⟨t, built, grid⟩ := isGrid_gridTopology now large o
  refine ⟨_, t, loadTopology_genGrid now _ _ o, built, fun cell inside away => ⟨?_, ?_⟩⟩
  · obtain ⟨n, far⟩ : ∃ n, diagonal cell = n + 1 := by
      refine Nat.exists_eq_succ_of_ne_zero fun near => away ?_
      exact Prod.ext (Nat.eq_zero_of_add_eq_zero near).1 (Nat.eq_zero_of_add_eq_zero near).2
    obtain ⟨via, way, length⟩ := exists_way grid inside far
    exact ⟨via, way, by rw [length, far]⟩
  · intro via way
    exact diagonal_le grid ⟨Nat.zero_lt_of_lt inside.1, Nat.zero_lt_of_lt inside.2⟩ way

/-- Four columns in two rows: four hops to the destination. -/
theorem grid_hops_row :
    ∃ file topo t, main? 2 (some 4) lossless = some file ∧ loadTopology 0 file = some topo ∧
      topo.topology? = some t ∧
      ∃ via, Way t.Linked (relays t) (cellName (0, 0)) (cellName (1, 3)) via ∧
        via.length + 1 = 4 := by
  obtain ⟨topo, t, loaded, built, hops⟩ := grid_hops 0 2 (some 4) lossless _ rfl
  exact ⟨_, topo, t, rfl, loaded, built, (hops (1, 3) ⟨by decide, by decide⟩ (by decide)).1⟩

/-! ### Packets on a grid -/

/-- A packet of the source takes at least as many hops to a node as its diagonal says. -/
theorem late_of_hop (grid : IsGrid rows cols o topo t) {trace : PacketTrace} {delay now : ℚ}
    {cell : Cell} (start : Inside rows cols (0, 0)) (first : trace.firstSender = cellName (0, 0))
    (nonneg : 0 ≤ delay) (comes : trace.ComesTo t delay (cellName cell) now) :
    trace.firstSeenAt + diagonal cell * delay ≤ now := by
  obtain ⟨via, way, early⟩ := comes
  rw [first] at way
  have far := diagonal_le grid start (way.mono (fun _ _ crossed => crossed.1) fun _ heard => heard)
  have hops : (diagonal cell : ℚ) ≤ via.length + 1 := by exact_mod_cast far
  have delays := mul_le_mul_of_nonneg_right hops nonneg
  linarith

/-- The delay of one packet, and the latency of the links for all others. -/
def delayOf (o : Options) (fp : String) (delay : ℚ) (fp' : String) : ℚ :=
  if fp' = fp then delay else o.latencyMs / 1000

theorem takes_delayOf (grid : IsGrid rows cols o topo t)
    (names : ∀ sender, ∀ link ∈ t.neighbours sender, sender ∈ t.allNames) {R : PacketRouter}
    (routes : R.topology = t) {fp : String} {delay : ℚ}
    (slow : ∀ hexData, ∀ info ∈ decodePacket hexData, packetFingerprint info = fp →
      delay ≤ R.airtimeMs hexData / 1000 + o.latencyMs / 1000) :
    R.Takes (delayOf o fp delay) := by
  intro hexData info decoded sender link linked
  rw [routes] at linked
  have known := names sender link linked
  rw [grid.names] at known
  obtain ⟨cell, isCell, rfl⟩ := List.mem_map.mp known
  obtain ⟨others, links, -, -⟩ := grid.neighbours cell (mem_cells.mp isCell)
  rw [links] at linked
  obtain ⟨other, -, rfl⟩ := List.mem_map.mp linked
  have latency : (linkTo o other).latency = o.latencyMs / 1000 := rfl
  rw [latency, delayOf]
  split_ifs with same
  · exact slow hexData info decoded same
  · have airtime := div_nonneg (R.airtimeMs_nonneg hexData) (show (0 : ℚ) ≤ 1000 by norm_num)
    linarith

/-- The agents of a topology file, one a node. -/
def agents (topo : TopologyParams) : Dict NodeName NodeConfig :=
  .ofList (topo.nodes.map fun node => (node.name, node))

/-- The script writes no adversaries. -/
theorem honest_gridTopology {R : PacketRouter} {now : ℤ} {rows cols : ℕ} {o : Options}
    (built : R.agents = agents (gridTopology now rows cols o)) : R.Honest := by
  intro entry mem cfg adversarial
  rw [built] at mem
  obtain ⟨node, listed, rfl⟩ := List.mem_map.mp (Dict.mem_of_mem_ofList mem)
  obtain ⟨cell, -, rfl⟩ := List.mem_map.mp listed
  cases adversarial

/-- On every grid that the script writes, in every run of the router in which nodes transmit
packets of their own and packets that they received: a packet of the source takes its time on the
air and the latency for each hop to a node, at least. The nodes of the file are honest. -/
theorem grid_spread (now : ℤ) (rows : ℤ) (cols : Option ℤ) (o : Options) (file : JsonDoc)
    (written : main? rows cols o = some file) :
    ∃ topo t, loadTopology now file = some topo ∧ topo.topology? = some t ∧
      (∀ R : PacketRouter, R.agents = agents topo → R.Honest) ∧
      ∀ (R : PacketRouter) (time : ℚ) (channel : Option ChannelModel) (w : World) (tr : List Obs),
        R.topology = t → R.Honest →
        Run R.step PacketRouter.Forwards (R.init time (some .init) channel) w tr →
        ∃ tracer, w.tracer = some tracer ∧ ∀ fp trace delay,
          tracer.traces.get? fp = some trace → trace.firstSender = cellName (0, 0) → 0 ≤ delay →
          (∀ hexData, ∀ info ∈ decodePacket hexData, packetFingerprint info = fp →
            delay ≤ R.airtimeMs hexData / 1000 + o.latencyMs / 1000) →
          ∀ cell, ∀ hop ∈ trace.hops, hop.receiver = cellName cell →
            trace.firstSeenAt + diagonal cell * delay ≤ hop.t := by
  rw [main?] at written
  split_ifs at written with small
  obtain rfl := Option.some.inj written
  have large : 2 ≤ rows.toNat ∧ 2 ≤ (cols.getD rows).toNat := by omega
  obtain ⟨t, built, grid⟩ := isGrid_gridTopology now large o
  refine ⟨_, t, loadTopology_genGrid now _ _ o, built, fun R agents => honest_gridTopology agents,
    fun R time channel w tr routes honest run => ?_⟩
  have names : ∀ sender, ∀ link ∈ t.neighbours sender, sender ∈ t.allNames :=
    fun _ _ linked => Topology.mem_allNames built linked
  have spreads (fp : String) (delay : ℚ)
      (slow : ∀ hexData, ∀ info ∈ decodePacket hexData, packetFingerprint info = fp →
        delay ≤ R.airtimeMs hexData / 1000 + o.latencyMs / 1000) :=
    PacketRouter.run_spreads (takes_delayOf grid names routes slow) honest run
  have latency : ∀ hexData, ∀ info ∈ decodePacket hexData, packetFingerprint info = "" →
      o.latencyMs / 1000 ≤ R.airtimeMs hexData / 1000 + o.latencyMs / 1000 := by
    intro hexData _ _ _
    have airtime := div_nonneg (R.airtimeMs_nonneg hexData) (show (0 : ℚ) ≤ 1000 by norm_num)
    linarith
  obtain ⟨tracer, current, -⟩ := spreads "" _ latency
  refine ⟨tracer, current, fun fp trace delay known first nonneg slow cell hop mem receiver => ?_⟩
  obtain ⟨tracer', current', spread⟩ := spreads fp delay slow
  obtain rfl : tracer = tracer' := Option.some.inj (current.symm.trans current')
  have arrived := (spread.hops fp trace known hop mem).2
  rw [receiver, routes, delayOf, if_pos rfl] at arrived
  exact late_of_hop grid ⟨by omega, by omega⟩ first nonneg arrived

/-- The router of a topology without adversaries and losses. -/
def plainRouter (topo : TopologyParams) (t : Topology) : PacketRouter where
  topology := t
  agents := agents topo
  radio := some .default
  rng := .zero

/-- A relay repeats a packet of the source of a square, and the destination gets it. -/
theorem grid_spread_square :
    ∃ file topo t w tr, main? 2 none lossless = some file ∧ loadTopology 0 file = some topo ∧
      topo.topology? = some t ∧
      Run (plainRouter topo t).step PacketRouter.Forwards
        ((plainRouter topo t).init 0 (some .init) none) w tr ∧
      ∃ tracer, w.tracer = some tracer ∧ ∃ trace ∈ tracer.traces.values, ∃ hop ∈ trace.hops,
        hop.receiver = "n_1_1" ∧ trace.firstSeenAt + 2 * (20 / 1000) ≤ hop.t := by
  obtain ⟨topo, t, loaded, built, spared, spreads⟩ := grid_spread 0 2 none lossless _ rfl
  obtain rfl : gridTopology 0 2 2 lossless = topo :=
    Option.some.inj ((loadTopology_genGrid 0 2 2 lossless).symm.trans loaded)
  have found : ((gridTopology 0 2 2 lossless).topology?.any fun t =>
      (exec (restrict (plainRouter (gridTopology 0 2 2 lossless) t).step PacketRouter.Forwards)
        ((plainRouter (gridTopology 0 2 2 lossless) t).init 0 (some .init) none)
        [.onTx "n_0_0" "050041", .notify 0, .notify 0, .resume 0, .start 0, .tick 1, .wake 1,
          .onTx "n_0_1" "0501AA41", .notify 0, .notify 0, .resume 0, .start 2, .tick 2,
          .wake 2]).any
        fun r => r.1.tracer.any fun tracer => tracer.traces.values.any fun trace =>
          trace.firstSender = cellName (0, 0) ∧ trace.HeardBy (cellName (1, 1))) = true := by
    decide +kernel
  rw [built, Option.any_some] at found
  obtain ⟨w, tr, run, found⟩ := Run.of_exec_any found
  obtain ⟨tracer', current', found⟩ := (Option.any_eq_true _ _).mp found
  obtain ⟨trace, listed, found⟩ := List.any_eq_true.mp found
  obtain ⟨first, hop, mem, receiver⟩ := of_decide_eq_true found
  obtain ⟨tracer, current, late⟩ := spreads _ 0 none w tr rfl (spared _ rfl) run
  obtain rfl : tracer' = tracer := Option.some.inj (current'.symm.trans current)
  obtain ⟨entry, inTraces, rfl⟩ := List.mem_map.mp listed
  have known := tracer'.traces.mem_entries_iff.mp inTraces
  refine ⟨_, _, t, w, tr, rfl, loaded, built, run, tracer', current, entry.2, listed, hop, mem,
    receiver, ?_⟩
  have slow : ∀ hexData, ∀ info ∈ decodePacket hexData, packetFingerprint info = entry.1 →
      (20 / 1000 : ℚ) ≤ (plainRouter (gridTopology 0 2 2 lossless) t).airtimeMs hexData / 1000 +
        lossless.latencyMs / 1000 := by
    intro hexData _ _ _
    have airtime := div_nonneg ((plainRouter (gridTopology 0 2 2 lossless) t).airtimeMs_nonneg
      hexData) (show (0 : ℚ) ≤ 1000 by norm_num)
    have latency : lossless.latencyMs = 20 := rfl
    rw [latency]
    linarith
  exact late entry.1 entry.2 (20 / 1000) known first (by norm_num) slow (1, 1) hop mem receiver

end MeshcoreSim.Grid
