import MeshcoreSim.Orchestrator

/-!
The two views of the links: the adjacency list of the router and the tables of the channel
model, which are built from the same edges.

* `neighbours_eq` — the adjacency list of a node is the directed views of its edges, in edge
  order.
* `seesLinks_iff` — the channel model looks up the SNR and the latency of every link that the
  router delivers on, exactly when all edges that lead from one node to another agree on them.
* `not_seesLinks_twinCell` — two edges between the same nodes that do not.
-/

namespace MeshcoreSim

open Lib

/-- The two directed views of an edge, with the nodes that they start from. -/
def EdgeConfig.directed (edge : EdgeConfig) : List (NodeName × EdgeLink) :=
  [(edge.a, edge.link edge.b edge.aToB), (edge.b, edge.link edge.a edge.bToA)]

/-- All directed links of a topology file. -/
def TopologyConfig.directed (config : TopologyConfig) : List (NodeName × EdgeLink) :=
  config.edges.flatMap EdgeConfig.directed

/-- Edges that lead from one node to another agree on SNR and latency. -/
def TopologyConfig.Agrees (config : TopologyConfig) : Prop :=
  ∀ p ∈ config.directed, ∀ q ∈ config.directed, p.1 = q.1 → p.2.other = q.2.other →
    p.2.snr = q.2.snr ∧ p.2.latencyMs = q.2.latencyMs

instance (config : TopologyConfig) : Decidable config.Agrees := by
  unfold TopologyConfig.Agrees
  infer_instance

namespace Topology

/-- The links from one node, in edge order. -/
def linksFrom (links : List (NodeName × EdgeLink)) (sender : NodeName) : List EdgeLink :=
  (links.filter fun p => p.1 = sender).map Prod.snd

theorem mem_linksFrom {links : List (NodeName × EdgeLink)} {sender : NodeName}
    {link : EdgeLink} : link ∈ linksFrom links sender ↔ (sender, link) ∈ links := by
  unfold linksFrom
  rw [List.mem_map]
  constructor
  · rintro ⟨⟨name, link⟩, kept, rfl⟩
    obtain ⟨mem, same⟩ := List.mem_filter.mp kept
    exact of_decide_eq_true same ▸ mem
  · intro mem
    exact ⟨(sender, link), List.mem_filter.mpr ⟨mem, decide_eq_true rfl⟩, rfl⟩

variable {adj adj' : Dict NodeName (List EdgeLink)}

/-- An append changes the list of one known node. -/
theorem get?_append? {name : NodeName} {link : EdgeLink}
    (appended : append? adj name link = some adj') (sender : NodeName) :
    adj'.get? sender = (adj.get? sender).map (· ++ linksFrom [(name, link)] sender) := by
  obtain ⟨links, known, rfl⟩ := Option.map_eq_some_iff.mp appended
  rw [Dict.get?_set]
  by_cases same : sender = name
  · subst same
    simp [known, linksFrom]
  · have other : ¬ name = sender := fun eq => same eq.symm
    simp [same, other, linksFrom]

/-- The adjacency after a list of edges: every node has gained its directed links. -/
theorem get?_foldlM_addEdge? {edges : List EdgeConfig}
    (added : edges.foldlM addEdge? adj = some adj') (sender : NodeName) :
    adj'.get? sender =
      (adj.get? sender).map (· ++ linksFrom (edges.flatMap EdgeConfig.directed) sender) := by
  induction edges generalizing adj with
  | nil =>
      obtain rfl : adj = adj' := by simpa using added
      simp [linksFrom]
  | cons edge edges ih =>
      rw [List.foldlM_cons] at added
      obtain ⟨middle, first, rest⟩ := Option.bind_eq_some_iff.mp added
      obtain ⟨half, forward, backward⟩ := Option.bind_eq_some_iff.mp first
      rw [ih rest, get?_append? backward, get?_append? forward]
      simp only [Option.map_map, Function.comp_def, linksFrom, EdgeConfig.directed,
        List.flatMap_cons, List.filter_append, List.map_append, ← List.append_assoc]
      congr 2
      funext links
      congr 1
      rw [List.append_assoc, ← List.map_append, ← List.filter_append]
      rfl

/-- Only known nodes have edges. -/
theorem isSome_of_foldlM_addEdge? {edges : List EdgeConfig}
    (added : edges.foldlM addEdge? adj = some adj') {p : NodeName × EdgeLink}
    (mem : p ∈ edges.flatMap EdgeConfig.directed) : (adj.get? p.1).isSome := by
  induction edges generalizing adj with
  | nil => cases mem
  | cons edge edges ih =>
      rw [List.foldlM_cons] at added
      obtain ⟨middle, first, rest⟩ := Option.bind_eq_some_iff.mp added
      obtain ⟨half, forward, backward⟩ := Option.bind_eq_some_iff.mp first
      obtain ⟨linksA, knownA, -⟩ := Option.map_eq_some_iff.mp forward
      obtain ⟨linksB, knownB, -⟩ := Option.map_eq_some_iff.mp backward
      rw [get?_append? forward] at knownB
      rw [List.flatMap_cons] at mem
      rcases List.mem_append.mp mem with now | later
      · rcases List.mem_pair.mp now with rfl | rfl
        · exact Option.isSome_iff_exists.mpr ⟨linksA, knownA⟩
        · obtain ⟨links, known, -⟩ := Option.map_eq_some_iff.mp knownB
          exact Option.isSome_iff_exists.mpr ⟨links, known⟩
      · have known := ih rest later
        rw [get?_append? backward, get?_append? forward] at known
        simpa only [Option.isSome_map] using known

variable {config : TopologyConfig} {topology : Topology}

/-- The nodes that the adjacency starts from have no links. -/
theorem links_eq_nil {sender : NodeName} {links : List EdgeLink}
    (known : (Dict.ofList (config.nodes.map fun n => (n.name, []))).get? sender = some links) :
    links = [] ∧ ∃ node ∈ config.nodes, node.name = sender := by
  obtain ⟨node, declared, eq⟩ :=
    List.mem_map.mp (Dict.mem_of_mem_ofList ((Dict.mem_entries_iff _).mpr known))
  obtain ⟨rfl, rfl⟩ := Prod.mk.inj eq
  exact ⟨rfl, node, declared, rfl⟩

/-- The adjacency list of a node is the directed views of its edges, in edge order. -/
theorem neighbours_eq (loaded : init? config = some topology) (sender : NodeName) :
    topology.neighbours sender = linksFrom config.directed sender := by
  obtain ⟨adj, built, rfl⟩ := Option.map_eq_some_iff.mp loaded
  unfold neighbours TopologyConfig.directed
  simp only [get?_foldlM_addEdge? built]
  cases known : (Dict.ofList (config.nodes.map fun n => (n.name, ([] : List EdgeLink)))).get?
      sender with
  | some links =>
      rw [(links_eq_nil known).1]
      rfl
  | none =>
      have isolated : linksFrom (config.edges.flatMap EdgeConfig.directed) sender = [] := by
        apply List.eq_nil_iff_forall_not_mem.mpr
        intro link linked
        have declared := isSome_of_foldlM_addEdge? built (mem_linksFrom.mp linked)
        simp [known] at declared
      rw [isolated]
      rfl

/-- The nodes of a topology are those of its file. -/
theorem mem_allNames (loaded : init? config = some topology) {sender : NodeName}
    {link : EdgeLink} (linked : link ∈ topology.neighbours sender) :
    sender ∈ topology.allNames := by
  rw [neighbours_eq loaded] at linked
  obtain ⟨adj, built, rfl⟩ := Option.map_eq_some_iff.mp loaded
  have declared := isSome_of_foldlM_addEdge? built (mem_linksFrom.mp linked)
  obtain ⟨links, known⟩ := Option.isSome_iff_exists.mp declared
  obtain ⟨-, node, isNode, rfl⟩ := links_eq_nil known
  have named := Dict.isSome_get?_ofList
    (List.mem_map.mpr ⟨node, isNode, rfl⟩ :
      (node.name, node) ∈ config.nodes.map fun n => (n.name, n))
  exact (Dict.mem_keys_iff _).mpr named

end Topology

namespace PacketRouter

/-- Of every link on which a broadcast is delivered, the channel model looks up the SNR and the
latency, so a collision is looked for in the window that the delivery waits for. -/
def SeesLinks (R : PacketRouter) (m : ChannelModel) : Prop :=
  ∀ b : Broadcast, ∀ d ∈ R.deliveries b,
    m.snr? d.sender d.link.other = some d.link.snr ∧
      m.linkLatencyMs.get? d.sender d.link.other = some d.link.latencyMs ∧
      ∀ window, d.window = some window →
        m.arrival ⟨d.sender, window.start, window.stop⟩ d.link.other =
          window.shift d.link.latency

/-- The links of a broadcast are those of its sender. -/
theorem exists_delivery (R : PacketRouter) {sender : NodeName} {link : EdgeLink}
    (linked : link ∈ R.topology.neighbours sender) :
    ∃ b : Broadcast, ∃ d ∈ R.deliveries b, d.sender = sender ∧ d.link = link :=
  ⟨⟨sender, "", 0, ⟨0, 0⟩, none, []⟩, _, List.mem_map.mpr ⟨link, linked, rfl⟩, rfl, rfl⟩

/-- The collision model sees the links that the router delivers on exactly when all edges that
lead from one node to another agree on SNR and latency: the tables keep one value for each pair
of nodes, and the adjacency list keeps every edge. -/
theorem seesLinks_iff {config : TopologyConfig} {rng : RandomStream} {R : PacketRouter}
    {m : ChannelModel} (router : ofConfig? config rng = some R) (channel : R.channel = some m) :
    R.SeesLinks m ↔ config.Agrees := by
  obtain ⟨topology, loaded, rfl⟩ := Option.map_eq_some_iff.mp router
  obtain ⟨radio, -, rfl⟩ := Option.map_eq_some_iff.mp channel
  constructor
  · intro sees
    have looked : ∀ p ∈ config.directed,
        (linkTable topology (·.snr)).get? p.1 p.2.other = some p.2.snr ∧
          (linkTable topology (·.latencyMs)).get? p.1 p.2.other = some p.2.latencyMs := by
      rintro ⟨sender, link⟩ edge
      rw [← Topology.mem_linksFrom, ← Topology.neighbours_eq loaded] at edge
      obtain ⟨b, d, scheduled, rfl, rfl⟩ := exists_delivery ⟨topology, config.agents,
        some config.radioOrDefault, rng⟩ edge
      obtain ⟨snr, latency, -⟩ := sees b d scheduled
      exact ⟨snr, latency⟩
    intro p first q second sameSender sameReceiver
    obtain ⟨snr, latency⟩ := looked p first
    obtain ⟨snr', latency'⟩ := looked q second
    rw [sameSender, sameReceiver] at snr latency
    exact ⟨Option.some.inj (snr.symm.trans snr'), Option.some.inj (latency.symm.trans latency')⟩
  · intro agrees b d scheduled
    obtain ⟨link, linked, rfl⟩ := List.mem_map.mp scheduled
    have known := Topology.mem_allNames loaded linked
    have alike : ∀ link' ∈ topology.neighbours b.sender, link'.other = link.other →
        link'.snr = link.snr ∧ link'.latencyMs = link.latencyMs := by
      intro link' linked' same
      rw [Topology.neighbours_eq loaded] at linked linked'
      exact agrees _ (Topology.mem_linksFrom.mp linked') _ (Topology.mem_linksFrom.mp linked)
        rfl same
    refine ⟨?_, ?_, ?_⟩
    · exact get?_linkTable (·.snr) known linked
        fun link' linked' same => (alike link' linked' same).1
    · exact get?_linkTable (·.latencyMs) known linked
        fun link' linked' same => (alike link' linked' same).2
    · intro window _
      unfold ChannelModel.arrival TxRecord.window
      rw [ChannelModel.latency_ofTopology radio known linked
        fun link' linked' same => (alike link' linked' same).2]

/-- Two edges between the same nodes, the second of which is lossy; in one direction it has a
latency of its own, which is that of the first edge. -/
def spareCell : TopologyConfig where
  nodes := [.named "alice", .named "relay"]
  edges := [⟨"alice", "relay", 0, 20, 6, none, none⟩,
    ⟨"relay", "alice", 1 / 2, 20, 6, some ⟨none, some 20, none⟩, none⟩]
  simulation := ⟨0, 0, 0, 0, 0, "", none, none⟩
  radio := none

/-- Both edges are seen as they are. -/
theorem seesLinks_spareCell :
    ∃ R m, ofConfig? spareCell .zero = some R ∧ R.channel = some m ∧ R.SeesLinks m := by
  have wired : ((ofConfig? spareCell .zero).any fun R => R.channel.any fun _ => true) = true := by
    decide +kernel
  obtain ⟨R, m, router, channel, -⟩ := exists_wired wired
  exact ⟨R, m, router, channel, (seesLinks_iff router channel).mpr (by decide +kernel)⟩

/-- Two edges between the same nodes: a strong and slow one, and a weak and fast one. -/
def twinCell : TopologyConfig where
  nodes := [.named "alice", .named "relay"]
  edges := [⟨"alice", "relay", 0, 20, 6, none, none⟩, ⟨"alice", "relay", 0, 0, -5, none, none⟩]
  simulation := ⟨0, 0, 0, 0, 0, "", none, none⟩
  radio := none

/-- The tables keep the last of the two edges, and the router delivers on both. -/
theorem not_seesLinks_twinCell :
    ∃ R m, ofConfig? twinCell .zero = some R ∧ R.channel = some m ∧ ¬ R.SeesLinks m := by
  have found : ((ofConfig? twinCell .zero).any fun R => R.channel.any fun m =>
      R.topology.neighbours "alice" = [⟨"relay", 0, 20, 6⟩, ⟨"relay", 0, 0, -5⟩] ∧
        m.snr? "alice" "relay" = some (-5)) = true := by
    decide +kernel
  obtain ⟨R, m, router, channel, found⟩ := exists_wired found
  obtain ⟨links, table⟩ := of_decide_eq_true found
  have linked : (⟨"relay", 0, 20, 6⟩ : EdgeLink) ∈ R.topology.neighbours "alice" := by
    rw [links]
    exact List.mem_cons_self
  refine ⟨R, m, router, channel, fun sees => ?_⟩
  obtain ⟨b, d, scheduled, sender, link⟩ := R.exists_delivery linked
  have looked := (sees b d scheduled).1
  rw [sender, link, table] at looked
  exact absurd (Option.some.inj looked) (by decide)

end PacketRouter

end MeshcoreSim
