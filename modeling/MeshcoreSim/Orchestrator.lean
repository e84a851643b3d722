import MeshcoreSim.Channel.Survival
import MeshcoreSim.Router

/-!
Wiring of one simulation (`run` in `orchestrator/__main__.py`): the channel model and the
router that are built from a topology file.

A link table is a nested dict comprehension over the links of each node, so when several
links join the same two nodes, the table keeps the last one. `latency_ofTopology` says that
the channel model otherwise has the latency of the link, and `shortestPacket_le_txWindow` that
what the router registers is as long as the survival rule of the channel model asks.
-/

namespace MeshcoreSim

open Lib

/-- `{name: {link.other: f(link) for link in neighbours(name)} for name in all_names()}`. -/
def linkTable (topology : Topology) (f : EdgeLink → ℚ) : LinkTable :=
  .ofList (topology.allNames.map fun name =>
    (name, .ofList ((topology.neighbours name).map fun link => (link.other, f link))))

/-- The channel model of a run, with the default capture threshold. -/
def ChannelModel.ofTopology (topology : Topology) (radio : RadioConfig) : ChannelModel where
  linkSnr := linkTable topology (·.snr)
  linkLatencyMs := linkTable topology (·.latencyMs)
  capDb := 6
  sf := radio.sf
  bwHz := radio.bwHz
  cr := radio.cr
  preambleSymbols := radio.preambleSymbols
  active := .empty

/-- What a link table has for a link on whose value all links between the two nodes agree. -/
theorem get?_linkTable {topology : Topology} (f : EdgeLink → ℚ) {sender : NodeName}
    {link : EdgeLink} (known : sender ∈ topology.allNames)
    (mem : link ∈ topology.neighbours sender)
    (agree : ∀ link' ∈ topology.neighbours sender, link'.other = link.other →
      f link' = f link) : (linkTable topology f).get? sender link.other = some (f link) := by
  have row : Dict.get? (linkTable topology f) sender =
      some (.ofList ((topology.neighbours sender).map fun link => (link.other, f link))) := by
    unfold linkTable
    exact Dict.get?_ofList_map known
  have binding : (link.other, f link) ∈
      (topology.neighbours sender).map fun link => (link.other, f link) :=
    List.mem_map.mpr ⟨link, mem, rfl⟩
  unfold LinkTable.get?
  rw [row, Option.bind_some]
  apply Dict.get?_ofList_of_agree binding
  intro entry inRow same
  obtain ⟨link', inNeighbours, rfl⟩ := List.mem_map.mp inRow
  exact agree link' inNeighbours same

/-- Where all links between two nodes have one latency, the channel model has it too. -/
theorem ChannelModel.latency_ofTopology {topology : Topology} (radio : RadioConfig)
    {sender : NodeName} {link : EdgeLink} (known : sender ∈ topology.allNames)
    (mem : link ∈ topology.neighbours sender)
    (agree : ∀ link' ∈ topology.neighbours sender, link'.other = link.other →
      link'.latencyMs = link.latencyMs) :
    (ofTopology topology radio).latency sender link.other = link.latency := by
  unfold latency ofTopology EdgeLink.latency
  rw [get?_linkTable (·.latencyMs) known mem agree, Option.getD_some]

/-- The radio parameters of the orchestrator: the topology's, or the defaults. -/
def TopologyConfig.radioOrDefault (config : TopologyConfig) : RadioConfig :=
  config.radio.getD .default

/-- The agents of a run, one a node. -/
def TopologyConfig.agents (config : TopologyConfig) : Dict NodeName NodeConfig :=
  .ofList (config.nodes.map fun node => (node.name, node))

/-- The router of a run; `none` when the topology is rejected. -/
def PacketRouter.ofConfig? (config : TopologyConfig) (rng : RandomStream) : Option PacketRouter :=
  (Topology.init? config).map fun topology =>
    { topology := topology
      agents := config.agents
      radio := some config.radioOrDefault
      rng := rng }

/-- The channel model that goes with it. -/
def PacketRouter.channel (R : PacketRouter) : Option ChannelModel :=
  R.radio.map (ChannelModel.ofTopology R.topology)

/-- What holds of the wiring of a topology file holds of a router and its channel model. -/
theorem PacketRouter.exists_wired {config : TopologyConfig} {rng : RandomStream}
    {check : PacketRouter → ChannelModel → Bool}
    (passes : ((ofConfig? config rng).any fun R => R.channel.any (check R)) = true) :
    ∃ R m, ofConfig? config rng = some R ∧ R.channel = some m ∧ check R m = true := by
  obtain ⟨R, router, passes⟩ := (Option.any_eq_true _ _).mp passes
  obtain ⟨m, channel, passes⟩ := (Option.any_eq_true _ _).mp passes
  exact ⟨R, m, router, channel, passes⟩

/-- Every window that the router registers is as long as a real packet of its channel model. -/
theorem PacketRouter.shortestPacket_le_txWindow {R : PacketRouter} {m : ChannelModel}
    (channel : R.channel = some m) (w : World) (hexData : String) :
    m.shortestPacket ≤ (R.txWindow w hexData).length := by
  obtain ⟨radio, known, rfl⟩ := Option.map_eq_some_iff.mp channel
  have airtime : R.airtimeMs hexData = loraAirtimeMs radio.sf radio.bwHz radio.cr
      (hexData.length / 2) radio.preambleSymbols true true := by
    unfold airtimeMs
    rw [known]
  have shortest := loraAirtimeMs_ge radio.sf radio.bwHz radio.cr (hexData.length / 2)
    radio.preambleSymbols true true
  have symbol : symbolMs radio.sf radio.bwHz = 1000 * (2 ^ radio.sf / radio.bwHz) := by
    unfold symbolMs
    rw [div_div_eq_mul_div]
    ring
  rw [symbol] at shortest
  unfold ChannelModel.shortestPacket ChannelModel.tSym ChannelModel.ofTopology
  unfold txWindow Window.length
  rw [airtime]
  simp only
  linarith

end MeshcoreSim
