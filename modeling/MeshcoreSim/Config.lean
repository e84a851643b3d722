import Mathlib.Data.Rat.Defs
import MeshcoreSim.Lib.Dict

/-!
Topology configuration (`orchestrator/config.py`) and the adjacency graph built
from it (`orchestrator/topology.py`).

The dataclasses keep the source's fields and their order. Floating-point values
(loss, latency, SNR, seconds) are rationals; the four radio parameters are counts
or physical magnitudes (a spreading factor, a bandwidth in hertz, a coding-rate
offset, a number of symbols) and are natural numbers; other integers are `ℤ`.

`Topology.init` builds the adjacency as the source does: each edge contributes one
link per direction, in edge order, and an edge that names an unknown node is a
`KeyError`. Nothing removes parallel edges, so a node may have several links to the
same neighbour.
-/

namespace MeshcoreSim

open Lib

/-- Node names are the keys of every table of the orchestrator. -/
abbrev NodeName := String

/-- The `mode` of an adversarial node; any other string is kept as it is. -/
inductive AdversarialMode where
  | drop
  | corrupt
  | replay
  | other (mode : String)
  deriving DecidableEq, Repr

structure AdversarialConfig where
  mode : AdversarialMode
  probability : ℚ
  replayDelayMs : ℚ
  corruptByteCount : ℤ
  deriving DecidableEq, Repr

structure NodeConfig where
  name : NodeName
  relay : Bool
  roomServer : Bool
  prvKey : Option String
  adversarial : Option AdversarialConfig
  binary : Option String
  maxHeapKb : Option ℤ
  lat : Option ℚ
  lon : Option ℚ
  deriving DecidableEq, Repr

/-- The defaults of every field but the name. -/
def NodeConfig.named (name : NodeName) : NodeConfig where
  name := name
  relay := false
  roomServer := false
  prvKey := none
  adversarial := none
  binary := none
  maxHeapKb := none
  lat := none
  lon := none

/-- Per-direction overrides; an absent field inherits the symmetric value. -/
structure DirectionalOverrides where
  loss : Option ℚ
  latencyMs : Option ℚ
  snr : Option ℚ
  deriving DecidableEq, Repr

structure EdgeConfig where
  a : NodeName
  b : NodeName
  loss : ℚ
  latencyMs : ℚ
  snr : ℚ
  aToB : Option DirectionalOverrides
  bToA : Option DirectionalOverrides
  deriving DecidableEq, Repr

/-- LoRa radio parameters shared by all nodes in the simulation. -/
structure RadioConfig where
  sf : ℕ
  bwHz : ℕ
  cr : ℕ
  preambleSymbols : ℕ
  noiseFloorDBm : ℚ
  deriving DecidableEq, Repr

/-- The field defaults of `RadioConfig`. -/
def RadioConfig.default : RadioConfig where
  sf := 10
  bwHz := 250000
  cr := 1
  preambleSymbols := 8
  noiseFloorDBm := -120

structure SimulationConfig where
  warmupSecs : ℚ
  durationSecs : ℚ
  trafficIntervalSecs : ℚ
  advertIntervalSecs : ℚ
  epoch : ℤ
  defaultBinary : String
  defaultMaxHeapKb : Option ℤ
  seed : Option ℤ
  deriving DecidableEq, Repr

structure TopologyConfig where
  nodes : List NodeConfig
  edges : List EdgeConfig
  simulation : SimulationConfig
  radio : Option RadioConfig
  deriving DecidableEq, Repr

/-! ### The adjacency graph -/

/-- One directed view of an edge (towards `other`). -/
structure EdgeLink where
  other : NodeName
  loss : ℚ
  latencyMs : ℚ
  snr : ℚ
  deriving DecidableEq, Repr

/-- Propagation delay in seconds. -/
def EdgeLink.latency (link : EdgeLink) : ℚ := link.latencyMs / 1000

/-- The override if it is set, otherwise the symmetric base value. -/
def resolve (base : ℚ) (override : Option ℚ) : ℚ := override.getD base

/-- The directed view of an edge towards `other`, with one direction's overrides. -/
def EdgeConfig.link (edge : EdgeConfig) (other : NodeName)
    (overrides : Option DirectionalOverrides) : EdgeLink where
  other := other
  loss := resolve edge.loss (overrides.bind (·.loss))
  latencyMs := resolve edge.latencyMs (overrides.bind (·.latencyMs))
  snr := resolve edge.snr (overrides.bind (·.snr))

structure Topology where
  nodeMap : Dict NodeName NodeConfig
  adj : Dict NodeName (List EdgeLink)

namespace Topology

/-- `self._adj[name].append(link)`; an unknown name is a `KeyError`. -/
def append? (adj : Dict NodeName (List EdgeLink)) (name : NodeName) (link : EdgeLink) :
    Option (Dict NodeName (List EdgeLink)) :=
  (adj.get? name).map fun links => adj.set name (links ++ [link])

/-- One edge appends one link per direction, `a → b` first. -/
def addEdge? (adj : Dict NodeName (List EdgeLink)) (edge : EdgeConfig) :
    Option (Dict NodeName (List EdgeLink)) :=
  (append? adj edge.a (edge.link edge.b edge.aToB)).bind fun adj' =>
    append? adj' edge.b (edge.link edge.a edge.bToA)

/-- `Topology.__init__`; `none` when an edge names an unknown node. -/
def init? (config : TopologyConfig) : Option Topology :=
  (config.edges.foldlM addEdge? (Dict.ofList (config.nodes.map fun n => (n.name, [])))).map
    fun adj => ⟨Dict.ofList (config.nodes.map fun n => (n.name, n)), adj⟩

/-- All nodes directly reachable from `name`. -/
def neighbours (topology : Topology) (name : NodeName) : List EdgeLink :=
  (topology.adj.get? name).getD []

def allNames (topology : Topology) : List NodeName := topology.nodeMap.keys

end Topology

end MeshcoreSim
