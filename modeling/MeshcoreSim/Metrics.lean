import MeshcoreSim.Config

/-!
Packet counters of the simulation (`orchestrator/metrics.py`), the part of
`MetricsCollector` that the router writes.

Each recording method of the source adds one to one counter. `rxTotal` is the sum of
the per-node receive counters.
-/

namespace MeshcoreSim

open Lib

structure MetricsCollector where
  tx : Dict NodeName ℕ
  rx : Dict NodeName ℕ
  linkLossCount : ℕ
  advDropCount : ℕ
  advCorruptCount : ℕ
  advReplayCount : ℕ
  collisionCount : ℕ
  halfduplexDropCount : ℕ
  snrDropCount : ℕ

namespace MetricsCollector

/-- `MetricsCollector.__init__`. -/
def init : MetricsCollector := ⟨.empty, .empty, 0, 0, 0, 0, 0, 0, 0⟩

variable (m : MetricsCollector)

def recordTx (node : NodeName) : MetricsCollector := { m with tx := m.tx.incr node }

def recordRx (receiver : NodeName) : MetricsCollector := { m with rx := m.rx.incr receiver }

def recordLinkLoss : MetricsCollector := { m with linkLossCount := m.linkLossCount + 1 }

def recordAdversarialDrop : MetricsCollector := { m with advDropCount := m.advDropCount + 1 }

def recordAdversarialCorrupt : MetricsCollector :=
  { m with advCorruptCount := m.advCorruptCount + 1 }

def recordAdversarialReplay : MetricsCollector :=
  { m with advReplayCount := m.advReplayCount + 1 }

def recordCollision : MetricsCollector := { m with collisionCount := m.collisionCount + 1 }

def recordHalfduplexDrop : MetricsCollector :=
  { m with halfduplexDropCount := m.halfduplexDropCount + 1 }

def recordSnrDrop : MetricsCollector := { m with snrDropCount := m.snrDropCount + 1 }

/-- How often a node has sent a packet. -/
def txOf (node : NodeName) : ℕ := (m.tx.get? node).getD 0

theorem txOf_recordTx (node node' : NodeName) :
    (m.recordTx node).txOf node' = m.txOf node' + if node' = node then 1 else 0 :=
  m.tx.get?_incr node node'

/-- How often a node has received a packet. -/
def rxOf (receiver : NodeName) : ℕ := (m.rx.get? receiver).getD 0

/-- The sum of the per-node receive counters. -/
def rxTotal : ℕ := m.rx.sumBy id

theorem rxOf_recordRx (receiver receiver' : NodeName) :
    (m.recordRx receiver).rxOf receiver' =
      m.rxOf receiver' + if receiver' = receiver then 1 else 0 :=
  m.rx.get?_incr receiver receiver'

theorem rxTotal_recordRx (receiver : NodeName) : (m.recordRx receiver).rxTotal = m.rxTotal + 1 :=
  m.rx.sumBy_incr receiver

end MetricsCollector

end MeshcoreSim
