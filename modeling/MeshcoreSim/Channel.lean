import Mathlib.Data.Rat.Floor
import MeshcoreSim.Config
import MeshcoreSim.Lib.Window

/-!
RF channel model for LoRa contention (`orchestrator/channel.py`).

`ChannelModel` tracks the active transmissions and decides, at a receiver, whether
a packet collides with another one (`isLost`) or arrives while the receiver itself
is transmitting (`isReceiverBusy`). Both walk the table of active transmissions in
registration order and stop at the first hit; `lossFrom` is the body of the loop of
`is_lost` for one record, and every `continue` of the source is one `none` of it.

The survival stages are applied in the source's order: capture effect, preamble
grace period, FEC overlap tolerance (cases A and B).
-/

namespace MeshcoreSim

open Lib

/-- One entry of the table of active transmissions. -/
structure TxRecord where
  sender : NodeName
  txStart : ℚ
  txEnd : ℚ
  deriving DecidableEq, Repr

/-- The window during which the sender is on the air. -/
def TxRecord.window (record : TxRecord) : Window ℚ := ⟨record.txStart, record.txEnd⟩

/-- FEC correction capability per coding-rate offset, in symbols. -/
def fecSymbolsOf : ℕ → ℕ
  | 3 => 1
  | 4 => 2
  | _ => 0

/-- A nested table, as built from the topology: sender, then receiver. -/
abbrev LinkTable := Dict NodeName (Dict NodeName ℚ)

/-- `table.get(sender, {}).get(receiver)`. -/
def LinkTable.get? (table : LinkTable) (sender receiver : NodeName) : Option ℚ :=
  (Dict.get? table sender).bind (·.get? receiver)

structure ChannelModel where
  linkSnr : LinkTable
  linkLatencyMs : LinkTable
  capDb : ℚ
  sf : ℕ
  bwHz : ℕ
  cr : ℕ
  preambleSymbols : ℕ
  active : Dict ℕ TxRecord

namespace ChannelModel

variable (m : ChannelModel)

/-- Symbol duration in seconds. -/
def tSym : ℚ := 2 ^ m.sf / m.bwHz

/-- Preamble duration in seconds. -/
def tPreamble : ℚ := (m.preambleSymbols + 17 / 4) * m.tSym

def fecSymbols : ℕ := fecSymbolsOf m.cr

/-- The SNR at which `receiver` hears `sender`; absent when it cannot. -/
def snr? (sender receiver : NodeName) : Option ℚ := m.linkSnr.get? sender receiver

/-- Propagation delay in seconds, zero for a pair without an entry. -/
def latency (sender receiver : NodeName) : ℚ :=
  (m.linkLatencyMs.get? sender receiver).getD 0 / 1000

/-- The first part of the preamble that the receiver can do without, in seconds. -/
def graceS : ℚ := max 0 (((m.preambleSymbols : ℚ) - 5) * m.tSym)

/-- The overlap that the coding rate can correct, in seconds. -/
def fecToleranceS : ℚ := m.fecSymbols * m.tSym

/-- When a transmission of `sender` arrives at `receiver`. -/
def arrival (record : TxRecord) (receiver : NodeName) : Window ℚ :=
  record.window.shift (m.latency record.sender receiver)

/-- Record that a transmission is on the air. -/
def registerTx (record : TxRecord) (txId : ℕ) : ChannelModel :=
  { m with active := m.active.set txId record }

/-- Discard records whose end time is earlier than `t`. -/
def expireBefore (t : ℚ) : ChannelModel :=
  { m with active := m.active.filterValues fun record => decide (record.txEnd ≥ t) }

/-- Whether `receiver` is transmitting during the arrival window: the first record
of its own that overlaps it. -/
def isReceiverBusy (receiver : NodeName) (rx : Window ℚ) : Option (ℕ × ℚ × ℚ) :=
  m.active.entries.findSome? fun (txId, record) =>
    if record.sender ≠ receiver then none
    else if record.txStart < rx.stop ∧ record.txEnd > rx.start then
      some (txId, record.txStart, record.txEnd)
    else none

/-- Stage 1, the capture effect: the primary is sufficiently stronger. -/
def captures (primarySnr? : Option ℚ) (interfererSnr : ℚ) : Bool :=
  match primarySnr? with
  | none => false
  | some primarySnr => primarySnr - interfererSnr ≥ m.capDb

/-- One turn of the loop of `is_lost`: the loss that the record `other` causes to the
primary transmission at `receiver`, or `none` where the source continues. -/
def lossFrom (primary : TxRecord) (txId : ℕ) (receiver : NodeName) (other : ℕ × TxRecord) :
    Option (NodeName × ℕ × ℚ) :=
  let rx := m.arrival primary receiver
  let (otherId, record) := other
  if otherId = txId then none
  else if record.sender = primary.sender then none
  else match m.snr? record.sender receiver with
  | none => none
  | some interfererSnr =>
    let intRx := m.arrival record receiver
    if intRx.start ≥ rx.stop ∨ intRx.stop ≤ rx.start then none
    else if m.captures (m.snr? primary.sender receiver) interfererSnr then none
    else
      let overlapStart := max rx.start intRx.start
      let overlapEnd := min rx.stop intRx.stop
      let overlapS := overlapEnd - overlapStart
      let preambleCritical := rx.start + m.graceS
      if intRx.stop ≤ preambleCritical then none
      else
        let payloadStart := rx.start + m.tPreamble
        if overlapStart ≥ payloadStart ∧ overlapS ≤ m.fecToleranceS then none
        else if overlapStart > preambleCritical ∧ overlapS ≤ m.fecToleranceS then none
        else some (record.sender, otherId, overlapS)

/-- Whether the primary transmission is lost at `receiver` due to a collision: the
first record that causes a loss. -/
def isLost (primary : TxRecord) (txId : ℕ) (receiver : NodeName) : Option (NodeName × ℕ × ℚ) :=
  m.active.entries.findSome? (m.lossFrom primary txId receiver)

end ChannelModel

end MeshcoreSim
