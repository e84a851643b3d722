import Mathlib.Data.List.Dedup
import MeshcoreSim.Tracer.Calls

/-!
The analysis half of `PacketTracer`: `compute_relay_delays`, `to_dict` and the timing section
of `report`.

The model keeps every figure that is derived from the traces. The metadata that `to_dict`
passes through (topology name, node names, metrics) and the texts of the report are left out.
-/

namespace MeshcoreSim

open Lib

/-- `sorted` of a set of names. -/
def sortedNames (names : List NodeName) : List NodeName := names.dedup.mergeSort (· ≤ ·)

namespace PacketTrace

variable (trace : PacketTrace)

/-- Number of (sender, receiver) pairs that observed this packet. -/
def witnessCount : ℕ := trace.hops.length

/-- Mean wire-format packet size across all hops, or 0. -/
def avgSizeBytes : ℚ :=
  let sizes := (trace.hops.map HopRecord.sizeBytes).filter (0 < ·)
  if sizes.isEmpty then 0 else sizes.sum / sizes.length

def isFlood : Bool :=
  trace.hops.any fun hop =>
    hop.routeType = routeTypeFlood ∨ hop.routeType = routeTypeTransportFlood

/-- The body of the loop that finds when each node first received the packet. -/
def noteRx (first : Dict NodeName ℚ) (hop : HopRecord) : Dict NodeName ℚ :=
  match first.get? hop.receiver with
  | none => first.set hop.receiver hop.t
  | some t => if hop.t < t then first.set hop.receiver hop.t else first

/-- The earliest time at which each node received this packet. -/
def firstRx : Dict NodeName ℚ := trace.hops.foldl noteRx .empty

/-- The set of the `tx_id`s that the hops name. -/
def txIds : List ℕ := (trace.hops.filterMap HopRecord.txId).dedup

/-- The delay between the first reception at `sender` and its transmission at `txTime`,
where the transmission is a relay's. -/
def relayDelay? (sender : NodeName) (txTime : ℚ) : Option ℚ :=
  (trace.firstRx.get? sender).bind fun rx =>
    if sender ≠ trace.firstSender then
      let delayMs := (txTime - rx) * 1000
      if 0 ≤ delayMs then some delayMs else none
    else none

end PacketTrace

/-- An element of `"packets"`. -/
structure PacketEntry where
  fingerprint : String
  payloadType : ℕ
  payloadTypeName : String
  firstSeenAt : ℚ
  firstSender : NodeName
  isFlood : Bool
  witnessCount : ℕ
  uniqueSenders : List NodeName
  uniqueReceivers : List NodeName
  avgSizeBytes : ℚ
  hops : List HopRecord
  collisions : List CollisionRecord
  halfduplex : List HalfduplexRecord
  deriving DecidableEq, Repr

def PacketTrace.entry (trace : PacketTrace) : PacketEntry where
  fingerprint := trace.fingerprint
  payloadType := trace.payloadType
  payloadTypeName := MeshcoreSim.payloadTypeName trace.payloadType
  firstSeenAt := trace.firstSeenAt
  firstSender := trace.firstSender
  isFlood := trace.isFlood
  witnessCount := trace.witnessCount
  uniqueSenders := sortedNames (trace.hops.map HopRecord.sender)
  uniqueReceivers := sortedNames (trace.hops.map HopRecord.receiver)
  avgSizeBytes := trace.avgSizeBytes
  hops := trace.hops
  collisions := trace.collisions
  halfduplex := trace.halfduplex

/-- Minimum, average and maximum of some figures, and their number. -/
structure Spread where
  min : ℚ
  avg : ℚ
  max : ℚ
  n : ℕ
  deriving DecidableEq, Repr

def spread? (values : List ℚ) : Option Spread :=
  match values with
  | [] => none
  | first :: rest =>
      some ⟨rest.foldl min first, values.sum / values.length, rest.foldl max first, values.length⟩

/-- Total airtime as a fraction of simulation time. -/
structure Utilization where
  channelUtilizationPct : ℚ
  totalAirtimeS : ℚ
  nUniqueTx : ℕ
  totalSimSecs : ℚ
  deriving DecidableEq, Repr

/-- `"timing"`; each figure is absent where nothing was recorded for it. -/
structure Timing where
  /-- `avg_airtime_ms` and `n_hops` -/
  airtime : Option (ℚ × ℕ)
  relayDelay : Option Spread
  floodProp : Option Spread
  utilization : Option Utilization
  deriving DecidableEq, Repr

/-- An element of `"tx_events"`; the end and the airtime are absent without a `tx_end`. -/
structure TxWindow where
  sender : NodeName
  tStart : ℚ
  tEnd : Option ℚ
  airtimeMs : Option ℚ
  deriving DecidableEq, Repr

/-- The dictionary that `to_dict` returns. -/
structure TraceDict where
  packets : List PacketEntry
  timing : Option Timing
  txEvents : List (ℕ × TxWindow)
  deriving DecidableEq, Repr

namespace PacketTracer

variable (tracer : PacketTracer)

/-- Relay retransmit delays in ms. -/
def computeRelayDelays : List ℚ :=
  tracer.traces.values.flatMap fun trace =>
    trace.txIds.filterMap fun txId =>
      (tracer.txEvents.get? txId).bind fun ev => trace.relayDelay? ev.sender ev.t

/-- The hops of all traces. -/
def allHops : List HopRecord := tracer.traces.values.flatMap PacketTrace.hops

def allAirtimes : List ℚ := (tracer.allHops.map HopRecord.airtimeMs).filter (0 < ·)

/-- The time from the first transmission to the last delivery, for every flood. -/
def floodProps : List ℚ :=
  tracer.traces.values.filterMap fun trace =>
    if trace.isFlood then
      match trace.hops.map HopRecord.t with
      | [] => none
      | t :: rest =>
          let span := (rest.foldl max t - trace.firstSeenAt) * 1000
          if 0 < span then some span else none
    else none

/-- The airtime of each radio transmission that a hop names. -/
def uniqueTxAirtime : Dict ℕ ℚ :=
  tracer.allHops.foldl (fun airtimes hop =>
    match hop.txId with
    | none => airtimes
    | some txId => if 0 < hop.airtimeMs then airtimes.set txId hop.airtimeMs else airtimes) .empty

def utilization (totalSimSecs : ℚ) : Option Utilization :=
  if 0 < totalSimSecs then
    let airtimes := tracer.uniqueTxAirtime.values
    if airtimes.isEmpty then none
    else
      let totalAirtimeS := airtimes.sum / 1000
      some ⟨totalAirtimeS / totalSimSecs * 100, totalAirtimeS, airtimes.length, totalSimSecs⟩
  else none

def airtime : Option (ℚ × ℕ) :=
  if tracer.allAirtimes.isEmpty then none
  else some (tracer.allAirtimes.sum / tracer.allAirtimes.length, tracer.allAirtimes.length)

/-- `timing`, before its emptiness is tested. -/
def timingOf (totalSimSecs : ℚ) : Timing :=
  ⟨tracer.airtime, spread? tracer.computeRelayDelays, spread? tracer.floodProps,
    tracer.utilization totalSimSecs⟩

def windows : List (ℕ × TxWindow) :=
  tracer.txEvents.entries.map fun (txId, ev) =>
    (txId, ⟨ev.sender, ev.t, ev.txEnd, ev.txEnd.map fun txEnd => (txEnd - ev.t) * 1000⟩)

/-- All trace data; the packets are sorted by the time at which they were first seen. -/
def toDict (totalSimSecs : ℚ) : TraceDict where
  packets := (tracer.traces.values.map PacketTrace.entry).mergeSort
    (·.firstSeenAt ≤ ·.firstSeenAt)
  timing :=
    let timing := tracer.timingOf totalSimSecs
    if timing = ⟨none, none, none, none⟩ then none else some timing
  txEvents := tracer.windows

/-- The figures of the timing section of `report`. -/
def reportTiming (totalSimSecs : ℚ) : Option Timing :=
  if tracer.traces.values.isEmpty then none
  else if tracer.allAirtimes.isEmpty ∧ tracer.computeRelayDelays.isEmpty ∧
      tracer.floodProps.isEmpty then none
  else some (tracer.timingOf totalSimSecs)

end PacketTracer

end MeshcoreSim
