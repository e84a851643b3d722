import MeshcoreSim.Tracer.ToDict
import Mathlib.Tactic.Ring

/-!
The trace viewer's loader (`workbench/trace_loader.py`): `flatten_events` and
`compute_edge_trace_stats`, on the dictionary that `to_dict` returns.

`viewer_exact` says that the viewer shows what was recorded: the events are the records of all
traces in the order of their times, each event points to the packet of its record, and the
edges count each record once.
-/

namespace MeshcoreSim

open Lib
open scoped List

/-- An event of the viewer's time line. -/
structure FlatEvent extends TraceRecord where
  pktIdx : ℕ
  deriving DecidableEq, Repr

/-- The `"type"` of an event. -/
def EventKind.isHop : EventKind → Bool
  | .hop _ => true
  | _ => false

def EventKind.isCollision : EventKind → Bool
  | .collision .. => true
  | _ => false

def EventKind.isHalfduplex : EventKind → Bool
  | .halfduplex _ => true
  | _ => false

/-- The events of one packet. -/
def PacketEntry.events (pktIdx : ℕ) (pkt : PacketEntry) : List FlatEvent :=
  (pkt.hops.map fun hop => ⟨hop.shown, pktIdx⟩) ++
    (pkt.collisions.map fun col => ⟨col.shown, pktIdx⟩) ++
    pkt.halfduplex.map fun hd => ⟨hd.shown, pktIdx⟩

/-- Flatten all records into one time-sorted event list. -/
def flattenEvents (trace : TraceDict) : List FlatEvent :=
  (trace.packets.zipIdx.flatMap fun (pkt, pktIdx) => pkt.events pktIdx).mergeSort (·.t ≤ ·.t)

/-- What happened on an edge. -/
structure EdgeStats where
  hopCount : ℕ
  collisionCount : ℕ
  halfduplexCount : ℕ
  packets : List ℕ
  deriving DecidableEq, Repr

def EdgeStats.new : EdgeStats := ⟨0, 0, 0, []⟩

/-- Normalise an edge, so that (a, b) and (b, a) have one key. -/
def edgeKey (a b : NodeName) : NodeName × NodeName := if a ≤ b then (a, b) else (b, a)

abbrev EdgeTable := Dict (NodeName × NodeName) EdgeStats

/-- Update the entry of an edge, which `_ensure` creates where it is missing. -/
def EdgeTable.update (stats : EdgeTable) (sender receiver : NodeName)
    (change : EdgeStats → EdgeStats) : EdgeTable :=
  stats.set (edgeKey sender receiver)
    (change ((stats.get? (edgeKey sender receiver)).getD .new))

def EdgeStats.hop (pktIdx : ℕ) (entry : EdgeStats) : EdgeStats :=
  { entry with
    hopCount := entry.hopCount + 1
    packets := if pktIdx ∈ entry.packets then entry.packets else entry.packets ++ [pktIdx] }

def EdgeStats.collision (entry : EdgeStats) : EdgeStats :=
  { entry with collisionCount := entry.collisionCount + 1 }

def EdgeStats.halfduplex (entry : EdgeStats) : EdgeStats :=
  { entry with halfduplexCount := entry.halfduplexCount + 1 }

/-- Count the records of one packet. -/
def EdgeTable.packet (stats : EdgeTable) (pktIdx : ℕ) (pkt : PacketEntry) : EdgeTable :=
  let stats := pkt.hops.foldl (fun stats hop =>
    stats.update hop.sender hop.receiver (EdgeStats.hop pktIdx)) stats
  let stats := pkt.collisions.foldl (fun stats col =>
    stats.update col.sender col.receiver EdgeStats.collision) stats
  pkt.halfduplex.foldl (fun stats hd =>
    stats.update hd.sender hd.receiver EdgeStats.halfduplex) stats

/-- Per-edge trace statistics. -/
def computeEdgeTraceStats (trace : TraceDict) : EdgeTable :=
  trace.packets.zipIdx.foldl (fun stats (pkt, pktIdx) => stats.packet pktIdx pkt) .empty

/-! ### The time line -/

theorem pairwise_flattenEvents (trace : TraceDict) :
    (flattenEvents trace).Pairwise (·.t ≤ ·.t) := by
  have trans : ∀ a b c : FlatEvent, decide (a.t ≤ b.t) → decide (b.t ≤ c.t) →
      decide (a.t ≤ c.t) := by
    intro a b c hab hbc
    simp only [decide_eq_true_eq] at hab hbc ⊢
    exact hab.trans hbc
  have total : ∀ a b : FlatEvent, decide (a.t ≤ b.t) || decide (b.t ≤ a.t) := by
    intro a b
    simpa using le_total a.t b.t
  exact (List.pairwise_mergeSort trans total _).imp of_decide_eq_true

/-- Events are counted packet by packet. -/
theorem countP_flattenEvents {p : FlatEvent → Bool} {n : PacketEntry → ℕ}
    (each : ∀ pktIdx pkt, (PacketEntry.events pktIdx pkt).countP p = n pkt) (trace : TraceDict) :
    (flattenEvents trace).countP p = (trace.packets.map n).sum := by
  rw [flattenEvents, (List.mergeSort_perm _ _).countP_eq, List.countP_flatMap]
  conv_rhs => rw [← List.zipIdx_map_fst 0 trace.packets, List.map_map]
  exact congrArg List.sum (List.map_congr_left fun entry _ => each entry.2 entry.1)

/-- There is one event of the right type for each record. -/
theorem countP_events (pktIdx : ℕ) (pkt : PacketEntry) :
    (pkt.events pktIdx).countP (·.kind.isHop) = pkt.hops.length ∧
      (pkt.events pktIdx).countP (·.kind.isCollision) = pkt.collisions.length ∧
      (pkt.events pktIdx).countP (·.kind.isHalfduplex) = pkt.halfduplex.length := by
  simp [PacketEntry.events, List.countP_append, List.countP_map, Function.comp_def,
    HopRecord.shown, CollisionRecord.shown, HalfduplexRecord.shown, EventKind.isHop,
    EventKind.isCollision, EventKind.isHalfduplex]

/-- The records of a packet entry, with its fingerprint. -/
def PacketEntry.shown (pkt : PacketEntry) : List (String × TraceRecord) :=
  (pkt.hops.map HopRecord.shown ++ pkt.collisions.map CollisionRecord.shown ++
    pkt.halfduplex.map HalfduplexRecord.shown).map fun record => (pkt.fingerprint, record)

/-- What an event shows, with the fingerprint of the packet that it points to. -/
def FlatEvent.resolve (packets : List PacketEntry) (event : FlatEvent) :
    Option String × TraceRecord :=
  ((packets[event.pktIdx]?).map PacketEntry.fingerprint, event.toTraceRecord)

theorem resolve_events {packets : List PacketEntry} {pkt : PacketEntry} {pktIdx : ℕ}
    (here : packets[pktIdx]? = some pkt) :
    (pkt.events pktIdx).map (FlatEvent.resolve packets) =
      pkt.shown.map fun (fp, record) => (some fp, record) := by
  simp [PacketEntry.events, PacketEntry.shown, FlatEvent.resolve, here, Function.comp_def]

/-- The events are the records of the packets, and each points to the packet of its record. -/
theorem resolve_flattenEvents (trace : TraceDict) :
    (flattenEvents trace).map (FlatEvent.resolve trace.packets) ~
      (trace.packets.flatMap PacketEntry.shown).map fun (fp, record) => (some fp, record) := by
  refine ((List.mergeSort_perm _ _).map _).trans (.of_eq ?_)
  have each : ∀ entry ∈ trace.packets.zipIdx,
      (entry.1.events entry.2).map (FlatEvent.resolve trace.packets) =
        entry.1.shown.map fun (fp, record) => (some fp, record) := by
    intro entry mem
    exact resolve_events (List.mem_zipIdx_iff_getElem?.mp mem)
  rw [List.map_flatMap, List.map_flatMap, List.flatMap_congr each]
  conv_rhs => rw [← List.zipIdx_map_fst 0 trace.packets, List.flatMap_map]

theorem PacketTrace.shown_entry {trace : PacketTrace} {fp : String}
    (named : trace.fingerprint = fp) :
    trace.entry.shown = trace.shown.map fun record => (fp, record) := by
  rw [← named]
  rfl

namespace PacketTracer

/-- The packet entries hold the records of the traces. -/
theorem shown_toDict {tracer : PacketTracer} (keyed : tracer.Keyed) (totalSimSecs : ℚ) :
    (tracer.toDict totalSimSecs).packets.flatMap PacketEntry.shown ~ tracer.shown := by
  refine ((List.mergeSort_perm _ _).flatMap_right _).trans (.of_eq ?_)
  rw [List.flatMap_map, Dict.values, List.flatMap_map]
  apply List.flatMap_congr
  intro entry mem
  exact PacketTrace.shown_entry (keyed entry mem)

end PacketTracer

/-! ### The edges -/

section Edges

variable {f : EdgeStats → ℕ} (fresh : f .new = 0)
include fresh

theorem sumBy_update {change : EdgeStats → EdgeStats} {n : ℕ}
    (adds : ∀ entry, f (change entry) = f entry + n) (stats : EdgeTable)
    (sender receiver : NodeName) :
    (stats.update sender receiver change).sumBy f = stats.sumBy f + n :=
  stats.sumBy_set_getD _ fresh adds

/-- Updates that each raise a measure by `n`, for all records of one kind. -/
theorem sumBy_foldl_update {α : Type} {sender receiver : α → NodeName}
    {change : EdgeStats → EdgeStats} {n : ℕ} (adds : ∀ entry, f (change entry) = f entry + n)
    (records : List α) (stats : EdgeTable) :
    (records.foldl (fun stats r => stats.update (sender r) (receiver r) change) stats).sumBy f =
      stats.sumBy f + records.length * n := by
  induction records generalizing stats with
  | nil => simp
  | cons r rest ih =>
      rw [List.foldl_cons, ih, sumBy_update fresh adds, List.length_cons]
      ring

variable {h c d : ℕ} (hops : ∀ pktIdx entry, f (EdgeStats.hop pktIdx entry) = f entry + h)
  (collisions : ∀ entry, f (EdgeStats.collision entry) = f entry + c)
  (halfduplex : ∀ entry, f (EdgeStats.halfduplex entry) = f entry + d)
include hops collisions halfduplex

theorem sumBy_packet (stats : EdgeTable) (pktIdx : ℕ) (pkt : PacketEntry) :
    (stats.packet pktIdx pkt).sumBy f = stats.sumBy f +
      (pkt.hops.length * h + pkt.collisions.length * c + pkt.halfduplex.length * d) := by
  unfold EdgeTable.packet
  rw [sumBy_foldl_update fresh halfduplex, sumBy_foldl_update fresh collisions,
    sumBy_foldl_update fresh (hops pktIdx)]
  ring

theorem sumBy_foldl_packet (entries : List (PacketEntry × ℕ)) (stats : EdgeTable) :
    (entries.foldl (fun stats (pkt, pktIdx) => stats.packet pktIdx pkt) stats).sumBy f =
      stats.sumBy f + (entries.map fun entry => entry.1.hops.length * h +
        entry.1.collisions.length * c + entry.1.halfduplex.length * d).sum := by
  induction entries generalizing stats with
  | nil => simp
  | cons entry rest ih =>
      rw [List.foldl_cons, ih, sumBy_packet fresh hops collisions halfduplex, List.map_cons,
        List.sum_cons]
      ring

/-- A measure that a hop, a collision and a half-duplex drop raise by `h`, `c` and `d`. -/
theorem sumBy_computeEdgeTraceStats (tracer : PacketTracer) (totalSimSecs : ℚ) :
    (computeEdgeTraceStats (tracer.toDict totalSimSecs)).sumBy f =
      tracer.traces.sumBy fun trace => trace.hops.length * h + trace.collisions.length * c +
        trace.halfduplex.length * d := by
  unfold computeEdgeTraceStats
  rw [sumBy_foldl_packet fresh hops collisions halfduplex,
    show (Dict.empty : EdgeTable).sumBy f = 0 from rfl, zero_add]
  have entries := List.zipIdx_map_fst 0 (tracer.toDict totalSimSecs).packets
  calc _ = ((tracer.toDict totalSimSecs).packets.map fun pkt => pkt.hops.length * h +
              pkt.collisions.length * c + pkt.halfduplex.length * d).sum := by
            conv_rhs => rw [← entries, List.map_map]
            rfl
    _ = ((tracer.traces.values.map PacketTrace.entry).map fun pkt => pkt.hops.length * h +
              pkt.collisions.length * c + pkt.halfduplex.length * d).sum :=
            ((List.mergeSort_perm _ _).map _).sum_eq
    _ = _ := by
            rw [List.map_map]
            rfl

end Edges

/-- The viewer shows exactly what the tracer recorded. -/
structure ShowsRecorded (calls : List TracerCall) (totalSimSecs : ℚ) : Prop where
  /-- the traces hold the records of the calls -/
  recorded : (PacketTracer.recordAll calls).shown ~ PacketTracer.recordsOf .init calls
  sorted : (flattenEvents ((PacketTracer.recordAll calls).toDict totalSimSecs)).Pairwise
    (·.t ≤ ·.t)
  /-- the events are the records of all traces, and each points to the packet of its record -/
  events : (flattenEvents ((PacketTracer.recordAll calls).toDict totalSimSecs)).map
      (FlatEvent.resolve ((PacketTracer.recordAll calls).toDict totalSimSecs).packets) ~
    (PacketTracer.recordAll calls).shown.map fun (fp, record) => (some fp, record)
  hops : (computeEdgeTraceStats ((PacketTracer.recordAll calls).toDict totalSimSecs)).sumBy
      EdgeStats.hopCount =
    (PacketTracer.recordAll calls).traces.sumBy fun trace => trace.hops.length
  collisions : (computeEdgeTraceStats ((PacketTracer.recordAll calls).toDict totalSimSecs)).sumBy
      EdgeStats.collisionCount =
    (PacketTracer.recordAll calls).traces.sumBy fun trace => trace.collisions.length
  halfduplex : (computeEdgeTraceStats ((PacketTracer.recordAll calls).toDict totalSimSecs)).sumBy
      EdgeStats.halfduplexCount =
    (PacketTracer.recordAll calls).traces.sumBy fun trace => trace.halfduplex.length

/-- For every sequence of recording calls. -/
theorem viewer_exact (calls : List TracerCall) (totalSimSecs : ℚ) :
    ShowsRecorded calls totalSimSecs where
  recorded := PacketTracer.shown_recordAll calls
  sorted := pairwise_flattenEvents _
  events := (resolve_flattenEvents _).trans
    ((PacketTracer.shown_toDict (PacketTracer.keyed_recordAll calls) totalSimSecs).map _)
  hops := by
    rw [sumBy_computeEdgeTraceStats (h := 1) (c := 0) (d := 0) rfl (fun _ _ => rfl)
      (fun _ => rfl) (fun _ => rfl)]
    simp
  collisions := by
    rw [sumBy_computeEdgeTraceStats (h := 0) (c := 1) (d := 0) rfl (fun _ _ => rfl)
      (fun _ => rfl) (fun _ => rfl)]
    simp
  halfduplex := by
    rw [sumBy_computeEdgeTraceStats (h := 0) (c := 0) (d := 1) rfl (fun _ _ => rfl)
      (fun _ => rfl) (fun _ => rfl)]
    simp

end MeshcoreSim
