import MeshcoreSim.Router.Ledgers
import MeshcoreSim.Tracer.Flood
import MeshcoreSim.Tracer.NodeStats
import MeshcoreSim.Tracer.TraceStats
import MeshcoreSim.Tracer.Viewer

/-!
The figures that the trace viewer shows for a run of the router, against the counters of the
metrics and the summary of the report.

* `run_ledgers` — the ledgers of every run.
* `sum_packets` — a total over the packets of a saved trace.
* `viewer_agrees` — the statistics of the nodes, of the edges and of the trace all say what the
  metrics say.
-/

namespace MeshcoreSim

open Lib
open scoped List

theorem packets_perm (tracer : PacketTracer) (totalSimSecs : ℚ) :
    (tracer.toDict totalSimSecs).packets ~ tracer.traces.values.map PacketTrace.entry :=
  List.mergeSort_perm _ _

/-- A total over the packets of a saved trace is the total over the traces. -/
theorem sum_packets {f : PacketEntry → ℕ} (tracer : PacketTracer) (totalSimSecs : ℚ) :
    ((tracer.toDict totalSimSecs).packets.map f).sum =
      tracer.traces.sumBy fun trace => f trace.entry := by
  rw [((packets_perm tracer totalSimSecs).map f).sum_eq, List.map_map]
  rfl

/-- What the viewer shows for a trace agrees with the metrics, and with the report. -/
structure ViewerAgrees (m : MetricsCollector) (tracer : PacketTracer) (trace : TraceDict) :
    Prop where
  nodeCollisions : (computeNodeTraceStats trace).sumBy NodeStats.collisionsInvolved =
    m.collisionCount
  nodeHalfduplex : (computeNodeTraceStats trace).sumBy NodeStats.halfduplexInvolved =
    m.halfduplexDropCount
  /-- a node that gets a packet again is not counted again -/
  nodeReceptions : (computeNodeTraceStats trace).sumBy NodeStats.rxCount ≤ m.rxTotal ∧
    ((computeNodeTraceStats trace).sumBy NodeStats.rxCount = m.rxTotal ↔
      ∀ entry ∈ tracer.traces.entries, (entry.2.hops.map HopRecord.receiver).Nodup)
  edgeHops : (computeEdgeTraceStats trace).sumBy EdgeStats.hopCount = m.rxTotal
  edgeCollisions : (computeEdgeTraceStats trace).sumBy EdgeStats.collisionCount = m.collisionCount
  edgeHalfduplex : (computeEdgeTraceStats trace).sumBy EdgeStats.halfduplexCount =
    m.halfduplexDropCount
  /-- the TX events of each node -/
  transmissions : ∀ node, trace.txEvents.countP (·.2.sender = node) = m.txOf node
  /-- the time line has one event of the right type for each count -/
  events : (flattenEvents trace).countP (·.kind.isHop) = m.rxTotal ∧
    (flattenEvents trace).countP (·.kind.isCollision) = m.collisionCount ∧
    (flattenEvents trace).countP (·.kind.isHalfduplex) = m.halfduplexDropCount
  collisions : (computeTraceStats trace).nCollisions = m.collisionCount
  totals : ∀ b, (computeTraceStats trace).breakdown = some b →
    b.totalHops = m.rxTotal ∧ b.nHalfduplex = m.halfduplexDropCount
  types : ∀ b, (computeTraceStats trace).breakdown = some b →
    (b.byType.map (·.2.count)).sum = tracer.traces.entries.length ∧
      (b.byType.map fun e => e.2.avgWitnesses * (e.2.count : ℚ)).sum = m.rxTotal ∧
      (b.byType.map (·.2.collisions)).sum = m.collisionCount
  nothing : (computeTraceStats trace).breakdown = none →
    m.rxTotal = 0 ∧ m.collisionCount = 0 ∧ m.halfduplexDropCount = 0
  report : tracer.reportSummary = (computeTraceStats trace).breakdown.map fun b =>
    ⟨(computeTraceStats trace).nPackets, b.totalHops, b.nFlood, b.nDirect, b.floodAmplification⟩

/-- Lists of names without repetitions are those that do not get shorter. -/
theorem sum_dedup_eq_iff (l : List (List NodeName)) :
    (l.map fun names => names.dedup.length).sum ≤ (l.map List.length).sum ∧
      ((l.map fun names => names.dedup.length).sum = (l.map List.length).sum ↔
        ∀ names ∈ l, names.Nodup) := by
  induction l with
  | nil => simp
  | cons names rest ih =>
      obtain ⟨le, iff⟩ := ih
      have shorter : names.dedup.length ≤ names.length := (List.dedup_sublist names).length_le
      have same : names.dedup.length = names.length ↔ names.Nodup := by
        rw [← List.dedup_eq_self]
        exact ⟨fun eq => (List.dedup_sublist names).eq_of_length eq, congrArg List.length⟩
      simp only [List.map_cons, List.sum_cons, List.forall_mem_cons, ← same, ← iff]
      omega

namespace PacketRouter

theorem viewerAgrees_of_agree {m : MetricsCollector} {tracer : PacketTracer}
    (agree : Agree m tracer) (registered : Registered m tracer) (totalSimSecs : ℚ) :
    ViewerAgrees m tracer (tracer.toDict totalSimSecs) := by
  have length : (tracer.toDict totalSimSecs).packets.length = tracer.traces.values.length := by
    rw [(packets_perm tracer totalSimSecs).length_eq, List.length_map]
  have size : tracer.traces.values.length = tracer.traces.entries.length := List.length_map _
  have hops : ((tracer.toDict totalSimSecs).packets.map PacketEntry.witnessCount).sum = m.rxTotal :=
    (sum_packets tracer totalSimSecs).trans agree.hops
  have collisions : ((tracer.toDict totalSimSecs).packets.map (·.collisions.length)).sum =
      m.collisionCount := (sum_packets tracer totalSimSecs).trans agree.collisions
  have halfduplex : ((tracer.toDict totalSimSecs).packets.map (·.halfduplex.length)).sum =
      m.halfduplexDropCount := (sum_packets tracer totalSimSecs).trans agree.halfduplex
  have heard : (computeNodeTraceStats (tracer.toDict totalSimSecs)).sumBy NodeStats.rxCount =
      ((tracer.traces.values.map fun trace => trace.hops.map HopRecord.receiver).map
        fun names => names.dedup.length).sum := by
    rw [sumBy_rxCount, sum_packets, List.map_map]
    rfl
  have received : ((tracer.traces.values.map fun trace =>
      trace.hops.map HopRecord.receiver).map List.length).sum = m.rxTotal := by
    rw [← agree.hops, List.map_map, Dict.sumBy]
    congr 1
    exact List.map_congr_left fun trace _ => List.length_map _
  obtain ⟨fewer, same⟩ :=
    sum_dedup_eq_iff (tracer.traces.values.map fun trace => trace.hops.map HopRecord.receiver)
  rw [received, ← heard] at fewer same
  refine ⟨(sumBy_collisionsInvolved _).trans collisions,
    (sumBy_halfduplexInvolved _).trans halfduplex, ⟨fewer, ?_⟩, ?_, ?_, ?_, ?_, ⟨?_, ?_, ?_⟩,
    ?_, ?_, ?_, ?_, ?_⟩
  · rw [same, List.forall_mem_map, Dict.values, List.forall_mem_map]
  · rw [sumBy_computeEdgeTraceStats (h := 1) (c := 0) (d := 0) rfl (fun _ _ => rfl)
      (fun _ => rfl) (fun _ => rfl)]
    simpa using agree.hops
  · rw [sumBy_computeEdgeTraceStats (h := 0) (c := 1) (d := 0) rfl (fun _ _ => rfl)
      (fun _ => rfl) (fun _ => rfl)]
    simpa using agree.collisions
  · rw [sumBy_computeEdgeTraceStats (h := 0) (c := 0) (d := 1) rfl (fun _ _ => rfl)
      (fun _ => rfl) (fun _ => rfl)]
    simpa using agree.halfduplex
  · intro node
    rw [← registered node]
    exact List.countP_map ..
  · rw [countP_flattenEvents fun pktIdx pkt => (countP_events pktIdx pkt).1]
    exact (sum_packets tracer totalSimSecs).trans agree.hops
  · exact (countP_flattenEvents (fun pktIdx pkt => (countP_events pktIdx pkt).2.1) _).trans
      collisions
  · exact (countP_flattenEvents (fun pktIdx pkt => (countP_events pktIdx pkt).2.2) _).trans
      halfduplex
  · by_cases none : (tracer.toDict totalSimSecs).packets = []
    · rw [← collisions]
      simp [computeTraceStats, none]
    · rw [computeTraceStats, if_neg (by simpa using none)]
      exact collisions
  · intro b shown
    by_cases none : (tracer.toDict totalSimSecs).packets.length = 0
    · simp [computeTraceStats, none] at shown
    · rw [computeTraceStats, if_neg none] at shown
      obtain rfl := Option.some.inj shown
      exact ⟨hops, halfduplex⟩
  · intro b shown
    by_cases none : (tracer.toDict totalSimSecs).packets.length = 0
    · simp [computeTraceStats, none] at shown
    · rw [computeTraceStats, if_neg none] at shown
      obtain rfl := Option.some.inj shown
      refine ⟨(sum_count _).trans (length.trans size), (sum_witnesses _).trans ?_,
        (sum_collisions _).trans collisions⟩
      exact_mod_cast hops
  · intro hidden
    have none : (tracer.toDict totalSimSecs).packets = [] := by
      by_contra some
      rw [computeTraceStats, if_neg (by simpa using some)] at hidden
      cases hidden
    rw [← hops, ← collisions, ← halfduplex, none]
    exact ⟨rfl, rfl, rfl⟩
  · have floods : (tracer.toDict totalSimSecs).packets.countP PacketEntry.isFlood =
        tracer.traces.values.countP PacketTrace.isFlood := by
      rw [(packets_perm tracer totalSimSecs).countP_eq, List.countP_map]
      rfl
    have deliveries : ((tracer.toDict totalSimSecs).packets.map PacketEntry.witnessCount).sum =
        (tracer.traces.values.map PacketTrace.witnessCount).sum := sum_packets tracer totalSimSecs
    by_cases none : tracer.traces.values = []
    · simp [computeTraceStats, PacketTracer.reportSummary, length, none]
    · have some : (tracer.toDict totalSimSecs).packets.length ≠ 0 := by simpa [length] using none
      rw [computeTraceStats, if_neg some, PacketTracer.reportSummary,
        if_neg (by simpa using none), routeSummary, ← length, ← floods, ← deliveries]
      rfl

/-- The ledgers of every run. -/
theorem run_ledgers {R : PacketRouter} {time : ℚ} {channel : ChannelModel} {w : World}
    {tr : List Obs} (agents : R.LinksToAgents)
    (honest : ∀ entry ∈ R.agents.entries, ∀ cfg, entry.2.adversarial = some cfg →
      cfg.mode ≠ .corrupt)
    (run : Run R.step (Transmits fun hexData => (decodePacket hexData).isSome)
      (R.init time (some .init) (some channel)) w tr) :
    ∃ tracer, Ledgers w tracer := by
  have safe : R.CorruptSafe fun hexData => (decodePacket hexData).isSome :=
    fun entry agent cfg adversarial corrupts => absurd corrupts (honest entry agent cfg adversarial)
  refine run.invariant (I := fun w _ => ∃ tracer, Ledgers w tracer)
    ⟨.init, ledgers_init R time channel⟩ ?_
  rintro s tr e s' out before ⟨tracer, ledgers⟩ admitted stepped
  exact ledgers.step (step_slice stepped) admitted agents (run_carries safe before)

/-- In every run with a tracer and a channel in which all transmitted packets can be decoded, every
link leads to an agent and no adversary corrupts packets, at every suspension point. -/
theorem viewer_agrees (R : PacketRouter) (time : ℚ) (channel : ChannelModel) (w : World)
    (tr : List Obs)
    (agents : ∀ sender, ∀ link ∈ R.topology.neighbours sender,
      (R.agents.get? link.other).isSome)
    (honest : ∀ entry ∈ R.agents.entries, ∀ cfg, entry.2.adversarial = some cfg →
      cfg.mode ≠ .corrupt)
    (run : Run R.step (Transmits fun hexData => (decodePacket hexData).isSome)
      (R.init time (some .init) (some channel)) w tr) :
    ∃ tracer, w.tracer = some tracer ∧
      ∀ totalSimSecs, ViewerAgrees w.metrics tracer (tracer.toDict totalSimSecs) := by
  obtain ⟨tracer, ledgers⟩ := run_ledgers agents honest run
  exact ⟨tracer, ledgers.current, viewerAgrees_of_agree ledgers.agree ledgers.registered⟩

/-- Two packets that collide at a relay are two collisions of the relay in the viewer. -/
theorem viewer_agrees_busyCell :
    ∃ R channel w tr, PacketRouter.ofConfig? busyCell .zero = some R ∧ R.channel = some channel ∧
      Run R.step (Transmits fun hexData => (decodePacket hexData).isSome)
        (R.init 0 (some .init) (some channel)) w tr ∧
      ∃ tracer, w.tracer = some tracer ∧
        (computeNodeTraceStats (tracer.toDict 1)).sumBy NodeStats.collisionsInvolved = 2 := by
  have found : ((PacketRouter.ofConfig? busyCell .zero).any fun R => R.channel.any fun channel =>
      decide (∀ entry ∈ R.topology.adj.entries, ∀ link ∈ entry.2,
        (R.agents.get? link.other).isSome) &&
      decide (∀ entry ∈ R.agents.entries, ∀ cfg ∈ entry.2.adversarial, cfg.mode ≠ .corrupt) &&
      (exec (restrict R.step (Transmits fun hexData => (decodePacket hexData).isSome))
        (R.init 0 (some .init) (some channel))
        [.onTx "alice" "0500", .onTx "bob" "050041", .notify 0, .notify 1, .resume 0, .resume 0,
          .start 0, .start 0, .tick 1, .wake 0, .wake 0]).any fun r =>
        r.1.metrics.collisionCount = 2) = true := by
    decide +kernel
  obtain ⟨R, channel, router, model, found⟩ := exists_wired found
  obtain ⟨settings, found⟩ := (Bool.and_eq_true _ _).mp found
  obtain ⟨agents, honest⟩ := (Bool.and_eq_true _ _).mp settings
  obtain ⟨w, tr, run, collisions⟩ := Run.of_exec_any found
  obtain ⟨tracer, current, agrees⟩ := viewer_agrees R 0 channel w tr
    (linksToAgents_of_entries (of_decide_eq_true agents))
    (fun entry agent cfg adversarial => of_decide_eq_true honest entry agent cfg adversarial) run
  exact ⟨R, channel, w, tr, router, model, run, tracer, current,
    (agrees 1).nodeCollisions.trans (of_decide_eq_true collisions)⟩

end PacketRouter

end MeshcoreSim
