import MeshcoreSim.Lib.Way
import MeshcoreSim.Router.Soundness
import MeshcoreSim.Router.Timing

/-!
How a packet spreads over the topology, as the tracer records it.

Nodes transmit packets of their own and packets that they have received. The tracer calls the node
that transmits a packet for the first time its first sender.

* `Slice.tracerStep` — what a slice writes to the tracer.
* `Spreads` — the packets in flight and the recorded hops, with the ways that the packets have come.
* `spread` — every recorded hop ends a way from the first sender over nodes that received the
  packet, and comes late enough for all its links.
-/

namespace MeshcoreSim

open Lib

/-- A packet of one node reaches another without a relay. -/
def Topology.Linked (t : Topology) (a b : NodeName) : Prop :=
  ∃ link ∈ t.neighbours a, link.other = b

/-- The tracer has recorded that a node received the packet. -/
def PacketTrace.HeardBy (trace : PacketTrace) (node : NodeName) : Prop :=
  ∃ hop ∈ trace.hops, hop.receiver = node

instance (trace : PacketTrace) (node : NodeName) : Decidable (trace.HeardBy node) :=
  inferInstanceAs (Decidable (∃ hop ∈ trace.hops, _))

/-- The tracer has recorded that the packet came over a link of the topology. -/
def PacketTrace.Crossed (trace : PacketTrace) (t : Topology) (a b : NodeName) : Prop :=
  t.Linked a b ∧ ∃ hop ∈ trace.hops, hop.sender = a ∧ hop.receiver = b

/-- The packet can have come to a node by some time, if every link takes at least `delay`. -/
def PacketTrace.ComesTo (trace : PacketTrace) (t : Topology) (delay : ℚ) (node : NodeName)
    (now : ℚ) : Prop :=
  ∃ via, Way (trace.Crossed t) trace.HeardBy trace.firstSender node via ∧
    trace.firstSeenAt + (via.length + 1) * delay ≤ now

/-- A node can have transmitted a packet at some time. -/
def PacketTrace.Reached (trace : PacketTrace) (t : Topology) (delay : ℚ) (node : NodeName)
    (now : ℚ) : Prop :=
  node = trace.firstSender ∧ trace.firstSeenAt ≤ now ∨
    trace.HeardBy node ∧ trace.ComesTo t delay node now

/-- A later state of the trace of a packet. -/
structure PacketTrace.Extends (trace trace' : PacketTrace) : Prop where
  firstSender : trace'.firstSender = trace.firstSender
  firstSeenAt : trace'.firstSeenAt = trace.firstSeenAt
  hops : ∀ hop ∈ trace.hops, hop ∈ trace'.hops

/-- A later state of the tracer. -/
def PacketTracer.Grows (tracer tracer' : PacketTracer) : Prop :=
  ∀ fp trace, tracer.traces.get? fp = some trace →
    ∃ trace', tracer'.traces.get? fp = some trace' ∧ trace.Extends trace'

/-! ### Traces -/

section Traces

variable {trace trace' : PacketTrace} {t : Topology} {delay now now' : ℚ} {node : NodeName}

theorem PacketTrace.Extends.refl (trace : PacketTrace) : trace.Extends trace :=
  ⟨rfl, rfl, fun _ mem => mem⟩

theorem PacketTrace.Extends.heardBy (longer : trace.Extends trace') (heard : trace.HeardBy node) :
    trace'.HeardBy node := by
  obtain ⟨hop, mem, receives⟩ := heard
  exact ⟨hop, longer.hops hop mem, receives⟩

theorem PacketTrace.Extends.crossed (longer : trace.Extends trace') {a b : NodeName}
    (crossed : trace.Crossed t a b) : trace'.Crossed t a b := by
  obtain ⟨linked, hop, mem, ends⟩ := crossed
  exact ⟨linked, hop, longer.hops hop mem, ends⟩

theorem PacketTrace.ComesTo.mono (comes : trace.ComesTo t delay node now)
    (longer : trace.Extends trace') (later : now ≤ now') : trace'.ComesTo t delay node now' := by
  obtain ⟨via, way, early⟩ := comes
  refine ⟨via, ?_, longer.firstSeenAt ▸ early.trans later⟩
  rw [longer.firstSender]
  exact way.mono (fun _ _ => longer.crossed) fun _ => longer.heardBy

theorem PacketTrace.Reached.mono (reached : trace.Reached t delay node now)
    (longer : trace.Extends trace') : trace'.Reached t delay node now := by
  rcases reached with ⟨first, early⟩ | ⟨heard, comes⟩
  · exact .inl ⟨longer.firstSender ▸ first, longer.firstSeenAt ▸ early⟩
  · exact .inr ⟨longer.heardBy heard, comes.mono longer le_rfl⟩

/-- A packet that a node transmits comes over the next link. -/
theorem PacketTrace.Reached.comesTo {start : ℚ} {node' : NodeName}
    (reached : trace.Reached t delay node start) (link : trace.Crossed t node node')
    (late : start + delay ≤ now) : trace.ComesTo t delay node' now := by
  rcases reached with ⟨rfl, early⟩ | ⟨heard, via, way, early⟩
  · refine ⟨[], .direct link, ?_⟩
    simp only [List.length_nil, Nat.cast_zero, zero_add, one_mul]
    linarith
  · refine ⟨via ++ [node], way.snoc heard link, ?_⟩
    simp only [List.length_append, List.length_singleton, Nat.cast_add, Nat.cast_one]
    linarith

end Traces

namespace PacketTracer

variable {tracer : PacketTracer}

theorem Grows.refl (tracer : PacketTracer) : tracer.Grows tracer :=
  fun _ trace known => ⟨trace, known, .refl trace⟩

theorem grows_recordTx {sender : NodeName} {hexData : String} {t airtimeMs : ℚ}
    {txEnd : Option ℚ} : tracer.Grows (tracer.recordTx sender hexData t airtimeMs txEnd).1 := by
  intro fp trace known
  rcases tracer.traces_recordTx with same | ⟨info, new, added⟩
  · exact ⟨trace, same ▸ known, .refl trace⟩
  · refine ⟨trace, ?_, .refl trace⟩
    rw [added, Dict.get?_set_of_ne _ _ fun eq => ?_]
    · exact known
    · rw [eq, new] at known
      cases known

theorem grows_onTrace {sender : NodeName} {hexData : String} {t : ℚ}
    {append : PacketInfo → PacketTrace → PacketTrace}
    (longer : ∀ info (trace : PacketTrace), trace.Extends (append info trace)) :
    tracer.Grows (tracer.onTrace sender hexData t append) := by
  intro fp trace known
  unfold onTrace
  cases decodePacket hexData with
  | none => exact ⟨trace, known, .refl trace⟩
  | some info =>
      simp only [Dict.get?_set]
      split
      · rename_i same
        refine ⟨_, rfl, ?_⟩
        rw [traceOf, ← same, known, Option.getD_some]
        exact longer info trace
      · exact ⟨trace, known, .refl trace⟩

end PacketTracer

namespace PacketRouter

variable {R : PacketRouter} {w w' : World} {e : Event} {tr out : List Obs} {d : Delivery}
  {tracer tracer' : PacketTracer} {delay : String → ℚ}

/-! ### What a slice writes to the tracer -/

/-- A record at some time, which is at most a hop from `sender` to `receiver`. -/
structure Records (now : ℚ) (sender receiver : NodeName)
    (append : PacketInfo → PacketTrace → PacketTrace) : Prop where
  longer : ∀ info (trace : PacketTrace), trace.Extends (append info trace)
  hops : ∀ info (trace : PacketTrace), ∀ hop ∈ (append info trace).hops,
    hop ∈ trace.hops ∨ hop.t = now ∧ hop.sender = sender ∧ hop.receiver = receiver

/-- The tracer after a slice. -/
inductive TracerStep (w : World) (e : Event) (out : List Obs) (tracer : PacketTracer) :
    PacketTracer → Prop
  | same (silent : ∀ sender hexData, e ≠ .onTx sender hexData) : TracerStep w e out tracer tracer
  | sent (sender : NodeName) (hexData : String) (airtimeMs : ℚ) (txEnd : Option ℚ)
      (isOnTx : e = .onTx sender hexData) :
      TracerStep w e out tracer (tracer.recordTx sender hexData w.time airtimeMs txEnd).1
  | recorded (d : Delivery) (append : PacketInfo → PacketTrace → PacketTrace)
      (silent : ∀ sender hexData, e ≠ .onTx sender hexData) (taken : .verdict d ∈ out)
      (records : Records w.time d.sender d.link.other append) :
      TracerStep w e out tracer (tracer.onTrace d.sender d.hexData w.time append)

theorem Arrival.tracerStep {outcome : Outcome} {after : Option PacketTracer} {commands : List Obs}
    (arrival : Arrival R w d outcome after commands) (current : w.tracer = some tracer)
    (silent : ∀ sender hexData, e ≠ .onTx sender hexData) (taken : .verdict d ∈ out) :
    ∃ tracer', after = some tracer' ∧ TracerStep w e out tracer tracer' := by
  have only : ∀ {append : PacketInfo → PacketTrace → PacketTrace},
      (∀ info trace, (append info trace).firstSender = trace.firstSender ∧
        (append info trace).firstSeenAt = trace.firstSeenAt ∧
        (append info trace).hops = trace.hops) → Records w.time d.sender d.link.other append := by
    intro append same
    refine ⟨fun info trace => ⟨(same info trace).1, (same info trace).2.1, fun hop mem => ?_⟩,
      fun info trace hop mem => .inl ?_⟩
    · exact (same info trace).2.2.symm ▸ mem
    · exact (same info trace).2.2 ▸ mem
  have received : ∀ txId airtimeMs, Records w.time d.sender d.link.other fun info trace =>
      { trace with
        hops := trace.hops ++
          [⟨w.time, d.sender, d.link.other, info.routeType, info.pathCount, txId, airtimeMs,
            d.hexData.length / 2⟩] } := by
    intro txId airtimeMs
    refine ⟨fun info trace => ⟨rfl, rfl, fun hop mem => List.mem_append_left _ mem⟩, ?_⟩
    intro info trace hop mem
    rcases List.mem_append.mp mem with old | new
    · exact .inl old
    · rw [List.mem_singleton.mp new]
      exact .inr ⟨rfl, rfl, rfl⟩
  cases arrival with
  | halfduplex =>
      rw [current]
      exact ⟨_, rfl, .recorded d _ silent taken (only fun _ _ => ⟨rfl, rfl, rfl⟩)⟩
  | collision =>
      rw [current]
      exact ⟨_, rfl, .recorded d _ silent taken (only fun _ _ => ⟨rfl, rfl, rfl⟩)⟩
  | rx =>
      rw [current]
      exact ⟨_, rfl, .recorded d _ silent taken (received _ _)⟩
  | noReceiver =>
      rw [current]
      exact ⟨_, rfl, .recorded d _ silent taken (received _ _)⟩

/-- A slice registers its transmission, or records the end of its call, or neither. -/
theorem Slice.tracerStep (slice : Slice R w e w' out) (current : w.tracer = some tracer) :
    ∃ tracer', w'.tracer = some tracer' ∧ TracerStep w e out tracer tracer' := by
  have sent : ∀ {sender : NodeName} {hexData : String}, e = .onTx sender hexData →
      ∃ tracer', (R.transmitted w sender hexData).tracer = some tracer' ∧
        TracerStep w e out tracer tracer' := by
    intro sender hexData isOnTx
    refine ⟨_, ?_, .sent sender hexData (R.airtimeMs hexData)
      (some (R.txWindow w hexData).stop) isOnTx⟩
    rw [transmitted, current]
    rfl
  cases slice with
  | alone sender hexData => exact sent rfl
  | announced sender hexData => exact sent rfl
  | through _ _ _ _ _ _ _ _ _ _ arrival =>
      exact arrival.tracerStep current (fun _ _ other => nomatch other) List.mem_cons_self
  | woken _ _ _ _ _ _ _ _ _ arrival =>
      exact arrival.tracerStep current (fun _ _ other => nomatch other) List.mem_cons_self
  | _ => exact ⟨tracer, current, .same fun _ _ other => nomatch other⟩

theorem TracerStep.grows (written : TracerStep w e out tracer tracer') : tracer.Grows tracer' := by
  cases written with
  | same => exact .refl tracer
  | sent => exact PacketTracer.grows_recordTx
  | recorded _ _ _ _ records => exact PacketTracer.grows_onTrace records.longer

/-! ### The run -/

/-- Nodes transmit packets that they have received and packets that nobody has transmitted, and
the first sender of a packet may repeat it. -/
def Forwards (w : World) : Event → Prop
  | .onTx sender hexData => ∀ tracer ∈ w.tracer, ∀ info ∈ decodePacket hexData,
      ∀ trace ∈ tracer.traces.get? (packetFingerprint info),
        sender = trace.firstSender ∨ trace.HeardBy sender
  | _ => True

instance (w : World) : (e : Event) → Decidable (Forwards w e)
  | .onTx _ _ =>
      @Option.decidableForallMem _ _
        (fun _ => @Option.decidableForallMem _ _
          (fun _ => @Option.decidableForallMem _ _ (fun _ => instDecidableOr) _) _) _
  | .tick _ | .notify _ | .resume _ | .start _ | .wake _ | .drain => .isTrue trivial

/-- No agent changes packets, or keeps them for later. -/
def Honest (R : PacketRouter) : Prop :=
  ∀ entry ∈ R.agents.entries, ∀ cfg, entry.2.adversarial = some cfg →
    cfg.mode ≠ .corrupt ∧ cfg.mode ≠ .replay

/-- Over every link a packet takes at least the delay of its fingerprint. -/
def Takes (R : PacketRouter) (delay : String → ℚ) : Prop :=
  ∀ hexData, ∀ info ∈ decodePacket hexData, ∀ sender, ∀ link ∈ R.topology.neighbours sender,
    delay (packetFingerprint info) ≤ R.airtimeMs hexData / 1000 + link.latency

/-- The sender of a delivery can have transmitted the packet when it did. -/
def OnTheWay (R : PacketRouter) (delay : String → ℚ) (tracer : PacketTracer) (d : Delivery) :
    Prop :=
  ∀ info ∈ decodePacket d.hexData, ∃ trace ∈ tracer.traces.get? (packetFingerprint info),
    ∃ window ∈ d.window,
      trace.Reached R.topology (delay (packetFingerprint info)) d.sender window.start ∧
        window.start + delay (packetFingerprint info) ≤ window.stop + d.link.latency

/-- The packets in flight and the recorded hops, with the ways that the packets have come. -/
structure Spreads (R : PacketRouter) (delay : String → ℚ) (w : World) (tracer : PacketTracer) :
    Prop where
  seen : ∀ fp trace, tracer.traces.get? fp = some trace → trace.firstSeenAt ≤ w.time
  hops : ∀ fp trace, tracer.traces.get? fp = some trace → ∀ hop ∈ trace.hops,
    hop.t ≤ w.time ∧ trace.ComesTo R.topology (delay fp) hop.receiver hop.t
  tasks : ∀ task ∈ w.tasks, R.OnTheWay delay tracer task.delivery
  broadcasts : ∀ b ∈ w.broadcasts, ∀ d ∈ R.deliveries b, R.OnTheWay delay tracer d

theorem OnTheWay.grows (onTheWay : R.OnTheWay delay tracer d) (grows : tracer.Grows tracer') :
    R.OnTheWay delay tracer' d := by
  intro info decoded
  obtain ⟨trace, known, window, timed, reached, late⟩ := onTheWay info decoded
  obtain ⟨trace', known', longer⟩ := grows _ trace known
  exact ⟨trace', known', window, timed, reached.mono longer, late⟩

theorem not_adversary (honest : R.Honest) {node : NodeName} {mode : AdversarialMode}
    (adversary : R.Adversary node mode) : mode ≠ .corrupt ∧ mode ≠ .replay := by
  obtain ⟨config, cfg, agent, adversarial, rfl⟩ := adversary
  exact honest _ (R.agents.mem_entries_iff.mpr agent) cfg adversarial

/-- Without dishonest agents a call that passes the gates has its packet. -/
theorem hexData_of_passed (honest : R.Honest) (provenance : R.Provenance w tr) {k : ℕ}
    {hexData : String} {corrupted : Bool}
    (gate : (R.gates (w.without k) d).2 = .passed hexData corrupted) : hexData = d.hexData := by
  rcases gates_source gate with same | ⟨filter, known, mode⟩
  · exact same
  · have adversary := provenance.modes _ (w.filters.mem_entries_iff.mpr known)
    exact absurd mode (not_adversary honest adversary).1

/-- The packet of a transmission has reached its sender. -/
theorem reached_recordTx {sender : NodeName} {hexData : String} {airtimeMs : ℚ}
    {txEnd : Option ℚ} (spreads : R.Spreads delay w tracer) (current : w.tracer = some tracer)
    (forwards : Forwards w (.onTx sender hexData)) {info : PacketInfo}
    (decoded : decodePacket hexData = some info) :
    ∃ trace ∈ (tracer.recordTx sender hexData w.time airtimeMs txEnd).1.traces.get?
        (packetFingerprint info),
      trace.Reached R.topology (delay (packetFingerprint info)) sender w.time := by
  cases known : tracer.traces.get? (packetFingerprint info) with
  | none =>
      refine ⟨PacketTracer.newTrace info sender w.time, ?_, .inl ⟨rfl, le_rfl⟩⟩
      simp [PacketTracer.recordTx, decoded, known, Dict.get?_set_self]
  | some trace =>
      refine ⟨trace, ?_, ?_⟩
      · simp [PacketTracer.recordTx, decoded, known]
      · rcases forwards tracer current info decoded trace known with first | heard
        · exact .inl ⟨first, spreads.seen _ trace known⟩
        · obtain ⟨hop, mem, rfl⟩ := heard
          obtain ⟨past, comes⟩ := spreads.hops _ trace known hop mem
          exact .inr ⟨⟨hop, mem, rfl⟩, comes.mono (.refl trace) past⟩

/-- The sender of a packet could transmit it long enough ago. -/
def Arrives (R : PacketRouter) (delay : String → ℚ) (w : World) (tracer : PacketTracer)
    (d : Delivery) : Prop :=
  R.topology.Linked d.sender d.link.other ∧ ∀ info ∈ decodePacket d.hexData,
    ∃ trace, tracer.traces.get? (packetFingerprint info) = some trace ∧
      ∃ start, trace.Reached R.topology (delay (packetFingerprint info)) d.sender start ∧
        start + delay (packetFingerprint info) ≤ w.time

theorem OnTheWay.arrives (onTheWay : R.OnTheWay delay tracer d)
    (linked : d.link ∈ R.topology.neighbours d.sender)
    (arrived : ∀ window, d.window = some window → window.stop + d.link.latency ≤ w.time) :
    R.Arrives delay w tracer d := by
  refine ⟨⟨d.link, linked, rfl⟩, fun info decoded => ?_⟩
  obtain ⟨trace, known, window, timed, reached, late⟩ := onTheWay info decoded
  exact ⟨trace, known, window.start, reached, late.trans (arrived window timed)⟩

/-- The packet of a verdict is one that is on the way. -/
theorem Spreads.verdict (spreads : R.Spreads delay w tracer) (honest : R.Honest)
    (provenance : R.Provenance w tr) (slice : Slice R w e w' out) (taken : .verdict d ∈ out) :
    R.OnTheWay delay tracer d ∧ d.link ∈ R.topology.neighbours d.sender := by
  rcases slice.mem_verdict taken with ⟨k, corrupted, t, task, -⟩ |
    ⟨k, d₀, corrupted, -, created, gate, same, -⟩
  · have mem := List.mem_of_getElem? task
    exact ⟨spreads.tasks _ mem, (provenance.tasks _ mem).1⟩
  · rw [hexData_of_passed honest provenance gate] at same
    have mem := List.mem_of_getElem? created
    exact same ▸ ⟨spreads.tasks _ mem, (provenance.tasks _ mem).1⟩

/-- The deliveries of a broadcast are on the way. -/
theorem TracerStep.onTheWay (written : TracerStep w e out tracer tracer') (takes : R.Takes delay)
    (spreads : R.Spreads delay w tracer) (current : w.tracer = some tracer)
    (forwards : Forwards w e) {sender : NodeName} {hexData : String}
    (isOnTx : e = .onTx sender hexData) :
    ∀ d ∈ R.deliveries (R.broadcast w sender hexData), R.OnTheWay delay tracer' d := by
  intro d made info decoded
  obtain ⟨link, linked, rfl⟩ := List.mem_map.mp made
  cases written with
  | same silent => exact absurd isOnTx (silent _ _)
  | recorded _ _ silent => exact absurd isOnTx (silent _ _)
  | sent sender' hexData' airtimeMs txEnd isOnTx' =>
      obtain ⟨rfl, rfl⟩ : sender' = sender ∧ hexData' = hexData := by simpa [isOnTx'] using isOnTx
      obtain ⟨trace, known, reached⟩ : ∃ trace ∈ (tracer.recordTx sender' hexData' w.time
          airtimeMs txEnd).1.traces.get? (packetFingerprint info),
          trace.Reached R.topology (delay (packetFingerprint info)) sender' w.time :=
        reached_recordTx spreads current (isOnTx' ▸ forwards) decoded
      refine ⟨trace, known, R.txWindow w hexData', rfl, reached, ?_⟩
      have slow := takes hexData' info decoded sender' link linked
      have stop : (R.txWindow w hexData').stop = w.time + R.airtimeMs hexData' / 1000 := rfl
      have start : (R.txWindow w hexData').start = w.time := rfl
      rw [stop, start]
      linarith

/-- The hops after a slice: those from before, and the packet of the verdict. -/
theorem Spreads.records (spreads : R.Spreads delay w tracer)
    (written : TracerStep w e out tracer tracer')
    (arrives : ∀ d, .verdict d ∈ out → R.Arrives delay w tracer d)
    {fp : String} {trace : PacketTrace} (known : tracer'.traces.get? fp = some trace) :
    trace.firstSeenAt ≤ w.time ∧ ∀ hop ∈ trace.hops,
      hop.t ≤ w.time ∧ trace.ComesTo R.topology (delay fp) hop.receiver hop.t := by
  cases written with
  | same => exact ⟨spreads.seen fp trace known, spreads.hops fp trace known⟩
  | sent =>
      rcases tracer.traces_recordTx with same | ⟨info, -, added⟩
      · rw [same] at known
        exact ⟨spreads.seen fp trace known, spreads.hops fp trace known⟩
      · rw [added, Dict.get?_set] at known
        split at known
        · cases known
          refine ⟨le_rfl, fun hop mem => ?_⟩
          cases mem
        · exact ⟨spreads.seen fp trace known, spreads.hops fp trace known⟩
  | recorded d append silent taken records =>
      unfold PacketTracer.onTrace at known
      cases decoded : decodePacket d.hexData with
      | none =>
          rw [decoded] at known
          exact ⟨spreads.seen fp trace known, spreads.hops fp trace known⟩
      | some info =>
          simp only [decoded, Dict.get?_set] at known
          split at known
          · rename_i same
            subst same
            obtain ⟨linked, packets⟩ := arrives d taken
            obtain ⟨old, before, start, reached, late⟩ := packets info decoded
            rw [PacketTracer.traceOf, before, Option.getD_some, Option.some.injEq] at known
            subst known
            have longer := records.longer info old
            refine ⟨longer.firstSeenAt ▸ spreads.seen _ old before, fun hop mem => ?_⟩
            rcases records.hops info old hop mem with earlier | ⟨now, sender, receiver⟩
            · obtain ⟨past, came⟩ := spreads.hops _ old before hop earlier
              exact ⟨past, came.mono longer le_rfl⟩
            · rw [now, receiver]
              exact ⟨le_rfl, (reached.mono longer).comesTo
                ⟨linked, hop, mem, sender, receiver⟩ late⟩
          · exact ⟨spreads.seen fp trace known, spreads.hops fp trace known⟩

/-- Slices keep what is known of the ways. -/
theorem Spreads.step {time : ℚ} {channel : Option ChannelModel} (honest : R.Honest)
    (takes : R.Takes delay) (run : Run R.step anyStep (R.init time (some .init) channel) w tr)
    (spreads : R.Spreads delay w tracer) (current : w.tracer = some tracer)
    (forwards : Forwards w e) (stepped : R.step w e = some (w', out)) :
    ∃ tracer', w'.tracer = some tracer' ∧ R.Spreads delay w' tracer' := by
  have slice := step_slice stepped
  have provenance := run_provenance run
  obtain ⟨tracer', current', written⟩ := slice.tracerStep current
  have records : ∀ fp trace, tracer'.traces.get? fp = some trace →
      trace.firstSeenAt ≤ w.time ∧ ∀ hop ∈ trace.hops,
        hop.t ≤ w.time ∧ trace.ComesTo R.topology (delay fp) hop.receiver hop.t := by
    intro fp trace known
    refine spreads.records written (fun d taken => ?_) known
    obtain ⟨onTheWay, linked⟩ := spreads.verdict honest provenance slice taken
    exact onTheWay.arrives linked fun window timed => verdict_deadline run stepped taken timed
  have begun : ∀ b, (b ∈ w.broadcasts ∨ ∃ sender hexData, e = .onTx sender hexData ∧
      b = R.broadcast w sender hexData) → ∀ d ∈ R.deliveries b, R.OnTheWay delay tracer' d := by
    rintro b (old | ⟨sender, hexData, isOnTx, rfl⟩) d made
    · exact (spreads.broadcasts b old d made).grows written.grows
    · exact written.onTheWay takes spreads current forwards isOnTx d made
  refine ⟨tracer', current', ?_, ?_, ?_, ?_⟩
  · intro fp trace known
    exact (records fp trace known).1.trans slice.time_le
  · intro fp trace known hop mem
    obtain ⟨past, comes⟩ := (records fp trace known).2 hop mem
    exact ⟨past.trans slice.time_le, comes⟩
  · intro task mem
    rcases slice.tasks mem with old | ⟨b, known, made⟩ | ⟨replay, due, made⟩ |
      ⟨k, d, hexData, corrupted, -, created, gate, same⟩
    · exact (spreads.tasks task old).grows written.grows
    · exact begun b known _ made
    · obtain ⟨entry, filter, -, packet, captured, -⟩ := mem_dueReplays due
      have adversary := (provenance.captured entry filter packet captured).1
      exact absurd rfl (not_adversary honest adversary).2
    · rw [same, hexData_of_passed honest provenance gate]
      exact (spreads.tasks _ (List.mem_of_getElem? created)).grows written.grows
  · intro b mem
    rcases slice.broadcasts mem with ⟨waiting, old⟩ | now
    · exact begun { b with waiting := waiting } (.inl old)
    · exact begun b (.inr now)

theorem run_spreads {time : ℚ} {channel : Option ChannelModel} (takes : R.Takes delay)
    (honest : R.Honest) (run : Run R.step Forwards (R.init time (some .init) channel) w tr) :
    ∃ tracer, w.tracer = some tracer ∧ R.Spreads delay w tracer := by
  refine run.invariant (I := fun w _ => ∃ tracer, w.tracer = some tracer ∧
    R.Spreads delay w tracer) ⟨.init, rfl, ?_⟩ ?_
  · constructor
    · intro fp trace known
      cases known
    · intro fp trace known
      cases known
    · intro task mem
      cases mem
    · intro b mem
      cases mem
  · rintro s tr e s' out before ⟨tracer, current, spreads⟩ forwards stepped
    exact spreads.step honest takes (before.mono fun _ _ _ => trivial) current forwards stepped

/-- In every run in which no agent corrupts or replays packets and nodes transmit packets of their
own and packets that they received, with any losses, collisions and interleavings: a recorded
packet has come from its first sender over links on which it is recorded too, and no sooner than
all these links let it. -/
theorem spread (R : PacketRouter) (time : ℚ) (channel : Option ChannelModel)
    (delay : String → ℚ) (w : World) (tr : List Obs) (honest : R.Honest) (takes : R.Takes delay)
    (run : Run R.step Forwards (R.init time (some .init) channel) w tr) :
    ∃ tracer, w.tracer = some tracer ∧
      ∀ fp trace, tracer.traces.get? fp = some trace → ∀ hop ∈ trace.hops,
        trace.ComesTo R.topology (delay fp) hop.receiver hop.t := by
  obtain ⟨tracer, current, spreads⟩ := run_spreads takes honest run
  exact ⟨tracer, current, fun fp trace known hop mem => (spreads.hops fp trace known hop mem).2⟩

/-- What holds of all links of the adjacency lists holds of the links of every node. -/
theorem forall_neighbours {t : Topology} {P : EdgeLink → Prop}
    (all : ∀ entry ∈ t.adj.entries, ∀ link ∈ entry.2, P link) (sender : NodeName) :
    ∀ link ∈ t.neighbours sender, P link := by
  intro link linked
  unfold Topology.neighbours at linked
  cases known : t.adj.get? sender with
  | none => simp [known] at linked
  | some links =>
      rw [known] at linked
      exact all _ (t.adj.mem_entries_iff.mpr known) link linked

/-- Two endpoints with a relay between them, and 20 ms over every link. -/
def chainCell : TopologyConfig where
  nodes := ["alice", "relay", "bob"].map .named
  edges := [⟨"alice", "relay", 0, 20, 6, none, none⟩, ⟨"relay", "bob", 0, 20, 6, none, none⟩]
  simulation := ⟨0, 0, 0, 0, 0, "", none, none⟩
  radio := some .default

/-- The relay repeats a packet of `alice`, and `bob` gets it. -/
theorem spread_chainCell :
    ∃ R channel w tr, ofConfig? chainCell .zero = some R ∧ R.channel = some channel ∧
      Run R.step Forwards (R.init 0 (some .init) (some channel)) w tr ∧
      ∃ tracer, w.tracer = some tracer ∧ ∃ trace ∈ tracer.traces.values,
        trace.firstSender = "alice" ∧ trace.HeardBy "bob" ∧
        ∀ hop ∈ trace.hops, trace.ComesTo R.topology (1 / 50) hop.receiver hop.t := by
  have found : ((ofConfig? chainCell .zero).any fun R => R.channel.any fun channel =>
      decide (∀ entry ∈ R.topology.adj.entries, ∀ link ∈ entry.2, 1 / 50 ≤ link.latency) &&
      decide (∀ entry ∈ R.agents.entries, entry.2.adversarial = none) &&
      (exec (restrict R.step Forwards) (R.init 0 (some .init) (some channel))
        [.onTx "alice" "050041", .notify 0, .resume 0, .start 0, .tick 1, .wake 0,
          .onTx "relay" "0501AA41", .notify 0, .notify 0, .resume 0, .start 1, .tick 2, .wake 1]).any
        fun r => r.1.tracer.any fun tracer => tracer.traces.values.any fun trace =>
          trace.firstSender = "alice" ∧ trace.HeardBy "bob") = true := by
    decide +kernel
  obtain ⟨R, channel, router, model, found⟩ := exists_wired found
  obtain ⟨settings, found⟩ := (Bool.and_eq_true _ _).mp found
  obtain ⟨slow, honest⟩ := (Bool.and_eq_true _ _).mp settings
  obtain ⟨w, tr, run, found⟩ := Run.of_exec_any found
  obtain ⟨tracer', current', found⟩ := (Option.any_eq_true _ _).mp found
  obtain ⟨trace, listed, found⟩ := List.any_eq_true.mp found
  obtain ⟨first, heard⟩ := of_decide_eq_true found
  have spared : R.Honest := by
    intro entry agent cfg adversarial
    rw [of_decide_eq_true honest entry agent] at adversarial
    cases adversarial
  have takes : R.Takes fun _ => 1 / 50 := by
    intro hexData info _ sender link linked
    have latency := forall_neighbours (of_decide_eq_true slow) sender link linked
    have airtime := R.airtimeMs_nonneg hexData
    linarith [div_nonneg airtime (show (0 : ℚ) ≤ 1000 by norm_num)]
  obtain ⟨tracer, current, comes⟩ := spread R 0 (some channel) (fun _ => 1 / 50) w tr spared takes
    run
  obtain rfl : tracer' = tracer := Option.some.inj (current'.symm.trans current)
  obtain ⟨entry, mem, rfl⟩ := List.mem_map.mp listed
  refine ⟨R, channel, w, tr, router, model, run, tracer', current, entry.2, listed, first, heard,
    comes entry.1 entry.2 (tracer'.traces.mem_entries_iff.mp mem)⟩

end PacketRouter

end MeshcoreSim
