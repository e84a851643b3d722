import MeshcoreSim.Channel.Survival
import MeshcoreSim.Orchestrator
import MeshcoreSim.Router.Provenance

/-!
The two ledgers of the router: the traces of the tracer and the counters of the metrics.

* `Agree` — as many hop, collision and half-duplex records over all traces as the counters
  say. Only the end of a call writes either ledger, and then it writes both.
* `Named` — every record with a `tx_id` names a registered TX event of its sender, and every
  blocker or interferer is a registered TX event of the blocking node.
* `Registered` — each node has as many registered TX events as its counter says.
* `Known` — what makes the names right: the packets in flight, the suspended broadcasts and the
  table of active transmissions carry ids that the tracer has handed out.
* `ledgers_agree` — both hold at every suspension point of every run in which all packets can
  be decoded.
-/

namespace MeshcoreSim

open Lib

/-- The tracer has registered a transmission of `sender` under `txId`. -/
def PacketTracer.Sent (tracer : PacketTracer) (txId : ℕ) (sender : NodeName) : Prop :=
  ∃ event, tracer.txEvents.get? txId = some event ∧ event.sender = sender

/-- All ids in the records of a trace are those of transmissions of the right nodes. -/
structure PacketTrace.Named (sent : ℕ → NodeName → Prop) (trace : PacketTrace) : Prop where
  hops : ∀ hop ∈ trace.hops, ∀ txId, hop.txId = some txId → sent txId hop.sender
  collisions : ∀ record ∈ trace.collisions,
    (∀ txId, record.txId = some txId → sent txId record.sender) ∧
      ∃ txId ∈ record.interfererTxId, ∃ interferer ∈ record.interferer, sent txId interferer
  halfduplex : ∀ record ∈ trace.halfduplex,
    (∀ txId, record.txId = some txId → sent txId record.sender) ∧
      ∃ txId ∈ record.blockerTxId, sent txId record.receiver

theorem PacketTrace.Named.mono {sent sent' : ℕ → NodeName → Prop} {trace : PacketTrace}
    (named : trace.Named sent) (more : ∀ txId sender, sent txId sender → sent' txId sender) :
    trace.Named sent' where
  hops hop mem txId has := more _ _ (named.hops hop mem txId has)
  collisions record mem := by
    obtain ⟨own, txId, has, interferer, name, named⟩ := named.collisions record mem
    exact ⟨fun txId has => more _ _ (own txId has), txId, has, interferer, name, more _ _ named⟩
  halfduplex record mem := by
    obtain ⟨own, txId, has, named⟩ := named.halfduplex record mem
    exact ⟨fun txId has => more _ _ (own txId has), txId, has, more _ _ named⟩

/-- A new trace has no records. -/
theorem PacketTrace.named_newTrace (sent : ℕ → NodeName → Prop) (info : PacketInfo)
    (sender : NodeName) (t : ℚ) : (PacketTracer.newTrace info sender t).Named sent := by
  constructor <;> intro record mem <;> cases mem

/-- As many records over all traces as the counters say. -/
structure Agree (m : MetricsCollector) (tracer : PacketTracer) : Prop where
  hops : tracer.traces.sumBy (·.hops.length) = m.rxTotal
  collisions : tracer.traces.sumBy (·.collisions.length) = m.collisionCount
  halfduplex : tracer.traces.sumBy (·.halfduplex.length) = m.halfduplexDropCount

/-- As many TX events of each node as its counter says. -/
def Registered (m : MetricsCollector) (tracer : PacketTracer) : Prop :=
  ∀ node, tracer.txEvents.entries.countP (·.2.sender = node) = m.txOf node

/-! ### Registration -/

namespace PacketTracer

variable {tracer : PacketTracer} {sender : NodeName} {hexData : String} {t airtimeMs : ℚ}
  {txEnd : Option ℚ}

/-- All ids handed out so far are at most the counter. -/
def Counted (tracer : PacketTracer) : Prop :=
  ∀ entry ∈ tracer.txEvents.entries, entry.1 ≤ tracer.txCounter

theorem Counted.recordTx (counted : tracer.Counted) :
    (tracer.recordTx sender hexData t airtimeMs txEnd).1.Counted := by
  unfold PacketTracer.recordTx
  cases decodePacket hexData with
  | none => exact counted
  | some info =>
      intro entry mem
      rcases (Dict.mem_entries_set _).mp mem with rfl | ⟨old, -⟩
      · exact le_rfl
      · exact (counted entry old).trans (Nat.le_succ _)

/-- A registration overwrites no earlier one. -/
theorem Sent.recordTx {txId : ℕ} {sender' : NodeName} (sent : tracer.Sent txId sender')
    (counted : tracer.Counted) :
    (tracer.recordTx sender hexData t airtimeMs txEnd).1.Sent txId sender' := by
  unfold PacketTracer.recordTx
  cases decodePacket hexData with
  | none => exact sent
  | some info =>
      obtain ⟨event, known, sentBy⟩ := sent
      have old := counted _ (tracer.txEvents.mem_entries_iff.mpr known)
      refine ⟨event, ?_, sentBy⟩
      rw [Dict.get?_set_of_ne _ _ (by simp only at old; omega)]
      exact known

/-- The id that a registration hands out is that of a transmission of the sender. -/
theorem sent_recordTx {txId : ℕ}
    (given : (tracer.recordTx sender hexData t airtimeMs txEnd).2 = some txId) :
    (tracer.recordTx sender hexData t airtimeMs txEnd).1.Sent txId sender := by
  unfold PacketTracer.recordTx at given ⊢
  cases decoded : decodePacket hexData with
  | none => simp [decoded] at given
  | some info =>
      simp only [decoded, Option.some.injEq] at given ⊢
      subst given
      exact ⟨_, Dict.get?_set_self _ _ _, rfl⟩

end PacketTracer

theorem Agree.recordTx {m : MetricsCollector} {tracer : PacketTracer} (agree : Agree m tracer)
    (sender : NodeName) (hexData : String) (t airtimeMs : ℚ) (txEnd : Option ℚ) :
    Agree (m.recordTx sender) (tracer.recordTx sender hexData t airtimeMs txEnd).1 where
  hops := (PacketTracer.sumBy_recordTx fun _ _ _ => rfl).trans agree.hops
  collisions := (PacketTracer.sumBy_recordTx fun _ _ _ => rfl).trans agree.collisions
  halfduplex := (PacketTracer.sumBy_recordTx fun _ _ _ => rfl).trans agree.halfduplex

/-- A registration and a count of its sender. -/
theorem Registered.recordTx {m : MetricsCollector} {tracer : PacketTracer}
    (registered : Registered m tracer) (counted : tracer.Counted) {hexData : String}
    (decodable : (decodePacket hexData).isSome) (sender : NodeName) (t airtimeMs : ℚ)
    (txEnd : Option ℚ) :
    Registered (m.recordTx sender) (tracer.recordTx sender hexData t airtimeMs txEnd).1 := by
  obtain ⟨info, decoded⟩ := Option.isSome_iff_exists.mp decodable
  have new : tracer.txEvents.get? (tracer.txCounter + 1) = none := by
    refine (Dict.get?_eq_none_iff _).mpr fun entry mem same => ?_
    have old := counted entry mem
    omega
  intro node
  rw [MetricsCollector.txOf_recordTx, ← registered node]
  simp only [PacketTracer.recordTx, decoded, Dict.entries_set_of_none _ _ new]
  simp [List.countP_append, List.countP_singleton, eq_comm]

/-- A record in the trace of a decodable packet, and the same number of counts. -/
theorem Agree.onTrace {m m' : MetricsCollector} {tracer : PacketTracer} {sender : NodeName}
    {hexData : String} {t : ℚ} {append : PacketInfo → PacketTrace → PacketTrace}
    (agree : Agree m tracer) (hops collisions halfduplex : ℕ)
    (decodable : (decodePacket hexData).isSome)
    (adds : ∀ info trace, (append info trace).hops.length = trace.hops.length + hops ∧
      (append info trace).collisions.length = trace.collisions.length + collisions ∧
      (append info trace).halfduplex.length = trace.halfduplex.length + halfduplex)
    (counts : m'.rxTotal = m.rxTotal + hops ∧ m'.collisionCount = m.collisionCount + collisions ∧
      m'.halfduplexDropCount = m.halfduplexDropCount + halfduplex) :
    Agree m' (tracer.onTrace sender hexData t append) := by
  constructor
  · rw [PacketTracer.sumBy_onTrace (fun _ _ _ => rfl) decodable fun info trace =>
      (adds info trace).1, agree.hops, counts.1]
  · rw [PacketTracer.sumBy_onTrace (fun _ _ _ => rfl) decodable fun info trace =>
      (adds info trace).2.1, agree.collisions, counts.2.1]
  · rw [PacketTracer.sumBy_onTrace (fun _ _ _ => rfl) decodable fun info trace =>
      (adds info trace).2.2, agree.halfduplex, counts.2.2]

theorem Agree.mark {m : MetricsCollector} {tracer : PacketTracer} (agree : Agree m tracer)
    (corrupted : Bool) : Agree (mark corrupted m) tracer := by
  cases corrupted <;> exact ⟨agree.hops, agree.collisions, agree.halfduplex⟩

/-- No end of a call counts a transmission. -/
theorem Outcome.tx_record (outcome : Outcome) (receiver : NodeName) (m : MetricsCollector) :
    (outcome.record receiver m).tx = m.tx := by
  cases outcome <;> rfl

theorem tx_mark (corrupted : Bool) (m : MetricsCollector) : (mark corrupted m).tx = m.tx := by
  cases corrupted <;> rfl

namespace PacketRouter

variable {R : PacketRouter} {w w' : World} {e : Event} {tr out : List Obs} {d : Delivery}
  {tracer tracer' : PacketTracer}

/-! ### The end of a call -/

/-- The interferer of a collision is a registered transmission of the named node. -/
theorem verdict_collision {channel : Option ChannelModel} {interferer : NodeName}
    {interfererTxId : ℕ} {overlapS : ℚ}
    (decided : verdict channel d = .collision interferer interfererTxId overlapS) :
    ∃ m record, channel = some m ∧ (interfererTxId, record) ∈ m.active.entries ∧
      record.sender = interferer := by
  unfold verdict at decided
  split at decided
  · rename_i m window _
    split at decided
    · cases decided
    · split at decided
      · cases decided
      · rename_i txId _
        split at decided
        · rename_i name id overlap lost
          cases decided
          obtain ⟨⟨id', record⟩, inTable, loss⟩ := ChannelModel.isLost_eq_some lost
          obtain ⟨-, -, -, -, sameName, sameId, -⟩ := ChannelModel.lossFrom_eq_some loss
          cases sameId
          exact ⟨m, record, rfl, inTable, sameName.symm⟩
        · cases decided
  · cases decided

/-- The packets in flight, the suspended broadcasts and the table of active transmissions
carry ids that the tracer has handed out. -/
structure Known (w : World) (tracer : PacketTracer) : Prop where
  tasks : ∀ task ∈ w.tasks, ∀ txId, task.delivery.txId = some txId →
    tracer.Sent txId task.delivery.sender
  broadcasts : ∀ b ∈ w.broadcasts, ∀ txId, b.txId = some txId → tracer.Sent txId b.sender
  active : ∀ m, w.channel = some m → ∀ entry ∈ m.active.entries,
    tracer.Sent entry.1 entry.2.sender
  counted : tracer.Counted

/-- The end of a call writes one record to the trace of its packet and one to the counters,
and the ids in the record are those of registered transmissions. -/
theorem Arrival.ledgers {m : MetricsCollector} {outcome : Outcome}
    {after : Option PacketTracer} {commands : List Obs}
    (arrival : Arrival R w d outcome after commands) (current : w.tracer = some tracer)
    (decodable : (decodePacket d.hexData).isSome) (agent : (R.agents.get? d.link.other).isSome)
    (sent : ∀ txId, d.txId = some txId → tracer.Sent txId d.sender)
    (known : Known w tracer) (agree : Agree m tracer)
    (named : ∀ entry ∈ tracer.traces.entries, entry.2.Named tracer.Sent) :
    ∃ tracer', after = some tracer' ∧ Agree (outcome.record d.link.other m) tracer' ∧
      tracer'.txEvents = tracer.txEvents ∧ tracer'.txCounter = tracer.txCounter ∧
      ∀ entry ∈ tracer'.traces.entries, entry.2.Named tracer.Sent := by
  have fresh := PacketTrace.named_newTrace tracer.Sent
  cases arrival with
  | halfduplex blockerTxId decided =>
      obtain ⟨model, -, record, table, -, inTable, own, -⟩ := verdict_halfduplex decided
      have blocker := known.active model table _ inTable
      refine ⟨_, by rw [current]; rfl, ?_, (PacketTracer.onTrace_txEvents _ _ _ _ _).1,
        (PacketTracer.onTrace_txEvents _ _ _ _ _).2, ?_⟩
      · exact agree.onTrace 0 0 1 decodable (fun _ _ => ⟨rfl, rfl, List.length_append⟩)
          ⟨rfl, rfl, rfl⟩
      · refine PacketTracer.forall_onTrace _ fresh (fun info trace before => ?_) named
        refine ⟨before.hops, before.collisions, fun record mem => ?_⟩
        rcases List.mem_append.mp mem with old | new
        · exact before.halfduplex record old
        · rw [List.mem_singleton.mp new]
          exact ⟨sent, blockerTxId, rfl, own ▸ blocker⟩
  | collision interferer interfererTxId overlapS decided =>
      obtain ⟨model, record, table, inTable, sender⟩ := verdict_collision decided
      have interfered := known.active model table _ inTable
      refine ⟨_, by rw [current]; rfl, ?_, (PacketTracer.onTrace_txEvents _ _ _ _ _).1,
        (PacketTracer.onTrace_txEvents _ _ _ _ _).2, ?_⟩
      · exact agree.onTrace 0 1 0 decodable (fun _ _ => ⟨rfl, List.length_append, rfl⟩)
          ⟨rfl, rfl, rfl⟩
      · refine PacketTracer.forall_onTrace _ fresh (fun info trace before => ?_) named
        refine ⟨before.hops, fun record mem => ?_, before.halfduplex⟩
        rcases List.mem_append.mp mem with old | new
        · exact before.collisions record old
        · rw [List.mem_singleton.mp new]
          exact ⟨sent, interfererTxId, rfl, interferer, rfl, sender ▸ interfered⟩
  | rx decided agent =>
      refine ⟨tracer.recordRx d.sender d.link.other d.hexData w.time d.txId,
        by rw [current]; rfl, ?_, (PacketTracer.onTrace_txEvents _ _ _ _ _).1,
        (PacketTracer.onTrace_txEvents _ _ _ _ _).2, ?_⟩
      · unfold PacketTracer.recordRx
        exact agree.onTrace 1 0 0 decodable (fun _ _ => ⟨List.length_append, rfl, rfl⟩)
          ⟨m.rxTotal_recordRx _, rfl, rfl⟩
      · refine PacketTracer.forall_onTrace _ fresh (fun info trace before => ?_) named
        refine ⟨fun hop mem => ?_, before.collisions, before.halfduplex⟩
        rcases List.mem_append.mp mem with old | new
        · exact before.hops hop old
        · rw [List.mem_singleton.mp new]
          exact sent
  | noReceiver decided missing => simp [missing] at agent

/-! ### One slice -/

/-- Slices keep the ids in flight known. -/
theorem Known.step (known : Known w tracer) (slice : Slice R w e w' out)
    (more : ∀ txId sender, tracer.Sent txId sender → tracer'.Sent txId sender)
    (new : ∀ sender hexData, e = .onTx sender hexData → ∀ txId,
      (R.broadcast w sender hexData).txId = some txId → tracer'.Sent txId sender)
    (counted : tracer'.Counted) : Known w' tracer' := by
  have fromBroadcast : ∀ b, (b ∈ w.broadcasts ∨ ∃ sender hexData, e = .onTx sender hexData ∧
      b = R.broadcast w sender hexData) → ∀ txId, b.txId = some txId →
      tracer'.Sent txId b.sender := by
    rintro b (old | ⟨sender, hexData, isOnTx, rfl⟩) txId has
    · exact more _ _ (known.broadcasts b old txId has)
    · exact new sender hexData isOnTx txId has
  refine ⟨?_, ?_, ?_, counted⟩
  · intro task mem txId has
    rcases slice.tasks mem with old | ⟨b, made, inBroadcast⟩ | ⟨replay, -, inReplay⟩ |
      ⟨k, d, hexData, corrupted, -, created, -, same⟩
    · exact more _ _ (known.tasks task old txId has)
    · obtain ⟨sender, -, -, id⟩ := mem_deliveries inBroadcast
      rw [sender]
      exact fromBroadcast b made txId (id ▸ has)
    · obtain ⟨-, -, -, id, -⟩ := mem_replayDeliveries inReplay
      rw [id] at has
      cases has
    · rw [same] at has ⊢
      exact more _ _ (known.tasks _ (List.mem_of_getElem? created) txId has)
  · intro b mem txId has
    rcases slice.broadcasts mem with ⟨waiting, old⟩ | started
    · exact more _ _ (known.broadcasts { b with waiting := waiting } old txId has)
    · exact fromBroadcast b (.inr started) txId has
  · intro m table entry inTable
    rcases slice.channel with ⟨-, same⟩ | ⟨m', sender, hexData, txId, isOnTx, before, id, -, -,
      after⟩
    · exact more _ _ (known.active m (same ▸ table) entry inTable)
    · obtain rfl := Option.some.inj (table.symm.trans after)
      obtain ⟨mem, -⟩ := (Dict.mem_filterValues _).mp inTable
      rcases (Dict.mem_entries_set _).mp mem with rfl | ⟨old, -⟩
      · exact new sender hexData isOnTx txId id
      · exact more _ _ (known.active m' before entry old)

/-- The two ledgers agree, and the ids in them are right. -/
structure Ledgers (w : World) (tracer : PacketTracer) : Prop where
  current : w.tracer = some tracer
  agree : Agree w.metrics tracer
  registered : Registered w.metrics tracer
  named : ∀ entry ∈ tracer.traces.entries, entry.2.Named tracer.Sent
  known : Known w tracer

/-- A slice after which the same transmissions are registered. -/
theorem Ledgers.keep (ledgers : Ledgers w tracer) (slice : Slice R w e w' out)
    (notOnTx : ∀ sender hexData, e ≠ .onTx sender hexData) (current : w'.tracer = some tracer')
    (agree : Agree w'.metrics tracer') (sent : w'.metrics.tx = w.metrics.tx)
    (events : tracer'.txEvents = tracer.txEvents) (counter : tracer'.txCounter = tracer.txCounter)
    (named : ∀ entry ∈ tracer'.traces.entries, entry.2.Named tracer.Sent) :
    Ledgers w' tracer' := by
  have more : ∀ txId sender, tracer.Sent txId sender → tracer'.Sent txId sender := by
    rintro txId sender ⟨event, known, sentBy⟩
    exact ⟨event, events ▸ known, sentBy⟩
  have counted : tracer'.Counted := by
    unfold PacketTracer.Counted
    rw [events, counter]
    exact ledgers.known.counted
  exact
    { current := current
      agree := agree
      registered := fun node => by
        rw [events, MetricsCollector.txOf, sent]
        exact ledgers.registered node
      named := fun entry mem => (named entry mem).mono more
      known := ledgers.known.step slice more
        (fun sender hexData isOnTx => absurd isOnTx (notOnTx sender hexData)) counted }

/-- A slice that registers a transmission. -/
theorem Ledgers.onTx (ledgers : Ledgers w tracer) {sender : NodeName} {hexData : String}
    (slice : Slice R w (.onTx sender hexData) w' out) (decodable : (decodePacket hexData).isSome)
    (current : w'.tracer = (R.transmitted w sender hexData).tracer)
    (metrics : w'.metrics = w.metrics.recordTx sender) : ∃ tracer', Ledgers w' tracer' := by
  have made : traceTx w.tracer sender hexData (R.airtimeMs hexData) (R.txWindow w hexData) =
      (some (tracer.recordTx sender hexData (R.txWindow w hexData).start (R.airtimeMs hexData)
        (some (R.txWindow w hexData).stop)).1,
        (tracer.recordTx sender hexData (R.txWindow w hexData).start (R.airtimeMs hexData)
          (some (R.txWindow w hexData).stop)).2) := by
    rw [ledgers.current]
    rfl
  have more : ∀ txId sender', tracer.Sent txId sender' → 
      (tracer.recordTx sender hexData (R.txWindow w hexData).start (R.airtimeMs hexData)
        (some (R.txWindow w hexData).stop)).1.Sent txId sender' :=
    fun txId sender' sent => sent.recordTx ledgers.known.counted
  refine ⟨(tracer.recordTx sender hexData (R.txWindow w hexData).start (R.airtimeMs hexData)
    (some (R.txWindow w hexData).stop)).1, ?_, ?_, ?_, ?_, ?_⟩
  · rw [current]
    unfold transmitted
    rw [made]
  · rw [metrics]
    exact ledgers.agree.recordTx ..
  · rw [metrics]
    exact ledgers.registered.recordTx ledgers.known.counted decodable _ _ _ _
  · exact PacketTracer.forall_recordTx _ (PacketTrace.named_newTrace _)
      fun entry mem => (ledgers.named entry mem).mono more
  · refine ledgers.known.step slice more ?_ ledgers.known.counted.recordTx
    intro sender' hexData' isOnTx txId has
    cases isOnTx
    unfold broadcast at has
    rw [made] at has
    exact PacketTracer.sent_recordTx has

/-- A slice keeps the ledgers, when the packets in flight can be decoded and their links lead
to agents. -/
theorem Ledgers.step (ledgers : Ledgers w tracer) (slice : Slice R w e w' out)
    (admitted : Transmits (fun hexData => (decodePacket hexData).isSome) w e)
    (agents : R.LinksToAgents)
    (carries : R.Carries (fun hexData => (decodePacket hexData).isSome) w) :
    ∃ tracer', Ledgers w' tracer' := by
  have whole := slice
  have agent : ∀ {k : ℕ} {task : Task}, w.tasks[k]? = some task →
      (R.agents.get? task.delivery.link.other).isSome := by
    intro k task known
    exact agents _ _ (carries.links task (List.mem_of_getElem? known))
  have keep : (∀ sender hexData, e ≠ .onTx sender hexData) → w'.tracer = some tracer →
      Agree w'.metrics tracer → w'.metrics.tx = w.metrics.tx → ∃ tracer', Ledgers w' tracer' :=
    fun notOnTx current agree sent =>
      ⟨tracer, ledgers.keep whole notOnTx current agree sent rfl rfl ledgers.named⟩
  cases slice with
  | tick => exact keep nofun ledgers.current ledgers.agree rfl
  | alone => exact ledgers.onTx whole admitted rfl rfl
  | announced => exact ledgers.onTx whole admitted rfl rfl
  | notify => exact keep nofun ledgers.current ledgers.agree rfl
  | resume => exact keep nofun ledgers.current ledgers.agree rfl
  | stopped k d outcome task gate =>
      obtain ⟨metrics, ends⟩ := gates_stopped gate
      have agree : Agree (outcome.record d.link.other w.metrics) tracer := by
        rcases ends with rfl | rfl | rfl | rfl | ⟨rfl, -⟩ <;>
          exact ⟨ledgers.agree.hops, ledgers.agree.collisions, ledgers.agree.halfduplex⟩
      exact keep nofun ledgers.current (metrics ▸ agree)
        ((congrArg MetricsCollector.tx metrics).trans (outcome.tx_record ..))
  | asleep k d hexData corrupted t task gate =>
      exact keep nofun ledgers.current (gated_metrics gate ▸ ledgers.agree.mark corrupted)
        ((congrArg MetricsCollector.tx (gated_metrics gate)).trans (tx_mark ..))
  | through k d hexData corrupted outcome after commands task gate awake arrival =>
      have decodable := carries.passed task gate
      obtain ⟨tracer', rfl, agree, events, counter, named⟩ :=
        arrival.ledgers ledgers.current decodable (agent task)
          (ledgers.known.tasks _ (List.mem_of_getElem? task)) ledgers.known
          (ledgers.agree.mark corrupted) ledgers.named
      have sent := congrArg MetricsCollector.tx (gated_metrics gate)
      exact ⟨tracer', ledgers.keep whole nofun rfl (gated_metrics gate ▸ agree)
        ((outcome.tx_record ..).trans (sent.trans (tx_mark ..))) events counter named⟩
  | woken k d corrupted t outcome after commands task due arrival =>
      have inFlight := List.mem_of_getElem? task
      have decodable := carries.tasks _ inFlight
      obtain ⟨tracer', rfl, agree, events, counter, named⟩ :=
        arrival.ledgers ledgers.current decodable (agent task)
          (ledgers.known.tasks _ inFlight) ledgers.known ledgers.agree ledgers.named
      exact ⟨tracer', ledgers.keep whole nofun rfl agree (outcome.tx_record ..) events counter
        named⟩
  | drain => exact keep nofun ledgers.current ledgers.agree rfl

/-! ### Whole runs -/

theorem ledgers_init (R : PacketRouter) (time : ℚ) (channel : ChannelModel) :
    Ledgers (R.init time (some .init) (some channel)) .init where
  current := rfl
  agree := ⟨rfl, rfl, rfl⟩
  registered := fun _ => rfl
  named := fun _ mem => by cases mem
  known :=
    { tasks := fun _ mem => by cases mem
      broadcasts := fun _ mem => by cases mem
      active := fun m table entry mem => by
        cases table
        cases mem
      counted := fun _ mem => by cases mem }

/-- Trace and metrics agree. In every run with a tracer and a channel in which every
transmitted packet can be decoded, every link leads to an agent and no adversary corrupts
packets, there are at every suspension point as many hop, collision and half-duplex records
over all traces as the counters say; every record with a `tx_id` names a registered TX event
of its sender, and every interferer or blocker id is a registered TX event of that node. -/
theorem ledgers_agree (R : PacketRouter) (time : ℚ) (channel : ChannelModel) (w : World)
    (tr : List Obs)
    (agents : ∀ sender, ∀ link ∈ R.topology.neighbours sender,
      (R.agents.get? link.other).isSome)
    (honest : ∀ entry ∈ R.agents.entries, ∀ cfg, entry.2.adversarial = some cfg →
      cfg.mode ≠ .corrupt)
    (run : Run R.step (Transmits fun hexData => (decodePacket hexData).isSome)
      (R.init time (some .init) (some channel)) w tr) :
    ∃ tracer, w.tracer = some tracer ∧
      tracer.traces.sumBy (·.hops.length) = w.metrics.rxTotal ∧
      tracer.traces.sumBy (·.collisions.length) = w.metrics.collisionCount ∧
      tracer.traces.sumBy (·.halfduplex.length) = w.metrics.halfduplexDropCount ∧
      ∀ entry ∈ tracer.traces.entries, entry.2.Named tracer.Sent := by
  have safe : R.CorruptSafe fun hexData => (decodePacket hexData).isSome :=
    fun entry agent cfg adversarial corrupts => absurd corrupts (honest entry agent cfg adversarial)
  have invariant : ∃ tracer, Ledgers w tracer := by
    apply run.invariant (I := fun w _ => ∃ tracer, Ledgers w tracer)
    · exact ⟨.init, ledgers_init R time channel⟩
    · intro s tr e s' out before ledgers admitted stepped
      obtain ⟨tracer, ledgers⟩ := ledgers
      exact ledgers.step (step_slice stepped) admitted agents (run_carries safe before)
  obtain ⟨tracer, current, agree, -, named, -⟩ := invariant
  exact ⟨tracer, current, agree.hops, agree.collisions, agree.halfduplex, named⟩

/-- `alice` and `bob` collide at a relay that hears both, in a cell with a replaying node. -/
def busyCell : TopologyConfig where
  nodes := [.named "alice", .named "bob",
    { NodeConfig.named "relay" with adversarial := some ⟨.replay, 0, 0, 0⟩ }]
  edges := [⟨"alice", "relay", 0, 0, 6, none, none⟩, ⟨"bob", "relay", 0, 0, 6, none, none⟩]
  simulation := ⟨0, 0, 0, 0, 0, "", none, none⟩
  radio := some .default

/-- After that collision the counter and the traces both say two. -/
theorem ledgers_agree_busyCell :
    ∃ R channel w tr, PacketRouter.ofConfig? busyCell .zero = some R ∧ R.channel = some channel ∧
      Run R.step (Transmits fun hexData => (decodePacket hexData).isSome)
        (R.init 0 (some .init) (some channel)) w tr ∧
      ∃ tracer, w.tracer = some tracer ∧ tracer.traces.sumBy (·.collisions.length) = 2 := by
  have found : ((PacketRouter.ofConfig? busyCell .zero).any fun R => R.channel.any fun channel =>
      decide (∀ entry ∈ R.topology.adj.entries, ∀ link ∈ entry.2,
        (R.agents.get? link.other).isSome) &&
      decide (∀ entry ∈ R.agents.entries, ∀ cfg ∈ entry.2.adversarial, cfg.mode ≠ .corrupt) &&
      (exec (restrict R.step (Transmits fun hexData => (decodePacket hexData).isSome))
        (R.init 0 (some .init) (some channel))
        [.onTx "alice" "0500", .onTx "bob" "050041", .notify 0, .notify 1, .resume 0, .resume 0,
          .start 0, .start 0, .tick 1, .wake 0, .wake 0]).any fun (w, _) =>
        w.metrics.collisionCount = 2) = true := by
    decide +kernel
  obtain ⟨R, channel, router, model, found⟩ := exists_wired found
  obtain ⟨settings, found⟩ := (Bool.and_eq_true _ _).mp found
  obtain ⟨agents, honest⟩ := (Bool.and_eq_true _ _).mp settings
  obtain ⟨w, tr, run, collisions⟩ := Run.of_exec_any found
  obtain ⟨tracer, current, -, agree, -⟩ := ledgers_agree R 0 channel w tr
    (linksToAgents_of_entries (of_decide_eq_true agents))
    (fun entry agent cfg adversarial => of_decide_eq_true honest entry agent cfg adversarial) run
  exact ⟨R, channel, w, tr, router, model, run, tracer, current,
    agree.trans (of_decide_eq_true collisions)⟩

end PacketRouter

end MeshcoreSim
