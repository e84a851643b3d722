import MeshcoreSim.Router

/-!
What one slice of the router can do.

The invariants of the router are proved from the lemmas here and not from the
definition of `step`: each says everything that a slice can do to one part of the world.

* `Gating`, `gates_gating` — the ways through the stages before the propagation delay, and
  `gates_frame`, `gates_passed`, `gates_stopped`, `gates_filters` what follows from them;
* `Arrival`, `arrive_arrival` — the stages after it, and `startDelivery_cases` the first slice
  of a call;
* `Slice`, `step_slice` — the slices of all tasks, and `Slice.mem_sleeping`, `Slice.mem_verdict`
  what a call that sleeps or is decided has been through;
* `Slice.time_le`, `Slice.channel` — the clock and the table of active transmissions;
* `verdict_halfduplex` — what a half-duplex drop says of the table.
-/

namespace MeshcoreSim

open Lib

/-- What a call writes to the counters when it ends. -/
def Outcome.record (receiver : NodeName) (m : MetricsCollector) : Outcome → MetricsCollector
  | .snrDrop => m.recordSnrDrop
  | .linkLoss => m.recordLinkLoss
  | .adversarialDrop => m.recordAdversarialDrop
  | .adversarialReplay => m.recordAdversarialReplay
  | .halfduplexDrop => m.recordHalfduplexDrop
  | .collision => m.recordCollision
  | .rx => m.recordRx receiver
  | .noReceiver => m
  | .raised => m

/-- What the adversarial filter writes to the counters when it lets a packet through. -/
def mark (corrupted : Bool) (m : MetricsCollector) : MetricsCollector :=
  if corrupted then m.recordAdversarialCorrupt else m

/-- The world without its `k`-th task. -/
def World.without (w : World) (k : ℕ) : World := { w with tasks := w.tasks.eraseIdx k }

namespace PacketRouter

variable {R : PacketRouter} {w w' : World} {d : Delivery} {e : Event} {out : List Obs}

/-! ### The stages before the propagation delay -/

/-- What a filter that lets a packet through delivers: the packet, or under mode `corrupt`
the hex of some bytes. -/
theorem filterPacket_deliver {rng : RandomStream} {filter : AdversarialFilter}
    {hexData hexData' : String} {now : ℚ} {pos : ℕ}
    (delivers : (filter.filterPacket rng hexData now pos).1 = .deliver hexData') :
    hexData' = hexData ∨ (filter.cfg.mode = .corrupt ∧ ∃ bytes, hexData' = bytesToHex bytes) := by
  unfold AdversarialFilter.filterPacket at delivers
  split at delivers
  · cases delivers
  · rename_i mode
    simp only [AdversarialFilter.corrupt] at delivers
    split at delivers
    · cases delivers
    · cases delivers
      exact .inl rfl
    · cases delivers
      exact .inr ⟨mode, _, rfl⟩
  · cases delivers
  · cases delivers
    exact .inl rfl

/-- A filter fails only on a string that is not hex. -/
theorem filterPacket_raised {rng : RandomStream} {filter : AdversarialFilter} {hexData : String}
    {now : ℚ} {pos : ℕ} (fails : (filter.filterPacket rng hexData now pos).1 = .raised) :
    unhexlify hexData.toList = none := by
  unfold AdversarialFilter.filterPacket at fails
  split at fails
  · cases fails
  · simp only [AdversarialFilter.corrupt] at fails
    split at fails
    · assumption
    · cases fails
    · cases fails
  · cases fails
  · cases fails

/-- A filter keeps its configuration, and captures no packet but the present one. -/
theorem filterPacket_filter {rng : RandomStream} {filter : AdversarialFilter} {hexData : String}
    {now : ℚ} {pos : ℕ} :
    (filter.filterPacket rng hexData now pos).2.1.cfg = filter.cfg ∧
      ∀ p ∈ (filter.filterPacket rng hexData now pos).2.1.replayBuffer,
        p ∈ filter.replayBuffer ∨ p.2 = hexData := by
  unfold AdversarialFilter.filterPacket
  split
  · exact ⟨rfl, fun p mem => .inl mem⟩
  · exact ⟨rfl, fun p mem => .inl mem⟩
  · refine ⟨rfl, fun p mem => ?_⟩
    rcases List.mem_append.mp mem with old | new
    · exact .inl old
    · exact .inr (by simp [List.mem_singleton.mp new])
  · exact ⟨rfl, fun p mem => .inl mem⟩

/-- The world after the adversarial filter of the receiver has been applied. -/
def filtered (R : PacketRouter) (w : World) (d : Delivery) (filter : AdversarialFilter) (pos : ℕ)
    (metrics : MetricsCollector) : World :=
  { w with
    metrics := metrics
    filters := w.filters.set d.link.other (filter.filterPacket R.rng d.hexData w.time pos).2.1
    rngPos := (filter.filterPacket R.rng d.hexData w.time pos).2.2 }

/-- The gates, one constructor for every way in which a call can go through them. -/
inductive Gating (R : PacketRouter) (w : World) (d : Delivery) : World → Gate → Prop
  | faint : Gating R w d { w with metrics := w.metrics.recordSnrDrop } (.stopped .snrDrop)
  | lost (pos : ℕ) :
      Gating R w d { w with metrics := w.metrics.recordLinkLoss, rngPos := pos }
        (.stopped .linkLoss)
  /-- There is no filter, or it does not apply. -/
  | spared (pos : ℕ) : Gating R w d { w with rngPos := pos } (.passed d.hexData false)
  | replayed (filter : AdversarialFilter) (pos : ℕ)
      (known : w.filters.get? d.link.other = some filter) :
      Gating R w d (R.filtered w d filter pos w.metrics.recordAdversarialReplay)
        (.stopped .adversarialReplay)
  | dropped (filter : AdversarialFilter) (pos : ℕ)
      (known : w.filters.get? d.link.other = some filter) :
      Gating R w d (R.filtered w d filter pos w.metrics.recordAdversarialDrop)
        (.stopped .adversarialDrop)
  | raised (filter : AdversarialFilter) (pos : ℕ)
      (known : w.filters.get? d.link.other = some filter)
      (fails : (filter.filterPacket R.rng d.hexData w.time pos).1 = .raised) :
      Gating R w d (R.filtered w d filter pos w.metrics) (.stopped .raised)
  | corrupted (filter : AdversarialFilter) (pos : ℕ) (hexData : String)
      (known : w.filters.get? d.link.other = some filter)
      (delivers : (filter.filterPacket R.rng d.hexData w.time pos).1 = .deliver hexData) :
      Gating R w d (R.filtered w d filter pos w.metrics.recordAdversarialCorrupt)
        (.passed hexData true)

/-- Every call goes through the gates in one of these ways. -/
theorem gates_gating (R : PacketRouter) (w : World) (d : Delivery) :
    Gating R w d (R.gates w d).1 (R.gates w d).2 := by
  unfold gates
  split
  · exact .faint
  simp only
  split
  · exact .lost _
  unfold adversary
  cases known : w.filters.get? d.link.other with
  | none =>
      simp only
      exact .spared _
  | some filter =>
      simp only
      split
      · cases result : (filter.filterPacket R.rng d.hexData w.time
          ((R.linkLoss d.link w.rngPos).2 + 1)).1 with
        | suppressed =>
            simp only
            split
            · exact .replayed filter _ known
            · exact .dropped filter _ known
        | deliver hexData => exact .corrupted filter _ hexData known result
        | raised => exact .raised filter _ known result
      · exact .spared _

/-- The gates touch the counters, the filters and the random stream only. -/
theorem gates_frame (R : PacketRouter) (w : World) (d : Delivery) :
    ∃ metrics filters rngPos,
      (R.gates w d).1 = { w with metrics := metrics, filters := filters, rngPos := rngPos } := by
  have gating := gates_gating R w d
  generalize (R.gates w d).1 = w', (R.gates w d).2 = gate at gating
  cases gating <;> exact ⟨_, _, _, rfl⟩

/-- How a packet passes the gates: untouched, or flagged as corrupted by the filter of the
receiving node. -/
theorem gates_passed {hexData : String} {corrupted : Bool}
    (passed : (R.gates w d).2 = .passed hexData corrupted) :
    (corrupted = false ∧ hexData = d.hexData ∧ (R.gates w d).1.metrics = w.metrics) ∨
      (corrupted = true ∧ (R.gates w d).1.metrics = w.metrics.recordAdversarialCorrupt ∧
        (hexData = d.hexData ∨ ∃ entry ∈ w.filters.entries,
          entry.2.cfg.mode = .corrupt ∧ ∃ bytes, hexData = bytesToHex bytes)) := by
  have gating := gates_gating R w d
  rw [passed] at gating
  generalize (R.gates w d).1 = w' at gating
  cases gating with
  | spared pos => exact .inl ⟨rfl, rfl, rfl⟩
  | corrupted filter pos hexData known delivers =>
      refine .inr ⟨rfl, rfl, ?_⟩
      rcases filterPacket_deliver delivers with same | ⟨mode, bytes⟩
      · exact .inl same
      · exact .inr ⟨_, w.filters.mem_entries_iff.mpr known, mode, bytes⟩

/-- How a call ends at the gates, and which counter it writes. -/
theorem gates_stopped {outcome : Outcome} (stopped : (R.gates w d).2 = .stopped outcome) :
    (R.gates w d).1.metrics = outcome.record d.link.other w.metrics ∧
      (outcome = .snrDrop ∨ outcome = .linkLoss ∨ outcome = .adversarialDrop ∨
        outcome = .adversarialReplay ∨
        (outcome = .raised ∧ unhexlify d.hexData.toList = none)) := by
  have gating := gates_gating R w d
  rw [stopped] at gating
  generalize (R.gates w d).1 = w' at gating
  cases gating with
  | faint => exact ⟨rfl, by simp⟩
  | lost => exact ⟨rfl, by simp⟩
  | replayed => exact ⟨rfl, by simp⟩
  | dropped => exact ⟨rfl, by simp⟩
  | raised filter pos known fails => exact ⟨rfl, by simp [filterPacket_raised fails]⟩

/-- A filter after the gates is one from before them, which may have captured the packet. -/
theorem gates_filters {entry : NodeName × AdversarialFilter}
    (mem : entry ∈ (R.gates w d).1.filters.entries) :
    ∃ filter, (entry.1, filter) ∈ w.filters.entries ∧ entry.2.cfg = filter.cfg ∧
      ∀ p ∈ entry.2.replayBuffer, p ∈ filter.replayBuffer ∨ p.2 = d.hexData := by
  have same : entry ∈ w.filters.entries →
      ∃ filter, (entry.1, filter) ∈ w.filters.entries ∧ entry.2.cfg = filter.cfg ∧
        ∀ p ∈ entry.2.replayBuffer, p ∈ filter.replayBuffer ∨ p.2 = d.hexData :=
    fun old => ⟨entry.2, old, rfl, fun p captured => .inl captured⟩
  have applied : ∀ {filter : AdversarialFilter} {pos : ℕ} {metrics : MetricsCollector},
      w.filters.get? d.link.other = some filter →
      entry ∈ (R.filtered w d filter pos metrics).filters.entries →
      ∃ filter, (entry.1, filter) ∈ w.filters.entries ∧ entry.2.cfg = filter.cfg ∧
        ∀ p ∈ entry.2.replayBuffer, p ∈ filter.replayBuffer ∨ p.2 = d.hexData := by
    intro filter pos metrics known written
    rcases (Dict.mem_entries_set _).mp written with rfl | ⟨old, -⟩
    · exact ⟨filter, w.filters.mem_entries_iff.mpr known, filterPacket_filter.1,
        filterPacket_filter.2⟩
    · exact same old
  have gating := gates_gating R w d
  generalize (R.gates w d).1 = w', (R.gates w d).2 = gate at gating mem
  cases gating with
  | faint => exact same mem
  | lost => exact same mem
  | spared => exact same mem
  | replayed filter pos known => exact applied known mem
  | dropped filter pos known => exact applied known mem
  | raised filter pos known => exact applied known mem
  | corrupted filter pos hexData known => exact applied known mem

/-! ### After the propagation delay -/

/-- How a call that goes past its sleep ends: what becomes of the tracer, and what is
written to the receiver. -/
inductive Arrival (R : PacketRouter) (w : World) (d : Delivery) :
    Outcome → Option PacketTracer → List Obs → Prop
  | halfduplex (blockerTxId : ℕ) (decided : verdict w.channel d = .halfduplex blockerTxId) :
      Arrival R w d .halfduplexDrop
        (w.tracer.map
          (·.recordHalfduplex d.sender d.link.other d.hexData w.time d.txId (some blockerTxId))) []
  | collision (interferer : NodeName) (interfererTxId : ℕ) (overlapS : ℚ)
      (decided : verdict w.channel d = .collision interferer interfererTxId overlapS) :
      Arrival R w d .collision
        (w.tracer.map
          (·.recordCollision d.sender d.link.other d.hexData w.time d.txId (some interferer)
            (some interfererTxId) overlapS)) []
  | rx (decided : verdict w.channel d = .clear) (agent : (R.agents.get? d.link.other).isSome) :
      Arrival R w d .rx
        (w.tracer.map (·.recordRx d.sender d.link.other d.hexData w.time d.txId))
        [.command d.link.other (.rx d.hexData.toLower d.link.snr (d.link.snr + R.noiseFloor))]
  | noReceiver (decided : verdict w.channel d = .clear)
      (missing : R.agents.get? d.link.other = none) :
      Arrival R w d .noReceiver
        (w.tracer.map (·.recordRx d.sender d.link.other d.hexData w.time d.txId)) []

/-- A call that goes past its sleep writes counters and traces only, takes one verdict, and
ends. -/
theorem arrive_arrival (R : PacketRouter) (w : World) (d : Delivery) (corrupted : Bool) :
    ∃ outcome tracer commands, Arrival R w d outcome tracer commands ∧
      R.arrive w d corrupted =
        ({ w with metrics := outcome.record d.link.other w.metrics, tracer := tracer },
          .verdict d :: commands ++ [.ended d corrupted outcome]) := by
  unfold arrive
  cases decided : verdict w.channel d with
  | halfduplex blocker => exact ⟨_, _, _, .halfduplex blocker decided, rfl⟩
  | collision name id overlapS => exact ⟨_, _, _, .collision name id overlapS decided, rfl⟩
  | clear =>
      simp only
      cases known : R.agents.get? d.link.other with
      | none => exact ⟨_, _, _, .noReceiver decided known, rfl⟩
      | some config => exact ⟨_, _, _, .rx decided (by simp [known]), rfl⟩

/-- The first slice of a call ends at a gate, falls asleep, or goes on to the verdict. -/
theorem startDelivery_cases (R : PacketRouter) (w : World) (d : Delivery) :
    (∃ outcome, (R.gates w d).2 = .stopped outcome ∧
      R.startDelivery w d = ((R.gates w d).1, [.ended d false outcome])) ∨
    (∃ hexData corrupted t, (R.gates w d).2 = .passed hexData corrupted ∧
      wakeAt? w.time { d with hexData := hexData } = some t ∧
      R.startDelivery w d =
        ({ (R.gates w d).1 with
            tasks := w.tasks ++ [.sleeping { d with hexData := hexData } corrupted t] }, [])) ∨
    (∃ hexData corrupted, (R.gates w d).2 = .passed hexData corrupted ∧
      wakeAt? w.time { d with hexData := hexData } = none ∧
      R.startDelivery w d = R.arrive (R.gates w d).1 { d with hexData := hexData } corrupted) := by
  obtain ⟨metrics, filters, rngPos, frame⟩ := gates_frame R w d
  have time : (R.gates w d).1.time = w.time := by rw [frame]
  have tasks : (R.gates w d).1.tasks = w.tasks := by rw [frame]
  unfold startDelivery
  cases result : R.gates w d with
  | mk w' gate =>
      rw [result] at time tasks
      cases gate with
      | stopped outcome => exact .inl ⟨outcome, rfl, rfl⟩
      | passed hexData corrupted =>
          right
          rw [← time, ← tasks]
          cases sleeps : wakeAt? w'.time { d with hexData := hexData } with
          | some t => exact .inl ⟨hexData, corrupted, t, rfl, sleeps, by simp only [sleeps]⟩
          | none => exact .inr ⟨hexData, corrupted, rfl, sleeps, by simp only [sleeps]⟩

/-! ### One slice -/

/-- The world after the call of the `k`-th task has been through the gates. -/
def gated (R : PacketRouter) (w : World) (k : ℕ) (d : Delivery) : World :=
  { w with
    metrics := (R.gates (w.without k) d).1.metrics
    filters := (R.gates (w.without k) d).1.filters
    rngPos := (R.gates (w.without k) d).1.rngPos
    tasks := w.tasks.eraseIdx k }

theorem gates_without (R : PacketRouter) (w : World) (k : ℕ) (d : Delivery) :
    (R.gates (w.without k) d).1 = R.gated w k d := by
  obtain ⟨metrics, filters, rngPos, frame⟩ := gates_frame R (w.without k) d
  unfold gated
  rw [frame]
  rfl

/-- What `_on_tx` changes before it looks at the neighbours. -/
def transmitted (R : PacketRouter) (w : World) (sender : NodeName) (hexData : String) : World :=
  { w with
    metrics := w.metrics.recordTx sender
    tracer := (traceTx w.tracer sender hexData (R.airtimeMs hexData) (R.txWindow w hexData)).1
    channel := (registerTx w.channel (R.broadcast w sender hexData).txId
      ⟨sender, w.time, (R.txWindow w hexData).stop⟩).1 }

/-- What an observer sees of `_on_tx` before its `gather`. -/
def transmittedObs (R : PacketRouter) (w : World) (sender : NodeName) (hexData : String) :
    List Obs :=
  .transmitted sender hexData :: (registerTx w.channel (R.broadcast w sender hexData).txId
    ⟨sender, w.time, (R.txWindow w hexData).stop⟩).2

/-- A call that passes the gates is counted at most as corrupted. -/
theorem gated_metrics {k : ℕ} {hexData : String} {corrupted : Bool} {d : Delivery}
    (gate : (R.gates (w.without k) d).2 = .passed hexData corrupted) :
    (R.gated w k d).metrics = mark corrupted w.metrics := by
  rcases gates_passed gate with ⟨rfl, -, same⟩ | ⟨rfl, marked, -⟩
  · exact same
  · exact marked

theorem onTx_eq (R : PacketRouter) (w : World) (sender : NodeName) (hexData : String) :
    R.onTx w sender hexData =
      (if (R.broadcast w sender hexData).waiting = [] then
        { R.transmitted w sender hexData with
          tasks := w.tasks ++ (R.deliveries (R.broadcast w sender hexData)).map .created }
      else
        { R.transmitted w sender hexData with
          broadcasts := w.broadcasts ++ [R.broadcast w sender hexData] },
      R.transmittedObs w sender hexData) := rfl

/-- The slices of the router, one constructor for every way in which one can go. -/
inductive Slice (R : PacketRouter) (w : World) : Event → World → List Obs → Prop
  | tick (t : ℚ) (later : w.time ≤ t) : Slice R w (.tick t) { w with time := t } []
  /-- A transmission that nobody has to be notified of. -/
  | alone (sender : NodeName) (hexData : String) (agent : (R.agents.get? sender).isSome)
      (nobody : (R.broadcast w sender hexData).waiting = []) :
      Slice R w (.onTx sender hexData)
        { R.transmitted w sender hexData with
          tasks := w.tasks ++ (R.deliveries (R.broadcast w sender hexData)).map .created }
        (R.transmittedObs w sender hexData)
  /-- A transmission whose neighbours are notified first. -/
  | announced (sender : NodeName) (hexData : String) (agent : (R.agents.get? sender).isSome)
      (somebody : (R.broadcast w sender hexData).waiting ≠ []) :
      Slice R w (.onTx sender hexData)
        { R.transmitted w sender hexData with
          broadcasts := w.broadcasts ++ [R.broadcast w sender hexData] }
        (R.transmittedObs w sender hexData)
  | notify (k : ℕ) (b : Broadcast) (receiver : NodeName) (rest : List NodeName)
      (pending : w.broadcasts[k]? = some b) (next : b.waiting = receiver :: rest) :
      Slice R w (.notify k)
        { w with broadcasts := w.broadcasts.set k { b with waiting := rest } }
        [.command receiver (.rxStart ⌊b.airtimeMs⌋.toNat)]
  | resume (k : ℕ) (b : Broadcast) (pending : w.broadcasts[k]? = some b)
      (notified : b.waiting = []) :
      Slice R w (.resume k)
        { w with
          broadcasts := w.broadcasts.eraseIdx k
          tasks := w.tasks ++ (R.deliveries b).map .created } []
  /-- A call that ends at a gate. -/
  | stopped (k : ℕ) (d : Delivery) (outcome : Outcome)
      (task : w.tasks[k]? = some (.created d))
      (gate : (R.gates (w.without k) d).2 = .stopped outcome) :
      Slice R w (.start k) (R.gated w k d) [.ended d false outcome]
  /-- A call that passes the gates and sleeps. -/
  | asleep (k : ℕ) (d : Delivery) (hexData : String) (corrupted : Bool) (t : ℚ)
      (task : w.tasks[k]? = some (.created d))
      (gate : (R.gates (w.without k) d).2 = .passed hexData corrupted)
      (sleeps : wakeAt? w.time { d with hexData := hexData } = some t) :
      Slice R w (.start k)
        { R.gated w k d with
          tasks := w.tasks.eraseIdx k ++ [.sleeping { d with hexData := hexData } corrupted t] }
        []
  /-- A call that passes the gates and need not sleep. -/
  | through (k : ℕ) (d : Delivery) (hexData : String) (corrupted : Bool)
      (outcome : Outcome) (tracer : Option PacketTracer) (commands : List Obs)
      (task : w.tasks[k]? = some (.created d))
      (gate : (R.gates (w.without k) d).2 = .passed hexData corrupted)
      (awake : wakeAt? w.time { d with hexData := hexData } = none)
      (arrival : Arrival R w { d with hexData := hexData } outcome tracer commands) :
      Slice R w (.start k)
        { R.gated w k d with
          metrics := outcome.record d.link.other (R.gated w k d).metrics
          tracer := tracer }
        (.verdict { d with hexData := hexData } :: commands ++
          [.ended { d with hexData := hexData } corrupted outcome])
  | woken (k : ℕ) (d : Delivery) (corrupted : Bool) (t : ℚ)
      (outcome : Outcome) (tracer : Option PacketTracer) (commands : List Obs)
      (task : w.tasks[k]? = some (.sleeping d corrupted t)) (due : t ≤ w.time)
      (arrival : Arrival R w d outcome tracer commands) :
      Slice R w (.wake k)
        { w with
          tasks := w.tasks.eraseIdx k
          metrics := outcome.record d.link.other w.metrics
          tracer := tracer }
        (.verdict d :: commands ++ [.ended d corrupted outcome])
  | drain : Slice R w .drain (R.drainReplays w).1 (R.drainReplays w).2

/-- Every step of the machine is a slice. -/
theorem step_slice (stepped : R.step w e = some (w', out)) : Slice R w e w' out := by
  cases e with
  | tick t =>
      simp only [step] at stepped
      split at stepped
      · rename_i later
        cases stepped
        exact .tick t later
      · cases stepped
  | onTx sender hexData =>
      simp only [step] at stepped
      split at stepped
      · rename_i agent
        have result : R.onTx w sender hexData = (w', out) := Option.some.inj stepped
        rw [onTx_eq, Prod.mk.injEq] at result
        obtain ⟨rfl, rfl⟩ := result
        split
        · rename_i nobody
          exact .alone sender hexData agent nobody
        · rename_i somebody
          exact .announced sender hexData agent somebody
      · cases stepped
  | notify k =>
      simp only [step] at stepped
      split at stepped
      · rename_i b pending
        split at stepped
        · rename_i receiver rest next
          cases stepped
          exact .notify k b receiver rest pending next
        · cases stepped
      · cases stepped
  | resume k =>
      simp only [step] at stepped
      split at stepped
      · rename_i b pending
        split at stepped
        · rename_i notified
          cases stepped
          exact .resume k b pending notified
        · cases stepped
      · cases stepped
  | start k =>
      simp only [step] at stepped
      split at stepped
      · rename_i d task
        have result : R.startDelivery (w.without k) d = (w', out) := Option.some.inj stepped
        rcases startDelivery_cases R (w.without k) d with ⟨outcome, gate, eq⟩ |
          ⟨hexData, corrupted, t, gate, sleeps, eq⟩ | ⟨hexData, corrupted, gate, awake, eq⟩
        · cases eq.symm.trans result
          rw [gates_without]
          exact .stopped k d outcome task gate
        · cases eq.symm.trans result
          rw [gates_without]
          exact .asleep k d hexData corrupted t task gate sleeps
        · rw [gates_without] at eq
          obtain ⟨outcome, tracer, commands, arrival, ends⟩ :=
            arrive_arrival R (R.gated w k d) { d with hexData := hexData } corrupted
          cases (eq.trans ends).symm.trans result
          exact .through k d hexData corrupted outcome tracer commands task gate awake
            (by cases arrival <;> constructor <;> assumption)
      · cases stepped
  | wake k =>
      simp only [step] at stepped
      split at stepped
      · rename_i d corrupted t task
        split at stepped
        · rename_i due
          obtain ⟨outcome, tracer, commands, arrival, ends⟩ :=
            arrive_arrival R (w.without k) d corrupted
          cases ends.symm.trans (Option.some.inj stepped)
          exact .woken k d corrupted t outcome tracer commands task due
            (by cases arrival <;> constructor <;> assumption)
        · cases stepped
      · cases stepped
  | drain =>
      cases stepped
      exact .drain

/-- The tasks that sleep were asleep before, or have just passed the gates. -/
theorem Slice.mem_sleeping (slice : Slice R w e w' out) {corrupted : Bool} {t : ℚ}
    (mem : .sleeping d corrupted t ∈ w'.tasks) :
    .sleeping d corrupted t ∈ w.tasks ∨
      ∃ (k : ℕ) (d₀ : Delivery), e = .start k ∧ w.tasks[k]? = some (.created d₀) ∧
        (R.gates (w.without k) d₀).2 = .passed d.hexData corrupted ∧
        d = { d₀ with hexData := d.hexData } ∧ wakeAt? w.time d = some t := by
  have created : ∀ {l : List Delivery}, .sleeping d corrupted t ∈ w.tasks ++ l.map .created →
      .sleeping d corrupted t ∈ w.tasks := by
    intro l mem
    rcases List.mem_append.mp mem with old | new
    · exact old
    · obtain ⟨_, _, eq⟩ := List.mem_map.mp new
      cases eq
  cases slice with
  | tick => exact .inl mem
  | alone => exact .inl (created mem)
  | announced => exact .inl mem
  | notify => exact .inl mem
  | resume => exact .inl (created mem)
  | stopped => exact .inl (List.mem_of_mem_eraseIdx mem)
  | asleep k d₀ hexData corrupted' t' task gate sleeps =>
      rcases List.mem_append.mp mem with old | new
      · exact .inl (List.mem_of_mem_eraseIdx old)
      · cases List.mem_singleton.mp new
        exact .inr ⟨k, d₀, rfl, task, gate, rfl, sleeps⟩
  | through => exact .inl (List.mem_of_mem_eraseIdx mem)
  | woken => exact .inl (List.mem_of_mem_eraseIdx mem)
  | drain => exact .inl (created mem)

/-- A verdict is taken on a call whose sleep is over, or on one that has just passed the gates
and need not sleep. -/
theorem Slice.mem_verdict (slice : Slice R w e w' out) (taken : .verdict d ∈ out) :
    (∃ (k : ℕ) (corrupted : Bool) (t : ℚ),
      w.tasks[k]? = some (.sleeping d corrupted t) ∧ t ≤ w.time) ∨
      ∃ (k : ℕ) (d₀ : Delivery) (corrupted : Bool), e = .start k ∧
        w.tasks[k]? = some (.created d₀) ∧
        (R.gates (w.without k) d₀).2 = .passed d.hexData corrupted ∧
        d = { d₀ with hexData := d.hexData } ∧ wakeAt? w.time d = none := by
  have only : ∀ {d' d'' : Delivery} {corrupted : Bool} {outcome : Outcome}
      {tracer : Option PacketTracer} {commands : List Obs},
      Arrival R w d' outcome tracer commands →
      .verdict d ∈ .verdict d' :: commands ++ [.ended d'' corrupted outcome] → d = d' := by
    intro d' d'' corrupted outcome tracer commands arrival mem
    cases arrival <;> simpa using mem
  have notOnTx : ∀ {sender : NodeName} {hexData : String},
      .verdict d ∉ R.transmittedObs w sender hexData := by
    intro sender hexData mem
    unfold transmittedObs registerTx at mem
    split at mem <;> simp at mem
  cases slice with
  | tick => cases taken
  | alone => exact absurd taken notOnTx
  | announced => exact absurd taken notOnTx
  | notify => simp at taken
  | resume => cases taken
  | stopped => simp at taken
  | asleep => cases taken
  | through k d₀ hexData corrupted outcome tracer commands task gate awake arrival =>
      cases only arrival taken
      exact .inr ⟨k, d₀, corrupted, rfl, task, gate, rfl, awake⟩
  | woken k d' corrupted t outcome tracer commands task due arrival =>
      cases only arrival taken
      exact .inl ⟨k, corrupted, t, task, due⟩
  | drain =>
      obtain ⟨_, _, eq⟩ := List.mem_map.mp taken
      cases eq

/-! ### The clock and the table of active transmissions -/

/-- The clock never runs backwards. -/
theorem Slice.time_le (slice : Slice R w e w' out) : w.time ≤ w'.time := by
  cases slice with
  | tick t later => exact later
  | _ => exact le_rfl

theorem airtimeMs_nonneg (R : PacketRouter) (hexData : String) : 0 ≤ R.airtimeMs hexData := by
  unfold airtimeMs
  cases R.radio with
  | none => exact le_rfl
  | some radio => exact loraAirtimeMs_nonneg _ _ _ _ _ _ _

/-- The registrations that a run has made, oldest first. -/
def registrations (tr : List Obs) : List (ℕ × TxRecord) :=
  tr.filterMap fun
    | .registered txId record => some (txId, record)
    | _ => none

@[simp] theorem registrations_append (tr tr' : List Obs) :
    registrations (tr ++ tr') = registrations tr ++ registrations tr' :=
  List.filterMap_append

theorem mem_registrations {tr : List Obs} {txId : ℕ} {record : TxRecord} :
    (txId, record) ∈ registrations tr ↔ .registered txId record ∈ tr := by
  unfold registrations
  rw [List.mem_filterMap]
  constructor
  · rintro ⟨o, mem, eq⟩
    cases o <;> cases eq
    exact mem
  · intro mem
    exact ⟨_, mem, rfl⟩

theorem registrations_replayed (replays : List (NodeName × String)) :
    registrations (replays.map fun replay => .replayed replay.1 replay.2) = [] := by
  unfold registrations
  rw [List.filterMap_map]
  exact List.filterMap_eq_nil_iff.mpr fun _ _ => rfl

/-- A verdict and what follows it register nothing. -/
theorem Arrival.registrations_eq_nil {outcome : Outcome} {tracer : Option PacketTracer}
    {commands : List Obs} (arrival : Arrival R w d outcome tracer commands) (corrupted : Bool) :
    registrations (.verdict d :: commands ++ [.ended d corrupted outcome]) = [] := by
  cases arrival <;> rfl

/-- What an observer sees of `_on_tx`: the transmission, and perhaps its registration. -/
theorem mem_transmittedObs {sender : NodeName} {hexData : String} {o : Obs}
    (mem : o ∈ R.transmittedObs w sender hexData) :
    o = .transmitted sender hexData ∨ ∃ txId record, o = .registered txId record := by
  unfold transmittedObs registerTx at mem
  rcases List.mem_cons.mp mem with first | rest
  · exact .inl first
  · split at rest
    · exact .inr ⟨_, _, List.mem_singleton.mp rest⟩
    · cases rest

/-- A transmission is registered when there are a channel and a `tx_id`. -/
theorem transmitted_channel (R : PacketRouter) (w : World) (sender : NodeName)
    (hexData : String) :
    (registrations (R.transmittedObs w sender hexData) = [] ∧
      (R.transmitted w sender hexData).channel = w.channel) ∨
    ∃ channel txId, w.channel = some channel ∧
      (R.broadcast w sender hexData).txId = some txId ∧
      registrations (R.transmittedObs w sender hexData) =
        [(txId, ⟨sender, w.time, (R.txWindow w hexData).stop⟩)] ∧
      (R.transmitted w sender hexData).channel =
        some ((channel.registerTx ⟨sender, w.time, (R.txWindow w hexData).stop⟩
          txId).expireBefore (w.time - 5)) := by
  unfold transmittedObs transmitted
  cases hasChannel : w.channel with
  | none => exact .inl ⟨rfl, rfl⟩
  | some channel =>
      cases hasId : (R.broadcast w sender hexData).txId with
      | none => exact .inl ⟨rfl, rfl⟩
      | some txId => exact .inr ⟨channel, txId, rfl, rfl, rfl, rfl⟩

/-- A slice leaves the table of active transmissions alone, or registers the
transmission that starts now and forgets what ended more than 5 s ago. -/
theorem Slice.channel (slice : Slice R w e w' out) :
    (registrations out = [] ∧ w'.channel = w.channel) ∨
      ∃ channel sender hexData txId, e = .onTx sender hexData ∧ w.channel = some channel ∧
        (R.broadcast w sender hexData).txId = some txId ∧ w'.time = w.time ∧
        registrations out = [(txId, ⟨sender, w.time, (R.txWindow w hexData).stop⟩)] ∧
        w'.channel = some ((channel.registerTx ⟨sender, w.time, (R.txWindow w hexData).stop⟩
          txId).expireBefore (w.time - 5)) := by
  cases slice with
  | alone sender hexData _ _ =>
      rcases transmitted_channel R w sender hexData with
        same | ⟨channel, txId, before, id, made, after⟩
      · exact .inl same
      · exact .inr ⟨channel, sender, hexData, txId, rfl, before, id, rfl, made, after⟩
  | announced sender hexData _ _ =>
      rcases transmitted_channel R w sender hexData with
        same | ⟨channel, txId, before, id, made, after⟩
      · exact .inl same
      · exact .inr ⟨channel, sender, hexData, txId, rfl, before, id, rfl, made, after⟩
  | through _ _ _ _ _ _ _ _ _ _ arrival => exact .inl ⟨arrival.registrations_eq_nil _, rfl⟩
  | woken _ _ _ _ _ _ _ _ _ arrival => exact .inl ⟨arrival.registrations_eq_nil _, rfl⟩
  | drain => exact .inl ⟨registrations_replayed _, rfl⟩
  | _ => exact .inl ⟨rfl, rfl⟩

/-! ### Half-duplex verdicts -/

/-- The blocker of a half-duplex drop is in the table: a transmission of the receiver
during the reception. -/
theorem verdict_halfduplex {channel : Option ChannelModel} {blockerTxId : ℕ}
    (decided : verdict channel d = .halfduplex blockerTxId) :
    ∃ m window record, channel = some m ∧ d.window = some window ∧
      (blockerTxId, record) ∈ m.active.entries ∧ record.sender = d.link.other ∧
      record.window.Overlaps (window.shift d.link.latency) := by
  unfold verdict at decided
  split at decided
  · rename_i m window timed
    split at decided
    · rename_i id start stop busy
      obtain ⟨⟨id', record⟩, inTable, hit⟩ := List.exists_of_findSome?_eq_some busy
      simp only at hit
      split at hit
      · cases hit
      · rename_i own
        split at hit
        · rename_i overlaps
          cases hit
          cases decided
          exact ⟨m, window, record, rfl, timed, inTable, not_not.mp own, overlaps⟩
        · cases hit
    · split at decided
      · cases decided
      · split at decided <;> cases decided
  · cases decided

end PacketRouter

end MeshcoreSim
