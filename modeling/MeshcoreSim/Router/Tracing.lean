import MeshcoreSim.Orchestrator
import MeshcoreSim.Router.Provenance

/-!
What the tracer changes.

The `tx_id` that the tracer hands out also decides whether a transmission is registered with
the channel model, and whether a packet is checked for collisions. `forget` leaves out of a
state and its observations the tracer, the channel, the ids, and how the packets that pass the
contention checks fare there.

* `step_untraced` — worlds that differ only in what is forgotten take slices that differ only
  in what is forgotten: tracing never changes what is transmitted, notified, lost on a link,
  dropped or corrupted by an adversary, or brought to the contention checks.
* `tracing_observes` — so for whole schedules; and where there is no channel, or no tracer,
  the checks find nothing and everything that the nodes receive is the same.
* `tracing_interferes` — with a channel, the tracer decides whether packets collide.
-/

namespace MeshcoreSim

open Lib

/-- The counters that are written before the contention checks. -/
def MetricsCollector.uncontended (m : MetricsCollector) : MetricsCollector :=
  { m with rx := .empty, collisionCount := 0, halfduplexDropCount := 0 }

/-- The outcomes of the contention checks. -/
def Outcome.contended : Outcome → Bool
  | .halfduplexDrop | .collision | .rx | .noReceiver => true
  | _ => false

def Delivery.untraced (d : Delivery) : Delivery := { d with txId := none }

def Task.untraced : Task → Task
  | .created d => .created d.untraced
  | .sleeping d corrupted wakeAt => .sleeping d.untraced corrupted wakeAt

def Broadcast.untraced (b : Broadcast) : Broadcast := { b with txId := none }

/-- What of an observation does not depend on the tracer. -/
def Obs.untraced : Obs → Option Obs
  | .registered _ _ => none
  | .command _ (.rx _ _ _) => none
  | .verdict d => some (.verdict d.untraced)
  | .ended d corrupted outcome =>
      if outcome.contended then none else some (.ended d.untraced corrupted outcome)
  | o => some o

/-- The world without its tracer and its channel, and without what depends on them. -/
def World.untraced (w : World) : World :=
  { w with
    metrics := w.metrics.uncontended
    tracer := none
    channel := none
    broadcasts := w.broadcasts.map .untraced
    tasks := w.tasks.map .untraced }

theorem Task.untraced_comp : Task.untraced ∘ Task.untraced = Task.untraced := by
  funext task
  cases task <;> rfl

theorem Broadcast.untraced_comp : Broadcast.untraced ∘ Broadcast.untraced = Broadcast.untraced :=
  rfl

/-- Forgetting twice is forgetting once. -/
theorem World.untraced_untraced (w : World) : w.untraced.untraced = w.untraced := by
  simp only [World.untraced, List.map_map, Task.untraced_comp, Broadcast.untraced_comp]
  rfl

namespace PacketRouter

variable {R : PacketRouter} {w w' : World} {e : Event} {tr out : List Obs} {d : Delivery}

/-- Forgetting, on a state with its observations. -/
def forget : World × List Obs → World × List Obs := eraseWith World.untraced Obs.untraced

/-! ### One delivery -/

/-- The gates change the same things in a world and in what is left of it. -/
theorem untraced_update (w : World) {m m' : MetricsCollector}
    (alike : m.uncontended = m'.uncontended) (filters : Dict NodeName AdversarialFilter)
    (rngPos : ℕ) :
    { w.untraced with metrics := m, filters := filters, rngPos := rngPos }.untraced =
      { w with metrics := m', filters := filters, rngPos := rngPos }.untraced := by
  simp only [World.untraced, List.map_map, Task.untraced_comp, Broadcast.untraced_comp, alike]

/-- The adversarial filter does not look at what is forgotten. -/
theorem adversary_untraced (R : PacketRouter) (w : World) (receiver : NodeName)
    (hexData : String) :
    (R.adversary w.untraced receiver hexData).1.untraced =
        (R.adversary w receiver hexData).1.untraced ∧
      (R.adversary w.untraced receiver hexData).2 = (R.adversary w receiver hexData).2 := by
  unfold adversary
  cases known : w.filters.get? receiver with
  | none =>
      have known' : w.untraced.filters.get? receiver = none := known
      simp only [known']
      exact ⟨w.untraced_untraced, trivial⟩
  | some filter =>
      have known' : w.untraced.filters.get? receiver = some filter := known
      have sameDraw : w.untraced.rngPos = w.rngPos := rfl
      have sameTime : w.untraced.time = w.time := rfl
      simp only [known', sameDraw, sameTime]
      by_cases applies : filter.shouldApply R.rng w.rngPos = true
      · rw [if_pos applies, if_pos applies]
        obtain ⟨result, filter', pos⟩ := filter.filterPacket R.rng hexData w.time (w.rngPos + 1)
        cases result with
        | suppressed =>
            simp only
            by_cases replay : filter.cfg.mode = .replay
            · rw [if_pos replay, if_pos replay]
              exact ⟨untraced_update w rfl _ _, rfl⟩
            · rw [if_neg replay, if_neg replay]
              exact ⟨untraced_update w rfl _ _, rfl⟩
        | deliver hexData' => exact ⟨untraced_update w rfl _ _, rfl⟩
        | raised => exact ⟨untraced_update w rfl _ _, rfl⟩
      · rw [if_neg applies, if_neg applies]
        exact ⟨untraced_update w rfl _ _, rfl⟩

/-- The gates do not look at what is forgotten. -/
theorem gates_untraced (R : PacketRouter) (w : World) (d : Delivery) :
    (R.gates w.untraced d.untraced).1.untraced = (R.gates w d).1.untraced ∧
      (R.gates w.untraced d.untraced).2 = (R.gates w d).2 := by
  have sameLink : d.untraced.link = d.link := rfl
  have sameData : d.untraced.hexData = d.hexData := rfl
  have sameDraw : w.untraced.rngPos = w.rngPos := rfl
  unfold gates
  simp only [sameLink, sameData, sameDraw]
  by_cases faint : R.belowThreshold d.link = true
  · rw [if_pos faint, if_pos faint]
    exact ⟨untraced_update w rfl _ _, rfl⟩
  · rw [if_neg faint, if_neg faint]
    by_cases lost : (R.linkLoss d.link w.rngPos).1 = true
    · rw [if_pos lost, if_pos lost]
      exact ⟨untraced_update w rfl _ _, rfl⟩
    · rw [if_neg lost, if_neg lost]
      exact adversary_untraced R { w with rngPos := (R.linkLoss d.link w.rngPos).2 }
        d.link.other d.hexData

/-- What is left of a verdict and of what follows it: the packet has come to the checks. -/
theorem Arrival.untraced {outcome : Outcome} {tracer : Option PacketTracer}
    {commands : List Obs} (arrival : Arrival R w d outcome tracer commands) (corrupted : Bool) :
    List.filterMap Obs.untraced (.verdict d :: commands ++ [.ended d corrupted outcome]) =
      [.verdict d.untraced] := by
  cases arrival <;> rfl

/-- What is left of a call that goes past its sleep. -/
theorem forget_arrive (R : PacketRouter) (w : World) (d : Delivery) (corrupted : Bool) :
    forget (R.arrive w d corrupted) = (w.untraced, [.verdict d.untraced]) := by
  obtain ⟨outcome, tracer, commands, arrival, ends⟩ := arrive_arrival R w d corrupted
  rw [ends]
  simp only [forget, eraseWith, arrival.untraced]
  cases arrival <;> rfl

theorem startDelivery_eq (R : PacketRouter) (w : World) (d : Delivery) :
    R.startDelivery w d =
      match (R.gates w d).2 with
      | .stopped outcome => ((R.gates w d).1, [.ended d false outcome])
      | .passed hexData corrupted =>
          match wakeAt? (R.gates w d).1.time { d with hexData := hexData } with
          | some t =>
              ({ (R.gates w d).1 with
                  tasks := (R.gates w d).1.tasks ++
                    [.sleeping { d with hexData := hexData } corrupted t] }, [])
          | none => R.arrive (R.gates w d).1 { d with hexData := hexData } corrupted := by
  unfold startDelivery
  obtain ⟨w', gate⟩ := R.gates w d
  cases gate <;> rfl

/-- New tasks are forgotten one by one. -/
theorem untraced_append (w : World) (tasks : List Task) :
    { w with tasks := w.tasks ++ tasks }.untraced =
      { w.untraced with tasks := w.untraced.tasks ++ tasks.map .untraced } := by
  simp only [World.untraced, List.map_append]

/-- The first slice of a call. -/
theorem startDelivery_untraced (R : PacketRouter) (w : World) (d : Delivery) :
    forget (R.startDelivery w.untraced d.untraced) = forget (R.startDelivery w d) := by
  obtain ⟨world, gate⟩ := gates_untraced R w d
  have time : (R.gates w.untraced d.untraced).1.time = (R.gates w d).1.time := by
    have left := congrArg World.time world
    exact left
  rw [startDelivery_eq, startDelivery_eq, gate, time]
  cases (R.gates w d).2 with
  | stopped outcome =>
      simp only [forget, eraseWith, world]
      rfl
  | passed hexData corrupted =>
      have deadline : wakeAt? (R.gates w d).1.time { d.untraced with hexData := hexData } =
          wakeAt? (R.gates w d).1.time { d with hexData := hexData } := rfl
      simp only [deadline]
      cases wakeAt? (R.gates w d).1.time { d with hexData := hexData } with
      | some t =>
          simp only [forget, eraseWith, untraced_append, world]
          rfl
      | none =>
          rw [forget_arrive, forget_arrive, world]
          rfl

/-! ### One slice -/

theorem broadcast_untraced (R : PacketRouter) (w : World) (sender : NodeName) (hexData : String) :
    (R.broadcast w.untraced sender hexData).untraced = (R.broadcast w sender hexData).untraced :=
  rfl

/-- What is left of the deliveries of a broadcast does not depend on its id. -/
theorem deliveries_untraced (R : PacketRouter) {b b' : Broadcast}
    (same : b.untraced = b'.untraced) :
    ((R.deliveries b).map .created).map Task.untraced =
      ((R.deliveries b').map .created).map Task.untraced := by
  have erased : ∀ b : Broadcast, ((R.deliveries b).map .created).map Task.untraced =
      (R.deliveries b.untraced).map .created := by
    intro b
    simp [deliveries, Task.untraced, Delivery.untraced, Broadcast.untraced]
  rw [erased, erased, same]

/-- What is left of the observations of a transmission. -/
theorem transmittedObs_untraced (R : PacketRouter) (w : World) (sender : NodeName)
    (hexData : String) :
    (R.transmittedObs w sender hexData).filterMap Obs.untraced = [.transmitted sender hexData] := by
  unfold transmittedObs registerTx
  split <;> rfl

theorem onTx_untraced (R : PacketRouter) (w : World) (sender : NodeName) (hexData : String) :
    forget (R.onTx w.untraced sender hexData) = forget (R.onTx w sender hexData) := by
  have waiting : (R.broadcast w.untraced sender hexData).waiting =
      (R.broadcast w sender hexData).waiting := rfl
  rw [onTx_eq, onTx_eq, waiting]
  simp only [forget, eraseWith, transmittedObs_untraced]
  split
  · have made := deliveries_untraced R (broadcast_untraced R w sender hexData)
    simp only [World.untraced, transmitted, List.map_append, List.map_map, Task.untraced_comp,
      Broadcast.untraced_comp] at made ⊢
    rw [made]
    rfl
  · simp only [World.untraced, transmitted, List.map_append, List.map_map, Task.untraced_comp,
      Broadcast.untraced_comp, List.map_cons, List.map_nil]
    rfl

theorem drainReplays_untraced (R : PacketRouter) (w : World) :
    forget (R.drainReplays w.untraced) = forget (R.drainReplays w) := by
  have due : dueReplays w.untraced = dueReplays w := rfl
  simp only [forget, eraseWith, drainReplays, due]
  simp only [World.untraced, List.map_append, List.map_map, Task.untraced_comp,
    Broadcast.untraced_comp]
  rfl

theorem getElem?_broadcasts_untraced (w : World) (k : ℕ) :
    w.untraced.broadcasts[k]? = (w.broadcasts[k]?).map .untraced := List.getElem?_map

theorem getElem?_tasks_untraced (w : World) (k : ℕ) :
    w.untraced.tasks[k]? = (w.tasks[k]?).map .untraced := List.getElem?_map

theorem without_untraced (w : World) (k : ℕ) :
    (w.without k).untraced = w.untraced.without k := by
  simp only [World.without, World.untraced, List.eraseIdx_map]

/-- A world and what is left of it take the same slice, up to what is forgotten. -/
theorem step_untraced (R : PacketRouter) (w : World) (e : Event) :
    (R.step w.untraced e).map forget = (R.step w e).map forget := by
  cases e with
  | tick t =>
      have sameTime : w.untraced.time = w.time := rfl
      simp only [step, sameTime]
      by_cases later : w.time ≤ t
      · rw [if_pos later, if_pos later]
        exact congrArg (fun left => some ({ left with time := t }, [])) w.untraced_untraced
      · rw [if_neg later, if_neg later]
  | onTx sender hexData =>
      simp only [step]
      by_cases agent : (R.agents.get? sender).isSome
      · rw [if_pos agent, if_pos agent]
        exact congrArg some (onTx_untraced R w sender hexData)
      · rw [if_neg agent, if_neg agent]
  | notify k =>
      simp only [step, getElem?_broadcasts_untraced]
      cases w.broadcasts[k]? with
      | none => rfl
      | some b =>
          have sameWaiting : b.untraced.waiting = b.waiting := rfl
          simp only [Option.map_some, sameWaiting]
          cases b.waiting with
          | nil => rfl
          | cons receiver rest =>
              simp only [forget, eraseWith, World.untraced, List.map_set, List.map_map,
                Task.untraced_comp, Broadcast.untraced_comp, Option.map_some]
              rfl
  | resume k =>
      simp only [step, getElem?_broadcasts_untraced]
      cases w.broadcasts[k]? with
      | none => rfl
      | some b =>
          have sameWaiting : b.untraced.waiting = b.waiting := rfl
          have made := deliveries_untraced R (show b.untraced.untraced = b.untraced from rfl)
          simp only [Option.map_some, sameWaiting]
          by_cases notified : b.waiting = []
          · rw [if_pos notified, if_pos notified]
            simp only [forget, eraseWith, World.untraced, List.map_append, made,
              List.eraseIdx_map, List.map_map, Task.untraced_comp, Broadcast.untraced_comp,
              Option.map_some]
            rfl
          · rw [if_neg notified, if_neg notified]
  | start k =>
      simp only [step, getElem?_tasks_untraced]
      cases w.tasks[k]? with
      | none => rfl
      | some task =>
          cases task with
          | sleeping d corrupted t => rfl
          | created d =>
              have erased := startDelivery_untraced R (w.without k) d
              rw [without_untraced] at erased
              exact congrArg some erased
  | wake k =>
      have sameTime : w.untraced.time = w.time := rfl
      simp only [step, getElem?_tasks_untraced, sameTime]
      cases w.tasks[k]? with
      | none => rfl
      | some task =>
          cases task with
          | created d => rfl
          | sleeping d corrupted t =>
              simp only [Option.map_some, Task.untraced]
              by_cases due : t ≤ w.time
              · rw [if_pos due, if_pos due]
                have left := congrArg World.untraced (without_untraced w k)
                rw [World.untraced_untraced] at left
                simp only [Option.map_some, forget_arrive, Option.some.injEq, Prod.mk.injEq]
                exact ⟨left.symm, rfl⟩
              · rw [if_neg due, if_neg due]
  | drain => exact congrArg some (drainReplays_untraced R w)

/-- Worlds that differ only in what is forgotten see the same of a schedule, up to what is
forgotten. -/
theorem exec_untraced (R : PacketRouter) (schedule : List Event)
    (alike : w.untraced = w'.untraced) :
    (exec R.step w schedule).map forget = (exec R.step w' schedule).map forget := by
  refine exec_erase (fun s t e same => ?_) alike
  calc (R.step s e).map forget = (R.step s.untraced e).map forget := (step_untraced R s e).symm
    _ = (R.step t.untraced e).map forget := by rw [same]
    _ = (R.step t e).map forget := step_untraced R t e

/-! ### Where the contention checks find nothing -/

/-- There is no channel, or there is no tracer and nothing has an id. -/
structure Inert (w : World) : Prop where
  apart : w.channel = none ∨ w.tracer = none
  table : ∀ m, w.channel = some m → m.active.entries = []
  tasks : w.channel ≠ none → ∀ task ∈ w.tasks, task.delivery.txId = none
  broadcasts : w.channel ≠ none → ∀ b ∈ w.broadcasts, b.txId = none

/-- Nothing is ever found in an inert world's table. -/
theorem verdict_inert (inert : Inert w) (noId : w.channel ≠ none → d.txId = none) :
    verdict w.channel d = .clear := by
  unfold verdict
  cases table : w.channel with
  | none => rfl
  | some m =>
      cases d.window with
      | none => rfl
      | some window =>
          have idle : m.isReceiverBusy d.link.other (window.shift d.link.latency) = none := by
            unfold ChannelModel.isReceiverBusy
            rw [inert.table m table]
            rfl
          simp only [idle, noId (by simp [table])]

/-- Without a tracer there are no ids. -/
theorem broadcast_noId (noTracer : w.tracer = none) (sender : NodeName) (hexData : String) :
    (R.broadcast w sender hexData).txId = none := by
  unfold broadcast
  rw [noTracer]
  rfl

/-- A slice creates no tracer. -/
theorem Slice.tracer_none (slice : Slice R w e w' out) (noTracer : w.tracer = none) :
    w'.tracer = none := by
  have onTx : ∀ sender hexData, (R.transmitted w sender hexData).tracer = none := by
    intro sender hexData
    unfold transmitted
    rw [noTracer]
    rfl
  have arrived : ∀ {d outcome tracer commands}, Arrival R w d outcome tracer commands →
      tracer = none := by
    intro d outcome tracer commands arrival
    cases arrival <;> rw [noTracer] <;> rfl
  cases slice with
  | alone sender hexData => exact onTx sender hexData
  | announced sender hexData => exact onTx sender hexData
  | through _ _ _ _ _ _ _ _ _ _ arrival => exact arrived arrival
  | woken _ _ _ _ _ _ _ _ _ arrival => exact arrived arrival
  | _ => exact noTracer

/-- The channel of an inert world does not change. -/
theorem Inert.channel (inert : Inert w) (slice : Slice R w e w' out) :
    w'.channel = w.channel := by
  rcases slice.channel with ⟨-, same⟩ | ⟨m, sender, hexData, txId, -, before, id, -⟩
  · exact same
  · rcases inert.apart with noChannel | noTracer
    · rw [noChannel] at before
      cases before
    · rw [broadcast_noId noTracer] at id
      cases id

/-- Slices keep a world inert. -/
theorem Inert.step (inert : Inert w) (slice : Slice R w e w' out) : Inert w' := by
  have same := inert.channel slice
  have noTracer : w.channel ≠ none → w.tracer = none := by
    intro hasTable
    exact inert.apart.resolve_left hasTable
  have fromBroadcast : w.channel ≠ none → ∀ b, (b ∈ w.broadcasts ∨
      ∃ sender hexData, e = .onTx sender hexData ∧ b = R.broadcast w sender hexData) →
      b.txId = none := by
    rintro hasTable b (old | ⟨sender, hexData, -, rfl⟩)
    · exact inert.broadcasts hasTable b old
    · exact broadcast_noId (noTracer hasTable) sender hexData
  constructor
  · rcases inert.apart with noChannel | noTracer
    · exact .inl (same.trans noChannel)
    · exact .inr (slice.tracer_none noTracer)
  · intro m table
    exact inert.table m (same.symm.trans table)
  · intro hasTable task mem
    rw [same] at hasTable
    rcases slice.tasks mem with old | ⟨b, made, inBroadcast⟩ | ⟨replay, -, inReplay⟩ |
      ⟨k, d, hexData, corrupted, -, created, -, sameCall⟩
    · exact inert.tasks hasTable task old
    · rw [(mem_deliveries inBroadcast).2.2.2]
      exact fromBroadcast hasTable b made
    · exact (mem_replayDeliveries inReplay).2.2.2.1
    · rw [sameCall]
      exact inert.tasks hasTable _ (List.mem_of_getElem? created)
  · intro hasTable b mem
    rw [same] at hasTable
    rcases slice.broadcasts mem with ⟨waiting, old⟩ | started
    · exact inert.broadcasts hasTable { b with waiting := waiting } old
    · exact fromBroadcast hasTable b (.inr started)

theorem inert_init (R : PacketRouter) (time : ℚ) {tracer : Option PacketTracer}
    {channel : Option ChannelModel} (apart : channel = none ∨ tracer = none) :
    Inert (R.init time tracer channel) where
  apart := by
    rcases apart with rfl | rfl
    · exact .inl rfl
    · exact .inr rfl
  table m made := by
    obtain ⟨_, -, rfl⟩ := Option.map_eq_some_iff.mp made
    rfl
  tasks _ task mem := by cases mem
  broadcasts _ b mem := by cases mem

/-- The packets that reach each receiver, and everything else written to the nodes. -/
def commandsOf (tr : List Obs) : List (NodeName × Command) :=
  tr.filterMap fun
    | .command receiver cmd => some (receiver, cmd)
    | _ => none

theorem commandsOf_append (tr tr' : List Obs) :
    commandsOf (tr ++ tr') = commandsOf tr ++ commandsOf tr' :=
  List.filterMap_append

/-- What is written to the nodes when the contention checks find nothing. -/
def told (R : PacketRouter) : Obs → List (NodeName × Command)
  | .command receiver cmd => [(receiver, cmd)]
  | .verdict d =>
      if (R.agents.get? d.link.other).isSome then
        [(d.link.other, .rx d.hexData.toLower d.link.snr (d.link.snr + R.noiseFloor))]
      else []
  | _ => []

/-- What is counted as received when the contention checks find nothing. -/
def heard (R : PacketRouter) (rx : Dict NodeName ℕ) : Obs → Dict NodeName ℕ
  | .verdict d => if (R.agents.get? d.link.other).isSome then rx.incr d.link.other else rx
  | _ => rx

/-- The counters that are written at or after the contention checks are the same. -/
structure SameReception (m m' : MetricsCollector) : Prop where
  rx : m'.rx = m.rx
  collisions : m'.collisionCount = m.collisionCount
  halfduplex : m'.halfduplexDropCount = m.halfduplexDropCount

/-- From `w` to `w'`, emitting `out`, everything that came to the contention checks has got
through: what the nodes are told and what is counted follows from what is left of `out`. -/
structure Unhindered (R : PacketRouter) (w w' : World) (out : List Obs) : Prop where
  commands : commandsOf out = (out.filterMap Obs.untraced).flatMap R.told
  received : SameReception
    { w.metrics with rx := (out.filterMap Obs.untraced).foldl R.heard w.metrics.rx } w'.metrics

/-- One unhindered slice after another. -/
theorem Unhindered.trans {w'' : World} (first : R.Unhindered w w' tr)
    (second : R.Unhindered w' w'' out) : R.Unhindered w w'' (tr ++ out) where
  commands := by
    rw [commandsOf_append, first.commands, second.commands, List.filterMap_append,
      List.flatMap_append]
  received := by
    refine ⟨?_, second.received.collisions.trans first.received.collisions,
      second.received.halfduplex.trans first.received.halfduplex⟩
    rw [second.received.rx, first.received.rx, List.filterMap_append, List.foldl_append]

/-- An observation that neither comes from the contention checks nor from beyond them. -/
def Quiet : Obs → Prop
  | .verdict _ | .command _ (.rx _ _ _) => False
  | _ => True

/-- A slice before the contention checks hinders nothing. -/
theorem Unhindered.of_quiet (quiet : ∀ o ∈ out, Quiet o)
    (same : SameReception w.metrics w'.metrics) : R.Unhindered w w' out := by
  have nothing : commandsOf out = (out.filterMap Obs.untraced).flatMap R.told ∧
      ∀ rx, (out.filterMap Obs.untraced).foldl R.heard rx = rx := by
    clear same
    induction out with
    | nil => exact ⟨rfl, fun _ => rfl⟩
    | cons o out ih =>
        obtain ⟨told, heard⟩ := ih fun o mem => quiet o (List.mem_cons_of_mem _ mem)
        have alone := quiet o List.mem_cons_self
        have split : commandsOf (o :: out) = commandsOf [o] ++ commandsOf out :=
          commandsOf_append [o] out
        rw [split, told]
        cases o with
        | verdict d => exact alone.elim
        | command receiver cmd =>
            cases cmd with
            | rx hexData snr rssi => exact alone.elim
            | rxStart durationMs => exact ⟨rfl, heard⟩
        | ended d corrupted outcome =>
            cases outcome <;> exact ⟨rfl, heard⟩
        | _ => exact ⟨rfl, heard⟩
  refine ⟨nothing.1, ?_, same.collisions, same.halfduplex⟩
  rw [nothing.2]
  exact same.rx

/-- A call that finds nothing at the contention checks is unhindered. -/
theorem Arrival.unhindered {outcome : Outcome} {tracer : Option PacketTracer}
    {commands : List Obs} {m : MetricsCollector} (arrival : Arrival R w d outcome tracer commands)
    (clear : verdict w.channel d = .clear) (same : SameReception w.metrics m) (corrupted : Bool)
    (settled : w'.metrics = outcome.record d.link.other m) :
    R.Unhindered w w' (.verdict d :: commands ++ [.ended d corrupted outcome]) := by
  have left := arrival.untraced corrupted
  have rx := same.rx
  cases arrival with
  | halfduplex blocker decided => simp [clear] at decided
  | collision interferer id overlapS decided => simp [clear] at decided
  | rx _ agent =>
      have told : R.told (.verdict d.untraced) = commandsOf [.command d.link.other
          (.rx d.hexData.toLower d.link.snr (d.link.snr + R.noiseFloor))] := if_pos agent
      have heard : R.heard w.metrics.rx (.verdict d.untraced) =
          w.metrics.rx.incr d.link.other := if_pos agent
      refine ⟨?_, ?_, ?_, ?_⟩
      · rw [left, List.flatMap_singleton, told]
        rfl
      · rw [left, List.foldl_cons, heard, settled, ← rx]
        rfl
      · rw [settled]
        exact same.collisions
      · rw [settled]
        exact same.halfduplex
  | noReceiver _ missing =>
      have absent : ¬ (R.agents.get? d.link.other).isSome := by simp [missing]
      have told : R.told (.verdict d.untraced) = [] := if_neg absent
      have heard : R.heard w.metrics.rx (.verdict d.untraced) = w.metrics.rx := if_neg absent
      refine ⟨?_, ?_, ?_, ?_⟩
      · rw [left, List.flatMap_singleton, told]
        rfl
      · rw [left, List.foldl_cons, heard, settled]
        exact rx
      · rw [settled]
        exact same.collisions
      · rw [settled]
        exact same.halfduplex

/-- The counters of a call that ends at the gates. -/
theorem sameReception_stopped {outcome : Outcome}
    (stopped : (R.gates w d).2 = .stopped outcome) :
    SameReception w.metrics (R.gates w d).1.metrics := by
  obtain ⟨counted, which⟩ := gates_stopped stopped
  rw [counted]
  rcases which with rfl | rfl | rfl | rfl | ⟨rfl, -⟩ <;> exact ⟨rfl, rfl, rfl⟩

/-- The counters of a call that passes the gates. -/
theorem sameReception_passed {k : ℕ} {hexData : String} {corrupted : Bool}
    (gate : (R.gates (w.without k) d).2 = .passed hexData corrupted) :
    SameReception w.metrics (R.gated w k d).metrics := by
  rw [gated_metrics gate]
  cases corrupted <;> exact ⟨rfl, rfl, rfl⟩

/-- In an inert world every slice is unhindered. -/
theorem Inert.unhindered (inert : Inert w) (slice : Slice R w e w' out) :
    R.Unhindered w w' out := by
  have silent : ∀ sender hexData, ∀ o ∈ R.transmittedObs w sender hexData, Quiet o := by
    intro sender hexData o mem
    rcases mem_transmittedObs mem with rfl | ⟨txId, record, rfl⟩ <;> trivial
  have alike : SameReception w.metrics w.metrics := ⟨rfl, rfl, rfl⟩
  have noId : ∀ {k : ℕ} {task : Task}, w.tasks[k]? = some task → w.channel ≠ none →
      task.delivery.txId = none :=
    fun known hasTable => inert.tasks hasTable _ (List.mem_of_getElem? known)
  cases slice with
  | tick => exact .of_quiet (by simp) alike
  | alone sender hexData => exact .of_quiet (silent sender hexData) ⟨rfl, rfl, rfl⟩
  | announced sender hexData => exact .of_quiet (silent sender hexData) ⟨rfl, rfl, rfl⟩
  | notify => exact .of_quiet (by simp [Quiet]) alike
  | resume => exact .of_quiet (by simp) alike
  | stopped k d outcome task gate =>
      exact .of_quiet (by simp [Quiet]) (sameReception_stopped gate)
  | asleep k d hexData corrupted t task gate =>
      exact .of_quiet (by simp) (sameReception_passed gate)
  | through k d hexData corrupted outcome tracer commands task gate awake arrival =>
      exact arrival.unhindered (verdict_inert inert (noId task)) (sameReception_passed gate)
        corrupted rfl
  | woken k d corrupted t outcome tracer commands task due arrival =>
      exact arrival.unhindered (verdict_inert inert (noId task)) alike corrupted rfl
  | drain =>
      refine .of_quiet (fun o mem => ?_) alike
      obtain ⟨replay, -, rfl⟩ := List.mem_map.mp mem
      trivial

/-- A whole schedule of an inert world is unhindered. -/
theorem Inert.exec_unhindered (inert : Inert w) {schedule : List Event}
    (replay : exec R.step w schedule = some (w', tr)) : R.Unhindered w w' tr := by
  have run := Run.of_exec_step replay
  have both : Inert w' ∧ R.Unhindered w w' tr := by
    refine run.invariant (I := fun v tr => Inert v ∧ R.Unhindered w v tr)
      ⟨inert, .of_quiet (by simp) ⟨rfl, rfl, rfl⟩⟩ ?_
    intro v tr e v' out _ before _ stepped
    have slice := step_slice stepped
    exact ⟨before.1.step slice, before.2.trans (before.1.unhindered slice)⟩
  exact both.2

/-! ### Whole schedules -/

/-- What the counters say and what the nodes receive after a schedule; `none` when the
schedule is not possible. -/
def outcome (R : PacketRouter) (w : World) (schedule : List Event) :
    Option (MetricsCollector × List (NodeName × Command)) :=
  (exec R.step w schedule).map fun r => (r.1.metrics, commandsOf r.2)

/-- Counters that agree before the contention checks and from there on are the same. -/
theorem SameReception.eq {m m' : MetricsCollector} (same : SameReception m m')
    (before : m.uncontended = m'.uncontended) : m = m' := by
  obtain ⟨rx, collisions, halfduplex⟩ := same
  cases m
  cases m'
  simp only [MetricsCollector.uncontended, MetricsCollector.mk.injEq] at before ⊢
  simp only at rx collisions halfduplex
  simp [before, rx, collisions, halfduplex]

/-- Inert worlds that differ only in what is forgotten have the same outcomes. -/
theorem outcome_inert (R : PacketRouter) (schedule : List Event) (inert : Inert w)
    (inert' : Inert w') (alike : w.untraced = w'.untraced) (counted : w.metrics = w'.metrics) :
    R.outcome w schedule = R.outcome w' schedule := by
  have erased := exec_untraced R schedule alike
  unfold outcome
  cases left : exec R.step w schedule with
  | none =>
      cases right : exec R.step w' schedule with
      | none => rfl
      | some r => simp [left, right] at erased
  | some r =>
      cases right : exec R.step w' schedule with
      | none => simp [left, right] at erased
      | some r' =>
          obtain ⟨v, tr⟩ := r
          obtain ⟨v', tr'⟩ := r'
          have first := inert.exec_unhindered left
          have second := inert'.exec_unhindered right
          simp only [left, right, Option.map_some, forget, eraseWith, Option.some.injEq,
            Prod.mk.injEq] at erased
          obtain ⟨world, seen⟩ := erased
          have before : v.metrics.uncontended = v'.metrics.uncontended := by
            have metrics := congrArg World.metrics world
            exact metrics
          have same : SameReception v.metrics v'.metrics := by
            refine ⟨?_, ?_, ?_⟩
            · rw [second.received.rx, first.received.rx, seen, counted]
            · rw [second.received.collisions, first.received.collisions, counted]
            · rw [second.received.halfduplex, first.received.halfduplex, counted]
          have written : commandsOf tr = commandsOf tr' := by
            rw [first.commands, second.commands, seen]
          simp only [Option.map_some, same.eq before, written]

/-- Tracing observes, up to the contention checks: on every schedule, whatever the packets
and whether or not they can be decoded, no tracer and no channel changes anything but how
the packets that come to these checks fare there. And without a channel all counters and all
that the nodes receive are the same with a tracer as without one, as they are without a
tracer whatever the channel. -/
theorem tracing_observes (R : PacketRouter) (time : ℚ) (schedule : List Event) :
    (∀ tracer channel, (exec R.step (R.init time tracer channel) schedule).map forget =
      (exec R.step (R.init time none none) schedule).map forget) ∧
    (∀ tracer, R.outcome (R.init time tracer none) schedule =
      R.outcome (R.init time none none) schedule) ∧
    (∀ channel, R.outcome (R.init time none channel) schedule =
      R.outcome (R.init time none none) schedule) := by
  have alike : ∀ tracer channel,
      (R.init time tracer channel).untraced = (R.init time none none).untraced :=
    fun _ _ => rfl
  have bare : Inert (R.init time none none) := inert_init R time (.inl rfl)
  refine ⟨?_, ?_, ?_⟩
  · intro tracer channel
    exact exec_untraced R schedule (alike tracer channel)
  · intro tracer
    exact outcome_inert R schedule (inert_init R time (.inl rfl)) bare (alike tracer none) rfl
  · intro channel
    exact outcome_inert R schedule (inert_init R time (.inr rfl)) bare (alike none channel) rfl

/-- On every schedule the same counters and the same packets received, with a tracer as
without one. -/
def TracingOnlyObserves (R : PacketRouter) (time : ℚ) (tracer : PacketTracer)
    (channel : ChannelModel) : Prop :=
  ∀ schedule, R.outcome (R.init time (some tracer) (some channel)) schedule =
    R.outcome (R.init time none (some channel)) schedule

/-- `alice` and `bob`, who do not hear each other, and a relay that hears both. -/
def hiddenPair : TopologyConfig where
  nodes := [.named "alice", .named "bob", .named "relay"]
  edges := [⟨"alice", "relay", 0, 0, 6, none, none⟩, ⟨"bob", "relay", 0, 0, 6, none, none⟩]
  simulation := ⟨0, 0, 0, 0, 0, "", none, none⟩
  radio := some .default

/-- Both send at once. -/
def pairSchedule : List Event :=
  [.onTx "alice" "0500", .onTx "bob" "050041", .notify 0, .notify 1, .resume 0, .resume 0,
    .start 0, .start 0, .tick 1, .wake 0, .wake 0]

/-- With a channel, a tracer makes both packets collide at the relay, which receives them
when there is none. -/
theorem tracing_interferes :
    ∃ R channel, PacketRouter.ofConfig? hiddenPair .zero = some R ∧ R.channel = some channel ∧
      ¬ TracingOnlyObserves R 0 .init channel := by
  have found : ((PacketRouter.ofConfig? hiddenPair .zero).any fun R => R.channel.any fun channel =>
      ((R.outcome (R.init 0 (some .init) (some channel)) pairSchedule).map
        (·.1.collisionCount) = some 2) ∧
      ((R.outcome (R.init 0 none (some channel)) pairSchedule).map
        (·.1.collisionCount) = some 0)) = true := by
    decide +kernel
  obtain ⟨R, channel, router, model, found⟩ := exists_wired found
  obtain ⟨traced, bare⟩ := of_decide_eq_true found
  refine ⟨R, channel, router, model, fun claim => ?_⟩
  rw [claim pairSchedule, bare] at traced
  cases traced

end PacketRouter

end MeshcoreSim
