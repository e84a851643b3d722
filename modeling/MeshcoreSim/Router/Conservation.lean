import MeshcoreSim.Orchestrator
import MeshcoreSim.Router.Provenance

/-!
Conservation of deliveries.

Every call of `_deliver_to` ends with one outcome and every outcome has one counter. The
invariant counts: each counter stands at the number of calls that have ended with its
outcome, and the calls that have ended, the calls in flight and those that suspended
broadcasts will create add up to the number of pairs of a transmission and an outgoing link.

* `Slice.account` — what one slice does to the counters and to the number of calls.
* `Balanced` — the invariant, and `run_balanced` that every run keeps it.
* `conservation` — every call ends with exactly one of the seven counters, and when nothing is
  left in flight the counters add up to the number of pairs.
-/

namespace MeshcoreSim

open Lib

/-- How a call of `_deliver_to` has ended. -/
structure Ending where
  delivery : Delivery
  corrupted : Bool
  outcome : Outcome

/-- The calls that have ended, in order. -/
def endings (tr : List Obs) : List Ending :=
  tr.filterMap fun
    | .ended d corrupted outcome => some ⟨d, corrupted, outcome⟩
    | _ => none

@[simp] theorem endings_append (tr tr' : List Obs) :
    endings (tr ++ tr') = endings tr ++ endings tr' :=
  List.filterMap_append

/-- The counter of an outcome; that of `rx` is the one of the receiver. -/
def MetricsCollector.counter (m : MetricsCollector) (receiver : NodeName) : Outcome → ℕ
  | .snrDrop => m.snrDropCount
  | .linkLoss => m.linkLossCount
  | .adversarialDrop => m.advDropCount
  | .adversarialReplay => m.advReplayCount
  | .halfduplexDrop => m.halfduplexDropCount
  | .collision => m.collisionCount
  | .rx => m.rxOf receiver
  | .noReceiver => 0
  | .raised => 0

/-- The sum of all outcome counters. -/
def MetricsCollector.total (m : MetricsCollector) : ℕ :=
  m.snrDropCount + m.linkLossCount + m.advDropCount + m.advReplayCount + m.halfduplexDropCount +
    m.collisionCount + m.rxTotal

/-- The outcomes that have a counter. -/
def Outcome.Counted (outcome : Outcome) : Prop := outcome ≠ .noReceiver ∧ outcome ≠ .raised

/-- The ending is counted by the counter of `outcome` at `receiver`. -/
def Ending.counts (receiver : NodeName) (outcome : Outcome) (ending : Ending) : Bool :=
  ending.outcome = outcome ∧ (outcome = .rx → ending.delivery.link.other = receiver)

/-- What an ending writes to the counters. -/
def Ending.record (m : MetricsCollector) (ending : Ending) : MetricsCollector :=
  ending.outcome.record ending.delivery.link.other m

/-- An ending raises its own counter by one, and no other. -/
theorem counter_record (m : MetricsCollector) (ending : Ending) (receiver : NodeName)
    {outcome : Outcome} (counted : outcome.Counted) :
    (ending.record m).counter receiver outcome =
      m.counter receiver outcome + (ending.counts receiver outcome).toNat := by
  obtain ⟨d, corrupted, ended⟩ := ending
  obtain ⟨delivers, returns⟩ := counted
  cases outcome with
  | noReceiver => exact absurd rfl delivers
  | raised => exact absurd rfl returns
  | rx =>
      cases ended with
      | rx =>
          simp only [Ending.record, Outcome.record, MetricsCollector.counter,
            MetricsCollector.rxOf_recordRx, Ending.counts, true_and, forall_const]
          split <;> simp_all [eq_comm]
      | _ => rfl
  | _ => cases ended <;> rfl

/-- It raises the total by one. -/
theorem total_record (m : MetricsCollector) (ending : Ending) (counted : ending.outcome.Counted) :
    (ending.record m).total = m.total + 1 := by
  obtain ⟨d, corrupted, ended⟩ := ending
  obtain ⟨delivers, returns⟩ := counted
  cases ended with
  | noReceiver => exact absurd rfl delivers
  | raised => exact absurd rfl returns
  | rx =>
      simp only [Ending.record, Outcome.record, MetricsCollector.total,
        MetricsCollector.rxTotal_recordRx]
      rfl
  | _ =>
      simp only [Ending.record, Outcome.record, MetricsCollector.total, MetricsCollector.rxTotal,
        MetricsCollector.recordSnrDrop, MetricsCollector.recordLinkLoss,
        MetricsCollector.recordAdversarialDrop, MetricsCollector.recordAdversarialReplay,
        MetricsCollector.recordHalfduplexDrop, MetricsCollector.recordCollision]
      omega

/-! ### One slice -/

/-- Whether the adversarial filter has already been counted as corrupting the packet. -/
def Task.flagged : Task → Bool
  | .created _ => false
  | .sleeping _ corrupted _ => corrupted

def World.flagged (w : World) : ℕ := (w.tasks.map fun task => task.flagged.toNat).sum

/-- Taking an element out of a list takes its share out of a sum. -/
theorem sum_map_eraseIdx {α : Type} (f : α → ℕ) {l : List α} {k : ℕ} {a : α}
    (found : l[k]? = some a) : ((l.eraseIdx k).map f).sum + f a = (l.map f).sum := by
  obtain ⟨inside, rfl⟩ := List.getElem?_eq_some_iff.mp found
  have split := ((List.getElem_cons_eraseIdx_perm inside).map f).sum_eq
  rw [List.map_cons, List.sum_cons] at split
  omega

namespace PacketRouter

variable {R : PacketRouter} {w w' : World} {e : Event} {tr out : List Obs}

/-- The number of outgoing links of a node. -/
def degree (R : PacketRouter) (sender : NodeName) : ℕ := (R.topology.neighbours sender).length

/-- The pairs of a transmission, or a replay, and an outgoing link. -/
def pairs (R : PacketRouter) (tr : List Obs) : ℕ :=
  (tr.map fun
    | .transmitted sender _ => R.degree sender
    | .replayed sender _ => R.degree sender
    | _ => 0).sum

/-- The calls in flight, and those that the suspended broadcasts will create. -/
def load (R : PacketRouter) (w : World) : ℕ :=
  w.tasks.length + (w.broadcasts.map fun b => R.degree b.sender).sum

/-- What a slice does to the counters and to the number of calls: it may count a
transmission, it may flag a packet as corrupted, and it may end a call. -/
structure Account (R : PacketRouter) (w w' : World) (out : List Obs) (base : MetricsCollector)
    (newly : Bool) (ending : Option Ending) : Prop where
  ended : endings out = ending.toList
  started : base = w.metrics ∨ ∃ sender, base = w.metrics.recordTx sender
  metrics : w'.metrics = ending.elim (mark newly base) (Ending.record (mark newly base))
  flags : w'.flagged + ending.elim 0 (·.corrupted.toNat) = w.flagged + newly.toNat
  balance : R.load w' + ending.toList.length = R.load w + R.pairs out

theorem flagged_created (tasks : List Task) (deliveries : List Delivery) :
    ((tasks ++ deliveries.map Task.created).map fun task => task.flagged.toNat).sum =
      (tasks.map fun task => task.flagged.toNat).sum := by
  induction deliveries with
  | nil => simp
  | cons d deliveries ih =>
      simp only [List.map_append, List.sum_append, List.map_cons, List.sum_cons] at ih ⊢
      simpa [Task.flagged] using ih

/-- A transmission accounts for one pair a link. -/
theorem pairs_transmittedObs (sender : NodeName) (hexData : String) :
    R.pairs (R.transmittedObs w sender hexData) = R.degree sender := by
  unfold transmittedObs registerTx
  split <;> rfl

theorem endings_transmittedObs (sender : NodeName) (hexData : String) :
    endings (R.transmittedObs w sender hexData) = [] := by
  unfold transmittedObs registerTx
  split <;> rfl

/-- A turn of the replay drainer accounts for one pair a replayed packet and link. -/
theorem pairs_replayed (replays : List (NodeName × String)) :
    R.pairs (replays.map fun replay => .replayed replay.1 replay.2) =
      (replays.flatMap R.replayDeliveries).length := by
  unfold pairs
  rw [List.map_map, List.length_flatMap]
  refine congrArg List.sum (List.map_congr_left fun replay _ => ?_)
  simp [replayDeliveries, degree]

theorem endings_replayed (replays : List (NodeName × String)) :
    endings (replays.map fun replay => .replayed replay.1 replay.2) = [] := by
  unfold endings
  rw [List.filterMap_map]
  exact List.filterMap_eq_nil_iff.mpr fun _ _ => rfl

/-- What follows a verdict ends one call and starts none. -/
theorem Arrival.endings_eq {d d' : Delivery} {outcome : Outcome} {tracer : Option PacketTracer}
    {commands : List Obs} (arrival : Arrival R w d outcome tracer commands) (corrupted : Bool) :
    endings (.verdict d :: commands ++ [.ended d' corrupted outcome]) =
        [⟨d', corrupted, outcome⟩] ∧
      R.pairs (.verdict d :: commands ++ [.ended d' corrupted outcome]) = 0 := by
  cases arrival <;> exact ⟨rfl, rfl⟩

theorem length_eraseIdx_of_getElem? {α : Type} {l : List α} {k : ℕ} {a : α}
    (found : l[k]? = some a) : (l.eraseIdx k).length + 1 = l.length := by
  obtain ⟨inside, -⟩ := List.getElem?_eq_some_iff.mp found
  rw [List.length_eraseIdx_of_lt inside]
  omega

/-- Replacing an element by one with the same share keeps all shares. -/
theorem map_set_of_same {α β : Type} {f : α → β} {l : List α} {k : ℕ} {a a' : α}
    (found : l[k]? = some a) (same : f a' = f a) : (l.set k a').map f = l.map f := by
  obtain ⟨inside, rfl⟩ := List.getElem?_eq_some_iff.mp found
  have inside' : k < (l.map f).length := by simpa using inside
  rw [List.map_set, same, ← List.getElem_map (h := inside'), List.set_getElem_self]

/-- Every slice has an account. -/
theorem Slice.account (slice : Slice R w e w' out) :
    ∃ base newly ending, Account R w w' out base newly ending := by
  cases slice with
  | tick => exact ⟨w.metrics, false, none, rfl, .inl rfl, rfl, rfl, rfl⟩
  | alone sender hexData =>
      refine ⟨w.metrics.recordTx sender, false, none, endings_transmittedObs _ _,
        .inr ⟨sender, rfl⟩, rfl, flagged_created _ _, ?_⟩
      rw [pairs_transmittedObs]
      simp [load, transmitted, deliveries, broadcast, degree]
      omega
  | announced sender hexData =>
      refine ⟨w.metrics.recordTx sender, false, none, endings_transmittedObs _ _,
        .inr ⟨sender, rfl⟩, rfl, rfl, ?_⟩
      rw [pairs_transmittedObs]
      simp [load, transmitted, broadcast, degree]
      omega
  | notify k b receiver rest pending =>
      refine ⟨w.metrics, false, none, rfl, .inl rfl, rfl, rfl, ?_⟩
      have same : (w.broadcasts.set k { b with waiting := rest }).map (fun b => R.degree b.sender) =
          w.broadcasts.map fun b => R.degree b.sender := map_set_of_same pending rfl
      simp only [load, same]
      rfl
  | resume k b pending =>
      refine ⟨w.metrics, false, none, rfl, .inl rfl, rfl, flagged_created _ _, ?_⟩
      have taken := sum_map_eraseIdx (fun b => R.degree b.sender) pending
      simp [load, deliveries, degree, pairs] at taken ⊢
      omega
  | stopped k d outcome task gate =>
      have taken := length_eraseIdx_of_getElem? task
      refine ⟨w.metrics, false, some ⟨d, false, outcome⟩, rfl, .inl rfl, (gates_stopped gate).1,
        sum_map_eraseIdx _ task, ?_⟩
      simp [load, gated, pairs]
      omega
  | asleep k d hexData corrupted t task gate =>
      have taken := length_eraseIdx_of_getElem? task
      refine ⟨w.metrics, corrupted, none, rfl, .inl rfl, gated_metrics gate, ?_, ?_⟩
      · have kept := sum_map_eraseIdx (fun task => task.flagged.toNat) task
        simp only [World.flagged, List.map_append, List.sum_append] at kept ⊢
        simp [Task.flagged] at kept ⊢
        omega
      · simp [load, gated, pairs]
        omega
  | through k d hexData corrupted outcome tracer commands task gate _ arrival =>
      obtain ⟨ended, started⟩ := arrival.endings_eq corrupted
      have taken := length_eraseIdx_of_getElem? task
      refine ⟨w.metrics, corrupted, some ⟨{ d with hexData := hexData }, corrupted, outcome⟩,
        ended, .inl rfl, ?_, ?_, ?_⟩
      · simp only [gated_metrics gate]
        rfl
      · have kept := sum_map_eraseIdx (fun task => task.flagged.toNat) task
        simp only [World.flagged, gated, Option.elim_some] at kept ⊢
        simp [Task.flagged] at kept ⊢
        omega
      · rw [started]
        simp [load, gated]
        omega
  | woken k d corrupted t outcome tracer commands task _ arrival =>
      obtain ⟨ended, started⟩ := arrival.endings_eq corrupted
      have taken := length_eraseIdx_of_getElem? task
      refine ⟨w.metrics, false, some ⟨d, corrupted, outcome⟩, ended, .inl rfl, rfl,
        sum_map_eraseIdx _ task, ?_⟩
      rw [started]
      simp [load]
      omega
  | drain =>
      refine ⟨w.metrics, false, none, endings_replayed _, .inl rfl, rfl, flagged_created _ _, ?_⟩
      simp only [drainReplays]
      rw [pairs_replayed]
      simp [load]
      omega

/-! ### Whole runs -/

/-- Each counter stands at the number of calls that have ended with its outcome, and no call
is lost or doubled. -/
structure Balanced (R : PacketRouter) (w : World) (tr : List Obs) : Prop where
  counters : ∀ receiver outcome, outcome.Counted →
    w.metrics.counter receiver outcome = (endings tr).countP (Ending.counts receiver outcome)
  total : (∀ ending ∈ endings tr, ending.outcome.Counted) →
    w.metrics.total = (endings tr).length
  corrupted : w.metrics.advCorruptCount = (endings tr).countP Ending.corrupted + w.flagged
  calls : R.pairs tr = (endings tr).length + R.load w

theorem counter_base {base : MetricsCollector}
    (started : base = w.metrics ∨ ∃ sender, base = w.metrics.recordTx sender) (newly : Bool)
    (receiver : NodeName) (outcome : Outcome) :
    (mark newly base).counter receiver outcome = w.metrics.counter receiver outcome := by
  rcases started with rfl | ⟨sender, rfl⟩ <;> cases newly <;> cases outcome <;> rfl

theorem total_base {base : MetricsCollector}
    (started : base = w.metrics ∨ ∃ sender, base = w.metrics.recordTx sender) (newly : Bool) :
    (mark newly base).total = w.metrics.total := by
  rcases started with rfl | ⟨sender, rfl⟩ <;> cases newly <;> rfl

theorem advCorruptCount_base {base : MetricsCollector}
    (started : base = w.metrics ∨ ∃ sender, base = w.metrics.recordTx sender) (newly : Bool) :
    (mark newly base).advCorruptCount = w.metrics.advCorruptCount + newly.toNat := by
  rcases started with rfl | ⟨sender, rfl⟩ <;> cases newly <;> rfl

theorem advCorruptCount_record (m : MetricsCollector) (ending : Ending) :
    (ending.record m).advCorruptCount = m.advCorruptCount := by
  obtain ⟨d, corrupted, outcome⟩ := ending
  cases outcome <;> rfl

@[simp] theorem pairs_append (tr tr' : List Obs) :
    R.pairs (tr ++ tr') = R.pairs tr + R.pairs tr' := by
  simp [pairs]

/-- A slice keeps the balance. -/
theorem Balanced.step {base : MetricsCollector} {newly : Bool} {ending : Option Ending}
    (balanced : R.Balanced w tr) (account : Account R w w' out base newly ending) :
    R.Balanced w' (tr ++ out) := by
  obtain ⟨ended, started, metrics, flags, balance⟩ := account
  constructor
  · intro receiver outcome counted
    rw [metrics, endings_append, List.countP_append, ended, ← balanced.counters _ _ counted]
    cases ending with
    | none => exact counter_base started newly receiver outcome
    | some ending =>
        simp only [Option.elim_some, Option.toList_some, List.countP_singleton]
        rw [counter_record _ _ _ counted, counter_base started]
        cases ending.counts receiver outcome <;> rfl
  · intro allCounted
    rw [endings_append, ended] at allCounted
    rw [metrics, endings_append, List.length_append, ended,
      ← balanced.total fun ending mem => allCounted ending (List.mem_append_left _ mem)]
    cases ending with
    | none => exact total_base started newly
    | some ending =>
        simp only [Option.elim_some, Option.toList_some, List.length_singleton]
        rw [total_record _ _ (allCounted ending (by simp)), total_base started]
  · rw [metrics, endings_append, List.countP_append, ended]
    have before := balanced.corrupted
    cases ending with
    | none =>
        simp only [Option.elim_none, Option.toList_none, List.countP_nil] at flags ⊢
        rw [advCorruptCount_base started]
        omega
    | some ending =>
        simp only [Option.elim_some, Option.toList_some, List.countP_singleton] at flags ⊢
        rw [advCorruptCount_record, advCorruptCount_base started]
        cases flag : ending.corrupted <;> simp [flag] at flags ⊢ <;> omega
  · have before := balanced.calls
    rw [pairs_append, endings_append, List.length_append, ended]
    omega

/-- Every run is balanced. -/
theorem run_balanced {time : ℚ} {tracer : Option PacketTracer} {channel : Option ChannelModel}
    {ok : World → Event → Prop} (run : Run R.step ok (R.init time tracer channel) w tr) :
    R.Balanced w tr := by
  apply run.invariant (I := fun w tr => R.Balanced w tr)
  · constructor
    · intro receiver outcome counted
      cases outcome <;> rfl
    · intro _
      rfl
    · rfl
    · rfl
  · intro s tr e s' out _ before _ stepped
    obtain ⟨base, newly, ending, account⟩ := (step_slice stepped).account
    exact before.step account

/-! ### How calls end -/

/-- A call ends at a gate, with its packet as it was, or after the propagation delay. It
fails only on a packet that is not hex, and misses a receiver only where the link has none. -/
theorem Slice.ending (slice : Slice R w e w' out) {ending : Ending}
    (mem : ending ∈ endings out) :
    (ending.corrupted = false ∧ (ending.outcome.Counted ∨
      ∃ task ∈ w.tasks, unhexlify task.delivery.hexData.toList = none)) ∨
    ending.outcome ∈ [.halfduplexDrop, .collision, .rx] ∨
    ∃ task ∈ w.tasks, R.agents.get? task.delivery.link.other = none := by
  have arrived : ∀ {d d' : Delivery} {corrupted : Bool} {outcome : Outcome}
      {tracer : Option PacketTracer} {commands : List Obs} {task : Task},
      Arrival R w d outcome tracer commands → task ∈ w.tasks →
      task.delivery.link = d.link →
      ending ∈ endings (.verdict d :: commands ++ [.ended d' corrupted outcome]) →
      ending.outcome ∈ [.halfduplexDrop, .collision, .rx] ∨
        ∃ task ∈ w.tasks, R.agents.get? task.delivery.link.other = none := by
    intro d d' corrupted outcome tracer commands task arrival known sameLink mem
    rw [(arrival.endings_eq corrupted).1, List.mem_singleton] at mem
    subst mem
    cases arrival with
    | noReceiver _ missing => exact .inr ⟨task, known, sameLink ▸ missing⟩
    | _ => exact .inl (by simp)
  cases slice with
  | alone => simp [endings_transmittedObs] at mem
  | announced => simp [endings_transmittedObs] at mem
  | drain => simp [drainReplays, endings_replayed] at mem
  | stopped k d outcome task gate =>
      obtain rfl := List.mem_singleton.mp mem
      refine .inl ⟨rfl, ?_⟩
      rcases (gates_stopped gate).2 with rfl | rfl | rfl | rfl | ⟨rfl, notHex⟩
      · exact .inl ⟨nofun, nofun⟩
      · exact .inl ⟨nofun, nofun⟩
      · exact .inl ⟨nofun, nofun⟩
      · exact .inl ⟨nofun, nofun⟩
      · exact .inr ⟨_, List.mem_of_getElem? task, notHex⟩
  | through k d hexData corrupted outcome tracer commands task _ _ arrival =>
      exact .inr (arrived arrival (List.mem_of_getElem? task) rfl mem)
  | woken k d corrupted t outcome tracer commands task _ arrival =>
      exact .inr (arrived arrival (List.mem_of_getElem? task) rfl mem)
  | _ => cases mem

/-- The strings that a node can emit: `startSendRaw` prints the bytes of a packet in hex. -/
def IsHex (hexData : String) : Prop := (unhexlify hexData.toList).isSome

instance : DecidablePred IsHex := fun hexData =>
  inferInstanceAs (Decidable ((unhexlify hexData.toList).isSome = true))

theorem isHex_bytesToHex (bytes : Bytes) : IsHex (bytesToHex bytes) := by
  unfold IsHex
  rw [unhexlify_bytesToHex]
  rfl

/-- Where all links lead to agents and nodes emit hex, every call ends with one of the seven
counted outcomes, and corrupted packets end after the propagation delay. -/
theorem run_endings {time : ℚ} {tracer : Option PacketTracer} {channel : Option ChannelModel}
    (agents : R.LinksToAgents)
    (run : Run R.step (Transmits IsHex) (R.init time tracer channel) w tr) :
    ∀ ending ∈ endings tr, ending.outcome.Counted ∧
      (ending.corrupted = true → ending.outcome ∈ [.halfduplexDrop, .collision, .rx]) := by
  have safe : R.CorruptSafe IsHex := fun _ _ _ _ _ => isHex_bytesToHex
  refine run.invariant (I := fun _ tr => ∀ ending ∈ endings tr, ending.outcome.Counted ∧
    (ending.corrupted = true → ending.outcome ∈ [.halfduplexDrop, .collision, .rx])) ?_ ?_
  · intro ending mem
    cases mem
  · intro s tr e s' out run before _ stepped ending mem
    have carries := run_carries safe run
    rw [endings_append] at mem
    rcases List.mem_append.mp mem with earlier | now
    · exact before ending earlier
    · rcases (step_slice stepped).ending now with ⟨clean, counted | ⟨task, known, notHex⟩⟩ |
        arrived | ⟨task, known, missing⟩
      · exact ⟨counted, fun corrupted => by simp [clean] at corrupted⟩
      · have hex := carries.tasks task known
        simp [IsHex, notHex] at hex
      · refine ⟨?_, fun _ => arrived⟩
        constructor <;> rintro eq <;> simp [eq] at arrived
      · have agent := agents _ _ (carries.links task known)
        simp [missing] at agent

/-- Conservation of deliveries. In every run over a topology whose links all lead to agents,
in which the nodes emit hex, every call of `_deliver_to` that has ended did so with one of the
seven counted outcomes, and as corrupted only with one of the last three; each of the seven
counters stands at the number of calls with its outcome; the counter of corrupted packets at
the number of calls that are flagged; and when nothing is left in flight the seven counters
add up to the number of pairs of a transmission or replay and an outgoing link. -/
theorem conservation (R : PacketRouter) (time : ℚ) (tracer : Option PacketTracer)
    (channel : Option ChannelModel) (w : World) (tr : List Obs)
    (agents : ∀ sender, ∀ link ∈ R.topology.neighbours sender,
      (R.agents.get? link.other).isSome)
    (run : Run R.step (Transmits IsHex) (R.init time tracer channel) w tr) :
    (∀ ending ∈ endings tr, ending.outcome.Counted ∧
      (ending.corrupted = true → ending.outcome ∈ [.halfduplexDrop, .collision, .rx])) ∧
    (∀ receiver outcome, outcome.Counted → w.metrics.counter receiver outcome =
      (endings tr).countP (Ending.counts receiver outcome)) ∧
    w.metrics.advCorruptCount = (endings tr).countP Ending.corrupted + w.flagged ∧
    R.pairs tr = (endings tr).length + R.load w ∧
    (w.tasks = [] → w.broadcasts = [] → w.metrics.total = R.pairs tr) := by
  have balanced := run_balanced run
  have ends := run_endings agents run
  refine ⟨ends, balanced.counters, balanced.corrupted, balanced.calls, ?_⟩
  intro idle sent
  rw [balanced.total fun ending mem => (ends ending mem).1, balanced.calls]
  simp [load, idle, sent]

/-- A sender between a neighbour that corrupts every packet and one that drops every packet. -/
def hostileCell : TopologyConfig where
  nodes := [.named "alice",
    { NodeConfig.named "mallory" with adversarial := some ⟨.corrupt, 1, 0, 1⟩ },
    { NodeConfig.named "trudy" with adversarial := some ⟨.drop, 1, 0, 1⟩ }]
  edges := [⟨"alice", "mallory", 0, 0, 6, none, none⟩, ⟨"alice", "trudy", 0, 0, 6, none, none⟩]
  simulation := ⟨0, 0, 0, 0, 0, "", none, none⟩
  radio := some .default

/-- `alice` sends once; `mallory` receives a corrupted packet and `trudy` drops hers. -/
theorem conservation_hostileCell :
    ∃ R channel w tr, PacketRouter.ofConfig? hostileCell .zero = some R ∧
      R.channel = some channel ∧
      Run R.step (Transmits IsHex) (R.init 0 (some .init) (some channel)) w tr ∧
      w.metrics.advCorruptCount = 1 ∧ w.metrics.total = R.pairs tr := by
  have found : ((PacketRouter.ofConfig? hostileCell .zero).any fun R => R.channel.any fun channel =>
      decide (∀ entry ∈ R.topology.adj.entries, ∀ link ∈ entry.2,
        (R.agents.get? link.other).isSome) &&
      (exec (restrict R.step (Transmits IsHex)) (R.init 0 (some .init) (some channel))
        [.onTx "alice" "0500", .notify 0, .notify 0, .resume 0, .start 0, .start 0, .tick 1,
          .wake 0]).any fun (w, _) =>
        w.tasks.isEmpty ∧ w.broadcasts.isEmpty ∧ w.metrics.advCorruptCount = 1) = true := by
    decide +kernel
  obtain ⟨R, channel, router, model, found⟩ := exists_wired found
  obtain ⟨agents, found⟩ := (Bool.and_eq_true _ _).mp found
  obtain ⟨w, tr, run, found⟩ := Run.of_exec_any found
  obtain ⟨idle, sent, corrupted⟩ := of_decide_eq_true found
  obtain ⟨-, -, -, -, total⟩ := conservation R 0 (some .init) (some channel) w tr
    (linksToAgents_of_entries (of_decide_eq_true agents)) run
  exact ⟨R, channel, w, tr, router, model, run, corrupted,
    total (List.isEmpty_iff.mp idle) (List.isEmpty_iff.mp sent)⟩

end PacketRouter

end MeshcoreSim
