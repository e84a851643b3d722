import Mathlib.Algebra.Order.Field.Rat
import Mathlib.Algebra.Order.Floor.Semiring
import Mathlib.Data.Rat.Floor
import Mathlib.Tactic.Linarith
import MeshcoreSim.Lib.OrderStatistics
import MeshcoreSim.Metrics
import MeshcoreSim.Traffic

/-!
The summary of a simulation (`orchestrator/metrics.py`): `to_dict`, on the whole collector, with
the contacts that are recorded before the shutdown.

The counters of the nodes are default dictionaries: reading a node without a counter writes a zero
for it, so an export changes the collector.

* `summary_counts` — the summary is the count of the recorded events, for any order of the events
  and of the exports and reports between them.
* `delivery_summary` — the rate and the latencies of every run on a clock that does not go back.
-/

namespace MeshcoreSim

open Lib

/-! ### The collector -/

/-- The drops that are counted. -/
inductive Drop where
  | snrBelowThreshold
  | linkLoss
  | collision
  | halfduplex
  | adversarialDrop
  | adversarialCorrupt
  | adversarialReplay
  deriving DecidableEq

structure Collector where
  packets : MetricsCollector
  messages : DeliveryMetrics
  /-- discovered and total contacts -/
  contacts : Dict NodeName (ℕ × ℕ)

namespace MetricsCollector

/-- The method that records a drop. -/
def recordDrop (m : MetricsCollector) : Drop → MetricsCollector
  | .snrBelowThreshold => m.recordSnrDrop
  | .linkLoss => m.recordLinkLoss
  | .collision => m.recordCollision
  | .halfduplex => m.recordHalfduplexDrop
  | .adversarialDrop => m.recordAdversarialDrop
  | .adversarialCorrupt => m.recordAdversarialCorrupt
  | .adversarialReplay => m.recordAdversarialReplay

def dropCount (m : MetricsCollector) : Drop → ℕ
  | .snrBelowThreshold => m.snrDropCount
  | .linkLoss => m.linkLossCount
  | .collision => m.collisionCount
  | .halfduplex => m.halfduplexDropCount
  | .adversarialDrop => m.advDropCount
  | .adversarialCorrupt => m.advCorruptCount
  | .adversarialReplay => m.advReplayCount

/-- `sorted(set(self._tx) | set(self._rx))`. -/
def allNodes (m : MetricsCollector) : List NodeName := sorted (m.tx.keys ++ m.rx.keys).dedup

end MetricsCollector

/-- `d[k]` of a `defaultdict(int)`. -/
def readCounter (d : Dict NodeName ℕ) (k : NodeName) : ℕ × Dict NodeName ℕ :=
  match d.get? k with
  | some n => (n, d)
  | none => (0, d.set k 0)

/-- A row of the table of the nodes. -/
structure NodeRow where
  name : NodeName
  tx : ℕ
  rx : ℕ
  deriving DecidableEq, Repr

namespace MetricsCollector

def readRow (m : MetricsCollector) (n : NodeName) : NodeRow × MetricsCollector :=
  let (tx, txs) := readCounter m.tx n
  let (rx, rxs) := readCounter m.rx n
  (⟨n, tx, rx⟩, { m with tx := txs, rx := rxs })

def readRows (m : MetricsCollector) : List NodeName → List NodeRow × MetricsCollector
  | [] => ([], m)
  | n :: rest =>
      let (row, m) := m.readRow n
      let (rows, m) := m.readRows rest
      (row :: rows, m)

/-- The rows of `to_dict` and of `report`. -/
def perNode (m : MetricsCollector) : List NodeRow × MetricsCollector := m.readRows m.allNodes

end MetricsCollector

/-! ### The export -/

structure LatencyDict where
  minMs : ℚ
  p50Ms : ℚ
  avgMs : ℚ
  p95Ms : ℚ
  maxMs : ℚ
  deriving DecidableEq, Repr

structure MetricsDict where
  attempted : ℕ
  delivered : ℕ
  rate : ℚ
  latency : Option LatencyDict
  ackConfirmed : ℕ
  ackRetries : ℕ
  ackFailed : ℕ
  channelSent : ℕ
  channelRecv : ℕ
  drops : Drop → ℕ
  contacts : List (NodeName × ℕ × ℕ)
  perNode : List NodeRow

/-- `(r.received_at - r.sent_at) * 1000.0`, of a record with a time of arrival. -/
def SendRecord.latencyMs (r : SendRecord) : Option ℚ :=
  r.receivedAt.map fun receivedAt => 1000 * (receivedAt - r.sentAt)

/-- The place of the 95th percentile. -/
def p95Index (n : ℕ) : ℕ := min ⌊(n : ℚ) * (95 / 100)⌋₊ (n - 1)

/-- `none` for an index out of range. -/
def latencyDict (latencies : List ℚ) : Option LatencyDict := do
  let minMs ← latencies[0]?
  let p50Ms ← latencies[latencies.length / 2]?
  let p95Ms ← latencies[p95Index latencies.length]?
  let maxMs ← latencies.getLast?
  return ⟨minMs, p50Ms, average latencies, p95Ms, maxMs⟩

namespace DeliveryMetrics

def latencies (m : DeliveryMetrics) : List ℚ := m.completed.filterMap SendRecord.latencyMs

def deliveryRate (m : DeliveryMetrics) : ℚ :=
  if m.attemptedCount = 0 then 0 else m.completed.length / m.attemptedCount

def avgLatencyMs (m : DeliveryMetrics) : ℚ :=
  if m.latencies = [] then 0 else average m.latencies

/-- The latencies that `to_dict` writes, if there are any. -/
def latencySummary (m : DeliveryMetrics) : Option (Option LatencyDict) :=
  if sorted m.latencies = [] then some none else (latencyDict (sorted m.latencies)).map some

end DeliveryMetrics

namespace Collector

def init : Collector := ⟨.init, .init, .empty⟩

/-- The dictionary of the figures, with these latencies. -/
def figures (c : Collector) (latency : Option LatencyDict) : MetricsDict where
  attempted := c.messages.attemptedCount
  delivered := c.messages.completed.length
  rate := c.messages.deliveryRate
  latency := latency
  ackConfirmed := c.messages.ackConfirmed
  ackRetries := c.messages.ackRetries
  ackFailed := c.messages.ackFailed
  channelSent := c.messages.channelSent
  channelRecv := c.messages.channelRecv
  drops := c.packets.dropCount
  contacts := c.contacts.entries
  perNode := c.packets.perNode.1

/-- `to_dict`, with what it leaves of the collector; `none` if it reads a list out of range. -/
def toDict (c : Collector) : Option MetricsDict × Collector :=
  (c.messages.latencySummary.map c.figures, { c with packets := c.packets.perNode.2 })

/-- What is recorded, and what is read. -/
inductive Event where
  | tx (node : NodeName)
  | rx (receiver : NodeName)
  | drop (kind : Drop)
  | contacts (name : NodeName) (discovered total : ℕ)
  | sendAttempt (now : ℚ) (sender : NodeName) (destPub text : List ℕ)
  | channelSend
  | nodeEvent (now : ℚ) (nodeName : NodeName) (event : JsonValue)
  | toDict
  | report

def apply (c : Collector) : Event → Collector
  | .tx node => { c with packets := c.packets.recordTx node }
  | .rx receiver => { c with packets := c.packets.recordRx receiver }
  | .drop kind => { c with packets := c.packets.recordDrop kind }
  | .contacts name discovered total =>
      { c with contacts := c.contacts.set name (discovered, total) }
  | .sendAttempt now sender destPub text =>
      { c with messages := c.messages.recordSendAttempt now sender destPub text }
  | .channelSend => { c with messages := c.messages.recordChannelSend }
  | .nodeEvent now nodeName event => { c with messages := c.messages.onEvent now nodeName event }
  | .toDict => c.toDict.2
  -- The report reads the same rows, and writes nothing else.
  | .report => { c with packets := c.packets.perNode.2 }

/-- The collector after some events. -/
def after (events : List Event) : Collector := events.foldl apply init

end Collector

/-! ### Latencies -/

/-- The bound on the place of the 95th percentile is never reached. -/
theorem p95Index_lt {n : ℕ} (nonempty : 0 < n) :
    p95Index n < n ∧ p95Index n = ⌊(n : ℚ) * (95 / 100)⌋₊ := by
  have below : ⌊(n : ℚ) * (95 / 100)⌋₊ < n := by
    have positive : (0 : ℚ) < n := by exact_mod_cast nonempty
    rw [Nat.floor_lt (by positivity)]
    linarith
  unfold p95Index
  omega

theorem p95Index_bounds {n : ℕ} (nonempty : 0 < n) :
    n / 2 ≤ p95Index n ∧ 20 * p95Index n ≤ 19 * n ∧ 19 * n < 20 * (p95Index n + 1) := by
  obtain ⟨-, eq⟩ := p95Index_lt nonempty
  have below : ((p95Index n : ℕ) : ℚ) ≤ n * (95 / 100) := eq ▸ Nat.floor_le (by positivity)
  have above : (n : ℚ) * (95 / 100) < (p95Index n : ℕ) + 1 := eq ▸ Nat.lt_floor_add_one _
  have below' : ((20 * p95Index n : ℕ) : ℚ) ≤ (19 * n : ℕ) := by
    push_cast
    linarith
  have above' : ((19 * n : ℕ) : ℚ) < (20 * (p95Index n + 1) : ℕ) := by
    push_cast
    linarith
  have := Nat.cast_le.mp below'
  have := Nat.cast_lt.mp above'
  omega

theorem latencyDict_eq {latencies : List ℚ} (nonempty : 0 < latencies.length)
    (half : latencies.length / 2 < latencies.length)
    (p95 : p95Index latencies.length < latencies.length)
    (last : latencies.length - 1 < latencies.length) :
    latencyDict latencies = some
      ⟨latencies[0], latencies[latencies.length / 2], average latencies,
        latencies[p95Index latencies.length], latencies[latencies.length - 1]⟩ := by
  rw [latencyDict, List.getElem?_eq_getElem nonempty, List.getElem?_eq_getElem half,
    List.getElem?_eq_getElem p95, List.getLast?_eq_getElem?, List.getElem?_eq_getElem last]
  rfl

/-- An export reads no list out of range. -/
theorem latencySummary_isSome (m : DeliveryMetrics) : m.latencySummary.isSome := by
  unfold DeliveryMetrics.latencySummary
  split_ifs with empty
  · rfl
  · have nonempty : 0 < (sorted m.latencies).length := List.length_pos_iff.mpr empty
    rw [latencyDict_eq nonempty (Nat.div_lt_self nonempty one_lt_two) (p95Index_lt nonempty).1
      (Nat.sub_one_lt_of_lt nonempty)]
    rfl

/-- What the figures of some latencies say. -/
structure LatencyExact (latencies : List ℚ) (l : LatencyDict) : Prop where
  least : IsLeast {x | x ∈ latencies} l.minMs
  greatest : IsGreatest {x | x ∈ latencies} l.maxMs
  order : l.minMs ≤ l.p50Ms ∧ l.p50Ms ≤ l.p95Ms ∧ l.p95Ms ≤ l.maxMs
  mean : l.minMs ≤ l.avgMs ∧ l.avgMs ≤ l.maxMs ∧ l.avgMs * latencies.length = latencies.sum
  median : latencies.length < 2 * latencies.countP (· ≤ l.p50Ms) ∧
    latencies.length ≤ 2 * latencies.countP (l.p50Ms ≤ ·)
  percentile : 19 * latencies.length < 20 * latencies.countP (· ≤ l.p95Ms) ∧
    latencies.length ≤ 20 * latencies.countP (l.p95Ms ≤ ·)

/-- The figures that are written for some latencies. -/
theorem latencyExact {latencies : List ℚ} {l : LatencyDict} (any : 0 < latencies.length)
    (written : latencyDict (sorted latencies) = some l) : LatencyExact latencies l := by
  have sameLength := length_sorted latencies
  have nonempty : 0 < (sorted latencies).length := by omega
  have half := Nat.div_lt_self nonempty one_lt_two
  have p95 := (p95Index_lt nonempty).1
  have last := Nat.sub_one_lt_of_lt nonempty
  obtain ⟨halfLe, low, high⟩ := p95Index_bounds nonempty
  rw [latencyDict_eq nonempty half p95 last] at written
  obtain rfl := Option.some.inj written
  have inside {k : ℕ} (here : k < (sorted latencies).length) : (sorted latencies)[k] ∈ latencies :=
    mem_sorted.mp (List.getElem_mem here)
  have least : ∀ x ∈ latencies, (sorted latencies)[0] ≤ x := by
    intro x mem
    obtain ⟨k, here, rfl⟩ := List.mem_iff_getElem.mp (mem_sorted.mpr mem)
    exact getElem_sorted_le (Nat.zero_le k) here
  have greatest : ∀ x ∈ latencies, x ≤ (sorted latencies)[(sorted latencies).length - 1] := by
    intro x mem
    obtain ⟨k, here, rfl⟩ := List.mem_iff_getElem.mp (mem_sorted.mpr mem)
    exact getElem_sorted_le (Nat.le_sub_one_of_lt here) last
  have ne : latencies ≠ [] := List.ne_nil_of_length_pos any
  have mean : average (sorted latencies) = average latencies := by
    rw [average, average, (sorted_perm latencies).sum_eq, length_sorted]
  have countHalf := lt_countP half
  have countHalf' := length_sub_le_countP half
  have countP95 := lt_countP p95
  have countP95' := length_sub_le_countP p95
  refine ⟨⟨inside nonempty, least⟩, ⟨inside last, greatest⟩, ⟨?_, ?_, ?_⟩, ⟨?_, ?_, ?_⟩, ?_, ?_⟩
  · exact getElem_sorted_le (Nat.zero_le _) half
  · exact getElem_sorted_le halfLe p95
  · exact getElem_sorted_le (Nat.le_sub_one_of_lt p95) last
  · exact mean ▸ le_average ne least
  · exact mean ▸ average_le ne greatest
  · have positive : (latencies.length : ℚ) ≠ 0 := by exact_mod_cast any.ne'
    rw [mean, average, div_mul_cancel₀ _ positive]
  · dsimp only
    omega
  · dsimp only
    omega

/-! ### Reading the rows -/

@[simp] theorem readCounter_fst (d : Dict NodeName ℕ) (k : NodeName) :
    (readCounter d k).1 = (d.get? k).getD 0 := by
  unfold readCounter
  split <;> simp [*]

/-- A read leaves every count as it is. -/
@[simp] theorem getD_readCounter (d : Dict NodeName ℕ) (k k' : NodeName) :
    ((readCounter d k).2.get? k').getD 0 = (d.get? k').getD 0 := by
  unfold readCounter
  split
  · rfl
  · rename_i absent
    rw [Dict.get?_set]
    split_ifs with same
    · rw [same, absent]
      rfl
    · rfl

theorem mem_keys_readCounter {d : Dict NodeName ℕ} {k k' : NodeName} :
    k' ∈ (readCounter d k).2.keys ↔ k' = k ∨ k' ∈ d.keys := by
  unfold readCounter
  split
  · rename_i known
    refine ⟨.inr, ?_⟩
    rintro (rfl | mem)
    · rw [Dict.mem_keys_iff, known]
      rfl
    · exact mem
  · rw [Dict.keys_set]
    split_ifs with known
    · refine ⟨.inr, ?_⟩
      rintro (rfl | mem)
      exacts [known, mem]
    · rw [List.mem_append, List.mem_singleton]
      exact Or.comm

namespace MetricsCollector

variable {m m' : MetricsCollector} {n : NodeName}

theorem mem_allNodes : n ∈ m.allNodes ↔ n ∈ m.tx.keys ∨ n ∈ m.rx.keys := by
  rw [allNodes, mem_sorted, List.mem_dedup, List.mem_append]

/-- Reading some rows leaves the counts as they are, and makes the nodes known. -/
structure Read (m : MetricsCollector) (names : List NodeName) (m' : MetricsCollector) : Prop where
  tx : ∀ n, m'.txOf n = m.txOf n
  rx : ∀ n, m'.rxOf n = m.rxOf n
  drops : m'.dropCount = m.dropCount
  known : ∀ n, n ∈ m'.allNodes ↔ n ∈ names ∨ n ∈ m.allNodes

theorem read_readRow (m : MetricsCollector) (n : NodeName) : Read m [n] (m.readRow n).2 where
  tx n' := getD_readCounter m.tx n n'
  rx n' := getD_readCounter m.rx n n'
  drops := by
    funext kind
    cases kind <;> rfl
  known n' := by
    simp only [mem_allNodes, readRow, mem_keys_readCounter, List.mem_singleton]
    grind

theorem Read.trans {m'' : MetricsCollector} {names names' : List NodeName} (first : Read m names m')
    (second : Read m' names' m'') : Read m (names ++ names') m'' where
  tx n := (second.tx n).trans (first.tx n)
  rx n := (second.rx n).trans (first.rx n)
  drops := second.drops.trans first.drops
  known n := by
    rw [second.known, first.known, List.mem_append]
    grind

theorem read_readRows (m : MetricsCollector) (names : List NodeName) :
    Read m names (m.readRows names).2 := by
  induction names generalizing m with
  | nil => exact ⟨fun _ => rfl, fun _ => rfl, rfl, by simp [readRows]⟩
  | cons n rest ih => exact (read_readRow m n).trans (ih (m.readRow n).2)

/-- The rows that are read are those of the counts. -/
theorem readRows_fst (m : MetricsCollector) (names : List NodeName) :
    (m.readRows names).1 = names.map fun n => ⟨n, m.txOf n, m.rxOf n⟩ := by
  induction names generalizing m with
  | nil => rfl
  | cons n rest ih =>
      have read := read_readRow m n
      have row : (m.readRow n).1 = ⟨n, m.txOf n, m.rxOf n⟩ := by
        simp [readRow, txOf, rxOf]
      simp only [readRows, row, ih, List.map_cons, read.tx, read.rx]

theorem pairwise_allNodes (m : MetricsCollector) : m.allNodes.Pairwise (· < ·) := by
  have distinct : m.allNodes.Nodup := (sorted_perm _).nodup_iff.mpr (List.nodup_dedup _)
  exact ((pairwise_sorted _).and distinct).imp fun both => Std.lt_of_le_of_ne both.1 both.2

/-- Two tables with the same nodes and counts are the same. -/
theorem perNode_congr (known : ∀ n, n ∈ m'.allNodes ↔ n ∈ m.allNodes)
    (tx : ∀ n, m'.txOf n = m.txOf n) (rx : ∀ n, m'.rxOf n = m.rxOf n) :
    m'.perNode.1 = m.perNode.1 := by
  have perm : m'.allNodes.Perm m.allNodes :=
    (List.perm_ext_iff_of_nodup ((pairwise_allNodes m').imp fun lt => Std.ne_of_lt lt)
      ((pairwise_allNodes m).imp fun lt => Std.ne_of_lt lt)).mpr known
  have same : m'.allNodes = m.allNodes := perm.eq_of_pairwise
    (fun _ _ _ _ lt gt => absurd gt (Std.not_gt_of_lt lt)) (pairwise_allNodes m')
    (pairwise_allNodes m)
  simp only [perNode, readRows_fst, same, tx, rx]

end MetricsCollector

/-! ### The summary counts what is recorded -/

namespace Collector

namespace Event

def isTx (node : NodeName) : Event → Bool
  | .tx node' => node' = node
  | _ => false

def isRx (receiver : NodeName) : Event → Bool
  | .rx receiver' => receiver' = receiver
  | _ => false

def isDrop (kind : Drop) : Event → Bool
  | .drop kind' => kind' = kind
  | _ => false

/-- A node has logged a message that starts with the text of an outcome. -/
def isLogged (outcome : String) : Event → Bool
  | .nodeEvent _ _ event => (DeliveryMetrics.logged? event).any fun msg => points outcome <+: msg
  | _ => false

def isChannelSend : Event → Bool
  | .channelSend => true
  | _ => false

def isChannelRecv : Event → Bool
  | .nodeEvent _ _ event => DeliveryMetrics.receivesChannel event
  | _ => false

def contact? : Event → Option (NodeName × ℕ × ℕ)
  | .contacts name discovered total => some (name, discovered, total)
  | _ => none

/-- An export or a report. -/
def isRead : Event → Bool
  | .toDict | .report => true
  | _ => false

end Event

/-- The messages part of a collector after an event. -/
def recordMessage (m : DeliveryMetrics) : Event → DeliveryMetrics
  | .sendAttempt now sender destPub text => m.recordSendAttempt now sender destPub text
  | .channelSend => m.recordChannelSend
  | .nodeEvent now nodeName event => m.onEvent now nodeName event
  | _ => m

/-- A collector holds what some events recorded. -/
structure Recorded (events : List Event) (c : Collector) : Prop where
  tx : ∀ n, c.packets.txOf n = events.countP (Event.isTx n)
  rx : ∀ n, c.packets.rxOf n = events.countP (Event.isRx n)
  known : ∀ n, n ∈ c.packets.allNodes ↔ 0 < c.packets.txOf n + c.packets.rxOf n
  drops : ∀ kind, c.packets.dropCount kind = events.countP (Event.isDrop kind)
  contacts : c.contacts = Dict.ofList (events.filterMap Event.contact?)
  messages : c.messages = events.foldl recordMessage .init

variable {events : List Event} {c : Collector}

/-- What an event does to the counters of a collector. -/
theorem Recorded.concat_of {c' : Collector} {e : Event} (kept : Recorded events c)
    (tx : ∀ n, c'.packets.txOf n = c.packets.txOf n + (e.isTx n).toNat)
    (rx : ∀ n, c'.packets.rxOf n = c.packets.rxOf n + (e.isRx n).toNat)
    (known : ∀ n, n ∈ c'.packets.allNodes ↔
      0 < (e.isTx n).toNat + (e.isRx n).toNat ∨ n ∈ c.packets.allNodes)
    (drops : ∀ kind, c'.packets.dropCount kind =
      c.packets.dropCount kind + (e.isDrop kind).toNat)
    (contacts : c'.contacts =
      e.contact?.elim c.contacts fun entry => c.contacts.set entry.1 entry.2)
    (messages : c'.messages = recordMessage c.messages e) : Recorded (events ++ [e]) c' where
  tx n := by
    rw [tx, kept.tx, List.countP_append, List.countP_singleton, Bool.toNat]
    cases e.isTx n <;> rfl
  rx n := by
    rw [rx, kept.rx, List.countP_append, List.countP_singleton, Bool.toNat]
    cases e.isRx n <;> rfl
  known n := by
    rw [known, kept.known, tx, rx]
    omega
  drops kind := by
    rw [drops, kept.drops, List.countP_append, List.countP_singleton, Bool.toNat]
    cases e.isDrop kind <;> rfl
  contacts := by
    rw [contacts, kept.contacts, List.filterMap_append]
    cases given : e.contact? with
    | none => simp [given]
    | some entry => simp [given, Dict.ofList_concat]
  messages := by rw [messages, kept.messages, List.foldl_concat]

theorem dropCount_recordDrop (m : MetricsCollector) (kind kind' : Drop) :
    (m.recordDrop kind).dropCount kind' = m.dropCount kind' + if kind = kind' then 1 else 0 := by
  cases kind <;> cases kind' <;> rfl

theorem mem_keys_incr (d : Dict NodeName ℕ) (k k' : NodeName) :
    k' ∈ (d.incr k).keys ↔ k = k' ∨ k' ∈ d.keys := by
  rw [Dict.mem_keys_iff, Dict.mem_keys_iff, Dict.incr, Dict.get?_set]
  split_ifs with same
  · simp [same]
  · simp [Ne.symm same]

theorem perNode_recorded (kept : Recorded events c) :
    Recorded events { c with packets := c.packets.perNode.2 } := by
  have read := MetricsCollector.read_readRows c.packets c.packets.allNodes
  refine ⟨fun n => (read.tx n).trans (kept.tx n), fun n => (read.rx n).trans (kept.rx n), ?_,
    fun kind => (congrFun read.drops kind).trans (kept.drops kind), kept.contacts, kept.messages⟩
  intro n
  exact (read.known n).trans ((or_self_iff).trans ((kept.known n).trans (by
    rw [MetricsCollector.perNode, read.tx, read.rx])))

theorem recorded_apply (kept : Recorded events c) (e : Event) :
    Recorded (events ++ [e]) (c.apply e) := by
  have known (n : NodeName) : n ∈ c.packets.allNodes ↔ 0 < 0 ∨ n ∈ c.packets.allNodes := by simp
  cases e with
  | tx node =>
      refine kept.concat_of (fun n => ?_) (fun _ => rfl) (fun n => ?_) (fun kind => ?_) rfl rfl
      · refine (Dict.get?_incr c.packets.tx node n).trans ?_
        by_cases same : node = n <;> simp [Event.isTx, same, MetricsCollector.txOf, eq_comm]
      · refine MetricsCollector.mem_allNodes.trans ?_
        rw [MetricsCollector.mem_allNodes]
        by_cases same : node = n <;>
          simp [Event.isTx, Event.isRx, same, apply, MetricsCollector.recordTx, mem_keys_incr]
      · cases kind <;> rfl
  | rx receiver =>
      refine kept.concat_of (fun _ => rfl) (fun n => ?_) (fun n => ?_) (fun kind => ?_) rfl rfl
      · refine (c.packets.rxOf_recordRx receiver n).trans ?_
        by_cases same : receiver = n <;> simp [Event.isRx, same, eq_comm]
      · refine MetricsCollector.mem_allNodes.trans ?_
        rw [MetricsCollector.mem_allNodes]
        by_cases same : receiver = n <;>
          simp [Event.isTx, Event.isRx, same, apply, MetricsCollector.recordRx, mem_keys_incr]
      · cases kind <;> rfl
  | drop kind =>
      have tables : (c.packets.recordDrop kind).tx = c.packets.tx ∧
          (c.packets.recordDrop kind).rx = c.packets.rx := by
        cases kind <;> exact ⟨rfl, rfl⟩
      refine kept.concat_of (fun n => ?_) (fun n => ?_) (fun n => ?_) (fun kind' => ?_) rfl rfl
      · simp [apply, MetricsCollector.txOf, tables, Event.isTx]
      · simp [apply, MetricsCollector.rxOf, tables, Event.isRx]
      · rw [MetricsCollector.mem_allNodes, MetricsCollector.mem_allNodes]
        simp [apply, tables, Event.isTx, Event.isRx]
      · refine (dropCount_recordDrop c.packets kind kind').trans ?_
        by_cases same : kind = kind' <;> simp [Event.isDrop, same]
  | contacts name discovered total =>
      exact kept.concat_of (fun _ => rfl) (fun _ => rfl) known (fun _ => rfl) rfl rfl
  | sendAttempt now sender destPub text =>
      exact kept.concat_of (fun _ => rfl) (fun _ => rfl) known (fun _ => rfl) rfl rfl
  | channelSend => exact kept.concat_of (fun _ => rfl) (fun _ => rfl) known (fun _ => rfl) rfl rfl
  | nodeEvent now nodeName event =>
      exact kept.concat_of (fun _ => rfl) (fun _ => rfl) known (fun _ => rfl) rfl rfl
  | toDict =>
      exact (perNode_recorded kept).concat_of (fun _ => rfl) (fun _ => rfl)
        (by simp [Event.isTx, Event.isRx, apply, toDict]) (fun _ => rfl) rfl rfl
  | report =>
      exact (perNode_recorded kept).concat_of (fun _ => rfl) (fun _ => rfl)
        (by simp [Event.isTx, Event.isRx, apply]) (fun _ => rfl) rfl rfl

theorem recorded_after (events : List Event) : Recorded events (after events) := by
  induction events using List.reverseRecOn with
  | nil =>
      refine ⟨fun _ => rfl, fun _ => rfl, fun n => ?_, fun kind => ?_, rfl, rfl⟩
      · rw [MetricsCollector.mem_allNodes]
        exact iff_of_false (by rintro (mem | mem) <;> cases mem) (lt_irrefl 0)
      · cases kind <;> rfl
  | append_singleton events e ih =>
      rw [after, List.foldl_concat]
      exact recorded_apply ih e

/-- A count that each event raises or leaves is the number of the events that raise it. -/
theorem count_messages {f : DeliveryMetrics → ℕ} {p : Event → Bool}
    (adds : ∀ m e, f (recordMessage m e) = f m + (p e).toNat) (events : List Event)
    (m : DeliveryMetrics) : f (events.foldl recordMessage m) = f m + events.countP p := by
  induction events generalizing m with
  | nil => rfl
  | cons e events ih =>
      rw [List.foldl_cons, ih, adds, List.countP_cons]
      cases p e with
      | false => simp
      | true =>
          simp only [Bool.toNat_true, if_true]
          omega

/-- What the summary of some events says. -/
structure SummaryCounts (events : List Event) (d : MetricsDict) : Prop where
  names : (d.perNode.map NodeRow.name).Pairwise (· < ·)
  rows : ∀ row, row ∈ d.perNode ↔ row.tx = events.countP (Event.isTx row.name) ∧
    row.rx = events.countP (Event.isRx row.name) ∧ 0 < row.tx + row.rx
  drops : ∀ kind, d.drops kind = events.countP (Event.isDrop kind)
  contacts : d.contacts = (Dict.ofList (events.filterMap Event.contact?)).entries
  confirmed : d.ackConfirmed = events.countP (Event.isLogged "ACK confirmed")
  retries : d.ackRetries = events.countP (Event.isLogged "ACK timeout")
  failed : d.ackFailed = events.countP (Event.isLogged "msg delivery failed")
  channelSent : d.channelSent = events.countP Event.isChannelSend
  channelRecv : d.channelRecv = events.countP Event.isChannelRecv

/-- The figures of a collector that holds what some events recorded. -/
theorem Recorded.counts (kept : Recorded events c) (latency : Option LatencyDict) :
    SummaryCounts events (c.figures latency) := by
  have rows : (c.figures latency).perNode =
      c.packets.allNodes.map fun n => ⟨n, c.packets.txOf n, c.packets.rxOf n⟩ :=
    c.packets.readRows_fst c.packets.allNodes
  have messages {f : DeliveryMetrics → ℕ} {p : Event → Bool} (none : f .init = 0)
      (adds : ∀ m e, f (recordMessage m e) = f m + (p e).toNat) :
      f c.messages = events.countP p := by
    rw [kept.messages, count_messages adds, none, zero_add]
  refine ⟨?_, fun row => ?_, kept.drops, congrArg Dict.entries kept.contacts,
    messages (f := DeliveryMetrics.ackConfirmed) rfl ?_,
    messages (f := DeliveryMetrics.ackRetries) rfl ?_,
    messages (f := DeliveryMetrics.ackFailed) rfl ?_,
    messages (f := DeliveryMetrics.channelSent) rfl ?_,
    messages (f := DeliveryMetrics.channelRecv) rfl ?_⟩
  · rw [rows, List.map_map]
    simpa [Function.comp_def] using c.packets.pairwise_allNodes
  · rw [rows, List.mem_map]
    constructor
    · rintro ⟨n, mem, rfl⟩
      exact ⟨kept.tx n, kept.rx n, (kept.known n).mp mem⟩
    · rintro ⟨tx, rx, positive⟩
      rw [← kept.tx] at tx
      rw [← kept.rx] at rx
      refine ⟨row.name, (kept.known row.name).mpr (by rwa [tx, rx] at positive), ?_⟩
      rw [← tx, ← rx]
  all_goals
    rintro m (_ | _ | _ | _ | _ | _ | ⟨now, nodeName, event⟩ | _ | _) <;>
      first
        | rfl
        | simp [recordMessage, Event.isLogged, Event.isChannelSend, Event.isChannelRecv,
            DeliveryMetrics.onEvent_eq]

/-- Collectors that hold what the same recordings left export the same. -/
theorem Recorded.toDict_congr {events' : List Event} {c' : Collector} (kept : Recorded events c)
    (kept' : Recorded events' c')
    (same : events'.filter (fun e => !e.isRead) = events.filter fun e => !e.isRead) :
    c'.toDict.1 = c.toDict.1 := by
  have count {p : Event → Bool} (recording : ∀ e, p e = true → e.isRead = false) :
      events'.countP p = events.countP p := by
    have split (l : List Event) : l.countP p = (l.filter fun e => !e.isRead).countP p := by
      rw [List.countP_filter]
      refine List.countP_congr fun e _ => ?_
      simpa using recording e
    rw [split, split events, same]
  have tx (n : NodeName) : c'.packets.txOf n = c.packets.txOf n := by
    rw [kept.tx, kept'.tx]
    exact count fun e => by cases e <;> simp [Event.isTx, Event.isRead]
  have rx (n : NodeName) : c'.packets.rxOf n = c.packets.rxOf n := by
    rw [kept.rx, kept'.rx]
    exact count fun e => by cases e <;> simp [Event.isRx, Event.isRead]
  have perNode := MetricsCollector.perNode_congr
    (fun n => by rw [kept.known, kept'.known, tx, rx]) tx rx
  have drops : c'.packets.dropCount = c.packets.dropCount := by
    funext kind
    rw [kept.drops, kept'.drops]
    exact count fun e => by cases e <;> simp [Event.isDrop, Event.isRead]
  have contacts : c'.contacts = c.contacts := by
    have split (l : List Event) : l.filterMap Event.contact? =
        (l.filter fun e => !e.isRead).filterMap Event.contact? := by
      rw [List.filterMap_filter]
      refine List.filterMap_congr fun e _ => ?_
      cases e <;> rfl
    rw [kept.contacts, kept'.contacts, split, split events, same]
  have messages : c'.messages = c.messages := by
    have split (l : List Event) (m : DeliveryMetrics) : l.foldl recordMessage m =
        (l.filter fun e => !e.isRead).foldl recordMessage m := by
      induction l generalizing m with
      | nil => rfl
      | cons e l ih => cases e <;> exact ih _
    rw [kept.messages, kept'.messages, split, split events, same]
  have figures : c'.figures = c.figures := by
    funext latency
    simp only [figures, perNode, drops, contacts, messages]
  rw [toDict, toDict, figures, messages]

/-- Whatever is recorded, in whatever order, and however often the collector is read in between,
the summary is defined and counts what was recorded. -/
theorem summary_counts (events : List Event) :
    ∃ d, (after events).toDict.1 = some d ∧ SummaryCounts events d ∧
      (after (events.filter fun e => !e.isRead)).toDict.1 = some d := by
  obtain ⟨latency, defined⟩ := Option.isSome_iff_exists.mp
    (latencySummary_isSome (after events).messages)
  have recorded := recorded_after events
  have exported : (after events).toDict.1 = some ((after events).figures latency) := by
    rw [toDict, defined]
    rfl
  refine ⟨_, exported, recorded.counts latency, ?_⟩
  rw [← exported]
  exact recorded.toDict_congr (recorded_after _) (by simp)

end Collector

/-! ### Latencies -/

namespace DeliveryMetrics

/-- An event in order of the clock, with the time that it happens at. -/
def TrafficEvent.now : TrafficEvent → ℚ
  | .sendRandom now _ _ _ _ _ => now
  | .onEvent now _ _ => now

/-- A step that reads the clock. -/
def clockStep (s : ℚ × DeliveryMetrics) (e : TrafficEvent) :
    Option ((ℚ × DeliveryMetrics) × List SendRecord) :=
  (s.2.step e).map fun r => ((e.now, r.1), r.2)

/-- The clock, a monotonic one, does not go back. -/
def InOrder (s : ℚ × DeliveryMetrics) (e : TrafficEvent) : Prop := s.1 ≤ e.now

variable {start clock : ℚ} {m : DeliveryMetrics} {attempts : List SendRecord}

/-- The times of the records lie in the run. -/
structure TimesWithin (start clock : ℚ) (m : DeliveryMetrics) : Prop where
  pending : ∀ record ∈ m.pending.values, start ≤ record.sentAt ∧ record.sentAt ≤ clock
  completed : ∀ record ∈ m.completed, start ≤ record.sentAt ∧
    ∃ receivedAt, record.receivedAt = some receivedAt ∧ record.sentAt ≤ receivedAt ∧
      receivedAt ≤ clock

theorem TimesWithin.mono {now : ℚ} (kept : TimesWithin start clock m) (later : clock ≤ now) :
    TimesWithin start now m where
  pending record mem := (kept.pending record mem).imp_right fun le => le.trans later
  completed record mem := by
    obtain ⟨since, receivedAt, received, after, before⟩ := kept.completed record mem
    exact ⟨since, receivedAt, received, after, before.trans later⟩

theorem TimesWithin.recordSendAttempt {now : ℚ} (kept : TimesWithin start now m)
    (since : start ≤ now) (sender : NodeName) (destPub text : List ℕ) :
    TimesWithin start now (m.recordSendAttempt now sender destPub text) where
  completed := kept.completed
  pending record mem := by
    rcases List.mem_cons.mp ((m.pending.values_set_perm text _).mem_iff.mp mem) with rfl | old
    · exact ⟨since, le_refl _⟩
    · exact kept.pending record ((m.pending.values_erase_sublist text).subset old)

theorem TimesWithin.receiveText {now : ℚ} (kept : TimesWithin start now m) (nodeName : NodeName)
    (text : List ℕ) : TimesWithin start now (m.receiveText now nodeName text) := by
  unfold DeliveryMetrics.receiveText
  split
  · rename_i record known
    refine ⟨fun r mem => kept.pending r ((m.pending.values_erase_sublist text).subset mem), ?_⟩
    intro r mem
    rcases List.mem_append.mp mem with old | new
    · exact kept.completed r old
    · obtain rfl := List.mem_singleton.mp new
      have here : record ∈ m.pending.values :=
        (m.pending.values_perm_erase known).mem_iff.mpr List.mem_cons_self
      obtain ⟨since, before⟩ := kept.pending record here
      exact ⟨since, now, rfl, before, le_refl _⟩
  · exact kept

theorem TimesWithin.onEvent {now : ℚ} (kept : TimesWithin start now m) (nodeName : NodeName)
    (event : JsonValue) : TimesWithin start now (m.onEvent now nodeName event) := by
  by_cases carries : ∃ text, Carries text event
  · obtain ⟨text, carries⟩ := carries
    rw [onEvent_of_carries carries]
    exact kept.receiveText nodeName text
  · have others : ∀ text, Carries text event → m.pending.get? text = none :=
      fun text here => absurd ⟨text, here⟩ carries
    obtain ⟨pending, completed⟩ := @onEvent_other _ now nodeName _ others
    exact ⟨pending ▸ kept.pending, completed ▸ kept.completed⟩

theorem TimesWithin.step {e : TrafficEvent} {m' : DeliveryMetrics} {out : List SendRecord}
    (kept : TimesWithin start e.now m) (since : start ≤ e.now)
    (stepped : m.step e = some (m', out)) : TimesWithin start e.now m' := by
  cases e with
  | sendRandom now clock roll sender endpointPubs choice =>
      obtain ⟨rfl, rfl⟩ := Prod.mk.inj (Option.some.inj stepped)
      unfold sendRandom
      split_ifs with channel
      · exact ⟨kept.pending, kept.completed⟩
      · split
        · exact kept
        · exact kept.recordSendAttempt since _ _ _
  | onEvent now nodeName event =>
      obtain ⟨rfl, rfl⟩ := Prod.mk.inj (Option.some.inj stepped)
      exact kept.onEvent nodeName event

/-- The records of every run lie in its time. -/
theorem timesWithin {s : ℚ × DeliveryMetrics}
    (run : Run clockStep InOrder (start, init) s attempts) :
    start ≤ s.1 ∧ TimesWithin start s.1 s.2 := by
  refine run.invariant (I := fun s _ => start ≤ s.1 ∧ TimesWithin start s.1 s.2)
    ⟨le_refl _, nofun, nofun⟩ ?_
  rintro ⟨clock, m⟩ tr e s' out - ⟨since, kept⟩ inOrder stepped
  obtain ⟨⟨m', out'⟩, taken, same⟩ := Option.map_eq_some_iff.mp stepped
  obtain ⟨rfl, rfl⟩ := Prod.mk.inj same
  have later := since.trans inOrder
  exact ⟨later, (kept.mono inOrder).step later taken⟩

/-- A run with a clock is a run. -/
theorem run_of_clock {s : ℚ × DeliveryMetrics}
    (run : Run clockStep InOrder (start, init) s attempts) :
    Run DeliveryMetrics.step anyStep init s.2 attempts := by
  induction run with
  | start => exact .start
  | next _ _ stepped ih =>
      obtain ⟨⟨m', out'⟩, taken, same⟩ := Option.map_eq_some_iff.mp stepped
      obtain ⟨rfl, rfl⟩ := Prod.mk.inj same
      exact ih.next trivial taken

/-! ### The deliveries of a run -/

/-- What the summary says about the deliveries of a run. -/
structure DeliveryExact (start clock : ℚ) (m : DeliveryMetrics) (attempts : List SendRecord)
    (d : MetricsDict) : Prop where
  attempted : d.delivered ≤ d.attempted ∧ d.attempted ≤ attempts.length
  rate : 0 ≤ d.rate ∧ d.rate ≤ 1 ∧ d.rate * d.attempted = d.delivered
  measured : m.latencies.length = d.delivered
  within : ∀ x ∈ m.latencies, 0 ≤ x ∧ x ≤ 1000 * (clock - start)
  none_iff : d.latency = none ↔ d.delivered = 0
  figures : ∀ l, d.latency = some l → LatencyExact m.latencies l ∧ l.avgMs = m.avgLatencyMs

/-- What is written for the latencies. -/
theorem latencySummary_cases {latency : Option LatencyDict}
    (defined : m.latencySummary = some latency) :
    (m.latencies = [] ∧ latency = none) ∨
      ∃ l, latency = some l ∧ m.latencies ≠ [] ∧ latencyDict (sorted m.latencies) = some l := by
  unfold latencySummary at defined
  split_ifs at defined with empty
  · refine .inl ⟨?_, (Option.some.inj defined).symm⟩
    exact List.length_eq_zero_iff.mp (by rw [← length_sorted, empty]; rfl)
  · obtain ⟨l, written, rfl⟩ := Option.map_eq_some_iff.mp defined
    refine .inr ⟨l, rfl, ?_, written⟩
    rintro none
    rw [none] at empty
    exact empty (List.length_eq_zero_iff.mp (length_sorted []))

theorem rate_bounds (m : DeliveryMetrics) : 0 ≤ m.deliveryRate ∧ m.deliveryRate ≤ 1 ∧
    m.deliveryRate * m.attemptedCount = m.completed.length := by
  have fewer : m.completed.length ≤ m.attemptedCount := Nat.le_add_right _ _
  have fewer' : (m.completed.length : ℚ) ≤ m.attemptedCount := by exact_mod_cast fewer
  unfold deliveryRate
  split_ifs with none
  · refine ⟨le_refl _, zero_le_one, ?_⟩
    have nothing : m.completed.length = 0 := Nat.le_zero.mp (none ▸ fewer)
    simp [nothing]
  · have positive : (0 : ℚ) < m.attemptedCount := by exact_mod_cast Nat.pos_of_ne_zero none
    exact ⟨by positivity, (div_le_one positive).mpr fewer', div_mul_cancel₀ _ positive.ne'⟩

/-- Every delivery has been timed. -/
theorem TimesWithin.length_latencies (kept : TimesWithin start clock m) :
    m.latencies.length = m.completed.length := by
  refine List.filterMap_length_eq_length.mpr fun record mem => ?_
  obtain ⟨-, receivedAt, received, -⟩ := kept.completed record mem
  rw [SendRecord.latencyMs, received]
  rfl

theorem TimesWithin.latencies (kept : TimesWithin start clock m) :
    ∀ x ∈ m.latencies, 0 ≤ x ∧ x ≤ 1000 * (clock - start) := by
  intro x mem
  obtain ⟨record, here, timed⟩ := List.mem_filterMap.mp mem
  obtain ⟨since, receivedAt, received, after, before⟩ := kept.completed record here
  rw [SendRecord.latencyMs, received] at timed
  obtain rfl := Option.some.inj timed
  constructor <;> linarith

/-- In every run on a clock that does not go back, the summary of the deliveries is exact. -/
theorem delivery_summary {start clock : ℚ} {m : DeliveryMetrics} {attempts : List SendRecord}
    (run : Run clockStep InOrder (start, init) (clock, m) attempts) (packets : MetricsCollector)
    (contacts : Dict NodeName (ℕ × ℕ)) :
    ∃ d, (Collector.mk packets m contacts).toDict.1 = some d ∧
      DeliveryExact start clock m attempts d := by
  obtain ⟨-, kept⟩ := timesWithin run
  obtain ⟨latency, defined⟩ := Option.isSome_iff_exists.mp (latencySummary_isSome m)
  have measured := kept.length_latencies
  refine ⟨_, congrArg (Option.map (Collector.mk packets m contacts).figures) defined,
    ⟨Nat.le_add_right _ _, attemptedCount_le (accounted (run_of_clock run))⟩, rate_bounds m,
    measured, kept.latencies, ?_, ?_⟩
  · rcases latencySummary_cases defined with ⟨empty, rfl⟩ | ⟨l, rfl, some, -⟩
    · rw [empty] at measured
      exact iff_of_true rfl measured.symm
    · refine iff_of_false (Option.some_ne_none l) fun none => some ?_
      exact List.length_eq_zero_iff.mp (measured.trans none)
  · intro l written
    rcases latencySummary_cases defined with ⟨-, rfl⟩ | ⟨l', rfl, some, listed⟩
    · cases written
    · obtain rfl := Option.some.inj written
      have exactly := latencyExact (List.length_pos_iff.mpr some) listed
      refine ⟨exactly, ?_⟩
      have positive : (m.latencies.length : ℚ) ≠ 0 := by
        exact_mod_cast (List.length_pos_iff.mpr some).ne'
      rw [avgLatencyMs, if_neg some, average, eq_div_iff positive]
      exact exactly.mean.2.2

/-- `bob` prints a text of `alice` at a time in seconds. -/
def bobPrints (now sent : ℚ) : TrafficEvent :=
  .onEvent now "bob" (.object [(points "type", .string (points "recv_text")),
    (points "text", .string (stamped "hello" "alice" sent))])

/-- Two texts, of which one arrives after half a second. -/
theorem delivery_summary_half : ∃ m attempts d,
    Run clockStep InOrder (0, init) (5 / 2, m) attempts ∧
      m.completed.length = 1 ∧ m.pending.entries.length = 1 ∧
      (Collector.mk .init m .empty).toDict.1 = some d ∧ DeliveryExact 0 (5 / 2) m attempts d := by
  have inOrder (s : ℚ × DeliveryMetrics) (e : TrafficEvent) (le : s.1 ≤ e.now) : InOrder s e := le
  have run : Run clockStep InOrder (0, init) _ _ :=
    ((Run.start.next (e := aliceSends 1) (inOrder _ _ (by decide +kernel)) rfl).next
      (e := aliceSends 2) (inOrder _ _ (by decide +kernel)) rfl).next
      (e := bobPrints (5 / 2) 2) (inOrder _ _ (by decide +kernel)) rfl
  obtain ⟨d, exported, exactly⟩ := delivery_summary run .init .empty
  exact ⟨_, _, d, run, by decide +kernel, by decide +kernel, exported, exactly⟩

end DeliveryMetrics

end MeshcoreSim
