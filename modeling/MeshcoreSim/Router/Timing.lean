import MeshcoreSim.Channel.Survival
import MeshcoreSim.Orchestrator
import MeshcoreSim.Router.Slices

/-!
When transmissions are registered and when verdicts are taken.

A transmission is registered at the instant it starts (`registered_between`), and a verdict is
taken no earlier than the end of the packet plus the latency of the link (`verdict_deadline`).
So a transmission that is registered after the verdict starts too late to touch the packet:

* `no_late_interferer` — every transmission that counts against a packet is registered before
  its verdict, when the channel model's latency for the pair of nodes is not larger than that
  of the link.
* `late_interferer` — the channel model has one latency for a pair of nodes; over parallel
  links of different latencies it can look for interferers that are still to come.
-/

namespace MeshcoreSim

open Lib

/-- A transmission of the receiver itself during the packet's reception. -/
def Delivery.Blocks (d : Delivery) (window : Window ℚ) (record : TxRecord) : Prop :=
  record.sender = d.link.other ∧ record.window.Overlaps (window.shift d.link.latency)

/-- The transmission whose delivery this is, as the channel model sees it. -/
def Delivery.primary (d : Delivery) (window : Window ℚ) : TxRecord :=
  ⟨d.sender, window.start, window.stop⟩

/-- A transmission of another sender that arrives during the packet's arrival. -/
def Delivery.Interferes (d : Delivery) (channel : ChannelModel) (window : Window ℚ)
    (record : TxRecord) : Prop :=
  record.sender ≠ d.sender ∧
    (channel.arrival (d.primary window) d.link.other).Overlaps
      (channel.arrival record d.link.other)

instance (d : Delivery) (channel : ChannelModel) (window : Window ℚ) (record : TxRecord) :
    Decidable (d.Interferes channel window record) := inferInstanceAs (Decidable (_ ∧ _))

/-- All latencies of the table are non-negative. -/
def LinkTable.Nonneg (table : LinkTable) : Prop :=
  ∀ row ∈ table.entries, ∀ entry ∈ row.2.entries, 0 ≤ entry.2

instance (table : LinkTable) : Decidable table.Nonneg :=
  inferInstanceAs (Decidable (∀ row ∈ table.entries, ∀ entry ∈ row.2.entries, 0 ≤ entry.2))

theorem ChannelModel.latency_nonneg {m : ChannelModel} (nonneg : m.linkLatencyMs.Nonneg)
    (sender receiver : NodeName) : 0 ≤ m.latency sender receiver := by
  unfold latency LinkTable.get?
  refine div_nonneg ?_ (by norm_num)
  cases sends : Dict.get? m.linkLatencyMs sender with
  | none => exact le_rfl
  | some row =>
      cases reaches : row.get? receiver with
      | none => simp [reaches]
      | some latencyMs =>
          simp only [Option.bind_some, reaches, Option.getD_some]
          exact nonneg _ (m.linkLatencyMs.mem_entries_iff.mpr sends) _
            (row.mem_entries_iff.mpr reaches)

namespace PacketRouter

variable {R : PacketRouter} {w₀ w w' : World} {e : Event} {tr out : List Obs} {d : Delivery}
  {window : Window ℚ}

/-! ### Registrations -/

/-- The clock never runs backwards. -/
theorem run_time_le (run : Run R.step anyStep w₀ w tr) : w₀.time ≤ w.time := by
  apply run.invariant (I := fun w _ => w₀.time ≤ w.time) le_rfl
  intro s tr e s' out _ before _ stepped
  exact before.trans (step_slice stepped).time_le

/-- A slice registers a transmission when it starts. -/
theorem Slice.registered_now (slice : Slice R w e w' out) :
    ∀ entry ∈ registrations out, entry.2.txStart = w.time := by
  intro entry mem
  rcases slice.channel with ⟨made, -⟩ | ⟨_, _, _, _, -, -, -, -, made, -⟩
  · rw [made] at mem
    cases mem
  · rw [made, List.mem_singleton] at mem
    rw [mem]

/-- The transmissions that a run registers start during the run. -/
theorem registered_between (run : Run R.step anyStep w₀ w tr) :
    ∀ entry ∈ registrations tr, w₀.time ≤ entry.2.txStart ∧ entry.2.txStart ≤ w.time := by
  refine run.invariant (I := fun w tr => ∀ entry ∈ registrations tr,
    w₀.time ≤ entry.2.txStart ∧ entry.2.txStart ≤ w.time) ?_ ?_
  · intro entry mem
    cases mem
  · intro s tr e s' out run before _ stepped entry mem
    have slice := step_slice stepped
    rw [registrations_append] at mem
    rcases List.mem_append.mp mem with earlier | now
    · exact ⟨(before entry earlier).1, (before entry earlier).2.trans slice.time_le⟩
    · rw [slice.registered_now entry now]
      exact ⟨run_time_le run, slice.time_le⟩

/-! ### Verdicts -/

/-- A call sleeps until the end of the packet plus the latency of the link. -/
theorem le_of_wakeAt? {now t : ℚ} (sleeps : wakeAt? now d = some t)
    (timed : d.window = some window) :
    window.stop + d.link.latency ≤ t := by
  unfold wakeAt? at sleeps
  simp only [timed] at sleeps
  split at sleeps
  · cases sleeps
    have := le_max_left (window.stop + d.link.latency - now) 0
    linarith
  · cases sleeps

/-- A call does not sleep only when the packet has arrived. -/
theorem le_of_wakeAt?_none {now : ℚ} (awake : wakeAt? now d = none)
    (timed : d.window = some window) : window.stop + d.link.latency ≤ now := by
  unfold wakeAt? at awake
  simp only [timed] at awake
  split at awake
  · cases awake
  · rename_i arrived
    have := le_max_left (window.stop + d.link.latency - now) 0
    linarith

/-- The tasks that sleep were asleep before, or have just computed their deadline. -/
theorem Slice.sleeping (slice : Slice R w e w' out) {corrupted : Bool} {t : ℚ}
    (mem : .sleeping d corrupted t ∈ w'.tasks) :
    .sleeping d corrupted t ∈ w.tasks ∨ wakeAt? w.time d = some t := by
  rcases slice.mem_sleeping mem with old | ⟨k, d₀, -, -, -, -, sleeps⟩
  · exact .inl old
  · exact .inr sleeps

/-- No task wakes before its packet has arrived. -/
theorem sleeping_deadline {time : ℚ} {tracer : Option PacketTracer}
    {channel : Option ChannelModel} (run : Run R.step anyStep (R.init time tracer channel) w tr)
    {corrupted : Bool} {t : ℚ} (mem : .sleeping d corrupted t ∈ w.tasks)
    (timed : d.window = some window) : window.stop + d.link.latency ≤ t := by
  refine run.invariant (I := fun w _ => ∀ d corrupted t, .sleeping d corrupted t ∈ w.tasks →
    ∀ window, d.window = some window → window.stop + d.link.latency ≤ t) ?_ ?_
      d corrupted t mem window timed
  · intro d corrupted t mem
    cases mem
  · intro s tr e s' out _ before _ stepped d corrupted t mem window timed
    rcases (step_slice stepped).sleeping mem with old | sleeps
    · exact before d corrupted t old window timed
    · exact le_of_wakeAt? sleeps timed

/-- What a slice that takes a verdict has just done. -/
theorem Slice.verdict (slice : Slice R w e w' out) (taken : .verdict d ∈ out) :
    (∃ corrupted t, .sleeping d corrupted t ∈ w.tasks ∧ t ≤ w.time) ∨
      wakeAt? w.time d = none := by
  rcases slice.mem_verdict taken with ⟨k, corrupted, t, task, due⟩ |
    ⟨k, d₀, corrupted, -, -, -, -, awake⟩
  · exact .inl ⟨corrupted, t, List.mem_of_getElem? task, due⟩
  · exact .inr awake

/-- A verdict is taken when the packet has arrived, or later. -/
theorem verdict_deadline {time : ℚ} {tracer : Option PacketTracer}
    {channel : Option ChannelModel} (run : Run R.step anyStep (R.init time tracer channel) w tr)
    (stepped : R.step w e = some (w', out)) (taken : .verdict d ∈ out)
    (timed : d.window = some window) : window.stop + d.link.latency ≤ w.time := by
  rcases (step_slice stepped).verdict taken with ⟨corrupted, t, asleep, due⟩ | awake
  · exact (sleeping_deadline run asleep timed).trans due
  · exact le_of_wakeAt?_none awake timed

/-! ### No late interferer -/

/-- A transmission that starts when the packet has arrived does not block it. -/
theorem not_blocks_of_late {record : TxRecord}
    (late : window.stop + d.link.latency ≤ record.txStart) : ¬ d.Blocks window record := by
  rintro ⟨-, overlaps⟩
  have starts : record.txStart < window.stop + d.link.latency := overlaps.1
  linarith

/-- Nor does it interfere, unless the channel model delays the packet by more than the link
that it comes over. -/
theorem not_interferes_of_late {m : ChannelModel} {record : TxRecord}
    (nonneg : m.linkLatencyMs.Nonneg)
    (oneLatency : m.latency d.sender d.link.other ≤ d.link.latency)
    (late : window.stop + d.link.latency ≤ record.txStart) : ¬ d.Interferes m window record := by
  rintro ⟨-, overlaps⟩
  have starts : record.txStart + m.latency record.sender d.link.other <
      window.stop + m.latency d.sender d.link.other := overlaps.2
  have := m.latency_nonneg nonneg record.sender d.link.other
  linarith

/-- No late interferer: when a run takes the verdict on a packet, every transmission of the
whole run that blocks the packet has been registered before, and so has every one that
interferes with it, provided that the channel model's latency for the pair of nodes is not
larger than that of the link. Nothing registered later could have changed the verdict. -/
theorem no_late_interferer (R : PacketRouter) (time : ℚ) (tracer : Option PacketTracer)
    (m : ChannelModel) (w : World) (before after : List Obs) (d : Delivery) (window : Window ℚ)
    (nonneg : m.linkLatencyMs.Nonneg) (timed : d.window = some window)
    (run : Run R.step anyStep (R.init time tracer (some m)) w (before ++ .verdict d :: after)) :
    (∀ entry ∈ registrations (before ++ .verdict d :: after),
      d.Blocks window entry.2 ∨ (m.latency d.sender d.link.other ≤ d.link.latency ∧
        d.Interferes m window entry.2) → entry ∈ registrations before) ∧
    (m.latency d.sender d.link.other ≤ d.link.latency →
      ∀ entry ∈ registrations after, ∀ txId,
        m.lossFrom (d.primary window) txId d.link.other entry = none) := by
  obtain ⟨s₁, tr₁, e, s₂, out₁, out₂, tr₂, first, -, stepped, last, rfl, rfl⟩ := run.split
  have deadline := verdict_deadline first stepped (by simp) timed
  have slice := step_slice stepped
  have late : ∀ entry ∈ registrations (out₂ ++ tr₂),
      window.stop + d.link.latency ≤ entry.2.txStart := by
    intro entry mem
    rw [registrations_append] at mem
    rcases List.mem_append.mp mem with same | later
    · rw [slice.registered_now entry (by
        rw [registrations_append]
        exact List.mem_append_right _ same)]
      exact deadline
    · exact (deadline.trans slice.time_le).trans (registered_between last entry later).1
  constructor
  · intro entry mem counts
    rw [registrations_append] at mem
    rcases List.mem_append.mp mem with early | notEarly
    · exact early
    · have after : entry ∈ registrations (out₂ ++ tr₂) := notEarly
      rcases counts with blocks | ⟨oneLatency, interferes⟩
      · exact absurd blocks (not_blocks_of_late (late entry after))
      · exact absurd interferes (not_interferes_of_late nonneg oneLatency (late entry after))
  · intro oneLatency entry mem txId
    cases lost : m.lossFrom (d.primary window) txId d.link.other entry with
    | none => rfl
    | some loss =>
        obtain ⟨-, other, -, overlaps, -⟩ := ChannelModel.lossFrom_eq_some lost
        exact absurd ⟨other, overlaps⟩
          (not_interferes_of_late nonneg oneLatency (late entry mem))

/-! ### Parallel links -/

/-- A relay that hears `alice` over two links, one of them with a latency of 1 s, and `bob`. -/
def parallelCell : TopologyConfig where
  nodes := ["alice", "bob", "relay"].map .named
  edges := [⟨"alice", "relay", 0, 0, 6, none, none⟩, ⟨"alice", "relay", 0, 1000, 6, none, none⟩,
    ⟨"bob", "relay", 0, 0, 6, none, none⟩]
  simulation := ⟨0, 0, 0, 0, 0, "", none, none⟩
  radio := some .default

/-- The windows of two packets of 2 bytes, which are on the air for 103 ms. -/
def aliceWindow : Window ℚ := ⟨0, 12928 / 125000⟩

def bobWindow : Window ℚ := ⟨1, 1 + 12928 / 125000⟩

/-- The delivery of the packet of `alice` over the second link. -/
def secondDelivery : Delivery :=
  ⟨"alice", ⟨"relay", 0, 1000, 6⟩, "0500", some 1, some aliceWindow⟩

/-- On the second link the channel model has the right latency: `bob`, who starts when the
packet of `alice` arrives, is registered before the verdict on it. -/
theorem no_late_interferer_secondLink :
    ∃ R m w before after, PacketRouter.ofConfig? parallelCell .zero = some R ∧
      R.channel = some m ∧
      Run R.step anyStep (R.init 0 (some .init) (some m)) w
        (before ++ .verdict secondDelivery :: after) ∧
      (2, ⟨"bob", 1, bobWindow.stop⟩) ∈ registrations before := by
  have found : ((PacketRouter.ofConfig? parallelCell .zero).any fun R => R.channel.any fun m =>
      (exec (restrict R.step anyStep) (R.init 0 (some .init) (some m))
        [.onTx "alice" "0500", .notify 0, .notify 0, .resume 0, .start 1, .tick 1,
          .onTx "bob" "0500", .tick (aliceWindow.stop + 1)]).any
        fun (w, before) => (exec (restrict R.step anyStep) w [.wake 1]).any
          fun (_, tr) => tr.head? = some (.verdict secondDelivery) ∧ m.linkLatencyMs.Nonneg ∧
            (2, ⟨"bob", 1, bobWindow.stop⟩) ∈ registrations (before ++ tr) ∧
            m.latency "alice" "relay" ≤ 1000 / 1000 ∧
            secondDelivery.Interferes m aliceWindow ⟨"bob", 1, bobWindow.stop⟩) = true := by
    decide +kernel
  obtain ⟨R, m, router, channel, found⟩ := exists_wired found
  obtain ⟨w, before, first, found⟩ := Run.of_exec_any found
  obtain ⟨⟨w', tr⟩, replay, found⟩ := (Option.any_eq_true _ _).mp found
  obtain ⟨begins, nonneg, registered, oneLatency, interferes⟩ := of_decide_eq_true found
  obtain ⟨after, rfl⟩ := List.head?_eq_some_iff.mp begins
  have run := first.exec_append replay
  exact ⟨R, m, w', before, after, router, channel, run,
    (no_late_interferer R 0 (some .init) m w' before after secondDelivery aliceWindow nonneg rfl
      run).1 _ registered (.inr ⟨oneLatency, interferes⟩)⟩

/-- Whatever counts against a packet is registered before the verdict, with no condition on
the latencies but that they are non-negative. -/
def NoLateInterferer (R : PacketRouter) (time : ℚ) (tracer : Option PacketTracer)
    (m : ChannelModel) : Prop :=
  ∀ w before after d window, m.linkLatencyMs.Nonneg → d.window = some window →
    Run R.step anyStep (R.init time tracer (some m)) w (before ++ .verdict d :: after) →
    ∀ entry ∈ registrations (before ++ .verdict d :: after),
      d.Blocks window entry.2 ∨ d.Interferes m window entry.2 → entry ∈ registrations before

/-- The delivery of the packet of `alice` over the first link. -/
def fastDelivery : Delivery := ⟨"alice", ⟨"relay", 0, 0, 6⟩, "0500", some 1, some aliceWindow⟩

/-- `alice` sends, and the packet arrives over the first link. -/
def fastSchedule : List Event :=
  [.onTx "alice" "0500", .notify 0, .notify 0, .resume 0, .start 0, .tick aliceWindow.stop]

/-- The verdict on it, and then `bob` sends. -/
def lateSchedule : List Event := [.wake 1, .tick 1, .onTx "bob" "0500"]

/-- With parallel links an interferer can be late: the channel model shifts the packet of
`alice` by the latency of the second link, to where `bob` will be. -/
theorem late_interferer :
    ∃ R m, PacketRouter.ofConfig? parallelCell .zero = some R ∧ R.channel = some m ∧
      ¬ NoLateInterferer R 0 (some .init) m := by
  have found : ((PacketRouter.ofConfig? parallelCell .zero).any fun R => R.channel.any fun m =>
      (exec (restrict R.step anyStep) (R.init 0 (some .init) (some m)) fastSchedule).any
        fun (w, before) => (exec (restrict R.step anyStep) w lateSchedule).any
          fun (_, tr) => tr.head? = some (.verdict fastDelivery) ∧ m.linkLatencyMs.Nonneg ∧
            (2, ⟨"bob", 1, bobWindow.stop⟩) ∈ registrations tr.tail ∧
            (2, ⟨"bob", 1, bobWindow.stop⟩) ∉ registrations before ∧
            fastDelivery.Interferes m aliceWindow ⟨"bob", 1, bobWindow.stop⟩) = true := by
    decide +kernel
  obtain ⟨R, m, router, channel, found⟩ := exists_wired found
  obtain ⟨w, before, first, found⟩ := Run.of_exec_any found
  obtain ⟨⟨w', tr⟩, replay, found⟩ := (Option.any_eq_true _ _).mp found
  obtain ⟨begins, nonneg, later, notBefore, interferes⟩ := of_decide_eq_true found
  obtain ⟨after, rfl⟩ := List.head?_eq_some_iff.mp begins
  refine ⟨R, m, router, channel, fun claim => notBefore ?_⟩
  refine claim w' before after fastDelivery aliceWindow nonneg rfl (first.exec_append replay)
    (2, ⟨"bob", 1, bobWindow.stop⟩) ?_ (.inr interferes)
  rw [registrations_append]
  exact List.mem_append_right _ later

end PacketRouter

end MeshcoreSim
