import MeshcoreSim.Router.Timing

/-!
Pruning the table of active transmissions.

`_on_tx` forgets what ended more than 5 s before the transmission it registers, "to
bound memory growth". A verdict is taken a whole airtime and a latency after the packet
began, so a forgotten record may still be one that the verdict needs.

* `Pruned` — the invariant: the table holds a part of all registered transmissions, and what
  is missing ended more than 5 s before the start of another one.
* `pruning_transparent` — the verdicts on the pruned and on the full table agree whenever no
  transmission that touches the packet is that old.
* `kept_of_short` — this is so for packets that, with the latencies, last at most 5 s.
* `pruning_loses_interferer` — it is not so at SF 12: a packet of 5.5 s outlives the record of
  the packet that destroyed its preamble.
-/

namespace MeshcoreSim

open Lib

namespace PacketRouter

variable {R : PacketRouter} {w w' : World} {tr : List Obs} {c₀ c full : ChannelModel}
  {d : Delivery} {window : Window ℚ}

/-- The channel model with every transmission that a run has registered. -/
def unpruned (c₀ : ChannelModel) (tr : List Obs) : ChannelModel :=
  (registrations tr).foldl (fun c entry => c.registerTx entry.2 entry.1)
    { c₀ with active := .empty }

/-! ### What the pruned table holds -/

/-- The table `c` holds a part of `full`; what is missing ended more than 5 s before the
start of another registered transmission. -/
structure Pruned (c₀ c full : ChannelModel) (registered : List (ℕ × TxRecord)) : Prop where
  settings : c = { c₀ with active := c.active }
  fullSettings : full = { c₀ with active := full.active }
  known : ∀ entry ∈ full.active.entries, entry ∈ registered
  part : ∀ entry ∈ c.active.entries, entry ∈ full.active.entries
  old : ∀ entry ∈ full.active.entries, entry ∉ c.active.entries →
    ∃ later ∈ registered, entry.2.txEnd < later.2.txStart - 5

/-- Registering a transmission and forgetting what ended 5 s before it. -/
theorem Pruned.register {registered : List (ℕ × TxRecord)} {txId : ℕ} {record : TxRecord}
    (pruned : Pruned c₀ c full registered) (ordered : record.txStart ≤ record.txEnd) :
    Pruned c₀ ((c.registerTx record txId).expireBefore (record.txStart - 5))
      (full.registerTx record txId) (registered ++ [(txId, record)]) := by
  have forgotten : ∀ entry, entry ∈ ((c.registerTx record txId).expireBefore
      (record.txStart - 5)).active.entries ↔
      entry ∈ (c.active.set txId record).entries ∧ entry.2.txEnd ≥ record.txStart - 5 := by
    intro entry
    rw [← decide_eq_true_iff (p := entry.2.txEnd ≥ record.txStart - 5)]
    exact Dict.mem_filterValues _
  constructor
  · unfold ChannelModel.expireBefore ChannelModel.registerTx
    rw [pruned.settings]
  · unfold ChannelModel.registerTx
    rw [pruned.fullSettings]
  · intro entry mem
    rcases (Dict.mem_entries_set _).mp mem with rfl | ⟨earlier, -⟩
    · simp
    · exact List.mem_append_left _ (pruned.known entry earlier)
  · intro entry mem
    obtain ⟨mem, -⟩ := (forgotten entry).mp mem
    rcases (Dict.mem_entries_set _).mp mem with new | ⟨earlier, other⟩
    · exact (Dict.mem_entries_set _).mpr (.inl new)
    · exact (Dict.mem_entries_set _).mpr (.inr ⟨pruned.part entry earlier, other⟩)
  · intro entry mem missing
    rw [forgotten, not_and, not_le] at missing
    rcases (Dict.mem_entries_set _).mp mem with rfl | ⟨earlier, other⟩
    · -- The new record itself is not that old.
      have := missing ((Dict.mem_entries_set _).mpr (.inl rfl))
      simp only at this
      linarith
    · rcases Classical.em (entry ∈ c.active.entries) with present | absent
      · exact ⟨(txId, record), by simp,
          missing ((Dict.mem_entries_set _).mpr (.inr ⟨present, other⟩))⟩
      · obtain ⟨later, among, age⟩ := pruned.old entry earlier absent
        exact ⟨later, List.mem_append_left _ among, age⟩

/-- In every run the table is the pruned one. -/
theorem run_pruned {time : ℚ} {tracer : Option PacketTracer}
    (run : Run R.step anyStep (R.init time tracer (some c₀)) w tr) :
    ∃ c, w.channel = some c ∧ Pruned c₀ c (unpruned c₀ tr) (registrations tr) := by
  refine run.invariant
    (I := fun w tr => ∃ c, w.channel = some c ∧ Pruned c₀ c (unpruned c₀ tr) (registrations tr))
    ?_ ?_
  · exact ⟨_, rfl, rfl, rfl, fun _ mem => mem, fun _ mem => mem,
      fun _ mem absent => absurd mem absent⟩
  · intro s tr e s' out _ before _ stepped
    obtain ⟨c, channel, pruned⟩ := before
    rcases (step_slice stepped).channel with
      ⟨made, same⟩ | ⟨c', sender, hexData, txId, -, channel', -, -, made, after⟩
    · refine ⟨c, same.trans channel, ?_⟩
      unfold unpruned at pruned ⊢
      rw [registrations_append, made, List.append_nil]
      exact pruned
    · obtain rfl : c = c' := Option.some.inj (channel.symm.trans channel')
      refine ⟨_, after, ?_⟩
      unfold unpruned at pruned ⊢
      rw [registrations_append, made, List.foldl_append]
      have airtime := R.airtimeMs_nonneg hexData
      apply pruned.register
      unfold txWindow
      simp only
      linarith [div_nonneg airtime (by norm_num : (0 : ℚ) ≤ 1000)]

/-! ### Verdicts on the two tables -/

/-- A search that finds nothing in the missing entries succeeds on the part exactly when it
succeeds on the whole. -/
theorem isSome_findSome?_of_part {α β : Type} {f : α → Option β} {part whole : List α}
    (sub : ∀ a ∈ part, a ∈ whole) (idle : ∀ a ∈ whole, a ∉ part → f a = none) :
    (part.findSome? f).isSome = (whole.findSome? f).isSome := by
  rw [Bool.eq_iff_iff, List.findSome?_isSome_iff, List.findSome?_isSome_iff]
  constructor
  · rintro ⟨a, mem, hit⟩
    exact ⟨a, sub a mem, hit⟩
  · rintro ⟨a, mem, hit⟩
    rcases Classical.em (a ∈ part) with present | absent
    · exact ⟨a, present, hit⟩
    · simp [idle a mem absent] at hit

/-- Pruning is transparent: in every state that a run reaches, the half-duplex check and the
collision check of a packet have the same answer on the pruned table as on the table of all
transmissions registered so far, provided that no transmission that touches the packet at
the receiver had ended more than 5 s before the start of another one. -/
theorem pruning_transparent (R : PacketRouter) (time : ℚ) (tracer : Option PacketTracer)
    (c₀ : ChannelModel) (w : World) (tr : List Obs) (d : Delivery) (window : Window ℚ)
    (run : Run R.step anyStep (R.init time tracer (some c₀)) w tr)
    (kept : ∀ entry ∈ registrations tr,
      d.Blocks window entry.2 ∨ (d.Interferes c₀ window entry.2 ∧
        (c₀.snr? entry.2.sender d.link.other).isSome) →
      ∀ later ∈ registrations tr, later.2.txStart - 5 ≤ entry.2.txEnd) :
    ∃ c, w.channel = some c ∧
      (c.isReceiverBusy d.link.other (window.shift d.link.latency)).isSome =
        ((unpruned c₀ tr).isReceiverBusy d.link.other (window.shift d.link.latency)).isSome ∧
      ∀ txId, (c.isLost (d.primary window) txId d.link.other).isSome =
        ((unpruned c₀ tr).isLost (d.primary window) txId d.link.other).isSome := by
  obtain ⟨c, channel, pruned⟩ := run_pruned run
  refine ⟨c, channel, ?_, ?_⟩
  · apply isSome_findSome?_of_part pruned.part
    intro entry mem missing
    obtain ⟨later, among, age⟩ := pruned.old entry mem missing
    simp only
    split
    · rfl
    · rename_i own
      split
      · rename_i overlaps
        have := kept entry (pruned.known entry mem) (.inl ⟨not_not.mp own, overlaps⟩) later among
        exact absurd age (not_lt.mpr this)
      · rfl
  · intro txId
    have onPart : c.lossFrom (d.primary window) txId d.link.other =
        c₀.lossFrom (d.primary window) txId d.link.other := by
      rw [pruned.settings]
      rfl
    have onWhole : (unpruned c₀ tr).lossFrom (d.primary window) txId d.link.other =
        c₀.lossFrom (d.primary window) txId d.link.other := by
      rw [pruned.fullSettings]
      rfl
    unfold ChannelModel.isLost
    rw [onPart, onWhole]
    apply isSome_findSome?_of_part pruned.part
    intro entry mem missing
    obtain ⟨later, among, age⟩ := pruned.old entry mem missing
    cases lost : c₀.lossFrom (d.primary window) txId d.link.other entry with
    | none => rfl
    | some loss =>
        obtain ⟨-, other, reaches, overlaps, -⟩ := ChannelModel.lossFrom_eq_some lost
        have := kept entry (pruned.known entry mem) (.inr ⟨⟨other, overlaps⟩, reaches⟩) later among
        exact absurd age (not_lt.mpr this)

/-- Nothing that touches a packet is ever that old when the packet lasts at most 5 s, also
together with the latency of any interferer, and the verdict is taken on time. -/
theorem kept_of_short {w₀ : World} (run : Run R.step anyStep w₀ w tr)
    (onTime : w.time ≤ window.stop + d.link.latency) (short : window.length ≤ 5)
    (near : ∀ sender, window.length + d.link.latency + c₀.latency sender d.link.other ≤
      5 + c₀.latency d.sender d.link.other) :
    ∀ entry ∈ registrations tr,
      d.Blocks window entry.2 ∨ (d.Interferes c₀ window entry.2 ∧
        (c₀.snr? entry.2.sender d.link.other).isSome) →
      ∀ later ∈ registrations tr, later.2.txStart - 5 ≤ entry.2.txEnd := by
  intro entry _ touches later among
  have started := (registered_between run later among).2
  unfold Window.length at short near
  rcases touches with ⟨-, overlaps⟩ | ⟨⟨-, overlaps⟩, -⟩
  · have ends : window.start + d.link.latency < entry.2.txEnd := overlaps.2
    linarith
  · have ends : window.start + c₀.latency d.sender d.link.other <
        entry.2.txEnd + c₀.latency entry.2.sender d.link.other := overlaps.1
    have := near entry.2.sender
    linarith

/-! ### A packet that outlives the record of its interferer -/

/-- Every verdict that a run takes when a packet has arrived is the same on the pruned table
and on the table of all transmissions registered so far. -/
def PruningTransparent (R : PacketRouter) (time : ℚ) (tracer : Option PacketTracer)
    (c₀ : ChannelModel) : Prop :=
  ∀ w tr e w' out d window c, Run R.step anyStep (R.init time tracer (some c₀)) w tr →
    R.step w e = some (w', out) → .verdict d ∈ out → d.window = some window →
    w.time = window.stop + d.link.latency → w.channel = some c →
    (c.isReceiverBusy d.link.other (window.shift d.link.latency)).isSome =
        ((unpruned c₀ tr).isReceiverBusy d.link.other (window.shift d.link.latency)).isSome ∧
      ∀ txId, d.txId = some txId →
        (c.isLost (d.primary window) txId d.link.other).isSome =
          ((unpruned c₀ tr).isLost (d.primary window) txId d.link.other).isSome

/-- Two senders in reach of a relay, and a node that nobody hears, at SF 12, 62.5 kHz and
CR 4/8. -/
def slowCell : TopologyConfig where
  nodes := ["alice", "bob", "carol", "relay"].map .named
  edges := [⟨"alice", "relay", 0, 0, 6, none, none⟩, ⟨"bob", "relay", 0, 0, 6, none, none⟩]
  simulation := ⟨0, 0, 0, 0, 0, "", none, none⟩
  radio := some ⟨12, 62500, 4, 8, -120⟩

/-- A packet of 40 bytes, which is on the air for 5.5 s in that cell. -/
def longPacket : String := bytesToHex (5 :: 0 :: List.replicate 38 0)

/-- The window of the packet of `bob`. -/
def slowWindow : Window ℚ := ⟨8 / 5, 8 / 5 + 690176 / 125000⟩

/-- `alice` sends for 1.85 s; `bob` starts at 1.6 s, so she destroys his preamble; `carol`
sends at 6.9 s, when the end of `alice` is more than 5 s ago. The clock stops when the
packet of `bob` has arrived. -/
def slowSchedule : List Event :=
  [.onTx "alice" "0500", .tick (8 / 5), .onTx "bob" longPacket, .notify 1, .resume 1, .start 0,
    .tick (69 / 10), .onTx "carol" "0500", .tick slowWindow.stop]

/-- Its delivery to the relay. -/
def slowDelivery : Delivery :=
  ⟨"bob", ⟨"relay", 0, 0, 6⟩, longPacket, some 2, some slowWindow⟩

/-- While `carol` is silent, the verdict on the packet of `bob` does not notice the pruning. -/
theorem pruning_transparent_slowCell :
    ∃ R c₀ w tr c, PacketRouter.ofConfig? slowCell .zero = some R ∧ R.channel = some c₀ ∧
      Run R.step anyStep (R.init 0 (some .init) (some c₀)) w tr ∧ w.channel = some c ∧
      w.time = slowWindow.stop ∧
      (c.isLost (slowDelivery.primary slowWindow) 2 "relay").isSome =
        ((unpruned c₀ tr).isLost (slowDelivery.primary slowWindow) 2 "relay").isSome := by
  have found : ((PacketRouter.ofConfig? slowCell .zero).any fun R => R.channel.any fun c₀ =>
      (exec (restrict R.step anyStep) (R.init 0 (some .init) (some c₀))
        (slowSchedule.take 6 ++ [.tick slowWindow.stop])).any
        fun (w, tr) => w.time = slowWindow.stop ∧
          ∀ entry ∈ registrations tr, ∀ later ∈ registrations tr,
            later.2.txStart - 5 ≤ entry.2.txEnd) = true := by
    decide +kernel
  obtain ⟨R, c₀, router, channel, found⟩ := exists_wired found
  obtain ⟨w, tr, run, found⟩ := Run.of_exec_any found
  obtain ⟨arrived, recent⟩ := of_decide_eq_true found
  obtain ⟨c, table, -, sameLoss⟩ := pruning_transparent R 0 (some .init) c₀ w tr slowDelivery
    slowWindow run fun entry mem _ => recent entry mem
  exact ⟨R, c₀, w, tr, c, router, channel, run, table, arrived, sameLoss 2⟩

/-- In that cell pruning is not transparent: `bob` is received, although `alice` was on the
air during his preamble. -/
theorem pruning_loses_interferer :
    ∃ R c₀, PacketRouter.ofConfig? slowCell .zero = some R ∧ R.channel = some c₀ ∧
      ¬ PruningTransparent R 0 (some .init) c₀ := by
  have diverges : ((PacketRouter.ofConfig? slowCell .zero).any fun R => R.channel.any fun c₀ =>
      (exec (restrict R.step anyStep) (R.init 0 (some .init) (some c₀)) slowSchedule).any
        fun (w, tr) => w.time = slowWindow.stop ∧
          (R.step w (.wake 0)).any fun (_, out) => .verdict slowDelivery ∈ out ∧
            w.channel.any fun c =>
              (c.isLost (slowDelivery.primary slowWindow) 2 "relay").isSome ≠
                ((unpruned c₀ tr).isLost (slowDelivery.primary slowWindow) 2 "relay").isSome) =
      true := by
    decide +kernel
  obtain ⟨R, c₀, router, channel, diverges⟩ := exists_wired diverges
  obtain ⟨w, tr, run, diverges⟩ := Run.of_exec_any diverges
  obtain ⟨onTime, diverges⟩ := of_decide_eq_true diverges
  obtain ⟨⟨w', out⟩, stepped, diverges⟩ := (Option.any_eq_true _ _).mp diverges
  obtain ⟨taken, diverges⟩ := of_decide_eq_true diverges
  obtain ⟨c, table, differ⟩ := (Option.any_eq_true _ _).mp diverges
  refine ⟨R, c₀, router, channel, fun transparent => ?_⟩
  have arrived : w.time = slowWindow.stop + slowDelivery.link.latency := by
    rw [onTime]
    decide +kernel
  have same := transparent w tr _ w' out slowDelivery slowWindow c run stepped taken rfl
    arrived table
  exact of_decide_eq_true differ (same.2 2 rfl)

end PacketRouter

end MeshcoreSim
