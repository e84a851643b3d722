import MeshcoreSim.Orchestrator
import MeshcoreSim.Router.Provenance

/-!
Whatever a node is handed was on the air next to it.

* `Held` — the packets that a node can have put on the air: those that it transmitted, and those
  that a replaying filter of it captured.
* `Provenance` — every packet in flight is held by its sender, unless its receiver corrupts
  packets; every captured packet is in the ledger of captures.
* `delivery_sound` — the packets that `deliver_rx` writes come over a link that can carry them,
  from a sender that held them.
-/

namespace MeshcoreSim

open Lib

/-- A replaying filter of `node` has captured the packet from a delivery to it. -/
def Captured (tr : List Obs) (node : NodeName) (hexData : String) : Prop :=
  ∃ d, .ended d false .adversarialReplay ∈ tr ∧ d.link.other = node ∧ d.hexData = hexData

namespace PacketRouter

variable {R : PacketRouter} {w w' : World} {d : Delivery} {e : Event} {tr tr' out : List Obs}
  {node : NodeName} {hexData : String}

/-- The configuration of `node` makes it an adversary of the mode. -/
def Adversary (R : PacketRouter) (node : NodeName) (mode : AdversarialMode) : Prop :=
  ∃ config cfg, R.agents.get? node = some config ∧ config.adversarial = some cfg ∧ cfg.mode = mode

/-- `node` has transmitted the packet, or captured it for replay. -/
def Held (R : PacketRouter) (tr : List Obs) (node : NodeName) (hexData : String) : Prop :=
  .transmitted node hexData ∈ tr ∨ (R.Adversary node .replay ∧ Captured tr node hexData)

theorem Held.mono (held : R.Held tr node hexData) (more : ∀ o ∈ tr, o ∈ tr') :
    R.Held tr' node hexData := by
  rcases held with sent | ⟨adversary, d, ended, same⟩
  · exact .inl (more _ sent)
  · exact .inr ⟨adversary, d, more _ ended, same⟩

/-- The link can carry packets: it does not lose all of them, and is strong enough. -/
def Carrying (R : PacketRouter) (link : EdgeLink) : Prop :=
  link.loss < 1 ∧
    ∀ radio, R.radio = some radio → (snrThreshold radio.sf).getD (-20) ≤ link.snr

/-! ### The gates -/

/-- A packet passes the gates only on a link that can carry it. -/
theorem gates_carrying {corrupted : Bool}
    (passed : (R.gates w d).2 = .passed hexData corrupted) : R.Carrying d.link := by
  unfold gates at passed
  split at passed
  · cases passed
  rename_i audible
  simp only at passed
  split at passed
  · cases passed
  rename_i kept
  constructor
  · by_contra certain
    have loss : 1 ≤ d.link.loss := not_lt.mp certain
    have lossy : d.link.loss > 0 := lt_of_lt_of_le one_pos loss
    have lost : (R.linkLoss d.link w.rngPos).1 = true := by
      unfold linkLoss
      rw [if_pos lossy]
      exact decide_eq_true ((R.rng.lt_one _).trans_le loss)
    exact kept lost
  · intro radio configured
    unfold belowThreshold at audible
    rw [configured] at audible
    simpa using audible

/-- What passes the gates is the packet, or comes from a corrupting filter of the receiver. -/
theorem gates_source {corrupted : Bool}
    (passed : (R.gates w d).2 = .passed hexData corrupted) :
    hexData = d.hexData ∨
      ∃ filter, w.filters.get? d.link.other = some filter ∧ filter.cfg.mode = .corrupt := by
  have gating := gates_gating R w d
  rw [passed] at gating
  generalize (R.gates w d).1 = w' at gating
  cases gating with
  | spared => exact .inl rfl
  | corrupted filter pos hexData known delivers =>
      rcases filterPacket_deliver delivers with same | ⟨mode, -⟩
      · exact .inl same
      · exact .inr ⟨filter, known, mode⟩

/-- A filter that captures a packet is in mode `replay`. -/
theorem filterPacket_captures {rng : RandomStream} {filter : AdversarialFilter} {now : ℚ}
    {pos : ℕ} {packet : ℚ × String}
    (captured : packet ∈ (filter.filterPacket rng hexData now pos).2.1.replayBuffer) :
    packet ∈ filter.replayBuffer ∨
      (filter.cfg.mode = .replay ∧ packet.2 = hexData ∧
        (filter.filterPacket rng hexData now pos).1 = .suppressed) := by
  unfold AdversarialFilter.filterPacket at captured ⊢
  split at captured
  · exact .inl captured
  · exact .inl captured
  · rename_i mode
    rcases List.mem_append.mp captured with old | new
    · exact .inl old
    · rw [List.mem_singleton.mp new]
      exact .inr ⟨mode, rfl, rfl⟩
  · exact .inl captured

/-- A packet that a filter has after the gates and not before is the present one, and the call
ends as a replay. -/
theorem gates_captures {entry : NodeName × AdversarialFilter}
    (mem : entry ∈ (R.gates w d).1.filters.entries) :
    ∃ filter, (entry.1, filter) ∈ w.filters.entries ∧ entry.2.cfg = filter.cfg ∧
      ∀ packet ∈ entry.2.replayBuffer, packet ∈ filter.replayBuffer ∨
        (filter.cfg.mode = .replay ∧ entry.1 = d.link.other ∧ packet.2 = d.hexData ∧
          (R.gates w d).2 = .stopped .adversarialReplay) := by
  have same : entry ∈ w.filters.entries →
      ∃ filter, (entry.1, filter) ∈ w.filters.entries ∧ entry.2.cfg = filter.cfg ∧
        ∀ packet ∈ entry.2.replayBuffer, packet ∈ filter.replayBuffer ∨
          (filter.cfg.mode = .replay ∧ entry.1 = d.link.other ∧ packet.2 = d.hexData ∧
            (R.gates w d).2 = .stopped .adversarialReplay) :=
    fun old => ⟨entry.2, old, rfl, fun _ captured => .inl captured⟩
  revert mem same
  unfold gates
  split
  · exact fun mem same => same mem
  simp only
  split
  · exact fun mem same => same mem
  unfold adversary
  cases known : w.filters.get? d.link.other with
  | none => exact fun mem same => same mem
  | some filter =>
      simp only
      split
      · -- The filter applies: the one entry that changes is that of the receiver.
        intro mem same
        have written : entry ∈ (w.filters.set d.link.other (filter.filterPacket R.rng d.hexData
            w.time ((R.linkLoss d.link w.rngPos).2 + 1)).2.1).entries := by
          revert mem
          split
          · exact id
          · split <;> exact id
          · exact id
        rcases (Dict.mem_entries_set _).mp written with rfl | ⟨old, -⟩
        · refine ⟨filter, w.filters.mem_entries_iff.mpr known, filterPacket_filter.1, ?_⟩
          intro packet captured
          rcases filterPacket_captures captured with earlier | ⟨mode, now, suppressed⟩
          · exact .inl earlier
          · refine .inr ⟨mode, rfl, now, ?_⟩
            rw [suppressed]
            simp [mode]
        · exact same old
      · exact fun mem same => same mem

/-- The filters after a slice: a packet that is new in a buffer has just been captured. -/
theorem Slice.captures (slice : Slice R w e w' out) {entry : NodeName × AdversarialFilter}
    (mem : entry ∈ w'.filters.entries) :
    ∃ filter, (entry.1, filter) ∈ w.filters.entries ∧ entry.2.cfg = filter.cfg ∧
      ∀ packet ∈ entry.2.replayBuffer, packet ∈ filter.replayBuffer ∨
        (filter.cfg.mode = .replay ∧ Captured out entry.1 packet.2) := by
  have same : entry ∈ w.filters.entries →
      ∃ filter, (entry.1, filter) ∈ w.filters.entries ∧ entry.2.cfg = filter.cfg ∧
        ∀ packet ∈ entry.2.replayBuffer, packet ∈ filter.replayBuffer ∨
          (filter.cfg.mode = .replay ∧ Captured out entry.1 packet.2) :=
    fun old => ⟨entry.2, old, rfl, fun _ captured => .inl captured⟩
  have passed : ∀ {k : ℕ} {d : Delivery} {hexData : String} {corrupted : Bool},
      (R.gates (w.without k) d).2 = .passed hexData corrupted →
      entry ∈ (R.gated w k d).filters.entries →
      ∃ filter, (entry.1, filter) ∈ w.filters.entries ∧ entry.2.cfg = filter.cfg ∧
        ∀ packet ∈ entry.2.replayBuffer, packet ∈ filter.replayBuffer ∨
          (filter.cfg.mode = .replay ∧ Captured out entry.1 packet.2) := by
    intro k d hexData corrupted gate mem
    obtain ⟨filter, old, config, buffer⟩ := gates_captures mem
    refine ⟨filter, old, config, fun packet captured => ?_⟩
    rcases buffer packet captured with earlier | ⟨-, -, -, stopped⟩
    · exact .inl earlier
    · cases gate.symm.trans stopped
  cases slice with
  | stopped k d outcome task gate =>
      obtain ⟨filter, old, config, buffer⟩ := gates_captures mem
      refine ⟨filter, old, config, fun packet captured => ?_⟩
      rcases buffer packet captured with earlier | ⟨mode, receiver, now, stopped⟩
      · exact .inl earlier
      · cases gate.symm.trans stopped
        exact .inr ⟨mode, d, List.mem_singleton.mpr rfl, receiver.symm, now.symm⟩
  | asleep k d hexData corrupted t task gate => exact passed gate mem
  | through k d hexData corrupted outcome tracer commands task gate => exact passed gate mem
  | drain =>
      obtain ⟨⟨name, filter⟩, old, rfl⟩ := List.mem_map.mp mem
      exact ⟨filter, old, rfl, fun packet kept => .inl (List.mem_of_mem_filter kept)⟩
  | _ => exact same mem

/-! ### Where packets come from -/

/-- The packet of a call is held by its sender, unless the receiver corrupts packets. -/
def Sourced (R : PacketRouter) (tr : List Obs) (d : Delivery) : Prop :=
  d.link ∈ R.topology.neighbours d.sender ∧
    (R.Held tr d.sender d.hexData ∨ R.Adversary d.link.other .corrupt)

theorem Sourced.mono (sourced : R.Sourced tr d) (more : ∀ o ∈ tr, o ∈ tr') : R.Sourced tr' d :=
  ⟨sourced.1, sourced.2.imp_left (·.mono more)⟩

/-- Where the packets in flight come from. -/
structure Provenance (R : PacketRouter) (w : World) (tr : List Obs) : Prop where
  tasks : ∀ task ∈ w.tasks, R.Sourced tr task.delivery
  asleep : ∀ d corrupted t, .sleeping d corrupted t ∈ w.tasks → R.Carrying d.link
  broadcasts : ∀ b ∈ w.broadcasts, .transmitted b.sender b.hexData ∈ tr
  captured : ∀ entry ∈ w.filters.entries, ∀ packet ∈ entry.2.replayBuffer,
    R.Adversary entry.1 .replay ∧ Captured tr entry.1 packet.2
  modes : ∀ entry ∈ w.filters.entries, R.Adversary entry.1 entry.2.cfg.mode

theorem provenance_init {time : ℚ} {tracer : Option PacketTracer}
    {channel : Option ChannelModel} : R.Provenance (R.init time tracer channel) [] := by
  constructor
  · intro task mem
    cases mem
  · intro d corrupted t mem
    cases mem
  · intro b mem
    cases mem
  · intro entry mem packet captured
    rw [(mem_filters_init mem).1] at captured
    cases captured
  · intro entry mem
    obtain ⟨-, config, agent, adversarial⟩ := mem_filters_init mem
    exact ⟨config, _, R.agents.mem_entries_iff.mp agent, adversarial, rfl⟩

/-- A packet that passes the gates is still sourced. -/
theorem Provenance.passed (provenance : R.Provenance w tr) {k : ℕ} {corrupted : Bool}
    (created : w.tasks[k]? = some (.created d))
    (gate : (R.gates (w.without k) d).2 = .passed hexData corrupted) :
    R.Sourced tr { d with hexData := hexData } := by
  obtain ⟨linked, origin⟩ := provenance.tasks _ (List.mem_of_getElem? created)
  refine ⟨linked, ?_⟩
  rcases gates_source gate with rfl | ⟨filter, known, mode⟩
  · exact origin
  · exact .inr (mode ▸ provenance.modes _ (w.filters.mem_entries_iff.mpr known))

/-- What `_on_tx` starts with is in the trace. -/
theorem mem_of_onTx (slice : Slice R w e w' out) (isOnTx : e = .onTx node hexData) :
    .transmitted node hexData ∈ out := by
  cases slice with
  | alone => cases isOnTx; exact List.mem_cons_self
  | announced => cases isOnTx; exact List.mem_cons_self
  | _ => cases isOnTx

/-- Slices keep the provenance of packets. -/
theorem Provenance.step (provenance : R.Provenance w tr) (slice : Slice R w e w' out) :
    R.Provenance w' (tr ++ out) := by
  have more : ∀ o ∈ tr, o ∈ tr ++ out := fun o mem => List.mem_append_left _ mem
  have started : ∀ b, (b ∈ w.broadcasts ∨ ∃ sender hexData, e = .onTx sender hexData ∧
      b = R.broadcast w sender hexData) → .transmitted b.sender b.hexData ∈ tr ++ out := by
    rintro b (old | ⟨sender, hexData, isOnTx, rfl⟩)
    · exact more _ (provenance.broadcasts b old)
    · exact List.mem_append_right _ (mem_of_onTx slice isOnTx)
  constructor
  · intro task mem
    rcases slice.tasks mem with old | ⟨b, known, made⟩ | ⟨replay, due, made⟩ |
      ⟨k, d, hexData, corrupted, -, created, gate, same⟩
    · exact (provenance.tasks task old).mono more
    · obtain ⟨sender, linked, packet, -⟩ := mem_deliveries made
      refine ⟨sender ▸ linked, .inl (.inl ?_)⟩
      rw [sender, packet]
      exact started b known
    · obtain ⟨sender, linked, packet, -⟩ := mem_replayDeliveries made
      obtain ⟨entry, filter, name, captive, kept, same⟩ := mem_dueReplays due
      obtain ⟨adversary, captured⟩ := provenance.captured entry filter captive kept
      refine ⟨sender ▸ linked, .inl (Held.mono (.inr ?_) more)⟩
      rw [sender, packet, ← name, ← same]
      exact ⟨adversary, captured⟩
    · rw [same]
      exact (provenance.passed created gate).mono more
  · intro d corrupted t mem
    rcases slice.mem_sleeping mem with old | ⟨k, d₀, -, created, gate, same, -⟩
    · exact provenance.asleep d corrupted t old
    · rw [same]
      exact gates_carrying (d := d₀) gate
  · intro b mem
    rcases slice.broadcasts mem with ⟨waiting, old⟩ | now
    · exact more _ (provenance.broadcasts { b with waiting := waiting } old)
    · exact started b (.inr now)
  · intro entry mem packet kept
    obtain ⟨filter, old, -, buffer⟩ := slice.captures mem
    rcases buffer packet kept with earlier | ⟨mode, d, ended, same⟩
    · obtain ⟨adversary, d, ended, same⟩ := provenance.captured _ old packet earlier
      exact ⟨adversary, d, more _ ended, same⟩
    · exact ⟨mode ▸ provenance.modes _ old, d, List.mem_append_right _ ended, same⟩
  · intro entry mem
    obtain ⟨filter, old, config, -⟩ := slice.captures mem
    rw [config]
    exact provenance.modes _ old

theorem run_provenance {time : ℚ} {tracer : Option PacketTracer} {channel : Option ChannelModel}
    (run : Run R.step anyStep (R.init time tracer channel) w tr) : R.Provenance w tr := by
  apply run.invariant (I := R.Provenance) provenance_init
  intro s tr e s' out _ before _ stepped
  exact before.step (step_slice stepped)

/-! ### What a node is handed -/

/-- An `rx` command is written by the call that has just taken its verdict. -/
theorem Slice.rx (slice : Slice R w e w' out) {receiver : NodeName} {bytes : String}
    {snr rssi : ℚ} {pre post : List Obs}
    (written : out = pre ++ .command receiver (.rx bytes snr rssi) :: post) :
    ∃ d, pre = [.verdict d] ∧ d.link.other = receiver ∧ d.hexData.toLower = bytes := by
  have only : ∀ {d d' : Delivery} {corrupted : Bool} {outcome : Outcome}
      {tracer : Option PacketTracer} {commands : List Obs},
      Arrival R w d outcome tracer commands →
      .verdict d :: commands ++ [.ended d' corrupted outcome] =
        pre ++ .command receiver (.rx bytes snr rssi) :: post →
      ∃ d, pre = [.verdict d] ∧ d.link.other = receiver ∧ d.hexData.toLower = bytes := by
    intro d d' corrupted outcome tracer commands arrival same
    cases arrival with
    | rx decided agent =>
        cases pre with
        | nil => simp at same
        | cons first pre =>
            cases pre with
            | nil =>
                simp only [List.cons_append, List.nil_append, List.cons.injEq, Obs.command.injEq,
                  Command.rx.injEq] at same
                obtain ⟨rfl, ⟨rfl, rfl, -⟩, -⟩ := same
                exact ⟨d, rfl, rfl, rfl⟩
            | cons second pre =>
                obtain ⟨-, -, rest⟩ : _ ∧ _ ∧ _ := by simpa using same
                have mem : Obs.command receiver (.rx bytes snr rssi) ∈
                    pre ++ .command receiver (.rx bytes snr rssi) :: post := by simp
                rw [← rest] at mem
                simp at mem
    | _ =>
        have mem : Obs.command receiver (.rx bytes snr rssi) ∈
            pre ++ .command receiver (.rx bytes snr rssi) :: post := by simp
        rw [← same] at mem
        simp at mem
  have mem : Obs.command receiver (.rx bytes snr rssi) ∈ out := by
    rw [written]
    simp
  cases slice with
  | tick => cases mem
  | alone => rcases mem_transmittedObs mem with eq | ⟨_, _, eq⟩ <;> cases eq
  | announced => rcases mem_transmittedObs mem with eq | ⟨_, _, eq⟩ <;> cases eq
  | notify => simp at mem
  | resume => cases mem
  | stopped => simp at mem
  | asleep => cases mem
  | through k d hexData corrupted outcome tracer commands task gate awake arrival =>
      exact only arrival written
  | woken k d corrupted t outcome tracer commands task due arrival => exact only arrival written
  | drain =>
      obtain ⟨_, _, eq⟩ := List.mem_map.mp mem
      cases eq

/-- Delivery soundness. In every run, whenever bytes are handed to a node, the call that does
it is a delivery over a link to that node that does not lose everything and whose SNR is at or
above the threshold of the radio; and the bytes are, up to the case of the digits, what the
sender has transmitted before, or what its replaying filter has captured before from a delivery
to it, unless the receiver is an adversary that corrupts packets. -/
theorem delivery_sound (R : PacketRouter) (time : ℚ) (tracer : Option PacketTracer)
    (channel : Option ChannelModel) (w : World) (before after : List Obs) (receiver : NodeName)
    (bytes : String) (snr rssi : ℚ)
    (run : Run R.step anyStep (R.init time tracer channel) w
      (before ++ .command receiver (.rx bytes snr rssi) :: after)) :
    ∃ earlier d, before = earlier ++ [.verdict d] ∧ d.link ∈ R.topology.neighbours d.sender ∧
      d.link.other = receiver ∧ d.link.loss < 1 ∧
      (∀ radio, R.radio = some radio → (snrThreshold radio.sf).getD (-20) ≤ d.link.snr) ∧
      ((∃ hexData, bytes = hexData.toLower ∧ R.Held earlier d.sender hexData) ∨
        R.Adversary receiver .corrupt) := by
  obtain ⟨s, tr₁, e, s', out₁, out₂, tr₂, first, -, stepped, -, rfl, -⟩ := run.split
  have slice := step_slice stepped
  obtain ⟨d, rfl, rfl, rfl⟩ := slice.rx rfl
  have provenance := run_provenance first
  have taken : .verdict d ∈ [.verdict d] ++
      .command d.link.other (.rx d.hexData.toLower snr rssi) :: out₂ := by simp
  have sound : R.Sourced tr₁ d ∧ R.Carrying d.link := by
    rcases slice.mem_verdict taken with ⟨k, corrupted, t, task, -⟩ |
      ⟨k, d₀, corrupted, -, task, gate, same, -⟩
    · have inFlight := List.mem_of_getElem? task
      exact ⟨provenance.tasks _ inFlight, provenance.asleep d corrupted t inFlight⟩
    · rw [same]
      exact ⟨provenance.passed task gate, gates_carrying (d := d₀) gate⟩
  obtain ⟨⟨linked, origin⟩, loss, strong⟩ := sound
  refine ⟨tr₁, d, rfl, linked, rfl, loss, strong, ?_⟩
  rcases origin with held | corrupting
  · exact .inl ⟨d.hexData, rfl, held⟩
  · exact .inr corrupting

/-- `alice` and `bob` on both sides of a node that replays what it hears. -/
def replayingCell : TopologyConfig where
  nodes := [.named "alice",
    { NodeConfig.named "mallory" with adversarial := some ⟨.replay, 1, 500, 0⟩ }, .named "bob"]
  edges := [⟨"alice", "mallory", 0, 0, 6, none, none⟩, ⟨"mallory", "bob", 0, 0, 6, none, none⟩]
  simulation := ⟨0, 0, 0, 0, 0, "", none, none⟩
  radio := some .default

/-- `mallory` captures the packet of `alice`, and `bob` is handed the replay of it. -/
theorem delivery_sound_replayingCell :
    ∃ R m w before after, ∃ d : Delivery, ofConfig? replayingCell .zero = some R ∧
      R.channel = some m ∧
      Run R.step anyStep (R.init 0 (some .init) (some m)) w
        (before ++ .command "bob" (.rx "05ab" 6 (-114)) :: after) ∧
      d.link ∈ R.topology.neighbours d.sender ∧ d.link.other = "bob" ∧
      ((∃ hexData, "05ab" = hexData.toLower ∧ R.Held before d.sender hexData) ∨
        R.Adversary "bob" .corrupt) := by
  have found : ((ofConfig? replayingCell .zero).any fun R => R.channel.any fun m =>
      (exec (restrict R.step anyStep) (R.init 0 (some .init) (some m))
        [.onTx "alice" "05AB", .notify 0, .resume 0, .start 0, .tick 1, .drain]).any
        fun (w, _) => (exec (restrict R.step anyStep) w [.start 1]).any fun (_, tr) =>
          tr.head? = some (.verdict ⟨"mallory", ⟨"bob", 0, 0, 6⟩, "05AB", none, none⟩) ∧
            tr.tail.head? = some (.command "bob" (.rx "05ab" 6 (-114)))) = true := by
    decide +kernel
  obtain ⟨R, m, router, channel, found⟩ := exists_wired found
  obtain ⟨w, before, first, found⟩ := Run.of_exec_any found
  obtain ⟨⟨w', tr⟩, replay, found⟩ := (Option.any_eq_true _ _).mp found
  obtain ⟨verdict, command⟩ := of_decide_eq_true found
  obtain ⟨tail, rfl⟩ := List.head?_eq_some_iff.mp verdict
  obtain ⟨after, rfl⟩ := List.head?_eq_some_iff.mp command
  have run := first.exec_append replay
  rw [List.append_cons] at run
  obtain ⟨earlier, d, same, linked, receiver, -, -, origin⟩ :=
    delivery_sound R 0 (some .init) (some m) w' _ after "bob" "05ab" 6 (-114) run
  refine ⟨R, m, w', _, after, d, router, channel, run, linked, receiver, ?_⟩
  rw [same]
  rcases origin with ⟨hexData, bytes, held⟩ | corrupting
  · exact .inl ⟨hexData, bytes, held.mono fun _ mem => List.mem_append_left _ mem⟩
  · exact .inr corrupting

end PacketRouter

end MeshcoreSim
