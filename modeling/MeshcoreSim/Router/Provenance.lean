import MeshcoreSim.Router.Slices

/-!
Where the packets in flight come from.

Every packet of a task, of a suspended broadcast or of a replay buffer was transmitted by a
node, or is the output of a corrupting filter. So a property of transmitted packets that
corruption keeps is a property of all packets in flight (`run_carries`), and every task
follows a link of the topology.
-/

namespace MeshcoreSim

open Lib

/-- The runs in which every transmitted packet has a property. -/
def Transmits (P : String → Prop) (_ : World) : Event → Prop
  | .onTx _ hexData => P hexData
  | _ => True

instance (P : String → Prop) [DecidablePred P] (w : World) (e : Event) :
    Decidable (Transmits P w e) := by
  cases e <;> unfold Transmits <;> infer_instance

namespace PacketRouter

variable {R : PacketRouter} {P : String → Prop} {w w' : World} {e : Event} {tr out : List Obs}

/-- No agent corrupts packets, or corruption keeps the property. -/
def CorruptSafe (R : PacketRouter) (P : String → Prop) : Prop :=
  ∀ entry ∈ R.agents.entries, ∀ cfg, entry.2.adversarial = some cfg → cfg.mode = .corrupt →
    ∀ bytes, P (bytesToHex bytes)

/-- All packets in flight have a property, and all tasks follow links. -/
structure Carries (R : PacketRouter) (P : String → Prop) (w : World) : Prop where
  tasks : ∀ task ∈ w.tasks, P task.delivery.hexData
  links : ∀ task ∈ w.tasks, task.delivery.link ∈ R.topology.neighbours task.delivery.sender
  broadcasts : ∀ b ∈ w.broadcasts, P b.hexData
  buffers : ∀ entry ∈ w.filters.entries, ∀ packet ∈ entry.2.replayBuffer, P packet.2
  corrupts : ∀ entry ∈ w.filters.entries, entry.2.cfg.mode = .corrupt →
    ∀ bytes, P (bytesToHex bytes)

/-- The filters of a fresh router are those of the adversarial agents, and have captured nothing. -/
theorem mem_filters_init {time : ℚ} {tracer : Option PacketTracer}
    {channel : Option ChannelModel} {entry : NodeName × AdversarialFilter}
    (mem : entry ∈ (R.init time tracer channel).filters.entries) :
    entry.2.replayBuffer = [] ∧ ∃ config, (entry.1, config) ∈ R.agents.entries ∧
      config.adversarial = some entry.2.cfg := by
  obtain ⟨⟨name, config⟩, agent, made⟩ := List.mem_filterMap.mp (Dict.mem_of_mem_ofList mem)
  obtain ⟨cfg, adversarial, rfl⟩ := Option.map_eq_some_iff.mp made
  exact ⟨rfl, config, agent, adversarial⟩

theorem carries_init {time : ℚ} {tracer : Option PacketTracer} {channel : Option ChannelModel}
    (safe : R.CorruptSafe P) : R.Carries P (R.init time tracer channel) := by
  constructor
  · intro task mem
    cases mem
  · intro task mem
    cases mem
  · intro b mem
    cases mem
  · intro entry mem packet captured
    rw [(mem_filters_init mem).1] at captured
    cases captured
  · intro entry mem
    obtain ⟨-, config, agent, adversarial⟩ := mem_filters_init mem
    exact safe _ agent _ adversarial

/-- The filters after a slice are those from before it, which may have captured a packet in
flight. -/
theorem Slice.filters (slice : Slice R w e w' out) {entry : NodeName × AdversarialFilter}
    (mem : entry ∈ w'.filters.entries) :
    ∃ filter, (entry.1, filter) ∈ w.filters.entries ∧ entry.2.cfg = filter.cfg ∧
      ∀ packet ∈ entry.2.replayBuffer,
        packet ∈ filter.replayBuffer ∨ ∃ task ∈ w.tasks, packet.2 = task.delivery.hexData := by
  have same : entry ∈ w.filters.entries →
      ∃ filter, (entry.1, filter) ∈ w.filters.entries ∧ entry.2.cfg = filter.cfg ∧
        ∀ packet ∈ entry.2.replayBuffer, packet ∈ filter.replayBuffer ∨
          ∃ task ∈ w.tasks, packet.2 = task.delivery.hexData :=
    fun old => ⟨entry.2, old, rfl, fun _ captured => .inl captured⟩
  have gated : ∀ {k : ℕ} {d : Delivery}, w.tasks[k]? = some (.created d) →
      entry ∈ (R.gated w k d).filters.entries →
      ∃ filter, (entry.1, filter) ∈ w.filters.entries ∧ entry.2.cfg = filter.cfg ∧
        ∀ packet ∈ entry.2.replayBuffer, packet ∈ filter.replayBuffer ∨
          ∃ task ∈ w.tasks, packet.2 = task.delivery.hexData := by
    intro k d task mem
    obtain ⟨filter, old, config, buffer⟩ := gates_filters mem
    refine ⟨filter, old, config, fun packet captured => ?_⟩
    rcases buffer packet captured with earlier | now
    · exact .inl earlier
    · exact .inr ⟨.created d, List.mem_of_getElem? task, now⟩
  cases slice with
  | stopped k d _ task => exact gated task mem
  | asleep k d _ _ _ task => exact gated task mem
  | through k d _ _ _ _ _ task => exact gated task mem
  | drain =>
      obtain ⟨⟨name, filter⟩, old, rfl⟩ := List.mem_map.mp mem
      exact ⟨filter, old, rfl, fun packet kept => .inl (List.mem_of_mem_filter kept)⟩
  | _ => exact same mem

/-- The tasks after a slice: those from before, the deliveries of a broadcast or of a
replayed packet, and the call that has just fallen asleep. -/
theorem Slice.tasks (slice : Slice R w e w' out) {task : Task} (mem : task ∈ w'.tasks) :
    task ∈ w.tasks ∨
      (∃ b, (b ∈ w.broadcasts ∨ ∃ sender hexData, e = .onTx sender hexData ∧
          b = R.broadcast w sender hexData) ∧ task.delivery ∈ R.deliveries b) ∨
      (∃ replay ∈ dueReplays w, task.delivery ∈ R.replayDeliveries replay) ∨
      (∃ k d hexData corrupted, e = .start k ∧ w.tasks[k]? = some (.created d) ∧
        (R.gates (w.without k) d).2 = .passed hexData corrupted ∧
        task.delivery = { d with hexData := hexData }) := by
  cases slice with
  | alone sender hexData =>
      rcases List.mem_append.mp mem with old | new
      · exact .inl old
      · obtain ⟨d, made, rfl⟩ := List.mem_map.mp new
        exact .inr (.inl ⟨_, .inr ⟨sender, hexData, rfl, rfl⟩, made⟩)
  | resume k b pending =>
      rcases List.mem_append.mp mem with old | new
      · exact .inl old
      · obtain ⟨d, made, rfl⟩ := List.mem_map.mp new
        exact .inr (.inl ⟨b, .inl (List.mem_of_getElem? pending), made⟩)
  | stopped => exact .inl (List.mem_of_mem_eraseIdx mem)
  | asleep k d hexData corrupted t created gate =>
      rcases List.mem_append.mp mem with old | new
      · exact .inl (List.mem_of_mem_eraseIdx old)
      · rw [List.mem_singleton.mp new]
        exact .inr (.inr (.inr ⟨k, d, hexData, corrupted, rfl, created, gate, rfl⟩))
  | through => exact .inl (List.mem_of_mem_eraseIdx mem)
  | woken => exact .inl (List.mem_of_mem_eraseIdx mem)
  | drain =>
      rcases List.mem_append.mp mem with old | new
      · exact .inl old
      · obtain ⟨d, made, rfl⟩ := List.mem_map.mp new
        exact .inr (.inr (.inl (List.mem_flatMap.mp made)))
  | _ => exact .inl mem

/-- The suspended broadcasts after a slice: those from before, some of them further on, and
the one that has just begun. -/
theorem Slice.broadcasts (slice : Slice R w e w' out) {b : Broadcast}
    (mem : b ∈ w'.broadcasts) :
    (∃ waiting, { b with waiting := waiting } ∈ w.broadcasts) ∨
      ∃ sender hexData, e = .onTx sender hexData ∧ b = R.broadcast w sender hexData := by
  cases slice with
  | announced sender hexData =>
      rcases List.mem_append.mp mem with old | new
      · exact .inl ⟨b.waiting, old⟩
      · exact .inr ⟨sender, hexData, rfl, List.mem_singleton.mp new⟩
  | notify k b' receiver rest pending =>
      rcases List.mem_or_eq_of_mem_set mem with old | rfl
      · exact .inl ⟨b.waiting, old⟩
      · exact .inl ⟨b'.waiting, List.mem_of_getElem? pending⟩
  | resume => exact .inl ⟨b.waiting, List.mem_of_mem_eraseIdx mem⟩
  | _ => exact .inl ⟨b.waiting, mem⟩

/-- The deliveries of a broadcast carry its packet and `tx_id` over the sender's links. -/
theorem mem_deliveries {b : Broadcast} {d : Delivery} (mem : d ∈ R.deliveries b) :
    d.sender = b.sender ∧ d.link ∈ R.topology.neighbours b.sender ∧ d.hexData = b.hexData ∧
      d.txId = b.txId := by
  obtain ⟨link, linked, rfl⟩ := List.mem_map.mp mem
  exact ⟨rfl, linked, rfl, rfl⟩

/-- A replayed packet carries no `tx_id` and no window. -/
theorem mem_replayDeliveries {replay : NodeName × String} {d : Delivery}
    (mem : d ∈ R.replayDeliveries replay) :
    d.sender = replay.1 ∧ d.link ∈ R.topology.neighbours replay.1 ∧ d.hexData = replay.2 ∧
      d.txId = none ∧ d.window = none := by
  obtain ⟨link, linked, rfl⟩ := List.mem_map.mp mem
  exact ⟨rfl, linked, rfl, rfl, rfl⟩

/-- A packet that is due for replay is in the buffer of a filter. -/
theorem mem_dueReplays {replay : NodeName × String} (mem : replay ∈ dueReplays w) :
    ∃ entry ∈ w.filters.entries, entry.1 = replay.1 ∧
      ∃ packet ∈ entry.2.replayBuffer, packet.2 = replay.2 := by
  obtain ⟨entry, filter, due⟩ := List.mem_flatMap.mp mem
  obtain ⟨hexData, drained, rfl⟩ := List.mem_map.mp due
  obtain ⟨packet, kept, rfl⟩ := List.mem_map.mp drained
  exact ⟨entry, filter, rfl, packet, List.mem_of_mem_filter kept, rfl⟩

/-- A packet that passes the gates keeps the property. -/
theorem Carries.passed (carries : R.Carries P w) {k : ℕ} {d : Delivery} {hexData : String}
    {corrupted : Bool} (created : w.tasks[k]? = some (.created d))
    (gate : (R.gates (w.without k) d).2 = .passed hexData corrupted) : P hexData := by
  have carried : P d.hexData := carries.tasks _ (List.mem_of_getElem? created)
  rcases gates_passed gate with ⟨-, rfl, -⟩ | ⟨-, -, rfl | ⟨entry, filter, mode, bytes, rfl⟩⟩
  · exact carried
  · exact carried
  · exact carries.corrupts entry filter mode bytes

/-- Slices keep what is known of the packets in flight. -/
theorem Carries.step (carries : R.Carries P w) (slice : Slice R w e w' out)
    (transmits : Transmits P w e) : R.Carries P w' := by
  have fromBroadcast : ∀ b, (b ∈ w.broadcasts ∨ ∃ sender hexData, e = .onTx sender hexData ∧
      b = R.broadcast w sender hexData) → P b.hexData := by
    rintro b (old | ⟨sender, hexData, rfl, rfl⟩)
    · exact carries.broadcasts b old
    · exact transmits
  constructor
  · intro task mem
    rcases slice.tasks mem with old | ⟨b, known, made⟩ | ⟨replay, due, made⟩ |
      ⟨k, d, hexData, corrupted, -, created, gate, same⟩
    · exact carries.tasks task old
    · rw [(mem_deliveries made).2.2.1]
      exact fromBroadcast b known
    · obtain ⟨entry, filter, -, packet, captured, same⟩ := mem_dueReplays due
      rw [(mem_replayDeliveries made).2.2.1, ← same]
      exact carries.buffers entry filter packet captured
    · rw [same]
      exact carries.passed created gate
  · intro task mem
    rcases slice.tasks mem with old | ⟨b, -, made⟩ | ⟨replay, -, made⟩ |
      ⟨k, d, hexData, corrupted, -, created, -, same⟩
    · exact carries.links task old
    · rw [(mem_deliveries made).1]
      exact (mem_deliveries made).2.1
    · rw [(mem_replayDeliveries made).1]
      exact (mem_replayDeliveries made).2.1
    · rw [same]
      exact carries.links _ (List.mem_of_getElem? created)
  · intro b mem
    rcases slice.broadcasts mem with ⟨waiting, old⟩ | started
    · exact carries.broadcasts { b with waiting := waiting } old
    · exact fromBroadcast b (.inr started)
  · intro entry mem packet captured
    obtain ⟨filter, old, -, buffer⟩ := slice.filters mem
    rcases buffer packet captured with earlier | ⟨task, inFlight, same⟩
    · exact carries.buffers _ old packet earlier
    · rw [same]
      exact carries.tasks task inFlight
  · intro entry mem mode bytes
    obtain ⟨filter, old, config, -⟩ := slice.filters mem
    exact carries.corrupts _ old (config ▸ mode) bytes

/-- In a run that transmits packets with a property that corruption keeps, all packets in
flight have it. -/
theorem run_carries {time : ℚ} {tracer : Option PacketTracer} {channel : Option ChannelModel}
    (safe : R.CorruptSafe P)
    (run : Run R.step (Transmits P) (R.init time tracer channel) w tr) : R.Carries P w := by
  apply run.invariant (I := fun w _ => R.Carries P w) (carries_init safe)
  intro s tr e s' out _ before transmits stepped
  exact before.step (step_slice stepped) transmits

/-- Every link of the topology leads to an agent. -/
def LinksToAgents (R : PacketRouter) : Prop :=
  ∀ sender, ∀ link ∈ R.topology.neighbours sender, (R.agents.get? link.other).isSome

theorem linksToAgents_of_entries
    (agents : ∀ entry ∈ R.topology.adj.entries, ∀ link ∈ entry.2,
      (R.agents.get? link.other).isSome) : R.LinksToAgents := by
  intro sender link linked
  unfold Topology.neighbours at linked
  cases known : R.topology.adj.get? sender with
  | none => simp [known] at linked
  | some links =>
      rw [known] at linked
      exact agents _ (R.topology.adj.mem_entries_iff.mpr known) link linked

end PacketRouter

end MeshcoreSim
