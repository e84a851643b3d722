import MeshcoreSim.Orchestrator
import MeshcoreSim.Router.Provenance

/-!
Phantom packets: traces that the tracer creates for a packet that no node has transmitted.

The records of a delivery are made under the fingerprint of the bytes that arrive, and these are
not always the bytes that were transmitted.

* `PhantomFree` — no record creates a trace, and there are as many traces as packets that nodes
  have transmitted.
* `no_phantoms` — it holds in every run in which whatever an adversarial filter hands on in place
  of a packet either cannot be decoded or has the fingerprint of a packet that is traced already.
* `phantom` — a run in which a filter flips a bit, and a second packet appears.
-/

namespace MeshcoreSim

open Lib

/-- The fingerprints of the packets that nodes have transmitted, one a transmission. A string
that cannot be decoded is not a packet. -/
def fingerprints (tr : List Obs) : List String :=
  tr.filterMap fun
    | .transmitted _ hexData => (decodePacket hexData).map packetFingerprint
    | _ => none

@[simp] theorem fingerprints_append (tr tr' : List Obs) :
    fingerprints (tr ++ tr') = fingerprints tr ++ fingerprints tr' :=
  List.filterMap_append

/-! ### Records that find a trace -/

namespace PacketTracer

variable {tracer tracer' : PacketTracer} {hexData : String}

/-- There is a trace of the packet, if it can be decoded: no record on it takes the branch that
creates a trace defensively. -/
def Traces (tracer : PacketTracer) (hexData : String) : Prop :=
  ∀ info ∈ decodePacket hexData, (tracer.traces.get? (packetFingerprint info)).isSome

instance (tracer : PacketTracer) (hexData : String) : Decidable (tracer.Traces hexData) := by
  unfold Traces
  infer_instance

theorem Traces.mono (traces : tracer.Traces hexData)
    (more : ∀ fp, (tracer.traces.get? fp).isSome → (tracer'.traces.get? fp).isSome) :
    tracer'.Traces hexData :=
  fun info decoded => more _ (traces info decoded)

/-- A record on a traced packet adds no trace. -/
theorem isSome_onTrace (traces : tracer.Traces hexData) {sender : NodeName} {t : ℚ}
    {append : PacketInfo → PacketTrace → PacketTrace} (fp : String) :
    ((tracer.onTrace sender hexData t append).traces.get? fp).isSome ↔
      (tracer.traces.get? fp).isSome := by
  unfold onTrace
  cases decoded : decodePacket hexData with
  | none => rfl
  | some info =>
      simp only [Dict.get?_set]
      split
      · rename_i same
        simp [same, traces info decoded]
      · rfl

/-- As many traces as there are different fingerprints in a list that has the same ones. -/
theorem length_keys_traces {fps : List String}
    (same : ∀ fp, (tracer.traces.get? fp).isSome ↔ fp ∈ fps) :
    tracer.traces.keys.length = fps.dedup.length := by
  apply List.Perm.length_eq
  apply (List.perm_ext_iff_of_nodup tracer.traces.nodup (List.nodup_dedup fps)).mpr
  intro fp
  rw [List.mem_dedup, ← same fp]
  exact tracer.traces.mem_keys_iff

end PacketTracer

namespace PacketRouter

variable {R : PacketRouter} {w w' : World} {d : Delivery} {e : Event} {tr out : List Obs}
  {tracer : PacketTracer}

/-! ### The property and its condition -/

/-- Nothing but `record_tx` has created a trace: the next record of a run appends to an existing
trace, and there are as many traces as different packets that nodes have transmitted. -/
structure PhantomFree (R : PacketRouter) (ok : World → Event → Prop) (w : World)
    (tr : List Obs) : Prop where
  recorded : ∀ tracer e w' out d, w.tracer = some tracer → ok w e →
    R.step w e = some (w', out) → .verdict d ∈ out → tracer.Traces d.hexData
  traced : ∀ tracer, w.tracer = some tracer →
    ∀ fp, (tracer.traces.get? fp).isSome ↔ fp ∈ fingerprints tr
  counted : ∀ tracer, w.tracer = some tracer →
    tracer.traces.keys.length = (fingerprints tr).dedup.length

/-- The bytes that an adversarial filter hands on in place of a packet. -/
def Gate.altered? : Gate → Option String
  | .passed hexData true => some hexData
  | _ => none

def Task.created? : Task → Option Delivery
  | .created d => some d
  | .sleeping _ _ _ => none

/-- The steps that hand on no packet that the tracer does not know: where a call starts and the
filter of its receiver replaces the packet, the new bytes cannot be decoded, or their fingerprint
has a trace. -/
def Recognised (R : PacketRouter) (w : World) : Event → Prop
  | .start k => ∀ d ∈ w.tasks[k]?.bind Task.created?, ∀ tracer ∈ w.tracer,
      ∀ hexData ∈ (R.gates (w.without k) d).2.altered?, tracer.Traces hexData
  | _ => True

instance (R : PacketRouter) (w : World) : (e : Event) → Decidable (R.Recognised w e)
  | .start _ =>
      @Option.decidableForallMem _ _
        (fun _ => @Option.decidableForallMem _ _ (fun _ => Option.decidableForallMem _) _) _
  | .tick _ | .onTx _ _ | .notify _ | .resume _ | .wake _ | .drain => .isTrue trivial

/-! ### One slice -/

/-- The tracer knows the packets in flight, and has traces of the transmitted packets. -/
structure Traced (w : World) (tr : List Obs) (tracer : PacketTracer) : Prop where
  current : w.tracer = some tracer
  tasks : ∀ task ∈ w.tasks, tracer.Traces task.delivery.hexData
  broadcasts : ∀ b ∈ w.broadcasts, tracer.Traces b.hexData
  buffers : ∀ entry ∈ w.filters.entries, ∀ packet ∈ entry.2.replayBuffer, tracer.Traces packet.2
  keys : ∀ fp, (tracer.traces.get? fp).isSome ↔ fp ∈ fingerprints tr

/-- What passes the gates in a recognised step is known to the tracer. -/
theorem Traced.passed (traced : Traced w tr tracer) {k : ℕ} {hexData : String}
    {corrupted : Bool} (created : w.tasks[k]? = some (.created d))
    (recognised : R.Recognised w (.start k))
    (gate : (R.gates (w.without k) d).2 = .passed hexData corrupted) :
    tracer.Traces hexData := by
  rcases gates_passed gate with ⟨-, rfl, -⟩ | ⟨rfl, -, -⟩
  · have carried := traced.tasks _ (List.mem_of_getElem? created)
    exact carried
  · have task : d ∈ w.tasks[k]?.bind Task.created? := by
      rw [created]
      rfl
    have altered : hexData ∈ (R.gates (w.without k) d).2.altered? := by
      rw [gate]
      rfl
    exact recognised d task tracer traced.current hexData altered

/-- A record is made on a packet that the tracer knows. -/
theorem Traced.verdict (traced : Traced w tr tracer) (recognised : R.Recognised w e)
    (slice : Slice R w e w' out) (taken : .verdict d ∈ out) : tracer.Traces d.hexData := by
  rcases slice.mem_verdict taken with ⟨k, corrupted, t, task, -⟩ |
    ⟨k, d₀, corrupted, rfl, task, gate, -, -⟩
  · have carried := traced.tasks _ (List.mem_of_getElem? task)
    exact carried
  · exact traced.passed task recognised gate

/-- The tracer after a call has ended: a record on a packet that it knows adds no trace. -/
theorem Arrival.isSome_get? {outcome : Outcome} {after : Option PacketTracer}
    {commands : List Obs} (arrival : Arrival R w d outcome after commands)
    (current : w.tracer = some tracer) (traces : tracer.Traces d.hexData) :
    ∃ tracer', after = some tracer' ∧
      ∀ fp, (tracer'.traces.get? fp).isSome ↔ (tracer.traces.get? fp).isSome := by
  cases arrival with
  | halfduplex =>
      rw [current]
      exact ⟨_, rfl, PacketTracer.isSome_onTrace traces⟩
  | collision =>
      rw [current]
      exact ⟨_, rfl, PacketTracer.isSome_onTrace traces⟩
  | rx =>
      rw [current]
      exact ⟨_, rfl, PacketTracer.isSome_onTrace traces⟩
  | noReceiver =>
      rw [current]
      exact ⟨_, rfl, PacketTracer.isSome_onTrace traces⟩

/-- A call that ends transmits nothing. -/
theorem Arrival.fingerprints_eq_nil {d' : Delivery} {outcome : Outcome}
    {after : Option PacketTracer} {commands : List Obs}
    (arrival : Arrival R w d outcome after commands) (corrupted : Bool) :
    fingerprints (.verdict d :: commands ++ [.ended d' corrupted outcome]) = [] := by
  cases arrival <;> rfl

/-- What an observer sees of `_on_tx` has one fingerprint, if the packet can be decoded. -/
theorem mem_fingerprints_transmittedObs {sender : NodeName} {hexData fp : String} :
    fp ∈ fingerprints (R.transmittedObs w sender hexData) ↔
      (decodePacket hexData).map packetFingerprint = some fp := by
  have registered : fingerprints (registerTx w.channel (R.broadcast w sender hexData).txId
      ⟨sender, w.time, (R.txWindow w hexData).stop⟩).2 = [] := by
    unfold registerTx
    split <;> rfl
  unfold transmittedObs
  unfold fingerprints at registered ⊢
  rw [List.filterMap_cons]
  cases decoded : decodePacket hexData with
  | none => simp [decoded, registered]
  | some info => simp [decoded, registered, eq_comm]

theorem fingerprints_replayed (replays : List (NodeName × String)) :
    fingerprints (replays.map fun replay => .replayed replay.1 replay.2) = [] := by
  unfold fingerprints
  rw [List.filterMap_map]
  exact List.filterMap_eq_nil_iff.mpr fun _ _ => rfl

/-- The traces after a recognised slice: those from before, and that of the packet that it has
transmitted. -/
theorem Traced.traces (traced : Traced w tr tracer) (recognised : R.Recognised w e)
    (slice : Slice R w e w' out) :
    ∃ tracer', w'.tracer = some tracer' ∧ ∀ fp, (tracer'.traces.get? fp).isSome ↔
      (tracer.traces.get? fp).isSome ∨ fp ∈ fingerprints out := by
  have same : w'.tracer = some tracer → fingerprints out = [] →
      ∃ tracer', w'.tracer = some tracer' ∧ ∀ fp, (tracer'.traces.get? fp).isSome ↔
        (tracer.traces.get? fp).isSome ∨ fp ∈ fingerprints out := by
    intro current nothing
    exact ⟨tracer, current, fun fp => by simp [nothing]⟩
  have sent : ∀ {sender : NodeName} {hexData : String},
      w'.tracer = (R.transmitted w sender hexData).tracer →
      out = R.transmittedObs w sender hexData →
      ∃ tracer', w'.tracer = some tracer' ∧ ∀ fp, (tracer'.traces.get? fp).isSome ↔
        (tracer.traces.get? fp).isSome ∨ fp ∈ fingerprints out := by
    rintro sender hexData after rfl
    unfold transmitted traceTx at after
    rw [traced.current] at after
    refine ⟨_, after, fun fp => ?_⟩
    rw [mem_fingerprints_transmittedObs]
    exact PacketTracer.isSome_recordTx _ fp
  have ended : ∀ {d d' : Delivery} {corrupted : Bool} {outcome : Outcome}
      {after : Option PacketTracer} {commands : List Obs},
      Arrival R w d outcome after commands → tracer.Traces d.hexData → w'.tracer = after →
      out = .verdict d :: commands ++ [.ended d' corrupted outcome] →
      ∃ tracer', w'.tracer = some tracer' ∧ ∀ fp, (tracer'.traces.get? fp).isSome ↔
        (tracer.traces.get? fp).isSome ∨ fp ∈ fingerprints out := by
    rintro d d' corrupted outcome after commands arrival traces is rfl
    obtain ⟨tracer', rfl, keys⟩ := arrival.isSome_get? traced.current traces
    refine ⟨tracer', is, fun fp => ?_⟩
    rw [arrival.fingerprints_eq_nil, keys fp]
    simp
  cases slice with
  | tick => exact same traced.current rfl
  | alone => exact sent rfl rfl
  | announced => exact sent rfl rfl
  | notify => exact same traced.current rfl
  | resume => exact same traced.current rfl
  | stopped => exact same traced.current rfl
  | asleep => exact same traced.current rfl
  | through k d hexData corrupted outcome after commands task gate awake arrival =>
      exact ended arrival (traced.passed task recognised gate) rfl rfl
  | woken k d corrupted t outcome after commands task due arrival =>
      have carried := traced.tasks _ (List.mem_of_getElem? task)
      exact ended arrival carried rfl rfl
  | drain => exact same traced.current (fingerprints_replayed _)

/-- Recognised slices keep the tracer informed. -/
theorem Traced.step (traced : Traced w tr tracer) (recognised : R.Recognised w e)
    (slice : Slice R w e w' out) : ∃ tracer', Traced w' (tr ++ out) tracer' := by
  obtain ⟨tracer', current, keys⟩ := traced.traces recognised slice
  have more : ∀ {hexData : String}, tracer.Traces hexData → tracer'.Traces hexData :=
    fun traces => traces.mono fun fp known => (keys fp).mpr (.inl known)
  have sent : ∀ {sender : NodeName} {hexData : String}, e = .onTx sender hexData →
      tracer'.Traces hexData := by
    intro sender hexData isOnTx info decoded
    have mem : packetFingerprint info ∈ fingerprints out := by
      cases slice with
      | alone =>
          cases isOnTx
          exact mem_fingerprints_transmittedObs.mpr (by rw [decoded]; rfl)
      | announced =>
          cases isOnTx
          exact mem_fingerprints_transmittedObs.mpr (by rw [decoded]; rfl)
      | _ => cases isOnTx
    exact (keys _).mpr (.inr mem)
  refine ⟨tracer', current, ?_, ?_, ?_, ?_⟩
  · intro task mem
    rcases slice.tasks mem with old | ⟨b, known, made⟩ | ⟨replay, due, made⟩ |
      ⟨k, d, hexData, corrupted, rfl, created, gate, same⟩
    · exact more (traced.tasks task old)
    · rw [(mem_deliveries made).2.2.1]
      rcases known with old | ⟨sender, hexData, isOnTx, rfl⟩
      · exact more (traced.broadcasts b old)
      · exact sent isOnTx
    · obtain ⟨entry, filter, -, packet, captured, same⟩ := mem_dueReplays due
      rw [(mem_replayDeliveries made).2.2.1, ← same]
      exact more (traced.buffers entry filter packet captured)
    · rw [same]
      exact more (traced.passed created recognised gate)
  · intro b mem
    rcases slice.broadcasts mem with ⟨waiting, old⟩ | ⟨sender, hexData, isOnTx, rfl⟩
    · exact more (traced.broadcasts { b with waiting := waiting } old)
    · exact sent isOnTx
  · intro entry mem packet captured
    obtain ⟨filter, old, -, buffer⟩ := slice.filters mem
    rcases buffer packet captured with earlier | ⟨task, inFlight, same⟩
    · exact more (traced.buffers _ old packet earlier)
    · rw [same]
      exact more (traced.tasks task inFlight)
  · intro fp
    rw [keys fp, fingerprints_append, List.mem_append, traced.keys fp]

/-! ### Whole runs -/

theorem traced_init (R : PacketRouter) (time : ℚ) (channel : Option ChannelModel) :
    Traced (R.init time (some .init) channel) [] .init where
  current := rfl
  tasks := fun _ mem => by cases mem
  broadcasts := fun _ mem => by cases mem
  buffers := by
    intro entry mem packet captured
    rw [(PacketRouter.mem_filters_init mem).1] at captured
    cases captured
  keys := fun fp => by simp [PacketTracer.init, Dict.get?, Dict.empty, fingerprints]

/-- No phantom packets. In every run in which whatever an adversarial filter hands on in place of
a packet cannot be decoded or has the fingerprint of a traced packet, `record_tx` has created
all traces: every record finds the trace of its packet, and there are as many traces as different
packets that nodes have transmitted. -/
theorem no_phantoms (R : PacketRouter) (time : ℚ) (channel : Option ChannelModel) (w : World)
    (tr : List Obs)
    (run : Run R.step R.Recognised (R.init time (some .init) channel) w tr) :
    R.PhantomFree R.Recognised w tr := by
  have invariant : ∃ tracer, Traced w tr tracer := by
    apply run.invariant (I := fun w tr => ∃ tracer, Traced w tr tracer)
    · exact ⟨.init, traced_init R time channel⟩
    · rintro s tr e s' out _ ⟨tracer, before⟩ recognised stepped
      exact before.step recognised (step_slice stepped)
  obtain ⟨tracer, traced⟩ := invariant
  constructor
  · intro tracer' e w' out d current recognised stepped taken
    obtain rfl := Option.some.inj (traced.current.symm.trans current)
    exact traced.verdict recognised (step_slice stepped) taken
  · intro tracer' current
    obtain rfl := Option.some.inj (traced.current.symm.trans current)
    exact traced.keys
  · intro tracer' current
    obtain rfl := Option.some.inj (traced.current.symm.trans current)
    exact PacketTracer.length_keys_traces traced.keys

/-- A call whose sleep is over wakes and takes its verdict. -/
theorem exists_wake {k : ℕ} {corrupted : Bool} {t : ℚ}
    (task : w.tasks[k]? = some (.sleeping d corrupted t)) (due : t ≤ w.time) :
    ∃ w' out, R.step w (.wake k) = some (w', out) ∧ .verdict d ∈ out := by
  obtain ⟨outcome, after, commands, -, ends⟩ :=
    arrive_arrival R { w with tasks := w.tasks.eraseIdx k } d corrupted
  have woken : R.step w (.wake k) =
      some (R.arrive { w with tasks := w.tasks.eraseIdx k } d corrupted) := by
    simp only [step, task, if_pos due]
  rw [ends] at woken
  exact ⟨_, _, woken, List.mem_cons_self⟩

/-- The clock may advance at any time. -/
theorem step_tick {t : ℚ} (later : w.time ≤ t) :
    R.step w (.tick t) = some ({ w with time := t }, []) :=
  if_pos later

/-- The condition leaves nothing out: a step that is not recognised makes a record without a
trace, at once or when the packet arrives, if nobody transmits such a packet in between. -/
theorem phantom_of_unrecognised (stepped : R.step w e = some (w', out))
    (unrecognised : ¬ R.Recognised w e) :
    ∃ w₁ tr e₁ w₂ out₂ d tracer, Run R.step anyStep w w₁ tr ∧
      R.step w₁ e₁ = some (w₂, out₂) ∧ .verdict d ∈ out₂ ∧ w₁.tracer = some tracer ∧
      ¬ tracer.Traces d.hexData := by
  have slice := step_slice stepped
  have altered : ∀ {k : ℕ} {d : Delivery}, w.tasks[k]? = some (.created d) → e = .start k →
      ∃ tracer hexData, w.tracer = some tracer ∧
        (R.gates (w.without k) d).2 = .passed hexData true ∧ ¬ tracer.Traces hexData := by
    rintro k d created rfl
    unfold Recognised at unrecognised
    push Not at unrecognised
    obtain ⟨d', task, tracer, current, hexData, replaced, unknown⟩ := unrecognised
    rw [created] at task
    obtain rfl : d = d' := by simpa [Task.created?] using task
    refine ⟨tracer, hexData, current, ?_, unknown⟩
    cases gate : (R.gates (w.without k) d).2 with
    | stopped outcome =>
        rw [gate] at replaced
        cases replaced
    | passed bytes corrupted =>
        rw [gate] at replaced
        cases corrupted with
        | false => cases replaced
        | true =>
            cases replaced
            rfl
  cases slice with
  | stopped k d outcome task gate =>
      obtain ⟨tracer, hexData, -, passed, -⟩ := altered task rfl
      cases gate.symm.trans passed
  | through k d hexData corrupted outcome after commands task gate awake arrival =>
      obtain ⟨tracer, hexData', current, passed, unknown⟩ := altered task rfl
      cases gate.symm.trans passed
      exact ⟨w, [], .start k, _, _, { d with hexData := hexData }, tracer, .start, stepped,
        List.mem_cons_self, current, unknown⟩
  | asleep k d hexData corrupted t task gate sleeps =>
      obtain ⟨tracer, hexData', current, passed, unknown⟩ := altered task rfl
      cases gate.symm.trans passed
      -- The call wakes when the clock has reached its deadline.
      obtain ⟨w₂, out₂, woken, taken⟩ := exists_wake (R := R)
        (w := { R.gated w k d with
          time := max w.time t
          tasks := w.tasks.eraseIdx k ++ [.sleeping { d with hexData := hexData } true t] })
        (k := (w.tasks.eraseIdx k).length) List.getElem?_concat_length (le_max_right _ _)
      have slept : Run R.step anyStep w _ _ := Run.start.next trivial stepped
      have ticked := slept.next trivial (step_tick (le_max_left w.time t))
      exact ⟨_, _, _, w₂, out₂, _, tracer, ticked, woken, taken, current, unknown⟩
  | _ => exact absurd trivial unrecognised

/-- `mallory` hands on every packet with one bit flipped. -/
def tamperingCell : TopologyConfig where
  nodes := [.named "alice",
    { NodeConfig.named "mallory" with adversarial := some ⟨.corrupt, 1, 0, 1⟩ }]
  edges := [⟨"alice", "mallory", 0, 0, 6, none, none⟩]
  simulation := ⟨0, 0, 0, 0, 0, "", none, none⟩
  radio := some .default

/-- A packet of which nothing that can be decoded is left makes no phantom. -/
theorem no_phantoms_tamperingCell :
    ∃ R m w tr tracer, ofConfig? tamperingCell .zero = some R ∧ R.channel = some m ∧
      Run R.step R.Recognised (R.init 0 (some .init) (some m)) w tr ∧
      w.metrics.advCorruptCount = 1 ∧ w.tracer = some tracer ∧
      tracer.traces.keys.length = (fingerprints tr).dedup.length := by
  have found : ((ofConfig? tamperingCell .zero).any fun R => R.channel.any fun m =>
      (exec (restrict R.step R.Recognised) (R.init 0 (some .init) (some m))
        [.onTx "alice" "0500", .notify 0, .resume 0, .start 0, .tick 1, .wake 0]).any
        fun (w, _) => w.metrics.advCorruptCount = 1 ∧ w.tracer.isSome) = true := by
    decide +kernel
  obtain ⟨R, m, router, channel, found⟩ := exists_wired found
  obtain ⟨w, tr, run, found⟩ := Run.of_exec_any found
  obtain ⟨corrupted, traced⟩ := of_decide_eq_true found
  obtain ⟨tracer, current⟩ := Option.isSome_iff_exists.mp traced
  exact ⟨R, m, w, tr, tracer, router, channel, run, corrupted, current,
    (no_phantoms R 0 (some m) w tr run).counted tracer current⟩

/-- A packet whose header is changed from transport flood to flood: what was the transport code
now belongs to the payload, and a second packet appears that nobody has transmitted. -/
theorem phantom :
    ∃ R m w tr, ofConfig? tamperingCell .zero = some R ∧ R.channel = some m ∧
      Run R.step anyStep (R.init 0 (some .init) (some m)) w tr ∧
      ¬ R.PhantomFree anyStep w tr := by
  have found : ((ofConfig? tamperingCell .zero).any fun R => R.channel.any fun m =>
      (exec (restrict R.step anyStep) (R.init 0 (some .init) (some m))
        [.onTx "alice" "040000000000", .notify 0, .resume 0, .start 0, .tick 1, .wake 0]).any
        fun (w, tr) => (w.tracer.any fun tracer => tracer.traces.keys.length = 2) ∧
          (fingerprints tr).dedup.length = 1) = true := by
    decide +kernel
  obtain ⟨R, m, router, channel, found⟩ := exists_wired found
  obtain ⟨w, tr, run, found⟩ := Run.of_exec_any found
  obtain ⟨two, one⟩ := of_decide_eq_true found
  obtain ⟨tracer, current, two⟩ := (Option.any_eq_true _ _).mp two
  refine ⟨R, m, w, tr, router, channel, run, fun free => ?_⟩
  have counted := free.counted tracer current
  rw [of_decide_eq_true two, one] at counted
  cases counted

end PacketRouter

end MeshcoreSim
