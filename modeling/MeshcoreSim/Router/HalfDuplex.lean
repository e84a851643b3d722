import MeshcoreSim.Hex
import MeshcoreSim.Router.Provenance
import MeshcoreSim.Router.Pruning
import MeshcoreSim.SimRadio

/-!
The orchestrator and the radios of its nodes, and what listening before talking prevents.

A `Network` is the router with the radio of every node. The nodes share its clock, and a
command is processed at the instant it is written. A run is one of the nodes' Dispatcher
(`Dispatches`) when a node transmits only while its radio is neither receiving nor
transmitting.

* `network_refines` — the router's part of a network is a router.
* `lbt_confines_halfduplex` — a transmission that a node begins after it has processed the
  `rx_start` of a packet begins, on the node's millisecond clock, no earlier than the whole
  milliseconds of the airtime after the start of the packet. So it can only touch the last
  `latency + 2 ms` of the reception.
* `halfduplex_despite_lbt` — and there it does: `rx_start` knows nothing of the latency.
-/

namespace MeshcoreSim

open Lib

structure Network where
  world : World
  radios : NodeName → SimRadio

inductive NetworkEvent where
  | router (e : Event)
  /-- The Dispatcher of a node asks whether its packet is sent. -/
  | sendComplete (node : NodeName)
  /-- The Dispatcher of a node reads a packet from its radio. -/
  | receive (node : NodeName)
  deriving DecidableEq, Repr

/-- What the router shows, and which node has been notified of the packet on the air in
which window. -/
inductive NetworkObs where
  | router (o : Obs)
  | notified (receiver : NodeName) (window : Window ℚ)
  deriving DecidableEq

namespace PacketRouter

/-- One command line, as `dispatch` of the node agent reads it. A duration beyond 32 bits
has no defined conversion. -/
def dispatch (millis : ℕ) (radio : SimRadio) : Command → SimRadio
  | .rx hexData snr rssi =>
      if hexData.length % 2 = 0 ∧ hexData ≠ "" then
        radio.enqueue ⟨hexToBytes (ascii hexData), snr, rssi⟩
      else radio
  | .rxStart durationMs => radio.notifyRxStart millis (durationMs % 2 ^ 32)

variable (origin : NodeName → ℚ)

/-- What an observation of the router means for the radios: the line that it reads has just
been sent, and the commands that it writes are processed at once. -/
def onRadios (now : ℚ) (radios : NodeName → SimRadio) : Obs → NodeName → SimRadio
  | .transmitted sender hexData =>
      Function.update radios sender
        ((radios sender).startSendRaw (getMillis (origin sender) now) (hexData.length / 2))
  | .command receiver cmd =>
      Function.update radios receiver
        (dispatch (getMillis (origin receiver) now) (radios receiver) cmd)
  | _ => radios

/-- The notification that a slice sends. -/
def notification (w : World) : Event → List NetworkObs
  | .notify k =>
      match w.broadcasts[k]? with
      | some b => b.waiting.head?.toList.map fun receiver => .notified receiver b.window
      | none => []
  | _ => []

variable (R : PacketRouter)

def networkStep (net : Network) : NetworkEvent → Option (Network × List NetworkObs)
  | .router e =>
      (R.step net.world e).map fun (w, out) =>
        (⟨w, out.foldl (onRadios origin w.time) net.radios⟩,
          notification net.world e ++ out.map .router)
  | .sendComplete node =>
      some ({ net with
        radios := Function.update net.radios node
          ((net.radios node).isSendComplete (getMillis (origin node) net.world.time)).1 }, [])
  | .receive node =>
      some ({ net with
        radios := Function.update net.radios node (net.radios node).recvRaw }, [])

/-- No node starts a transmission while its radio is receiving. -/
def Listens (net : Network) : NetworkEvent → Prop
  | .router (.onTx sender _) =>
      (net.radios sender).isReceiving (getMillis (origin sender) net.world.time) = false
  | _ => True

/-- No node starts a transmission while its radio is receiving, or transmitting. -/
def Dispatches (net : Network) (e : NetworkEvent) : Prop :=
  Listens origin net e ∧
    match e with
    | .router (.onTx sender _) => (net.radios sender).txPending = false
    | _ => True

instance (net : Network) : (e : NetworkEvent) → Decidable (Dispatches origin net e)
  | .router (.onTx _ _) => inferInstanceAs (Decidable (_ = false ∧ _ = false))
  | .router (.tick _) | .router (.notify _) | .router (.resume _) | .router (.start _)
  | .router (.wake _) | .router .drain | .sendComplete _ | .receive _ => .isTrue ⟨trivial, trivial⟩

/-- A fresh router, and the radios of its nodes. -/
def networkInit (time : ℚ) (tracer : Option PacketTracer) (channel : Option ChannelModel)
    (radios : NodeName → SimRadio) : Network :=
  ⟨R.init time tracer channel, radios⟩

variable {R origin} {w w' : World} {net net' : Network} {e : NetworkEvent}
  {tr out : List NetworkObs} {ok : Network → NetworkEvent → Prop} {d : Delivery}
  {window : Window ℚ} {receiver : NodeName}

/-! ### The router in the network -/

/-- What the router shows in a run of the network. -/
def routerObs (tr : List NetworkObs) : List Obs :=
  tr.filterMap fun
    | .router o => some o
    | .notified _ _ => none

theorem mem_routerObs {o : Obs} : o ∈ routerObs tr ↔ .router o ∈ tr := by
  unfold routerObs
  rw [List.mem_filterMap]
  constructor
  · rintro ⟨o', mem, eq⟩
    cases o' <;> cases eq
    exact mem
  · intro mem
    exact ⟨_, mem, rfl⟩

theorem routerObs_append (tr tr' : List NetworkObs) :
    routerObs (tr ++ tr') = routerObs tr ++ routerObs tr' :=
  List.filterMap_append

/-- A notification is nothing that the router shows. -/
theorem routerObs_notification (w : World) (e : Event) : routerObs (notification w e) = [] := by
  apply List.filterMap_eq_nil_iff.mpr
  intro o mem
  cases e with
  | notify k =>
      simp only [notification] at mem
      split at mem
      · obtain ⟨receiver, -, rfl⟩ := List.mem_map.mp mem
        rfl
      · cases mem
  | _ => cases mem

/-- A step of the network is a slice of the router, or one of a node. -/
theorem networkStep_world (stepped : R.networkStep origin net e = some (net', out)) :
    (∃ e', e = .router e' ∧ R.step net.world e' = some (net'.world, routerObs out)) ∨
      (net'.world = net.world ∧ out = []) := by
  cases e with
  | router e' =>
      left
      obtain ⟨⟨w, shown⟩, slice, eq⟩ := Option.map_eq_some_iff.mp stepped
      cases eq
      refine ⟨e', rfl, ?_⟩
      rw [slice, routerObs_append, routerObs_notification]
      simp [routerObs, List.filterMap_map]
  | sendComplete node =>
      cases stepped
      exact .inr ⟨rfl, rfl⟩
  | receive node =>
      cases stepped
      exact .inr ⟨rfl, rfl⟩

/-- The router's part of a network is a router: what is proved of all its runs holds here. -/
theorem network_refines {net₀ : Network} (run : Run (R.networkStep origin) ok net₀ net tr) :
    Run R.step anyStep net₀.world net.world (routerObs tr) := by
  refine run.invariant
    (I := fun net tr => Run R.step anyStep net₀.world net.world (routerObs tr)) .start ?_
  intro net tr e net' out _ before _ stepped
  rw [routerObs_append]
  rcases networkStep_world stepped with ⟨e', -, slice⟩ | ⟨same, rfl⟩
  · exact before.next trivial slice
  · rw [same]
    simpa [routerObs] using before

/-! ### The busy window of a radio -/

theorem dispatch_rxActiveUntil (millis : ℕ) (radio : SimRadio) (cmd : Command) :
    radio.rxActiveUntil ≤ (dispatch millis radio cmd).rxActiveUntil := by
  cases cmd with
  | rx hexData snr rssi =>
      simp only [dispatch]
      split <;> exact le_rfl
  | rxStart durationMs =>
      simp only [dispatch, SimRadio.notifyRxStart_rxActiveUntil]
      exact le_max_left _ _

/-- Where one radio changes and its busy window is not shortened, no busy window is. -/
theorem update_rxActiveUntil {radios : NodeName → SimRadio} {node : NodeName} {radio : SimRadio}
    (kept : (radios node).rxActiveUntil ≤ radio.rxActiveUntil) (node' : NodeName) :
    (radios node').rxActiveUntil ≤ (Function.update radios node radio node').rxActiveUntil := by
  by_cases own : node' = node
  · subst own
    rw [Function.update_self]
    exact kept
  · rw [Function.update_of_ne own]

/-- No observation of the router shortens the busy window of a radio. -/
theorem onRadios_rxActiveUntil (now : ℚ) (radios : NodeName → SimRadio) (o : Obs)
    (node : NodeName) :
    (radios node).rxActiveUntil ≤ (onRadios origin now radios o node).rxActiveUntil := by
  cases o with
  | transmitted sender hexData =>
      apply update_rxActiveUntil
      rw [SimRadio.startSendRaw_rxActiveUntil]
  | command receiver cmd =>
      apply update_rxActiveUntil
      exact dispatch_rxActiveUntil _ _ _
  | _ => exact le_rfl

theorem foldl_onRadios_rxActiveUntil (now : ℚ) (shown : List Obs) (radios : NodeName → SimRadio)
    (node : NodeName) :
    (radios node).rxActiveUntil ≤
      (shown.foldl (onRadios origin now) radios node).rxActiveUntil := by
  induction shown generalizing radios with
  | nil => exact le_rfl
  | cons o shown ih => exact (onRadios_rxActiveUntil now radios o node).trans (ih _)

/-- No step of the network shortens the busy window of a radio. -/
theorem networkStep_rxActiveUntil (stepped : R.networkStep origin net e = some (net', out))
    (node : NodeName) :
    (net.radios node).rxActiveUntil ≤ (net'.radios node).rxActiveUntil := by
  cases e with
  | router e' =>
      obtain ⟨⟨w, shown⟩, -, eq⟩ := Option.map_eq_some_iff.mp stepped
      cases eq
      exact foldl_onRadios_rxActiveUntil w.time shown net.radios node
  | sendComplete node' =>
      cases stepped
      apply update_rxActiveUntil
      rw [SimRadio.isSendComplete_rxActiveUntil]
  | receive node' =>
      cases stepped
      apply update_rxActiveUntil
      rw [SimRadio.recvRaw_rxActiveUntil]

/-- No run of the network shortens the busy window of a radio. -/
theorem run_rxActiveUntil {net₀ : Network} (run : Run (R.networkStep origin) ok net₀ net tr)
    (node : NodeName) : (net₀.radios node).rxActiveUntil ≤ (net.radios node).rxActiveUntil := by
  refine run.invariant
    (I := fun net _ => (net₀.radios node).rxActiveUntil ≤ (net.radios node).rxActiveUntil)
    le_rfl ?_
  intro net tr e net' out _ before _ stepped
  exact before.trans (networkStep_rxActiveUntil stepped node)

/-! ### Notifications and transmissions -/

/-- A suspended broadcast has begun, and its window is its airtime. -/
def OnAir (w : World) : Prop :=
  ∀ b ∈ w.broadcasts, b.window.start ≤ w.time ∧
    b.airtimeMs = 1000 * b.window.length

theorem Slice.onAir {e : Event} {shown : List Obs} (slice : Slice R w e w' shown)
    (onAir : OnAir w) : OnAir w' := by
  intro b mem
  rcases slice.broadcasts mem with ⟨waiting, old⟩ | ⟨sender, hexData, rfl, rfl⟩
  · obtain ⟨begun, airtime⟩ := onAir { b with waiting := waiting } old
    exact ⟨begun.trans slice.time_le, airtime⟩
  · refine ⟨slice.time_le, ?_⟩
    simp only [broadcast, txWindow, Window.length]
    ring

theorem run_onAir {time : ℚ} {tracer : Option PacketTracer} {channel : Option ChannelModel}
    {shown : List Obs} (run : Run R.step anyStep (R.init time tracer channel) w shown) :
    OnAir w := by
  apply run.invariant (I := fun w _ => OnAir w)
  · intro b mem
    cases mem
  · intro s tr e s' out _ before _ stepped
    exact (step_slice stepped).onAir before

/-- A node that processes a notification is busy for the airtime of a packet on the air. -/
theorem busy_of_notified (stepped : R.networkStep origin net e = some (net', out))
    (processed : .notified receiver window ∈ out) (onAir : OnAir net.world)
    (short : 1000 * window.length < 2 ^ 32) :
    routerObs out = [.command receiver (.rxStart ⌊1000 * window.length⌋₊)] ∧
      window.start ≤ net.world.time ∧
      getMillis (origin receiver) net.world.time + ⌊1000 * window.length⌋₊ ≤
        (net'.radios receiver).rxActiveUntil := by
  cases e with
  | sendComplete node =>
      cases stepped
      cases processed
  | receive node =>
      cases stepped
      cases processed
  | router e' =>
      obtain ⟨⟨w, shown⟩, slice, eq⟩ := Option.map_eq_some_iff.mp stepped
      cases eq
      have sent : .notified receiver window ∈ notification net.world e' := by
        rcases List.mem_append.mp processed with sent | other
        · exact sent
        · obtain ⟨o, -, same⟩ := List.mem_map.mp other
          cases same
      cases e' with
      | notify k =>
          cases step_slice slice with
          | notify _ b receiver' rest pending next =>
              obtain ⟨rfl, rfl⟩ : receiver = receiver' ∧ window = b.window := by
                simpa [notification, pending, next] using sent
              obtain ⟨begun, airtime⟩ := onAir b (List.mem_of_getElem? pending)
              have whole : ⌊b.airtimeMs⌋.toNat = ⌊1000 * b.window.length⌋₊ := by rw [airtime]; rfl
              have fits : ⌊1000 * b.window.length⌋₊ < 2 ^ 32 := by
                apply Nat.floor_lt' (by norm_num) |>.mpr
                exact_mod_cast short
              refine ⟨?_, begun, ?_⟩
              · rw [routerObs_append, routerObs_notification, whole]
                rfl
              · simp only [List.foldl_cons, List.foldl_nil, onRadios, Function.update_self,
                  dispatch, SimRadio.notifyRxStart_rxActiveUntil, whole, Nat.mod_eq_of_lt fits]
                exact le_max_right _ _
      | _ => cases sent

/-- A step that registers a transmission starts it: it is the Dispatcher of the sender that
sends now. -/
theorem starts_of_registered {txId : ℕ} {record : TxRecord}
    (stepped : R.networkStep origin net e = some (net', out))
    (made : .router (.registered txId record) ∈ out) :
    ∃ hexData, e = .router (.onTx record.sender hexData) ∧ record.txStart = net.world.time := by
  rcases networkStep_world stepped with ⟨e', rfl, slice⟩ | ⟨-, rfl⟩
  · have listed : (txId, record) ∈ registrations (routerObs out) :=
      mem_registrations.mpr (mem_routerObs.mpr made)
    rcases (step_slice slice).channel with ⟨none, -⟩ | ⟨_, sender, hexData, _, rfl, -, -, -, one, -⟩
    · rw [none] at listed
      cases listed
    · rw [one, List.mem_singleton] at listed
      cases listed
      exact ⟨hexData, rfl, rfl⟩
  · cases made

/-! ### What listening prevents -/

/-- Milliseconds that have passed on a clock of whole milliseconds have passed, but for 2. -/
theorem lt_of_getMillis_le {o s t ms : ℚ} (booted : o ≤ t)
    (later : getMillis o s + ⌊ms⌋₊ ≤ getMillis o t) : s + ms / 1000 - 2 / 1000 < t := by
  have reached : ((getMillis o t : ℕ) : ℚ) ≤ 1000 * (t - o) := Nat.floor_le (by linarith)
  have begun : 1000 * (s - o) < (getMillis o s : ℚ) + 1 := Nat.lt_floor_add_one _
  have lasts : ms < (⌊ms⌋₊ : ℚ) + 1 := Nat.lt_floor_add_one _
  have whole : ((getMillis o s : ℕ) : ℚ) + (⌊ms⌋₊ : ℚ) ≤ (getMillis o t : ℚ) := by
    exact_mod_cast later
  linarith

/-- On a clock of whole milliseconds nothing is lost when all is in whole milliseconds. -/
theorem le_of_getMillis_le {o s t ms : ℚ} (booted : o ≤ t)
    (later : getMillis o s + ⌊ms⌋₊ ≤ getMillis o t) (begins : ∃ n : ℕ, 1000 * (s - o) = n)
    (lasts : ∃ n : ℕ, ms = n) : s + ms / 1000 ≤ t := by
  obtain ⟨n, begins⟩ := begins
  obtain ⟨k, rfl⟩ := lasts
  have reached : ((getMillis o t : ℕ) : ℚ) ≤ 1000 * (t - o) := Nat.floor_le (by linarith)
  have exact' : getMillis o s = n := by
    unfold getMillis
    rw [begins, Nat.floor_natCast]
  rw [exact', Nat.floor_natCast] at later
  have whole : (n : ℚ) + (k : ℚ) ≤ (getMillis o t : ℚ) := by exact_mod_cast later
  linarith

/-- A transmission that a node begins after it has become busy, with its radio idle and not
receiving, begins when the busy window is over. -/
theorem begins_after_busy {net₀ : Network} {txId until' : ℕ} {record : TxRecord}
    (run : Run (R.networkStep origin) (Dispatches origin) net₀ net tr)
    (busy : until' ≤ (net₀.radios record.sender).rxActiveUntil)
    (made : .router (.registered txId record) ∈ tr) :
    until' ≤ getMillis (origin record.sender) record.txStart ∧
      net₀.world.time ≤ record.txStart := by
  obtain ⟨net₁, tr₁, e, net₂, out, prior, admitted, stepped, inOut⟩ := run.exists_step made
  obtain ⟨hexData, rfl, starts⟩ := starts_of_registered stepped inOut
  obtain ⟨silent, idle⟩ : (net₁.radios record.sender).isReceiving
      (getMillis (origin record.sender) net₁.world.time) = false ∧
      (net₁.radios record.sender).txPending = false := admitted
  have expired := SimRadio.rxActiveUntil_le idle silent
  have kept := run_rxActiveUntil prior record.sender
  rw [starts]
  exact ⟨(busy.trans kept).trans expired, run_time_le (network_refines prior)⟩

/-- A transmission that a node begins after it has processed the `rx_start` of a packet begins,
on the node's clock, no earlier than the whole milliseconds of the airtime after the packet. -/
theorem begins_after_airtime {radios : NodeName → SimRadio} {time : ℚ}
    {tracer : Option PacketTracer} {m : Option ChannelModel} {before after : List NetworkObs}
    {txId : ℕ} {record : TxRecord} (booted : ∀ node, origin node ≤ time)
    (short : 1000 * window.length < 2 ^ 32)
    (run : Run (R.networkStep origin) (Dispatches origin) (R.networkInit time tracer m radios) net
      (before ++ .notified record.sender window :: after))
    (made : .router (.registered txId record) ∈ after) :
    getMillis (origin record.sender) window.start + ⌊1000 * window.length⌋₊ ≤
        getMillis (origin record.sender) record.txStart ∧
      origin record.sender ≤ record.txStart := by
  obtain ⟨net₁, tr₁, e, net₂, out₁, out₂, tr₂, first, admitted, stepped, last, -, rfl⟩ := run.split
  have processed : .notified record.sender window ∈
      out₁ ++ .notified record.sender window :: out₂ := by simp
  obtain ⟨shows, begun, busy⟩ :=
    busy_of_notified stepped processed (run_onAir (network_refines first)) short
  have later : .router (.registered txId record) ∈ tr₂ := by
    rcases List.mem_append.mp made with same | later
    · have shown : .registered txId record ∈
          routerObs (out₁ ++ .notified record.sender window :: out₂) :=
        mem_routerObs.mpr (List.mem_append_right _ (List.mem_cons_of_mem _ same))
      rw [shows] at shown
      simp at shown
    · exact later
  obtain ⟨expired, after⟩ := begins_after_busy last busy later
  have clock : getMillis (origin record.sender) window.start ≤
      getMillis (origin record.sender) net₁.world.time := Nat.floor_mono (by linarith)
  have running := run_time_le (network_refines (first.next admitted stepped))
  constructor
  · omega
  · exact ((booted _).trans running).trans after

/-- The blocker that the half-duplex check names has been registered. -/
theorem registered_of_halfduplex {time : ℚ} {tracer : Option PacketTracer} {m : ChannelModel}
    {shown : List Obs} {blocker : ℕ}
    (run : Run R.step anyStep (R.init time tracer (some m)) w shown)
    (timed : d.window = some window) (decided : verdict w.channel d = .halfduplex blocker) :
    ∃ record, .registered blocker record ∈ shown ∧ d.Blocks window record := by
  obtain ⟨c, window', record, channel, timed', inTable, own, overlaps⟩ :=
    verdict_halfduplex decided
  obtain rfl : window = window' := Option.some.inj (timed.symm.trans timed')
  obtain ⟨c', channel', pruned⟩ := run_pruned run
  obtain rfl : c = c' := Option.some.inj (channel.symm.trans channel')
  have known := pruned.known _ (pruned.part _ inTable)
  exact ⟨record, mem_registrations.mp known, own, overlaps⟩

/-- What listening before talking prevents. In a run of the nodes' Dispatchers, a
transmission that a node begins after it has processed the `rx_start` of a packet, and that
touches the reception of the packet, begins no earlier on the node's clock than the whole
milliseconds of the airtime after the packet: so within 2 ms of the end of the packet, or
later, and never during a packet of whole milliseconds on a link without latency. Any
other blocker of the packet had begun before. -/
theorem lbt_confines_halfduplex (R : PacketRouter) (origin : NodeName → ℚ)
    (radios : NodeName → SimRadio) (time : ℚ) (tracer : Option PacketTracer) (m : ChannelModel)
    (net : Network) (before after : List NetworkObs) (d : Delivery) (window : Window ℚ)
    (booted : ∀ node, origin node ≤ time) (short : 1000 * window.length < 2 ^ 32)
    (timed : d.window = some window)
    (run : Run (R.networkStep origin) (Dispatches origin)
      (R.networkInit time tracer (some m) radios) net
      (before ++ .notified d.link.other window :: after)) :
    (∀ txId record, .router (.registered txId record) ∈ after → d.Blocks window record →
      getMillis (origin d.link.other) window.start + ⌊1000 * window.length⌋₊ ≤
          getMillis (origin d.link.other) record.txStart ∧
        window.stop - 2 / 1000 < record.txStart ∧
        ¬ (d.link.latency = 0 ∧ (∃ n : ℕ, 1000 * (window.start - origin d.link.other) = n) ∧
          ∃ n : ℕ, 1000 * window.length = n)) ∧
    ∀ blocker, verdict net.world.channel d = .halfduplex blocker →
      ∃ record, .router (.registered blocker record) ∈ before ++ after ∧
        d.Blocks window record := by
  constructor
  · rintro txId record made ⟨own, overlaps⟩
    rw [← own] at run ⊢
    obtain ⟨bound, started⟩ := begins_after_airtime booted short run made
    have stop : window.start + 1000 * window.length / 1000 = window.stop := by
      unfold Window.length
      ring
    refine ⟨bound, ?_, ?_⟩
    · have := lt_of_getMillis_le started bound
      linarith
    · rintro ⟨immediate, begins, lasts⟩
      have := le_of_getMillis_le started bound begins lasts
      have tooLate : window.stop + d.link.latency ≤ record.txStart := by linarith
      exact not_blocks_of_late tooLate ⟨own, overlaps⟩
  · intro blocker decided
    obtain ⟨record, registered, blocks⟩ :=
      registered_of_halfduplex (network_refines run) timed decided
    refine ⟨record, ?_, blocks⟩
    simpa using mem_routerObs.mp registered

/-! ### A link with a latency -/

/-- No transmission that a node begins after it has processed the `rx_start` of a packet
makes the half-duplex check reject that packet when its verdict is taken. -/
def LbtRulesOutHalfduplex (R : PacketRouter) (origin : NodeName → ℚ)
    (radios : NodeName → SimRadio) (time : ℚ) (tracer : Option PacketTracer)
    (m : ChannelModel) : Prop :=
  ∀ net before after e net' out d window blocker record, d.window = some window →
    Run (R.networkStep origin) (Listens origin) (R.networkInit time tracer (some m) radios) net
      (before ++ .notified d.link.other window :: after) →
    R.networkStep origin net e = some (net', out) → .router (.verdict d) ∈ out →
    verdict net.world.channel d = .halfduplex blocker →
    .router (.registered blocker record) ∉ after

/-- Two nodes at a latency of 20 ms. -/
def distantPair : TopologyConfig where
  nodes := [.named "alice", .named "bob"]
  edges := [⟨"alice", "bob", 0, 20, 6, none, none⟩]
  simulation := ⟨0, 0, 0, 0, 0, "", none, none⟩
  radio := some .default

def distantRadios : NodeName → SimRadio := fun _ => .init 10 250000 1

/-- A packet of `alice` is on the air for 103.424 ms. -/
def distantWindow : Window ℚ := ⟨0, 12928 / 125000⟩

/-- Its delivery to `bob`. -/
def distantDelivery : Delivery := ⟨"alice", ⟨"bob", 0, 20, 6⟩, "0500", some 1, some distantWindow⟩

/-- `bob` is notified, and sends a packet of his own after 104 ms, when that of `alice` is still
arriving. Then the delivery of that packet is due. -/
def distantSchedule : List NetworkEvent :=
  [.router (.notify 0), .router (.resume 0), .router (.start 0), .router (.tick (104 / 1000)),
    .router (.onTx "bob" "0500"), .router (.tick 1)]

/-- In that run the half-duplex check finds the packet of `bob`. -/
theorem distantPair_run :
    ∃ R m net before after, PacketRouter.ofConfig? distantPair .zero = some R ∧
      R.channel = some m ∧
      Run (R.networkStep fun _ => 0) (Dispatches fun _ => 0)
        (R.networkInit 0 (some .init) (some m) distantRadios) net
        (before ++ .notified "bob" distantWindow :: after) ∧
      .router (.registered 2 ⟨"bob", 104 / 1000, 104 / 1000 + 12928 / 125000⟩) ∈ after ∧
      verdict net.world.channel distantDelivery = .halfduplex 2 ∧
      ∃ net' out, R.networkStep (fun _ => 0) net (.router (.wake 0)) = some (net', out) ∧
        .router (.verdict distantDelivery) ∈ out := by
  have found : ((PacketRouter.ofConfig? distantPair .zero).any fun R => R.channel.any fun m =>
      (exec (restrict (R.networkStep fun _ => 0) (Dispatches fun _ => 0))
        (R.networkInit 0 (some .init) (some m) distantRadios)
        [.router (.onTx "alice" "0500")]).any
        fun (net, _) => (exec (restrict (R.networkStep fun _ => 0) (Dispatches fun _ => 0)) net
          distantSchedule).any
          fun (net, tr) => tr.head? = some (.notified "bob" distantWindow) ∧
            .router (.registered 2 ⟨"bob", 104 / 1000, 104 / 1000 + 12928 / 125000⟩) ∈ tr.tail ∧
            verdict net.world.channel distantDelivery = .halfduplex 2 ∧
            (R.networkStep (fun _ => 0) net (.router (.wake 0))).any fun (_, out) =>
              .router (.verdict distantDelivery) ∈ out) = true := by
    decide +kernel
  obtain ⟨R, m, router, channel, found⟩ := exists_wired found
  obtain ⟨net, before, first, found⟩ := Run.of_exec_any found
  obtain ⟨⟨net', tr⟩, replay, found⟩ := (Option.any_eq_true _ _).mp found
  obtain ⟨begins, later, rejected, taken⟩ := of_decide_eq_true found
  obtain ⟨after, rfl⟩ := List.head?_eq_some_iff.mp begins
  obtain ⟨⟨last, out⟩, stepped, shown⟩ := (Option.any_eq_true _ _).mp taken
  exact ⟨R, m, net', before, after, router, channel, first.exec_append replay, later, rejected,
    last, out, stepped, of_decide_eq_true shown⟩

/-- The packet of `bob` begins in the last 22 ms of the reception. -/
theorem lbt_confines_halfduplex_distantPair :
    ∃ R m, PacketRouter.ofConfig? distantPair .zero = some R ∧ R.channel = some m ∧
      ∃ net before after, ∃ record : TxRecord,
        Run (R.networkStep fun _ => 0) (Dispatches fun _ => 0)
          (R.networkInit 0 (some .init) (some m) distantRadios) net
          (before ++ .notified "bob" distantWindow :: after) ∧
        verdict net.world.channel distantDelivery = .halfduplex 2 ∧
        distantWindow.stop - 2 / 1000 < record.txStart := by
  obtain ⟨R, m, net, before, after, router, channel, run, later, rejected, -⟩ := distantPair_run
  have short : 1000 * distantWindow.length < 2 ^ 32 := by decide +kernel
  have blocks : distantDelivery.Blocks distantWindow
      ⟨"bob", 104 / 1000, 104 / 1000 + 12928 / 125000⟩ := ⟨rfl, by decide +kernel⟩
  have confined := (lbt_confines_halfduplex R (fun _ => 0) distantRadios 0 (some .init) m net
    before after distantDelivery distantWindow (fun _ => le_rfl) short rfl run).1 2 _ later blocks
  exact ⟨R, m, router, channel, net, before, after, _, run, rejected, confined.2.1⟩

/-- With a latency the half-duplex check rejects a packet because of a transmission that
the receiver began after it had processed the `rx_start`, with its radio free. -/
theorem halfduplex_despite_lbt :
    ∃ R m, PacketRouter.ofConfig? distantPair .zero = some R ∧ R.channel = some m ∧
      ¬ LbtRulesOutHalfduplex R (fun _ => 0) distantRadios 0 (some .init) m := by
  obtain ⟨R, m, net, before, after, router, channel, run, later, rejected, net', out, stepped,
    taken⟩ := distantPair_run
  refine ⟨R, m, router, channel, fun claim => ?_⟩
  have listening : Run (R.networkStep fun _ => 0) (Listens fun _ => 0)
      (R.networkInit 0 (some .init) (some m) distantRadios) net
      (before ++ .notified "bob" distantWindow :: after) :=
    run.mono fun _ _ dispatches => dispatches.1
  exact claim net before after _ net' out distantDelivery distantWindow 2 _ rfl listening stepped
    taken rejected later

end PacketRouter

end MeshcoreSim
