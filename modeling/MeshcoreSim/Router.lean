import MeshcoreSim.Adversarial
import MeshcoreSim.Airtime
import MeshcoreSim.Channel
import MeshcoreSim.Lib.Run
import MeshcoreSim.Metrics
import MeshcoreSim.Tracer

/-!
The packet router (`orchestrator/router.py`) as a state machine.

A coroutine runs without interruption from one suspension point to the next, so the
steps of the machine are the slices between them:

* `onTx` — `_on_tx` up to its `gather` of listen-before-talk notifications, or to its
  end when there is nobody to notify;
* `notify` — one `notify_rx_start` task of a suspended `_on_tx` writes its command;
* `resume` — the `gather` is done and `_on_tx` creates its delivery tasks;
* `start` — a delivery task runs `_deliver_to` up to its sleep, or to its end when
  there is no need to sleep;
* `wake` — a delivery task whose sleep is over runs to its end;
* `drain` — one turn of the loop of `run_replay_drainer`;
* `tick` — the clock of the event loop advances; it does not move within a slice.

An event names the task that runs next, so a list of events is one interleaving, and
all interleavings are lists of events. A task that sleeps is not run before its
deadline, but may be run late. The `drain` of the pipe at the end of `deliver_rx` is not a
step of its own: nothing the router reads changes after the write.

`Obs` is what a slice lets an observer see. Nothing in the router reads it.
-/

namespace MeshcoreSim

open Lib

/-- The collaborators of a `PacketRouter` that never change. -/
structure PacketRouter where
  topology : Topology
  agents : Dict NodeName NodeConfig
  radio : Option RadioConfig
  rng : RandomStream

/-- The arguments of one call of `_deliver_to`. The source passes `tx_start` and
`tx_end` together, or neither. -/
structure Delivery where
  sender : NodeName
  link : EdgeLink
  hexData : String
  txId : Option ℕ
  window : Option (Window ℚ)
  deriving DecidableEq

/-- What one call of `_deliver_to` ends with. -/
inductive Outcome where
  | snrDrop
  | linkLoss
  | adversarialDrop
  | adversarialReplay
  | halfduplexDrop
  | collision
  | rx
  | noReceiver
  | raised
  deriving DecidableEq, Repr

/-- A delivery task: not yet started, or asleep until `wakeAt`. The flag says whether
the adversarial filter has let the packet through. -/
inductive Task where
  | created (d : Delivery)
  | sleeping (d : Delivery) (corrupted : Bool) (wakeAt : ℚ)

def Task.delivery : Task → Delivery
  | .created d => d
  | .sleeping d _ _ => d

/-- An `_on_tx` suspended in its `gather`: the receivers in `waiting` have not been
notified yet. -/
structure Broadcast where
  sender : NodeName
  hexData : String
  airtimeMs : ℚ
  window : Window ℚ
  txId : Option ℕ
  waiting : List NodeName

/-- A command line written to the stdin of a node. -/
inductive Command where
  | rxStart (durationMs : ℕ)
  | rx (hexData : String) (snr rssi : ℚ)
  deriving DecidableEq, Repr

inductive Obs where
  | transmitted (sender : NodeName) (hexData : String)
  | registered (txId : ℕ) (record : TxRecord)
  | replayed (sender : NodeName) (hexData : String)
  | command (receiver : NodeName) (cmd : Command)
  | verdict (d : Delivery)
  | ended (d : Delivery) (corrupted : Bool) (outcome : Outcome)
  deriving DecidableEq

inductive Event where
  | tick (t : ℚ)
  | onTx (sender : NodeName) (hexData : String)
  | notify (k : ℕ)
  | resume (k : ℕ)
  | start (k : ℕ)
  | wake (k : ℕ)
  | drain
  deriving DecidableEq, Repr

/-- Everything that changes while the router runs. -/
structure World where
  time : ℚ
  metrics : MetricsCollector
  tracer : Option PacketTracer
  channel : Option ChannelModel
  filters : Dict NodeName AdversarialFilter
  rngPos : ℕ
  broadcasts : List Broadcast
  tasks : List Task

namespace PacketRouter

variable (R : PacketRouter)

/-- `PacketRouter.__init__`, with a fresh channel model. -/
def init (time : ℚ) (tracer : Option PacketTracer) (channel : Option ChannelModel) : World where
  time := time
  metrics := .init
  tracer := tracer
  channel := channel.map fun c => { c with active := .empty }
  filters := .ofList (R.agents.entries.filterMap fun (name, config) =>
    config.adversarial.map fun cfg => (name, ⟨cfg, []⟩))
  rngPos := 0
  broadcasts := []
  tasks := []

/-- On-air time of a packet, zero without a radio model. -/
def airtimeMs (hexData : String) : ℚ :=
  match R.radio with
  | none => 0
  | some radio =>
      loraAirtimeMs radio.sf radio.bwHz radio.cr (hexData.length / 2) radio.preambleSymbols
        true true

/-- The link's SNR is below the decode threshold of the spreading factor. -/
def belowThreshold (link : EdgeLink) : Bool :=
  match R.radio with
  | none => false
  | some radio => link.snr < (snrThreshold radio.sf).getD (-20)

/-- The neighbours that `_on_tx` notifies, in link order. -/
def lbtReceivers (sender : NodeName) (airtimeMs : ℚ) : List NodeName :=
  if airtimeMs > 0 then
    ((R.topology.neighbours sender).filter fun link =>
      !R.belowThreshold link && (R.agents.get? link.other).isSome).map (·.other)
  else []

/-- The delivery tasks of a broadcast, one a link. -/
def deliveries (b : Broadcast) : List Delivery :=
  (R.topology.neighbours b.sender).map fun link =>
    ⟨b.sender, link, b.hexData, b.txId, some b.window⟩

/-- Register a transmission with the path tracer, if there is one. The `tx_id` is shared
by all deliveries of the broadcast. -/
def traceTx (tracer : Option PacketTracer) (sender : NodeName) (hexData : String)
    (airtimeMs : ℚ) (window : Window ℚ) : Option PacketTracer × Option ℕ :=
  match tracer with
  | none => (none, none)
  | some tracer =>
      let (tracer', txId) :=
        tracer.recordTx sender hexData window.start airtimeMs (some window.stop)
      (some tracer', txId)

/-- Register a transmission that has a `tx_id` with the channel model, if there is one. -/
def registerTx (channel : Option ChannelModel) (txId : Option ℕ) (record : TxRecord) :
    Option ChannelModel × List Obs :=
  match channel, txId with
  | some channel, some txId =>
      -- Prune records older than 5 s to bound memory growth.
      (some ((channel.registerTx record txId).expireBefore (record.txStart - 5)),
        [.registered txId record])
  | channel, _ => (channel, [])

/-- The window of a transmission that starts now. -/
def txWindow (w : World) (hexData : String) : Window ℚ :=
  ⟨w.time, w.time + R.airtimeMs hexData / 1000⟩

/-- The local variables of `_on_tx` at its `gather`. -/
def broadcast (w : World) (sender : NodeName) (hexData : String) : Broadcast where
  sender := sender
  hexData := hexData
  airtimeMs := R.airtimeMs hexData
  window := R.txWindow w hexData
  txId := (traceTx w.tracer sender hexData (R.airtimeMs hexData) (R.txWindow w hexData)).2
  waiting := R.lbtReceivers sender (R.airtimeMs hexData)

/-- `_on_tx`, up to its `gather`. -/
def onTx (w : World) (sender : NodeName) (hexData : String) : World × List Obs :=
  let b := R.broadcast w sender hexData
  let tracer := (traceTx w.tracer sender hexData b.airtimeMs b.window).1
  let (channel, registered) :=
    registerTx w.channel b.txId ⟨sender, b.window.start, b.window.stop⟩
  let w' := { w with metrics := w.metrics.recordTx sender, tracer := tracer, channel := channel }
  (if b.waiting = [] then { w' with tasks := w.tasks ++ (R.deliveries b).map .created }
    else { w' with broadcasts := w.broadcasts ++ [b] },
    .transmitted sender hexData :: registered)

/-! ### One delivery -/

/-- How the stages before the propagation delay leave a call. -/
inductive Gate where
  | stopped (outcome : Outcome)
  | passed (hexData : String) (corrupted : Bool)

/-- Stage 1, link-level loss; it draws only on a lossy link. -/
def linkLoss (link : EdgeLink) (pos : ℕ) : Bool × ℕ :=
  if link.loss > 0 then (R.rng.draw pos < link.loss, pos + 1) else (false, pos)

/-- Stage 2, the adversarial filter of the receiving node. Its mode is that of the
receiving agent's configuration, from which the filter was made. -/
def adversary (w : World) (receiver : NodeName) (hexData : String) : World × Gate :=
  match w.filters.get? receiver with
  | none => (w, .passed hexData false)
  | some filter =>
      if filter.shouldApply R.rng w.rngPos then
        let (result, filter', pos) := filter.filterPacket R.rng hexData w.time (w.rngPos + 1)
        let w' := { w with filters := w.filters.set receiver filter', rngPos := pos }
        match result with
        | .raised => (w', .stopped .raised)
        | .suppressed =>
            if filter.cfg.mode = .replay then
              ({ w' with metrics := w.metrics.recordAdversarialReplay },
                .stopped .adversarialReplay)
            else ({ w' with metrics := w.metrics.recordAdversarialDrop }, .stopped .adversarialDrop)
        | .deliver hexData' =>
            ({ w' with metrics := w.metrics.recordAdversarialCorrupt }, .passed hexData' true)
      else ({ w with rngPos := w.rngPos + 1 }, .passed hexData false)

/-- Stages 0 to 2: SNR decode gate, link-level loss, adversarial filter. -/
def gates (w : World) (d : Delivery) : World × Gate :=
  if R.belowThreshold d.link then
    ({ w with metrics := w.metrics.recordSnrDrop }, .stopped .snrDrop)
  else
    let (lost, pos) := R.linkLoss d.link w.rngPos
    let w' := { w with rngPos := pos }
    if lost then ({ w' with metrics := w.metrics.recordLinkLoss }, .stopped .linkLoss)
    else R.adversary w' d.link.other d.hexData

/-- Stage 3, propagation delay: when the call resumes, or `none` if it does not sleep. -/
def wakeAt? (now : ℚ) (d : Delivery) : Option ℚ :=
  match d.window with
  | some window =>
      let wait := max (window.stop + d.link.latency - now) 0
      if wait > 0 then some (now + wait) else none
  | none => if d.link.latencyMs > 0 then some (now + d.link.latency) else none

/-- What the half-duplex and collision checks decide. -/
inductive Verdict where
  | halfduplex (blockerTxId : ℕ)
  | collision (interferer : NodeName) (interfererTxId : ℕ) (overlapS : ℚ)
  | clear
  deriving DecidableEq, Repr

/-- Stages 3b and 4: the half-duplex check, then the collision check. -/
def verdict (channel : Option ChannelModel) (d : Delivery) : Verdict :=
  match channel, d.window with
  | some channel, some window =>
      match channel.isReceiverBusy d.link.other (window.shift d.link.latency) with
      | some (blockerTxId, _, _) => .halfduplex blockerTxId
      | none =>
          match d.txId with
          | none => .clear
          | some txId =>
              match channel.isLost ⟨d.sender, window.start, window.stop⟩ txId d.link.other with
              | some (interferer, interfererTxId, overlapS) =>
                  .collision interferer interfererTxId overlapS
              | none => .clear
  | _, _ => .clear

/-- Noise floor for the reported RSSI. -/
def noiseFloor : ℚ :=
  match R.radio with
  | none => -120
  | some radio => radio.noiseFloorDBm

/-- Stages 3b to 6, after the propagation delay. -/
def arrive (w : World) (d : Delivery) (corrupted : Bool) : World × List Obs :=
  match verdict w.channel d with
  | .halfduplex blockerTxId =>
      ({ w with
          metrics := w.metrics.recordHalfduplexDrop
          tracer := w.tracer.map
            (·.recordHalfduplex d.sender d.link.other d.hexData w.time d.txId (some blockerTxId)) },
        [.verdict d, .ended d corrupted .halfduplexDrop])
  | .collision interferer interfererTxId overlapS =>
      ({ w with
          metrics := w.metrics.recordCollision
          tracer := w.tracer.map
            (·.recordCollision d.sender d.link.other d.hexData w.time d.txId (some interferer)
              (some interfererTxId) overlapS) },
        [.verdict d, .ended d corrupted .collision])
  | .clear =>
      let w' := { w with
        tracer := w.tracer.map (·.recordRx d.sender d.link.other d.hexData w.time d.txId) }
      match R.agents.get? d.link.other with
      | none => (w', [.verdict d, .ended d corrupted .noReceiver])
      | some _ =>
          ({ w' with metrics := w.metrics.recordRx d.link.other },
            [.verdict d,
              .command d.link.other
                (.rx d.hexData.toLower d.link.snr (d.link.snr + R.noiseFloor)),
              .ended d corrupted .rx])

/-- The first slice of `_deliver_to`. -/
def startDelivery (w : World) (d : Delivery) : World × List Obs :=
  match R.gates w d with
  | (w', .stopped outcome) => (w', [.ended d false outcome])
  | (w', .passed hexData corrupted) =>
      let d' := { d with hexData := hexData }
      match wakeAt? w'.time d' with
      | some t => ({ w' with tasks := w'.tasks ++ [.sleeping d' corrupted t] }, [])
      | none => R.arrive w' d' corrupted

/-! ### Replays -/

/-- The packets that one turn of the replay drainer re-injects, with their nodes. -/
def dueReplays (w : World) : List (NodeName × String) :=
  w.filters.entries.flatMap fun (name, filter) =>
    (filter.drainReplays w.time).1.map fun hexData => (name, hexData)

/-- The delivery tasks of one re-injected packet, one a link. -/
def replayDeliveries (replay : NodeName × String) : List Delivery :=
  (R.topology.neighbours replay.1).map fun link => ⟨replay.1, link, replay.2, none, none⟩

/-- One turn of the loop of `run_replay_drainer`. -/
def drainReplays (w : World) : World × List Obs :=
  ({ w with
      filters := w.filters.mapValues fun filter => (filter.drainReplays w.time).2
      tasks := w.tasks ++ ((dueReplays w).flatMap R.replayDeliveries).map .created },
    (dueReplays w).map fun replay => .replayed replay.1 replay.2)

/-! ### The machine -/

/-- One slice of the task that the event names. -/
def step (w : World) : Event → Option (World × List Obs)
  | .tick t => if w.time ≤ t then some ({ w with time := t }, []) else none
  | .onTx sender hexData =>
      -- Only agents have the callback.
      if (R.agents.get? sender).isSome then some (R.onTx w sender hexData) else none
  | .notify k =>
      match w.broadcasts[k]? with
      | some b =>
          match b.waiting with
          | receiver :: rest =>
              some ({ w with broadcasts := w.broadcasts.set k { b with waiting := rest } },
                [.command receiver (.rxStart ⌊b.airtimeMs⌋.toNat)])
          | [] => none
      | none => none
  | .resume k =>
      match w.broadcasts[k]? with
      | some b =>
          if b.waiting = [] then
            some ({ w with
              broadcasts := w.broadcasts.eraseIdx k
              tasks := w.tasks ++ (R.deliveries b).map .created }, [])
          else none
      | none => none
  | .start k =>
      match w.tasks[k]? with
      | some (.created d) => some (R.startDelivery { w with tasks := w.tasks.eraseIdx k } d)
      | _ => none
  | .wake k =>
      match w.tasks[k]? with
      | some (.sleeping d corrupted wakeAt) =>
          if wakeAt ≤ w.time then
            some (R.arrive { w with tasks := w.tasks.eraseIdx k } d corrupted)
          else none
      | _ => none
  | .drain => some (R.drainReplays w)

end PacketRouter

end MeshcoreSim
