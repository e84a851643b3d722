import MeshcoreSim.Lib.OrderStatistics
import MeshcoreSim.Orchestrator
import MeshcoreSim.Orchestrator.Grace
import MeshcoreSim.Traffic
import MeshcoreSim.Traffic.InitialAdverts

/-!
A whole simulation: `run` of `orchestrator/__main__.py`, with the tasks of the traffic generator
(`orchestrator/traffic.py`) and the agents of the nodes (`orchestrator/node.py`).

The nodes, their pipes and the router are the environment: a node reports events and may exit, and
the router writes commands to it, at any time. A task that sleeps goes on at its deadline or later.
What the random generator draws is a parameter of each step. A task that raises makes no more steps:
the reader of a node at an event that it cannot handle, and the main coroutine and the traffic at
keys of nodes that are no strings, which no node prints. That a peer which is no string is drawn for
a text, where the traffic raises as well, is left out.

* `NodeAgent.sendCommand`, `NodeAgent.quit` — what is written to a node.
* `Simulation.step` — the simulation as a state machine.
-/

namespace MeshcoreSim

open Lib

/-! ### Agents -/

/-- What an agent knows from the events of its node. -/
structure NodeState where
  /-- `pub_key`, as the node printed it -/
  pub : JsonValue
  isRelay : Bool
  ready : Bool
  knownPeers : List (List ℕ)
  /-- a number or `true` among the peers; the exception that follows lets in no second one -/
  strayPeer : Bool
  txCount : ℕ

namespace NodeState

def init : NodeState := ⟨.string [], false, false, [], false, 0⟩

/-- The key of the node; one that is no string is none. -/
def pubKey (s : NodeState) : List ℕ :=
  match s.pub with
  | .string key => key
  | _ => []

/-- Whether `run` can print the key: it has none, or one that is a string. -/
def printsKey (s : NodeState) : Bool := !JsonText.truthy s.pub || s.pub.isString

/-- Whether a set or a dict takes the key. -/
def hashesKey (s : NodeState) : Bool :=
  match s.pub with
  | .array _ | .object _ => false
  | _ => true

/-- Whether a set or a dict of the keys that nodes have can be built. -/
def keeps (s : NodeState) : Bool := !JsonText.truthy s.pub || s.hashesKey

/-- `event.get(key, "")`. -/
def field (event : JsonValue) (key : String) : JsonValue :=
  (event.get? (points key)).getD (.string [])

/-- A field that is a string. -/
def textField (event : JsonValue) (key : String) : List ℕ :=
  match event.get? (points key) with
  | some (.string s) => s
  | _ => []

/-- `event.get(key, False)`, as a condition. -/
def boolField (event : JsonValue) (key : String) : Bool :=
  JsonText.truthy ((event.get? (points key)).getD (.bool false))

/-- The public key that an advert event names. -/
def advertised? (event : JsonValue) : Option (List ℕ) :=
  if textField event "type" = points "advert" ∧ textField event "pub" ≠ [] then
    some (textField event "pub")
  else none

/-- An advert event with a key that is no string, and that a set takes. -/
def strays (event : JsonValue) : Bool :=
  textField event "type" = points "advert" &&
    match field event "pub" with
    | .number token => JsonText.truthy (.number token)
    | .bool b => b
    | _ => false

/-- What `_dispatch_event` keeps of an event, whether or not it raises. -/
def dispatchEvent (s : NodeState) (event : JsonValue) : NodeState :=
  if textField event "type" = points "ready" then
    { s with
      pub := field event "pub"
      isRelay := boolField event "is_relay"
      ready := true }
  else if textField event "type" = points "tx" then { s with txCount := s.txCount + 1 }
  else match advertised? event with
    | some pub => { s with knownPeers := s.knownPeers.insert pub }
    | none => { s with strayPeer := s.strayPeer || strays event }

/-- Whether `_dispatch_event` raises, or one of its callbacks once the router has registered them:
at a slice of what has none, at a key that no set takes, at a search in what cannot be searched, at
`startswith` of what is no string, or when it decodes a packet that is no string. -/
def raises (wired : Bool) (event : JsonValue) : Bool :=
  match event with
  | .object _ =>
      if textField event "type" = points "ready" then !(field event "pub").isSequence
      else if textField event "type" = points "tx" then wired && !(field event "hex").isString
      else if textField event "type" = points "advert" then
        JsonText.truthy (field event "pub") && !(field event "pub").isString
      else if textField event "type" = points "room_post" then !(field event "from").isSequence
      else if textField event "type" = points "log" then
        !(field event "msg").isContainer || wired && !(field event "msg").isString
      else if textField event "type" = points "recv_text" then
        wired && (field event "text").isContainer && !(field event "text").isString
      else false
  | _ => true

/-- `len(known_peers)`. -/
def peerCount (s : NodeState) : ℕ := s.knownPeers.length + s.strayPeer.toNat

end NodeState

/-- A command line for a node. -/
inductive NodeCommand where
  | time (epoch : ℤ)
  | advert (name : NodeName)
  | sendText (destPubPrefix text : List ℕ)
  | sendChannel (text : List ℕ)
  | radio (cmd : Command)
  | quit
  deriving DecidableEq

structure NodeAgent where
  state : NodeState
  rxCount : ℕ
  started : Bool
  /-- the reader loop goes on -/
  reading : Bool
  stopping : Bool
  exited : Bool

namespace NodeAgent

def init : NodeAgent := ⟨.init, 0, false, true, false, false⟩

variable (a : NodeAgent)

/-- `send_command`: the lines that reach the node. After `quit` has begun, and when the pipe is
closed, a command is lost. -/
def sendCommand (cmd : NodeCommand) : List NodeCommand :=
  if a.stopping ∧ cmd ≠ .quit ∨ a.exited then [] else [cmd]

/-- `quit`, up to its wait. -/
def quit : NodeAgent × List NodeCommand :=
  if !a.started || a.exited then (a, [])
  else ({ a with stopping := true }, { a with stopping := true }.sendCommand .quit)

/-- `deliver_rx` and `notify_rx_start`. -/
def onRadio (cmd : Command) : NodeAgent × List NodeCommand :=
  (match cmd with
    | .rx .. => { a with rxCount := a.rxCount + 1 }
    | .rxStart _ => a, a.sendCommand (.radio cmd))

end NodeAgent

/-! ### Simulations -/

/-- A topology file with the command line. -/
structure Simulation where
  config : TopologyConfig
  warmupOverridden : Bool

/-- What a round of adverts draws. -/
structure Draws where
  rng : RandomStream
  pos : ℕ
  shuffled : List NodeName

/-- What a turn of the traffic loop draws, and what the clock says. -/
structure Send where
  clock : ℚ
  roll : ℚ
  sender : ℕ
  choice : ℕ
  wait : ℚ

/-- The main coroutine. -/
inductive MainTask where
  | starting
  | advertising (second : Bool) (pending : List (NodeName × ℚ))
  | reflooding (wakeAt : ℚ)
  | timing (wakeAt : ℚ)
  | sampling
  | ended (code : ℕ)
  deriving DecidableEq

/-- `run_periodic_adverts`. -/
inductive AdvertTask where
  | off
  | asleep (wakeAt : ℚ)
  | advertising (pending : List (NodeName × ℚ))
  deriving DecidableEq

/-- `run_traffic`. -/
inductive TrafficTask where
  | off
  | warming (wakeAt : ℚ)
  | waiting (deadline wakeAt : ℚ)
  /-- the pipe of the sender is drained -/
  | sending (deadline : ℚ)
  | closed
  deriving DecidableEq

structure SimState where
  time : ℚ
  agents : NodeName → NodeAgent
  messages : DeliveryMetrics
  contacts : Dict NodeName (ℕ × ℕ)
  endpointPubs : Option (List (List ℕ))
  main : MainTask
  adverts : AdvertTask
  traffic : TrafficTask

def SimState.init (time : ℚ) : SimState where
  time := time
  agents := fun _ => .init
  messages := .init
  contacts := .empty
  endpointPubs := none
  main := .starting
  adverts := .off
  traffic := .off

/-- The router has registered its callbacks: all nodes have become ready. -/
def SimState.wired (s : SimState) : Bool := s.main ≠ .starting ∧ s.main ≠ .ended 1

inductive SimEvent where
  | tick (t : ℚ)
  /-- `start` of an agent -/
  | spawn (name : NodeName)
  | report (name : NodeName) (event : JsonValue)
  | exit (name : NodeName)
  | radio (name : NodeName) (cmd : Command)
  /-- the main coroutine goes on -/
  | main (draws : Draws)
  /-- `wait_ready` of a node times out -/
  | timeout
  /-- a delayed advert of a round of the main coroutine, or of a periodic one -/
  | advert (k : ℕ)
  /-- the loop of the periodic adverts goes on -/
  | periodic (draws : Draws)
  | traffic (send : Send)

inductive SimObs where
  | command (name : NodeName) (cmd : NodeCommand)
  | reported (name : NodeName) (event : JsonValue)
  | delivered (name : NodeName)
  | round (now : ℚ) (names : List NodeName)
  | advertised (now : ℚ) (name : NodeName)
  | began (now : ℚ)
  | attempted (record : SendRecord)
  | ended (now : ℚ) (code : ℕ)

namespace Simulation

variable (sim : Simulation)

def names : List NodeName := sim.config.agents.keys

/-- The nodes that are no relays. -/
def endpoints : List NodeName :=
  (sim.config.agents.entries.filter fun entry => !entry.2.relay).map Prod.fst

def gen : TrafficGenerator := .init sim.names (some sim.config.radioOrDefault)

def warmupSecs : ℚ :=
  Orchestrator.warmupSecs sim.config.radioOrDefault sim.names.length sim.config.simulation
    sim.warmupOverridden

def graceSecs : ℚ := Orchestrator.graceSecs sim.config.radioOrDefault sim.names.length

def totalTime : ℚ :=
  Orchestrator.totalTime sim.config.radioOrDefault sim.names.length sim.config.simulation
    sim.warmupOverridden

/-- How long relays get to flood the first round again. -/
def refloodWait : ℚ := min (sim.gen.staggerSecs + 2) 30

/-! ### Rounds of adverts -/

/-- `run_initial_adverts`: who will advertise, and when. -/
def schedule (now : ℚ) (draws : Draws) : List (NodeName × ℚ) :=
  sim.gen.runInitialAdverts draws.rng draws.pos draws.shuffled now

/-- The agents as a shuffle leaves them. -/
def Shuffles (draws : Draws) : Prop := draws.shuffled.Perm sim.names

instance (draws : Draws) : Decidable (sim.Shuffles draws) :=
  inferInstanceAs (Decidable (List.Perm _ _))

/-- `_delayed_advert`, after its sleep. -/
def advertise (s : SimState) (name : NodeName) : List SimObs :=
  .advertised s.time name ::
    ((s.agents name).sendCommand (.advert name)).map (.command name)

/-- The task of a pending advert, if its sleep is over. -/
def due? (now : ℚ) (pending : List (NodeName × ℚ)) (k : ℕ) : Option NodeName :=
  match pending[k]? with
  | some (name, wakeAt) => if wakeAt ≤ now then some name else none
  | none => none

def advertStep (s : SimState) (k : ℕ) : Option (SimState × List SimObs) :=
  match s.main, s.adverts with
  | .advertising second pending, _ =>
      (due? s.time pending k).map fun name =>
        ({ s with main := .advertising second (pending.eraseIdx k) }, advertise s name)
  | _, .advertising pending =>
      (due? s.time pending k).map fun name =>
        ({ s with adverts := .advertising (pending.eraseIdx k) }, advertise s name)
  | _, _ => none

/-- When the next periodic round starts. -/
def nextRound (now : ℚ) (draws : Draws) : ℚ :=
  let interval := sim.config.simulation.advertIntervalSecs
  now + (interval + draws.rng.uniform draws.pos (-(1 / 5) * interval) (1 / 5 * interval))

def periodicStep (s : SimState) (draws : Draws) : Option (SimState × List SimObs) :=
  match s.adverts with
  | .asleep wakeAt =>
      if wakeAt ≤ s.time ∧ sim.Shuffles draws then
        some ({ s with adverts := .advertising (sim.schedule s.time draws) },
          [.round s.time draws.shuffled])
      else none
  | .advertising [] => some ({ s with adverts := .asleep (sim.nextRound s.time draws) }, [])
  | _ => none

/-! ### Traffic -/

/-- The keys of the endpoints that have one. -/
def pubsOf (s : SimState) : List (List ℕ) :=
  (sim.endpoints.map fun name => (s.agents name).state.pubKey).filter (· ≠ [])

/-- A sender, as `_send_random` reads it. -/
def endpoint (s : SimState) (name : NodeName) : Endpoint :=
  ⟨name, (s.agents name).state.pubKey, (s.agents name).state.knownPeers⟩

/-- `rng.choice(endpoints)`. -/
def sender (send : Send) : NodeName :=
  (sim.endpoints[send.sender % sim.endpoints.length]?).getD ""

/-- What a random send tells the node of the sender. -/
def sentObs (s : SimState) (send : Send) (name : NodeName) (pubs : List (List ℕ)) :
    List SimObs :=
  if IsChannel send.roll then
    ((s.agents name).sendCommand (.sendChannel (stamped "ch" name send.clock))).map (.command name)
  else match (endpoint s name).destPub? pubs send.choice with
    | none => []
    | some destPub =>
        let text := stamped "hello" name send.clock
        .attempted ⟨name, destPub, text, s.time, none, none⟩ ::
          ((s.agents name).sendCommand (.sendText (destPub.take 8) text)).map (.command name)

/-- `_send_random`. -/
def sendRandom (s : SimState) (send : Send) : SimState × List SimObs :=
  let name := sim.sender send
  let pubs := s.endpointPubs.getD (sim.pubsOf s)
  ({ s with
      messages := (s.messages.sendRandom s.time send.clock send.roll (endpoint s name) pubs
        send.choice).1
      endpointPubs := if IsChannel send.roll then s.endpointPubs else some pubs },
    sentObs s send name pubs)

/-- Whether `_send_random` gets to its end: it does not where a key that it needs is no member of a
set. -/
def CanSend (s : SimState) (send : Send) : Prop :=
  IsChannel send.roll ∨
    (s.endpointPubs.isNone → ∀ name ∈ sim.endpoints, (s.agents name).state.keeps = true) ∧
      (s.agents (sim.sender send)).state.hashesKey = true

instance (s : SimState) (send : Send) : Decidable (sim.CanSend s send) :=
  inferInstanceAs (Decidable (_ ∨ _))

/-- The head of the loop of `run_traffic`. -/
def trafficLoop (now deadline wait : ℚ) : TrafficTask :=
  if now < deadline then .waiting deadline (now + wait) else .closed

def trafficStep (s : SimState) (send : Send) : Option (SimState × List SimObs) :=
  match s.traffic with
  | .warming wakeAt =>
      if wakeAt ≤ s.time ∧ 0 ≤ send.wait then
        some ({ s with
          traffic :=
            if sim.endpoints.length < 2 then .closed
            else trafficLoop s.time (s.time + sim.config.simulation.durationSecs) send.wait }, [])
      else none
  | .waiting deadline wakeAt =>
      if wakeAt ≤ s.time then
        if deadline ≤ s.time then some ({ s with traffic := .closed }, [])
        else if sim.CanSend s send then
          some ({ (sim.sendRandom s send).1 with traffic := .sending deadline },
            (sim.sendRandom s send).2)
        else none
      else none
  | .sending deadline =>
      if 0 ≤ send.wait then
        some ({ s with traffic := trafficLoop s.time deadline send.wait }, [])
      else none
  | _ => none

/-! ### The main coroutine -/

/-- The state of all agents after `quit`, and what is written to them. -/
def quitAll (s : SimState) : (NodeName → NodeAgent) × List SimObs :=
  (fun name => if name ∈ sim.names then (s.agents name).quit.1 else s.agents name,
    sim.names.flatMap fun name => (s.agents name).quit.2.map (.command name))

/-- `record_contacts` for the nodes that are no relays. -/
def recordContacts (s : SimState) : Dict NodeName (ℕ × ℕ) :=
  .ofList (((sorted sim.names).filter fun name => !(s.agents name).state.isRelay).map fun name =>
    (name, ((s.agents name).state.peerCount, sim.names.length)))

/-- The second round is over: the timer and the background tasks start. -/
def begin (s : SimState) (draws : Draws) : SimState :=
  { s with
    main := .timing (s.time + sim.totalTime)
    adverts := .asleep (sim.nextRound s.time draws)
    traffic := .warming (s.time + sim.warmupSecs) }

def mainStep (s : SimState) (draws : Draws) : Option (SimState × List SimObs) :=
  match s.main with
  | .starting =>
      if (∀ name ∈ sim.names, (s.agents name).state.ready = true) ∧
          (∀ name ∈ sim.names, (s.agents name).state.printsKey = true) ∧ sim.Shuffles draws then
        some ({ s with main := .advertising false (sim.schedule s.time draws) },
          [.round s.time draws.shuffled])
      else none
  | .advertising false [] => some ({ s with main := .reflooding (s.time + sim.refloodWait) }, [])
  | .reflooding wakeAt =>
      if wakeAt ≤ s.time ∧ sim.Shuffles draws then
        some ({ s with main := .advertising true (sim.schedule s.time draws) },
          [.round s.time draws.shuffled])
      else none
  | .advertising true [] => some (sim.begin s draws, [.began s.time])
  | .timing wakeAt =>
      -- The background tasks are cancelled.
      if wakeAt ≤ s.time then
        some ({ s with main := .sampling, adverts := .off, traffic := .off }, [])
      else none
  | .sampling =>
      if ∀ name ∈ sim.names, (s.agents name).state.keeps = true then
        some ({ s with
          main := .ended 0
          contacts := sim.recordContacts s
          agents := (sim.quitAll s).1 }, (sim.quitAll s).2 ++ [.ended s.time 0])
      else none
  | _ => none

/-- One step of a task, or of the environment. -/
def step (s : SimState) : SimEvent → Option (SimState × List SimObs)
  | .tick t => if s.time ≤ t then some ({ s with time := t }, []) else none
  | .spawn name =>
      if s.main = .starting ∧ name ∈ sim.names ∧ (s.agents name).started = false then
        some ({ s with
          agents := Function.update s.agents name { s.agents name with started := true } },
          ((s.agents name).sendCommand (.time sim.config.simulation.epoch)).map (.command name))
      else none
  | .report name event =>
      -- An event that raises is none that the metrics look at, and the last one that is read.
      if (s.agents name).started ∧ (s.agents name).reading then
        some ({ s with
          agents := Function.update s.agents name
            { s.agents name with
              state := (s.agents name).state.dispatchEvent event
              reading := !NodeState.raises s.wired event }
          messages :=
            if s.wired then s.messages.onEvent s.time name event else s.messages },
          [.reported name event])
      else none
  | .exit name =>
      if (s.agents name).started then
        some ({ s with
          agents := Function.update s.agents name { s.agents name with exited := true } }, [])
      else none
  | .radio name cmd =>
      if s.wired ∧ (s.agents name).started then
        some ({ s with agents := Function.update s.agents name ((s.agents name).onRadio cmd).1 },
          (match cmd with
            | .rx .. => [SimObs.delivered name]
            | .rxStart _ => []) ++ ((s.agents name).onRadio cmd).2.map (.command name))
      else none
  | .main draws => sim.mainStep s draws
  | .timeout =>
      if s.main = .starting ∧ ∀ name ∈ sim.names, (s.agents name).started = true then
        some ({ s with main := .ended 1, agents := (sim.quitAll s).1 },
          (sim.quitAll s).2 ++ [.ended s.time 1])
      else none
  | .advert k => advertStep s k
  | .periodic draws => sim.periodicStep s draws
  | .traffic send => sim.trafficStep s send

end Simulation

end MeshcoreSim
