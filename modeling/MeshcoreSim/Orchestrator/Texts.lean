import MeshcoreSim.Orchestrator.Runs

/-!
The texts of a simulation: who sends them to whom, and which count as delivered.

* `texts_between_contacts` — texts go from endpoints to other endpoints that the sender has heard.
* `run_metrics` — the ledger of a simulation is a run of the ledger of the metrics.
* `delivered_after_sent` — what is counted as delivered was sent before.
-/

namespace MeshcoreSim

open Lib

namespace Simulation

variable {sim : Simulation} {s s' : SimState} {e : SimEvent} {tr out : List SimObs}
  {name : NodeName}

/-! ### Keys -/

/-- A node prints `ready` once. -/
def ReadyOnce (s : SimState) : SimEvent → Prop
  | .report name event =>
      NodeState.textField event "type" = points "ready" → (s.agents name).state.ready = false
  | _ => True

instance (s : SimState) : (e : SimEvent) → Decidable (ReadyOnce s e)
  | .report _ _ => inferInstanceAs (Decidable (_ = _ → _ = false))
  | .tick _ | .spawn _ | .exit _ | .radio _ _ | .main _ | .timeout | .advert _ | .periodic _
  | .traffic _ => .isTrue trivial

/-- The node of `name` has printed an advert with the key `pub`. -/
def Heard (tr : List SimObs) (name : NodeName) (pub : List ℕ) : Prop :=
  ∃ event, .reported name event ∈ tr ∧ NodeState.advertised? event = some pub

/-- Where the keys of a state come from. -/
structure Informed (sim : Simulation) (s : SimState) (tr : List SimObs) : Prop where
  ready : s.wired = true → ∀ name ∈ sim.names, (s.agents name).state.ready = true
  peers : ∀ name, ∀ pub ∈ (s.agents name).state.knownPeers, Heard tr name pub
  snapshot : ∀ pubs, s.endpointPubs = some pubs → s.wired = true ∧ ∀ pub ∈ pubs,
    ∃ receiver ∈ sim.endpoints, (s.agents receiver).state.pubKey = pub

theorem Heard.mono {pub : List ℕ} (heard : Heard tr name pub) : Heard (tr ++ out) name pub := by
  obtain ⟨event, mem, named⟩ := heard
  exact ⟨event, List.mem_append_left _ mem, named⟩

/-- What an event changes in an agent: the key only with `ready`, the peers only with adverts. -/
theorem dispatchEvent_cases (state : NodeState) (event : JsonValue) :
    (NodeState.textField event "type" = points "ready" ∧
        (state.dispatchEvent event).ready = true ∧
        (state.dispatchEvent event).knownPeers = state.knownPeers) ∨
      ((state.dispatchEvent event).ready = state.ready ∧
        (state.dispatchEvent event).pubKey = state.pubKey ∧
        ∀ pub ∈ (state.dispatchEvent event).knownPeers,
          pub ∈ state.knownPeers ∨ NodeState.advertised? event = some pub) := by
  unfold NodeState.dispatchEvent
  split_ifs with ready tx
  · exact .inl ⟨ready, rfl, rfl⟩
  · exact .inr ⟨rfl, rfl, fun pub known => .inl known⟩
  · right
    split
    · rename_i heard named
      refine ⟨rfl, rfl, fun pub known => ?_⟩
      rcases List.mem_insert_iff.mp known with rfl | old
      · exact .inr named
      · exact .inl old
    · exact ⟨rfl, rfl, fun pub known => .inl known⟩

/-- What an agent has learnt after a step. -/
structure Learns (s : SimState) (name : NodeName) (a : NodeAgent) (out : List SimObs) : Prop where
  ready : (s.agents name).state.ready = true → a.state.ready = true
  key : (s.agents name).state.ready = true → a.state.pubKey = (s.agents name).state.pubKey
  peers : ∀ pub ∈ a.state.knownPeers,
    pub ∈ (s.agents name).state.knownPeers ∨ Heard out name pub

theorem Learns.nothing {a : NodeAgent} (same : a.state = (s.agents name).state) :
    Learns s name a out :=
  ⟨fun ready => same ▸ ready, fun _ => congrArg NodeState.pubKey same,
    fun _ known => .inl (same ▸ known)⟩

theorem AgentSlice.learns {a : NodeAgent} (once : ReadyOnce s e)
    (slice : AgentSlice sim s e name a out) : Learns s name a out := by
  cases slice with
  | spawned => exact .nothing rfl
  | exited => exact .nothing rfl
  | radio cmd => cases cmd <;> exact .nothing rfl
  | reported event started reading here =>
      subst here
      rcases dispatchEvent_cases (s.agents name).state event with
        ⟨isReady, ready, peers⟩ | ⟨ready, key, peers⟩
      · refine ⟨fun _ => ready, fun before => ?_, fun pub known => .inl (peers ▸ known)⟩
        rw [once isReady] at before
        cases before
      · refine ⟨ready.trans, fun _ => key, fun pub known => ?_⟩
        exact (peers pub known).imp id fun named => ⟨event, List.mem_singleton_self _, named⟩

theorem Slice.learns (once : ReadyOnce s e) (slice : Slice sim s e s' out) (name : NodeName) :
    Learns s name (s'.agents name) out := by
  cases slice with
  | agent receiver a messages out slice =>
      by_cases same : name = receiver
      · subst same
        simp only [Function.update_self]
        exact slice.learns once
      · simp only [Function.update_of_ne same]
        exact .nothing rfl
  | quits =>
      refine .nothing ?_
      simp only [quitAll, NodeAgent.quit]
      split_ifs <;> rfl
  | _ => exact .nothing rfl

/-- The router is wired up when all nodes are ready, and for good. -/
theorem Slice.wired (slice : Slice sim s e s' out) :
    (s'.wired = true → s.wired = true ∨ ∀ name ∈ sim.names, (s.agents name).state.ready = true) ∧
      (s.wired = true → s'.wired = true) := by
  cases slice with
  | starts draws main ready => exact ⟨fun _ => .inr ready, fun _ => by simp [SimState.wired]⟩
  | announced name second pending k main => simp [SimState.wired, main]
  | waits main => simp [SimState.wired, main]
  | refloods wakeAt draws main => simp [SimState.wired, main]
  | begins draws main => simp [SimState.wired, begin, main]
  | stops wakeAt main => simp [SimState.wired, main]
  | quits code contacts last =>
      rcases last with ⟨main, rfl, -⟩ | ⟨main, rfl, -⟩ <;> simp [SimState.wired, main]
  | _ => exact ⟨.inl, id⟩

theorem wired_of_timing {wakeAt : ℚ} (main : s.main = .timing wakeAt) : s.wired = true := by
  simp [SimState.wired, main]

/-- The keys of the endpoints are read once. -/
theorem Slice.snapshot (sound : sim.Sound s) (slice : Slice sim s e s' out)
    {pubs : List (List ℕ)} (taken : s'.endpointPubs = some pubs) :
    s.endpointPubs = some pubs ∨ s.wired = true ∧ pubs = sim.pubsOf s := by
  cases slice with
  | sends send deadline wakeAt traffic due early =>
      obtain ⟨stop, main⟩ := sound.background (.inr (by simp [traffic]))
      simp only [sendRandom] at taken
      split_ifs at taken with channel
      · exact .inl taken
      · cases old : s.endpointPubs with
        | none =>
            rw [old] at taken
            exact .inr ⟨wired_of_timing main, (Option.some.inj taken).symm⟩
        | some pubs' =>
            rw [old] at taken
            exact .inl taken
  | _ => exact .inl taken

theorem mem_pubsOf {pub : List ℕ} (mem : pub ∈ sim.pubsOf s) :
    ∃ receiver ∈ sim.endpoints, (s.agents receiver).state.pubKey = pub := by
  obtain ⟨receiver, listed, rfl⟩ := List.mem_map.mp (List.mem_of_mem_filter mem)
  exact ⟨receiver, listed, rfl⟩

theorem Informed.step (informed : sim.Informed s tr) (sound : sim.Sound s) (once : ReadyOnce s e)
    (slice : Slice sim s e s' out) : sim.Informed s' (tr ++ out) := by
  have learns := slice.learns once
  obtain ⟨before, later⟩ := slice.wired
  refine ⟨fun wired name listed => ?_, fun name pub known => ?_, fun pubs taken => ?_⟩
  · refine (learns name).ready ?_
    exact (before wired).elim (informed.ready · name listed) (· name listed)
  · rcases (learns name).peers pub known with old | ⟨event, mem, named⟩
    · exact (informed.peers name pub old).mono
    · exact ⟨event, List.mem_append_right _ mem, named⟩
  · have read : s.wired = true ∧ ∀ pub ∈ pubs,
        ∃ receiver ∈ sim.endpoints, (s.agents receiver).state.pubKey = pub := by
      rcases slice.snapshot sound taken with old | ⟨wired, rfl⟩
      · exact informed.snapshot pubs old
      · exact ⟨wired, fun _ => mem_pubsOf⟩
    refine ⟨later read.1, fun pub mem => ?_⟩
    obtain ⟨receiver, listed, owns⟩ := read.2 pub mem
    have ready := informed.ready read.1 receiver (endpoints_subset listed)
    exact ⟨receiver, listed, ((learns receiver).key ready).trans owns⟩

theorem run_informed {time : ℚ} {ok : SimState → SimEvent → Prop}
    (once : ∀ s e, ok s e → ReadyOnce s e) (run : Run sim.step ok (.init time) s tr) :
    sim.Informed s tr := by
  apply run.invariant
  · exact ⟨fun wired => by simp [SimState.wired, SimState.init] at wired,
      fun name pub known => by simp [SimState.init, NodeAgent.init, NodeState.init] at known,
      fun pubs some => by simp [SimState.init] at some⟩
  · intro s tr e s' out before informed admitted stepped
    exact informed.step (run_sound before) (once s e admitted) (step_slice stepped)

/-- The key of a node that is ready stays. -/
theorem run_key {s₀ : SimState} (run : Run sim.step ReadyOnce s₀ s tr)
    (ready : (s₀.agents name).state.ready = true) :
    (s.agents name).state.pubKey = (s₀.agents name).state.pubKey := by
  have kept : (s.agents name).state.ready = true ∧
      (s.agents name).state.pubKey = (s₀.agents name).state.pubKey := by
    refine run.invariant (I := fun s _ => (s.agents name).state.ready = true ∧
      (s.agents name).state.pubKey = (s₀.agents name).state.pubKey) ⟨ready, rfl⟩ ?_
    rintro s tr e s' out - ⟨ready, key⟩ once stepped
    have learns := (step_slice stepped).learns once name
    exact ⟨learns.ready ready, (learns.key ready).trans key⟩
  exact kept.2

/-! ### Sends -/

theorem mem_known {sender : Endpoint} {pubs : List (List ℕ)} {choice : ℕ} {destPub : List ℕ}
    (drawn : sender.destPub? pubs choice = some destPub) :
    destPub ∈ sender.knownPeers ∧ destPub ∈ pubs ∧ destPub ≠ sender.pubKey := by
  have mem := List.mem_filter.mp (List.mem_of_getElem? drawn)
  exact ⟨mem.1, of_decide_eq_true mem.2⟩

/-- The send of a text, or its record. -/
def IsText : SimObs → Prop
  | .attempted _ | .command _ (.sendText _ _) => True
  | _ => False

theorem mem_told {a : NodeAgent} {cmd : NodeCommand} {o : SimObs}
    (mem : o ∈ (a.sendCommand cmd).map (.command name)) : o = .command name cmd := by
  obtain ⟨cmd', given, rfl⟩ := List.mem_map.mp mem
  unfold NodeAgent.sendCommand at given
  split_ifs at given
  · cases given
  · rw [List.mem_singleton.mp given]

theorem advertise_silent {o : SimObs} (mem : o ∈ advertise s name) : ¬ IsText o := by
  rcases List.mem_cons.mp mem with rfl | told
  · exact id
  · rw [mem_told told]
    exact id

theorem quitAll_silent {o : SimObs} (mem : o ∈ (sim.quitAll s).2) : ¬ IsText o := by
  obtain ⟨name, -, told⟩ := List.mem_flatMap.mp mem
  unfold NodeAgent.quit at told
  split_ifs at told
  · cases told
  · rw [mem_told told]
    exact id

theorem AgentSlice.silent {a : NodeAgent} (slice : AgentSlice sim s e name a out) {o : SimObs}
    (mem : o ∈ out) : ¬ IsText o := by
  cases slice with
  | spawned =>
      rw [mem_told mem]
      exact id
  | reported =>
      rw [List.mem_singleton.mp mem]
      exact id
  | exited => cases mem
  | radio cmd delivered count =>
      rcases List.mem_append.mp mem with got | told
      · rcases count with rfl | rfl
        · cases got
        · rw [List.mem_singleton.mp got]
          exact id
      · rw [mem_told told]
        exact id

/-- What a step does to the ledger. Texts are sent in the loop of the traffic generator only. -/
theorem Slice.ledger (slice : Slice sim s e s' out) :
    (s'.messages = s.messages ∧ ∀ o ∈ out, ¬ IsText o) ∨
      (∃ name event, out = [.reported name event] ∧
        s'.messages = s.messages.onEvent s.time name event) ∨
      ∃ send deadline wakeAt, s.traffic = .waiting deadline wakeAt ∧ s.time < deadline ∧
        s'.messages = (sim.sendRandom s send).1.messages ∧ out = (sim.sendRandom s send).2 := by
  cases slice with
  | sends send deadline wakeAt traffic due early =>
      exact .inr (.inr ⟨send, deadline, wakeAt, traffic, early, rfl, rfl⟩)
  | agent name a messages out slice ledger =>
      rcases ledger with rfl | ⟨event, rfl, rfl⟩
      · exact .inl ⟨rfl, fun _ => slice.silent⟩
      · exact .inr (.inl ⟨name, event, rfl, rfl⟩)
  | announced => exact .inl ⟨rfl, fun _ => advertise_silent⟩
  | repeated => exact .inl ⟨rfl, fun _ => advertise_silent⟩
  | quits code contacts last =>
      refine .inl ⟨rfl, fun o mem => ?_⟩
      rcases List.mem_append.mp mem with told | ended
      · exact quitAll_silent told
      · rw [List.mem_singleton.mp ended]
        exact id
  | _ => exact .inl ⟨rfl, by simp [IsText]⟩

theorem Slice.sent (slice : Slice sim s e s' out) {o : SimObs} (mem : o ∈ out)
    (text : IsText o) :
    ∃ send deadline wakeAt, s.traffic = .waiting deadline wakeAt ∧ s.time < deadline ∧
      out = (sim.sendRandom s send).2 := by
  rcases slice.ledger with
    ⟨-, silent⟩ | ⟨name, event, rfl, -⟩ | ⟨send, deadline, wakeAt, traffic, early, -, sent⟩
  · exact absurd text (silent o mem)
  · rw [List.mem_singleton.mp mem] at text
    exact text.elim
  · exact ⟨send, deadline, wakeAt, traffic, early, sent⟩

/-- A random send of a text: the record, and then the command. -/
theorem sentObs_text {send : Send} {sender : NodeName} {pubs : List (List ℕ)} {o : SimObs}
    (mem : o ∈ sentObs s send sender pubs) (text : IsText o) :
    ∃ destPub, (endpoint s sender).destPub? pubs send.choice = some destPub ∧
      sentObs s send sender pubs =
        .attempted ⟨sender, destPub, stamped "hello" sender send.clock, s.time, none, none⟩ ::
          ((s.agents sender).sendCommand (.sendText (destPub.take 8)
            (stamped "hello" sender send.clock))).map (.command sender) := by
  unfold sentObs at mem ⊢
  split_ifs at mem ⊢ with channel
  · rw [mem_told mem] at text
    exact text.elim
  · split
    · rename_i unknown
      rw [unknown] at mem
      cases mem
    · rename_i destPub drawn
      exact ⟨destPub, drawn, rfl⟩

/-- Who sends a text, and to whom. -/
theorem Slice.text (sound : sim.Sound s) (informed : sim.Informed s tr)
    (slice : Slice sim s e s' out) {o : SimObs} (mem : o ∈ out) (text : IsText o) :
    ∃ sender ∈ sim.endpoints, ∃ receiver ∈ sim.endpoints, receiver ≠ sender ∧
      (s.agents receiver).state.ready = true ∧
      Heard tr sender (s.agents receiver).state.pubKey ∧
      ∃ body, out =
        .attempted ⟨sender, (s.agents receiver).state.pubKey, body, s.time, none, none⟩ ::
          ((s.agents sender).sendCommand
            (.sendText ((s.agents receiver).state.pubKey.take 8) body)).map (.command sender) := by
  obtain ⟨send, deadline, wakeAt, traffic, -, rfl⟩ := slice.sent mem text
  obtain ⟨stop, main⟩ := sound.background (.inr (by simp [traffic]))
  have wired := wired_of_timing main
  have many := sound.senders (by simp [traffic, TrafficTask.Sends])
  obtain ⟨destPub, drawn, record⟩ := sentObs_text mem text
  obtain ⟨heard, listed, other⟩ := mem_known drawn
  obtain ⟨receiver, endpoint, rfl⟩ : ∃ receiver ∈ sim.endpoints,
      (s.agents receiver).state.pubKey = destPub := by
    cases taken : s.endpointPubs with
    | none =>
        rw [taken] at listed
        exact mem_pubsOf listed
    | some pubs =>
        rw [taken] at listed
        exact (informed.snapshot pubs taken).2 destPub listed
  refine ⟨sim.sender send, sender_mem send many, receiver, endpoint, ?_,
    informed.ready wired receiver (endpoints_subset endpoint), informed.peers _ _ heard,
    _, record⟩
  rintro rfl
  exact other rfl

/-- In every run in which each node prints `ready` once, whatever else it prints: a text is only
written to the node of an endpoint, for another endpoint whose advert that node has printed
before. It carries the first eight digits of the key, and it has been recorded. -/
theorem texts_between_contacts (sim : Simulation) (time : ℚ) (s : SimState) (tr : List SimObs)
    (run : Run sim.step ReadyOnce (.init time) s tr) (before after : List SimObs)
    (name : NodeName) (dest text : List ℕ)
    (split : tr = before ++ .command name (.sendText dest text) :: after) :
    name ∈ sim.endpoints ∧ ∃ receiver ∈ sim.endpoints, receiver ≠ name ∧
      dest = (s.agents receiver).state.pubKey.take 8 ∧
      Heard before name (s.agents receiver).state.pubKey ∧
      ∃ now, .attempted ⟨name, (s.agents receiver).state.pubKey, text, now, none, none⟩
        ∈ before := by
  subst split
  obtain ⟨s₁, tr₁, e, s₂, out₁, out₂, tr₂, first, once, stepped, rest, rfl, rfl⟩ := run.split
  have slice := step_slice stepped
  obtain ⟨sender, sends, receiver, receives, other, ready, heard, body, all⟩ :=
    slice.text (run_sound first) (run_informed (fun _ _ => id) first)
      (List.mem_append_right out₁ List.mem_cons_self) trivial
  have key : (s.agents receiver).state.pubKey = (s₁.agents receiver).state.pubKey := by
    have learns := slice.learns once receiver
    exact (run_key rest (learns.ready ready)).trans (learns.key ready)
  -- The command comes behind its record.
  cases out₁ with
  | nil =>
      rw [List.nil_append, List.cons.injEq] at all
      cases all.1
  | cons record out₁ =>
      obtain ⟨rfl, told⟩ := List.cons_eq_cons.mp all
      have same : SimObs.command name (.sendText dest text) = .command sender
          (.sendText ((s₁.agents receiver).state.pubKey.take 8) body) := by
        refine mem_told (a := s₁.agents sender) ?_
        rw [← told]
        exact List.mem_append_right out₁ List.mem_cons_self
      obtain ⟨rfl, rfl, rfl⟩ : name = sender ∧
          dest = (s₁.agents receiver).state.pubKey.take 8 ∧ text = body := by
        simpa using same
      refine ⟨sends, receiver, receives, other, ?_⟩
      rw [key]
      exact ⟨rfl, heard.mono, s₁.time, List.mem_append_right _ List.mem_cons_self⟩

/-- `alice` has heard of `bob`, and sends a text. -/
theorem texts_between_contacts_pairCell : ∃ s tr before after,
    Run pairCell.step ReadyOnce (.init 0) s tr ∧
    tr = before ++ .command "alice" (.sendText (points "b0b0b0b0") (stamped "hello" "alice" 0)) ::
      after ∧
    ∃ receiver ∈ pairCell.endpoints, receiver ≠ "alice" ∧
      Heard before "alice" (s.agents receiver).state.pubKey := by
  have found : (exec (restrict pairCell.step ReadyOnce) (SimState.init 0)
      (pairStarts ++ pairTalks)).any (fun r =>
        NodeCommand.sendText (points "b0b0b0b0") (stamped "hello" "alice" 0) ∈
          commandsTo "alice" r.2) = true := by
    decide +kernel
  obtain ⟨s, tr, run, found⟩ := Run.of_exec_any found
  obtain ⟨before, after, split⟩ :=
    List.append_of_mem (mem_commandsTo.mp (of_decide_eq_true found))
  obtain ⟨-, receiver, listed, other, -, heard, -⟩ :=
    texts_between_contacts pairCell 0 s tr run before after "alice" _ _ split
  exact ⟨s, tr, before, after, run, split, receiver, listed, other, heard⟩

/-! ### Deliveries -/

def attempt? : SimObs → Option SendRecord
  | .attempted record => some record
  | _ => none

/-- The records of the texts of a trace. -/
def attempts (tr : List SimObs) : List SendRecord := tr.filterMap attempt?

theorem mem_attempts {record : SendRecord} : record ∈ attempts tr ↔ .attempted record ∈ tr := by
  rw [attempts, List.mem_filterMap]
  constructor
  · rintro ⟨o, mem, seen⟩
    unfold attempt? at seen
    split at seen
    · exact Option.some.inj seen ▸ mem
    · cases seen
  · exact fun mem => ⟨_, mem, rfl⟩

theorem attempts_append (tr out : List SimObs) :
    attempts (tr ++ out) = attempts tr ++ attempts out :=
  List.filterMap_append

theorem attempts_silent (silent : ∀ o ∈ out, ¬ IsText o) : attempts out = [] := by
  rw [attempts, List.filterMap_eq_nil_iff]
  intro o mem
  cases o with
  | attempted record => exact (silent _ mem trivial).elim
  | _ => rfl

/-- The ledger of a simulation is a run of the ledger. -/
theorem Slice.metrics (slice : Slice sim s e s' out) :
    (s'.messages = s.messages ∧ attempts out = []) ∨
      ∃ e, s.messages.step e = some (s'.messages, attempts out) := by
  rcases slice.ledger with
    ⟨same, silent⟩ | ⟨name, event, rfl, received⟩ | ⟨send, -, -, -, -, sent, rfl⟩
  · exact .inl ⟨same, attempts_silent silent⟩
  · exact .inr ⟨.onEvent s.time name event, by rw [received]; rfl⟩
  · right
    rw [sent]
    refine ⟨.sendRandom s.time send.clock send.roll (endpoint s (sim.sender send))
      (s.endpointPubs.getD (sim.pubsOf s)) send.choice, ?_⟩
    refine congrArg some (Prod.ext rfl ?_)
    simp only [sendRandom, sentObs]
    split_ifs
    · exact (attempts_silent fun o mem => by rw [mem_told mem]; exact id).symm
    · split
      · rename_i unknown
        rw [unknown]
        rfl
      · rename_i destPub drawn
        rw [drawn]
        have silent : attempts (((s.agents (sim.sender send)).sendCommand (.sendText
            (destPub.take 8) (stamped "hello" (sim.sender send) send.clock))).map
            (.command (sim.sender send))) = [] := by
          rw [attempts, List.filterMap_map]
          exact List.filterMap_eq_nil_iff.mpr fun _ _ => rfl
        rw [attempts, List.filterMap_cons_some (show attempt? (.attempted _) = _ from rfl)]
        exact (congrArg _ silent).symm

theorem run_metrics {time : ℚ} {ok : SimState → SimEvent → Prop}
    (run : Run sim.step ok (.init time) s tr) :
    Run DeliveryMetrics.step anyStep .init s.messages (attempts tr) := by
  apply run.invariant (I := fun s tr =>
    Run DeliveryMetrics.step anyStep .init s.messages (attempts tr)) .start
  intro s tr e s' out _ ledger _ stepped
  rw [attempts_append]
  rcases (step_slice stepped).metrics with ⟨same, silent⟩ | ⟨e, stepped⟩
  · rw [same, silent, List.append_nil]
    exact ledger
  · exact ledger.next trivial stepped

theorem Slice.time_le (slice : Slice sim s e s' out) : s.time ≤ s'.time := by
  cases slice with
  | tick t later => exact later
  | _ => exact le_rfl

/-- A record of a text that is under way. -/
structure Sent (now : ℚ) (tr : List SimObs) (record : SendRecord) : Prop where
  seen : .attempted record ∈ tr
  fresh : record.asSent = record
  past : record.sentAt ≤ now

/-- A record of a text that has arrived. -/
def Arrived (now : ℚ) (tr : List SimObs) (record : SendRecord) : Prop :=
  ∃ name t event, record.receivedBy = some name ∧ record.receivedAt = some t ∧
    record.sentAt ≤ t ∧ t ≤ now ∧ DeliveryMetrics.Carries record.text event ∧
    [SimObs.attempted record.asSent, .reported name event].Sublist tr

/-- Where the records of a ledger come from. -/
structure Traced (s : SimState) (tr : List SimObs) : Prop where
  pending : ∀ text record, s.messages.pending.get? text = some record →
    record.text = text ∧ Sent s.time tr record
  completed : ∀ record ∈ s.messages.completed, Arrived s.time tr record

variable {record : SendRecord} {now t : ℚ}

theorem Sent.later (sent : Sent now tr record) (later : now ≤ t) : Sent t (tr ++ out) record :=
  ⟨List.mem_append_left _ sent.seen, sent.fresh, sent.past.trans later⟩

theorem Arrived.later (arrived : Arrived now tr record) (later : now ≤ t) :
    Arrived t (tr ++ out) record := by
  obtain ⟨name, t', event, by', at', order, past, carries, seen⟩ := arrived
  exact ⟨name, t', event, by', at', order, past.trans later, carries,
    seen.trans (List.sublist_append_left _ _)⟩

theorem Traced.later (traced : Traced s tr) (pending : s'.messages.pending = s.messages.pending)
    (completed : s'.messages.completed = s.messages.completed) (later : s.time ≤ s'.time) :
    Traced s' (tr ++ out) := by
  refine ⟨fun text record known => ?_, fun record mem => ?_⟩
  · obtain ⟨same, sent⟩ := traced.pending text record (pending ▸ known)
    exact ⟨same, sent.later later⟩
  · exact (traced.completed record (completed ▸ mem)).later later

/-- An event completes the record of the text that it carries. -/
theorem Traced.report {event : JsonValue} (traced : Traced s tr) (later : s.time ≤ s'.time)
    (received : s'.messages = s.messages.onEvent s.time name event) :
    Traced s' (tr ++ [.reported name event]) := by
  by_cases reports : ∃ text record, DeliveryMetrics.Carries text event ∧
      s.messages.pending.get? text = some record
  · obtain ⟨text, record, carries, known⟩ := reports
    rw [DeliveryMetrics.onEvent_of_carries carries, DeliveryMetrics.receiveText, known] at received
    refine ⟨fun text' record' known' => ?_, fun record' mem => ?_⟩
    · rw [received] at known'
      simp only [Dict.get?_erase] at known'
      split_ifs at known' with same
      obtain ⟨same, sent⟩ := traced.pending text' record' known'
      exact ⟨same, sent.later later⟩
    · rw [received] at mem
      rcases List.mem_append.mp mem with old | new
      · exact (traced.completed record' old).later later
      · obtain ⟨rfl, sent⟩ := traced.pending text record known
        rw [List.mem_singleton.mp new]
        refine ⟨name, s.time, event, rfl, rfl, sent.past, later, carries, ?_⟩
        rw [DeliveryMetrics.asSent_received, sent.fresh]
        exact (List.singleton_sublist.mpr sent.seen).append (List.Sublist.refl _)
  · have other : ∀ text, DeliveryMetrics.Carries text event →
        s.messages.pending.get? text = none := by
      intro text carries
      by_contra known
      obtain ⟨record, known⟩ := Option.ne_none_iff_exists'.mp known
      exact reports ⟨text, record, carries, known⟩
    obtain ⟨pending, completed⟩ :
        (s.messages.onEvent s.time name event).pending = s.messages.pending ∧
          (s.messages.onEvent s.time name event).completed = s.messages.completed :=
      DeliveryMetrics.onEvent_other other
    exact traced.later (received ▸ pending) (received ▸ completed) later

/-- A random send makes the record of its text pending. -/
theorem Traced.send (traced : Traced s tr) (send : Send) (later : s.time ≤ s'.time)
    (sent : s'.messages = (sim.sendRandom s send).1.messages) :
    Traced s' (tr ++ (sim.sendRandom s send).2) := by
  simp only [sendRandom, DeliveryMetrics.sendRandom, endpoint] at sent
  by_cases channel : IsChannel send.roll
  · rw [if_pos channel] at sent
    exact traced.later (sent ▸ rfl) (sent ▸ rfl) later
  · rw [if_neg channel] at sent
    cases drawn : (endpoint s (sim.sender send)).destPub? (s.endpointPubs.getD (sim.pubsOf s))
        send.choice with
    | none =>
        rw [endpoint] at drawn
        rw [drawn] at sent
        exact traced.later (sent ▸ rfl) (sent ▸ rfl) later
    | some destPub =>
        have seen : SimObs.attempted ⟨sim.sender send, destPub,
            stamped "hello" (sim.sender send) send.clock, s.time, none, none⟩ ∈
            (sim.sendRandom s send).2 := by
          simp only [sendRandom, sentObs, if_neg channel, drawn]
          exact List.mem_cons_self
        rw [endpoint] at drawn
        rw [drawn] at sent
        refine ⟨fun text record known => ?_, fun record mem => ?_⟩
        · rw [sent] at known
          simp only [DeliveryMetrics.recordSendAttempt, Dict.get?_set] at known
          split_ifs at known with same
          · cases known
            exact ⟨same.symm, List.mem_append_right _ seen, rfl, later⟩
          · obtain ⟨same, sent⟩ := traced.pending text record known
            exact ⟨same, sent.later later⟩
        · rw [sent] at mem
          exact (traced.completed record mem).later later

theorem Traced.step (traced : Traced s tr) (slice : Slice sim s e s' out) :
    Traced s' (tr ++ out) := by
  have later := slice.time_le
  rcases slice.ledger with
    ⟨same, silent⟩ | ⟨name, event, rfl, received⟩ | ⟨send, -, -, -, -, sent, rfl⟩
  · exact traced.later (same ▸ rfl) (same ▸ rfl) later
  · exact traced.report later received
  · exact traced.send send later sent

/-- In every run, whatever nodes print: what is counted as delivered is a text that has been sent,
each one counted once, and that some node has printed since then. No latency is negative. -/
theorem delivered_after_sent (sim : Simulation) (time : ℚ) (s : SimState) (tr : List SimObs)
    (run : Run sim.step anyStep (.init time) s tr) :
    (s.messages.completed.map SendRecord.asSent).Subperm (attempts tr) ∧
      ∀ record ∈ s.messages.completed, Arrived s.time tr record := by
  have accounted := DeliveryMetrics.accounted (run_metrics run)
  have traced : Traced s tr := by
    apply run.invariant (I := Traced)
    · refine ⟨fun text record known => ?_, fun record mem => ?_⟩
      · cases known
      · cases mem
    · intro s tr e s' out _ traced _ stepped
      exact traced.step (step_slice stepped)
  exact ⟨accounted.distinct, traced.completed⟩

/-- `bob` prints the text. -/
def pairArrives : SimEvent :=
  .report "bob" (.object [(points "type", .string (points "recv_text")),
    (points "text", .string (stamped "hello" "alice" 0))])

theorem delivered_after_sent_pairCell : ∃ s tr, Run pairCell.step anyStep (.init 0) s tr ∧
    ∃ record ∈ s.messages.completed, Arrived s.time tr record := by
  have found : (exec (restrict pairCell.step anyStep) (SimState.init 0)
      (pairStarts ++ [.tick 301, pairSend 0, pairSend 0, pairArrives])).any (fun r =>
        0 < r.1.messages.completed.length) = true := by
    decide +kernel
  obtain ⟨s, tr, run, found⟩ := Run.of_exec_any found
  obtain ⟨record, mem⟩ := List.exists_mem_of_length_pos (of_decide_eq_true found)
  exact ⟨s, tr, run, record, mem, (delivered_after_sent pairCell 0 s tr run).2 record mem⟩

end Simulation

end MeshcoreSim
