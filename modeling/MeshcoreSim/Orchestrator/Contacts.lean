import MeshcoreSim.Orchestrator.Timeline

/-!
The contacts that a simulation counts at its end.

* `run_state` — the state of an agent is what it has read from its node, event by event.
* `run_reading` — an event that raises is the last one that is read.
* `run_ended` — what was read before a regular end is what is counted.
* `contacts_heard` — each endpoint counts the different keys of the adverts that were read from it.
-/

namespace MeshcoreSim

open Lib

/-! ### Events of one node -/

namespace NodeState

theorem knownPeers_dispatchEvent (state : NodeState) (event : JsonValue) :
    (state.dispatchEvent event).knownPeers =
      match advertised? event with
      | some pub => state.knownPeers.insert pub
      | none => state.knownPeers := by
  unfold dispatchEvent
  split_ifs with ready tx
  · have silent : advertised? event = none := by
      unfold advertised?
      rw [ready]
      exact if_neg fun both => absurd both.1 (by decide)
    rw [silent]
  · have silent : advertised? event = none := by
      unfold advertised?
      rw [tx]
      exact if_neg fun both => absurd both.1 (by decide)
    rw [silent]
  · cases advertised? event <;> rfl

theorem strayPeer_dispatchEvent (state : NodeState) (event : JsonValue) :
    (state.dispatchEvent event).strayPeer = (state.strayPeer || strays event) := by
  unfold dispatchEvent
  split_ifs with ready tx
  · simp [strays, ready, show points "ready" ≠ points "advert" by decide]
  · simp [strays, tx, show points "tx" ≠ points "advert" by decide]
  · cases named : advertised? event with
    | none => rfl
    | some pub =>
        -- A key that is a string is no other.
        have noStray : strays event = false := by
          unfold advertised? at named
          split_ifs at named with advert
          unfold strays field
          unfold textField at advert ⊢
          cases key : event.get? (points "pub") with
          | none => simp
          | some v => cases v <;> simp_all
        rw [noStray, Bool.or_false]

/-- The keys that are known after some events. -/
theorem knownPeers_foldl (events : List JsonValue) :
    (events.foldl dispatchEvent init).knownPeers.Perm (events.filterMap advertised?).dedup := by
  induction events using List.reverseRecOn with
  | nil => exact List.Perm.refl _
  | append_singleton events event ih =>
      rw [List.foldl_append, List.foldl_cons, List.foldl_nil, knownPeers_dispatchEvent,
        List.filterMap_append, List.filterMap_cons]
      cases advertised? event with
      | none => simpa using ih
      | some pub =>
          have distinct := ih.nodup_iff.mpr (List.nodup_dedup _)
          refine (List.perm_ext_iff_of_nodup distinct.insert (List.nodup_dedup _)).mpr fun key => ?_
          rw [List.mem_insert_iff, ih.mem_iff]
          simp [or_comm]

theorem strayPeer_foldl (events : List JsonValue) :
    (events.foldl dispatchEvent init).strayPeer = events.any strays := by
  induction events using List.reverseRecOn with
  | nil => rfl
  | append_singleton events event ih =>
      rw [List.foldl_append, List.foldl_cons, List.foldl_nil, strayPeer_dispatchEvent, ih,
        List.any_append, List.any_cons, List.any_nil, Bool.or_false]

/-- An event that raises, raises later too. -/
theorem raises_mono {event : JsonValue} (raised : raises false event = true) (wired : Bool) :
    raises wired event = true := by
  cases wired with
  | false => exact raised
  | true =>
      unfold raises at raised ⊢
      cases event with
      | object fields =>
          simp only at raised ⊢
          split_ifs at raised ⊢ <;> simp_all
      | _ => rfl

variable {fields : List (List ℕ × JsonValue)} {wired : Bool}

theorem raises_recvText (type : textField (.object fields) "type" = points "recv_text") :
    raises wired (.object fields) = (wired && (field (.object fields) "text").isContainer &&
      !(field (.object fields) "text").isString) := by
  rw [raises, type]
  rfl

theorem raises_recvChannel (type : textField (.object fields) "type" = points "recv_channel") :
    raises wired (.object fields) = false := by
  rw [raises, type]
  rfl

theorem raises_log (type : textField (.object fields) "type" = points "log") :
    raises wired (.object fields) = (!(field (.object fields) "msg").isContainer ||
      wired && !(field (.object fields) "msg").isString) := by
  rw [raises, type]
  rfl

end NodeState

/-- The metrics do not look at an event that raises. -/
theorem DeliveryMetrics.onEvent_of_raises {event : JsonValue} {wired : Bool}
    (raised : NodeState.raises wired event = true) (m : DeliveryMetrics) (now : ℚ)
    (nodeName : NodeName) : m.onEvent now nodeName event = m := by
  unfold onEvent
  split
  · rename_i etype type
    have typed : NodeState.textField event "type" = etype := by rw [NodeState.textField, type]
    obtain ⟨fields, rfl⟩ : ∃ fields, event = .object fields := by
      cases event with
      | object fields => exact ⟨fields, rfl⟩
      | _ => cases type
    split_ifs with text channel log
    · rw [NodeState.raises_recvText (typed.trans text)] at raised
      rw [← NodeState.field]
      cases value : NodeState.field (.object fields) "text" with
      | string body => simp [value, JsonValue.isString] at raised
      | _ => rfl
    · rw [NodeState.raises_recvChannel (typed.trans channel)] at raised
      cases raised
    · rw [NodeState.raises_log (typed.trans log)] at raised
      rw [← NodeState.field]
      cases value : NodeState.field (.object fields) "msg" with
      | string msg => simp [value, JsonValue.isString, JsonValue.isContainer] at raised
      | _ => rfl
    · rfl
  · rfl

namespace Simulation

variable {sim : Simulation} {s s' : SimState} {e : SimEvent} {tr out : List SimObs}
  {name : NodeName}

def report? (name : NodeName) : SimObs → Option JsonValue
  | .reported receiver event => if receiver = name then some event else none
  | _ => none

/-- What a node has printed. -/
def reports (name : NodeName) (tr : List SimObs) : List JsonValue := tr.filterMap (report? name)

/-- What an agent knows from a trace. -/
def stateOf (name : NodeName) (tr : List SimObs) : NodeState :=
  (reports name tr).foldl NodeState.dispatchEvent .init

theorem reports_append (tr out : List SimObs) :
    reports name (tr ++ out) = reports name tr ++ reports name out :=
  List.filterMap_append

theorem reports_told {receiver : NodeName} (cmds : List NodeCommand) :
    reports name (cmds.map (.command receiver)) = [] := by
  rw [reports, List.filterMap_map]
  exact List.filterMap_eq_nil_iff.mpr fun _ _ => rfl

theorem reports_sendRandom (send : Send) : reports name (sim.sendRandom s send).2 = [] := by
  simp only [sendRandom, sentObs]
  split_ifs
  · exact reports_told _
  · split
    · rfl
    · exact reports_told _

theorem reports_quitAll : reports name (sim.quitAll s).2 = [] := by
  rw [quitAll, reports, List.filterMap_flatMap, List.flatMap_eq_nil_iff]
  exact fun _ _ => reports_told _

theorem reports_ending (code : ℕ) :
    reports name ((sim.quitAll s).2 ++ [.ended s.time code]) = [] := by
  rw [reports_append, reports_quitAll]
  rfl

theorem AgentSlice.state {a : NodeAgent} (slice : AgentSlice sim s e name a out) :
    a.state = (reports name out).foldl NodeState.dispatchEvent (s.agents name).state := by
  cases slice with
  | spawned => exact (congrArg (List.foldl _ _) (reports_told _)).symm
  | reported event =>
      rw [reports, List.filterMap_cons_some (show report? name (.reported name event) =
        some event from if_pos rfl)]
      rfl
  | exited => rfl
  | radio cmd delivered count =>
      rw [reports_append, reports_told, List.append_nil]
      rcases count with rfl | rfl <;> cases cmd <;> rfl

/-- Only a node itself prints its events. -/
theorem AgentSlice.reports_other {receiver : NodeName} {a : NodeAgent}
    (slice : AgentSlice sim s e receiver a out) (other : name ≠ receiver) :
    reports name out = [] := by
  cases slice with
  | spawned => exact reports_told _
  | reported event => exact List.filterMap_cons_none (if_neg (Ne.symm other))
  | exited => rfl
  | radio cmd delivered count =>
      rw [reports_append, reports_told, List.append_nil]
      rcases count with rfl | rfl <;> rfl

/-- A step changes the state of an agent by the events that it reports. -/
theorem Slice.state (slice : Slice sim s e s' out) (name : NodeName) :
    (s'.agents name).state =
      (reports name out).foldl NodeState.dispatchEvent (s.agents name).state := by
  have silent (same : (s'.agents name).state = (s.agents name).state)
      (noReport : reports name out = []) : (s'.agents name).state =
        (reports name out).foldl NodeState.dispatchEvent (s.agents name).state := by
    rw [noReport, same]
    rfl
  cases slice with
  | agent receiver a messages out slice =>
      by_cases same : name = receiver
      · subst same
        simp only [Function.update_self]
        exact slice.state
      · refine silent ?_ (slice.reports_other same)
        simp only [Function.update_of_ne same]
  | announced => exact silent rfl (reports_told _)
  | repeated => exact silent rfl (reports_told _)
  | sends send => exact silent rfl (reports_sendRandom send)
  | quits code contacts =>
      refine silent ?_ (reports_ending code)
      simp only [quitAll, NodeAgent.quit]
      split_ifs <;> rfl
  | _ => exact silent rfl rfl

theorem run_state {time : ℚ} {ok : SimState → SimEvent → Prop}
    (run : Run sim.step ok (.init time) s tr) (name : NodeName) :
    (s.agents name).state = stateOf name tr := by
  apply run.invariant (I := fun s tr => (s.agents name).state = stateOf name tr) rfl
  intro s tr e s' out _ known _ stepped
  rw [(step_slice stepped).state name, known, stateOf, stateOf, reports_append, List.foldl_append]

/-! ### The end -/

/-- After the end the contacts stay. -/
theorem Slice.contacts (slice : Slice sim s e s' out) (main : s.main = .ended 0) :
    s'.main = .ended 0 ∧ s'.contacts = s.contacts := by
  cases slice with
  | announced name second pending k here => cases main.symm.trans here
  | starts draws here => cases main.symm.trans here
  | waits here => cases main.symm.trans here
  | refloods wakeAt draws here => cases main.symm.trans here
  | begins draws here => cases main.symm.trans here
  | stops wakeAt here => cases main.symm.trans here
  | quits code contacts last =>
      rcases last with ⟨here, -⟩ | ⟨here, -⟩
      · cases main.symm.trans here
      · cases main.symm.trans here
  | _ => exact ⟨main, rfl⟩

theorem run_contacts {s₀ : SimState} {ok : SimState → SimEvent → Prop}
    (run : Run sim.step ok s₀ s tr) (main : s₀.main = .ended 0) : s.contacts = s₀.contacts := by
  have kept : s.main = .ended 0 ∧ s.contacts = s₀.contacts := by
    refine run.invariant (I := fun s _ => s.main = .ended 0 ∧ s.contacts = s₀.contacts)
      ⟨main, rfl⟩ ?_
    rintro s tr e s' out - ⟨main, same⟩ - stepped
    obtain ⟨main', same'⟩ := (step_slice stepped).contacts main
    exact ⟨main', same'.trans same⟩
  exact kept.2

/-- The entries of the counted contacts. -/
theorem recordContacts_keys : (sim.recordContacts s).keys =
    (sorted sim.names).filter fun name => !(s.agents name).state.isRelay := by
  have names (l : List NodeName) (count : NodeName → ℕ × ℕ) :
      (l.map fun name => (name, count name)).map Prod.fst = l := by
    rw [List.map_map]
    exact List.map_id l
  have distinct : (sorted sim.names).Nodup :=
    (sorted_perm sim.names).nodup_iff.mpr sim.config.agents.nodup
  rw [recordContacts, Dict.keys_ofList_of_nodup]
  · exact names _ _
  · rw [names]
    exact distinct.filter _

theorem recordContacts_get? (mem : name ∈ (sim.recordContacts s).keys) :
    (sim.recordContacts s).get? name =
      some ((s.agents name).state.peerCount, sim.names.length) := by
  rw [recordContacts_keys] at mem
  rw [recordContacts, Dict.get?_ofList_map mem]

/-! ### The reader loop -/

theorem AgentSlice.reading {a : NodeAgent} (slice : AgentSlice sim s e name a out) :
    (reports name out = [] ∧ a.reading = (s.agents name).reading) ∨
      ∃ event, reports name out = [event] ∧ (s.agents name).reading = true ∧
        a.reading = !NodeState.raises s.wired event := by
  cases slice with
  | spawned => exact .inl ⟨reports_told _, rfl⟩
  | reported event started reading =>
      exact .inr ⟨event, List.filterMap_cons_some (if_pos rfl), reading, rfl⟩
  | exited => exact .inl ⟨rfl, rfl⟩
  | radio cmd delivered count =>
      refine .inl ⟨?_, by cases cmd <;> rfl⟩
      rw [reports_append, reports_told, List.append_nil]
      rcases count with rfl | rfl <;> rfl

/-- A step reads one event of a node whose loop goes on, and ends the loop if this raises. -/
theorem Slice.reading (slice : Slice sim s e s' out) (name : NodeName) :
    (reports name out = [] ∧ (s'.agents name).reading = (s.agents name).reading) ∨
      ∃ event, reports name out = [event] ∧ (s.agents name).reading = true ∧
        (s'.agents name).reading = !NodeState.raises s.wired event := by
  cases slice with
  | agent receiver a messages out slice =>
      by_cases same : name = receiver
      · subst same
        simp only [Function.update_self]
        exact slice.reading
      · exact .inl ⟨slice.reports_other same, by simp only [Function.update_of_ne same]⟩
  | announced => exact .inl ⟨reports_told _, rfl⟩
  | repeated => exact .inl ⟨reports_told _, rfl⟩
  | sends send => exact .inl ⟨reports_sendRandom send, rfl⟩
  | quits code contacts =>
      refine .inl ⟨reports_ending code, ?_⟩
      simp only [quitAll, NodeAgent.quit]
      split_ifs <;> rfl
  | _ => exact .inl ⟨rfl, rfl⟩

/-- Nothing is read from a node behind an event that raises without callbacks. -/
theorem run_reading {time : ℚ} {ok : SimState → SimEvent → Prop}
    (run : Run sim.step ok (.init time) s tr) (name : NodeName) :
    (reports name tr).Pairwise (fun event _ => NodeState.raises false event = false) ∧
      ((s.agents name).reading = true →
        ∀ event ∈ reports name tr, NodeState.raises false event = false) := by
  refine run.invariant (I := fun s tr =>
    (reports name tr).Pairwise (fun event _ => NodeState.raises false event = false) ∧
      ((s.agents name).reading = true →
        ∀ event ∈ reports name tr, NodeState.raises false event = false))
    ⟨List.Pairwise.nil, by simp [reports]⟩ ?_
  rintro s tr e s' out - ⟨ordered, quiet⟩ - stepped
  rw [reports_append]
  rcases (step_slice stepped).reading name with ⟨none, same⟩ | ⟨event, one, reads, goesOn⟩
  · rw [none, List.append_nil, same]
    exact ⟨ordered, quiet⟩
  · rw [one]
    refine ⟨List.pairwise_append.mpr ⟨ordered, List.pairwise_singleton _ _, ?_⟩, fun going => ?_⟩
    · exact fun event' mem _ _ => quiet reads event' mem
    · rw [going] at goesOn
      intro event' mem
      rcases List.mem_append.mp mem with old | new
      · exact quiet reads event' old
      · rw [List.mem_singleton.mp new]
        cases raised : NodeState.raises false event with
        | false => rfl
        | true => simp [NodeState.raises_mono raised] at goesOn

/-- What agents know when a run ends regularly, and that it is counted. -/
theorem run_ended {time now : ℚ} {before after : List SimObs}
    (run : Run sim.step anyStep (.init time) s (before ++ .ended now 0 :: after)) :
    ∃ s₁, s.contacts = sim.recordContacts s₁ ∧
      ∀ name, (s₁.agents name).state = stateOf name before := by
  obtain ⟨s₁, tr₁, e, s₂, out₁, out₂, tr₂, first, -, stepped, rest, rfl, rfl⟩ := run.split
  obtain ⟨-, -, main, counted, all⟩ :=
    (step_slice stepped).ended (List.mem_append_right out₁ List.mem_cons_self)
  refine ⟨s₁, (run_contacts rest main).trans counted, fun name => ?_⟩
  have silent : reports name out₁ = [] := by
    have none : reports name (out₁ ++ .ended now 0 :: out₂) = [] := by
      rw [all, reports_ending]
    rw [reports_append] at none
    exact (List.append_eq_nil_iff.mp none).1
  rw [run_state first name, stateOf, stateOf, reports_append, silent, List.append_nil]

/-- In every run that ends regularly, whatever nodes print before and after the end: the contacts
are counted for the nodes that are no relays by their own account, in order of name, and each of
them counts every key once that an advert named that was read from it before the end. Nothing was
read behind an event that raises. -/
theorem contacts_heard (sim : Simulation) (time : ℚ) (s : SimState) (tr : List SimObs)
    (run : Run sim.step anyStep (.init time) s tr) (before after : List SimObs) (now : ℚ)
    (split : tr = before ++ .ended now 0 :: after) :
    s.contacts.keys = (sorted sim.names).filter (fun name => !(stateOf name before).isRelay) ∧
      (∀ name ∈ s.contacts.keys, s.contacts.get? name =
        some (((reports name before).filterMap NodeState.advertised?).dedup.length +
          ((reports name before).any NodeState.strays).toNat, sim.names.length)) ∧
      ∀ name, (reports name tr).Pairwise fun event _ => NodeState.raises false event = false := by
  have read (name : NodeName) := (run_reading run name).1
  subst split
  obtain ⟨s₁, counted, known⟩ := run_ended run
  rw [counted]
  refine ⟨?_, fun name mem => ?_, read⟩
  · simp only [recordContacts_keys, known]
  · rw [recordContacts_get? mem, known, NodeState.peerCount, stateOf, NodeState.strayPeer_foldl,
      (NodeState.knownPeers_foldl _).length_eq]

/-- `alice` hears `bob` twice, and counts him once. -/
theorem contacts_heard_pairCell : ∃ s tr, Run pairCell.step anyStep (.init 0) s tr ∧
    s.contacts.get? "alice" = some (1, 2) := by
  have found : (exec (restrict pairCell.step anyStep) (SimState.init 0)
      (pairStarts ++ .report "alice" (pairReport "advert" "b0b0b0b0") :: pairTalks)).any (fun r =>
        ((r.2.dropWhile fun o => (ending? o).isNone).head?.bind ending? = some (400, 0)) &&
          ((stateOf "alice" (r.2.takeWhile fun o => (ending? o).isNone)).isRelay = false &&
            decide (((reports "alice" (r.2.takeWhile fun o => (ending? o).isNone)).filterMap
              NodeState.advertised?).dedup.length = 1) &&
            !(reports "alice" (r.2.takeWhile fun o => (ending? o).isNone)).any
              NodeState.strays)) = true := by
    decide +kernel
  obtain ⟨s, tr, run, found⟩ := Run.of_exec_any found
  obtain ⟨ended, found⟩ := (Bool.and_eq_true _ _).mp found
  obtain ⟨found, noStray⟩ := (Bool.and_eq_true _ _).mp found
  obtain ⟨noRelay, once⟩ := (Bool.and_eq_true _ _).mp found
  obtain ⟨o, first, ends⟩ := Option.bind_eq_some_iff.mp (of_decide_eq_true ended)
  obtain ⟨after, rest⟩ := List.head?_eq_some_iff.mp first
  have split := (List.takeWhile_append_dropWhile (p := fun o => (ending? o).isNone)
    (l := tr)).symm
  rw [rest, ending?_eq_some.mp ends] at split
  obtain ⟨keys, counts, -⟩ := contacts_heard pairCell 0 s tr run _ after 400 split
  have counted : "alice" ∈ s.contacts.keys := by
    rw [keys, List.mem_filter, (sorted_perm _).mem_iff, of_decide_eq_true noRelay]
    exact ⟨List.mem_cons_self, rfl⟩
  have heard := counts "alice" counted
  rw [of_decide_eq_true once, (Bool.not_eq_true' _).mp noStray] at heard
  exact ⟨s, tr, run, heard⟩

end Simulation

end MeshcoreSim
