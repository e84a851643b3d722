import MeshcoreSim.Orchestrator.Simulation

/-!
Whole runs of a simulation.

* `Slice`, `step_slice` — everything that a step can do.
* `commands_framed` — what is written to a node begins with the clock and ends with `quit`.
* `run_sound` — which tasks there are, and which agents they use.
-/

namespace MeshcoreSim

open Lib

/-- The traffic generator is in its loop. -/
def TrafficTask.Sends : TrafficTask → Prop
  | .waiting _ _ | .sending _ => True
  | _ => False

namespace Simulation

variable {sim : Simulation} {s s' : SimState} {e : SimEvent} {tr out : List SimObs}
  {name : NodeName}

/-- What the environment does to one agent. -/
inductive AgentSlice (sim : Simulation) (s : SimState) (e : SimEvent) (name : NodeName) :
    NodeAgent → List SimObs → Prop
  | spawned (starting : s.main = .starting) (fresh : (s.agents name).started = false) :
      AgentSlice sim s e name { s.agents name with started := true }
        (((s.agents name).sendCommand (.time sim.config.simulation.epoch)).map (.command name))
  | reported (event : JsonValue) (started : (s.agents name).started = true)
      (reading : (s.agents name).reading = true) (here : e = .report name event) :
      AgentSlice sim s e name
        { s.agents name with
          state := (s.agents name).state.dispatchEvent event
          reading := !NodeState.raises s.wired event }
        [.reported name event]
  | exited (started : (s.agents name).started = true) :
      AgentSlice sim s e name { s.agents name with exited := true } []
  | radio (cmd : Command) (delivered : List SimObs)
      (count : delivered = [] ∨ delivered = [.delivered name]) (wired : s.wired = true)
      (started : (s.agents name).started = true) :
      AgentSlice sim s e name ((s.agents name).onRadio cmd).1
        (delivered ++ ((s.agents name).onRadio cmd).2.map (.command name))

/-- The steps of a simulation, one constructor for every way in which one can go. -/
inductive Slice (sim : Simulation) (s : SimState) (e : SimEvent) :
    SimState → List SimObs → Prop
  | tick (t : ℚ) (later : s.time ≤ t) (here : e = .tick t) : Slice sim s e { s with time := t } []
  | agent (name : NodeName) (a : NodeAgent) (messages : DeliveryMetrics) (out : List SimObs)
      (slice : AgentSlice sim s e name a out)
      (ledger : messages = s.messages ∨ ∃ event, out = [.reported name event] ∧
        messages = s.messages.onEvent s.time name event) :
      Slice sim s e { s with agents := Function.update s.agents name a, messages := messages } out
  /-- an advert of a round of the main coroutine -/
  | announced (name : NodeName) (second : Bool) (pending : List (NodeName × ℚ)) (k : ℕ)
      (main : s.main = .advertising second pending) (due : due? s.time pending k = some name) :
      Slice sim s e { s with main := .advertising second (pending.eraseIdx k) } (advertise s name)
  /-- an advert of a periodic round -/
  | repeated (name : NodeName) (pending : List (NodeName × ℚ)) (k : ℕ)
      (adverts : s.adverts = .advertising pending) (due : due? s.time pending k = some name) :
      Slice sim s e { s with adverts := .advertising (pending.eraseIdx k) } (advertise s name)
  | again (wakeAt : ℚ) (draws : Draws) (adverts : s.adverts = .asleep wakeAt)
      (due : wakeAt ≤ s.time) (shuffles : sim.Shuffles draws) :
      Slice sim s e { s with adverts := .advertising (sim.schedule s.time draws) }
        [.round s.time draws.shuffled]
  | rests (draws : Draws) (adverts : s.adverts = .advertising []) :
      Slice sim s e { s with adverts := .asleep (sim.nextRound s.time draws) } []
  /-- the traffic starts, or goes to the head of its loop -/
  | loops (task : TrafficTask) (wait : ℚ) (later : 0 ≤ wait)
      (running : (∃ wakeAt, s.traffic = .warming wakeAt ∧ wakeAt ≤ s.time ∧
          (task = .closed ∨ 2 ≤ sim.endpoints.length ∧
            task = trafficLoop s.time (s.time + sim.config.simulation.durationSecs) wait)) ∨
        (∃ deadline, s.traffic = .sending deadline ∧ task = trafficLoop s.time deadline wait)) :
      Slice sim s e { s with traffic := task } []
  | closes (deadline wakeAt : ℚ) (traffic : s.traffic = .waiting deadline wakeAt) :
      Slice sim s e { s with traffic := .closed } []
  | sends (send : Send) (deadline wakeAt : ℚ) (traffic : s.traffic = .waiting deadline wakeAt)
      (due : wakeAt ≤ s.time) (early : s.time < deadline) :
      Slice sim s e { (sim.sendRandom s send).1 with traffic := .sending deadline }
        (sim.sendRandom s send).2
  | starts (draws : Draws) (main : s.main = .starting)
      (ready : ∀ name ∈ sim.names, (s.agents name).state.ready = true)
      (shuffles : sim.Shuffles draws) :
      Slice sim s e { s with main := .advertising false (sim.schedule s.time draws) }
        [.round s.time draws.shuffled]
  | waits (main : s.main = .advertising false []) :
      Slice sim s e { s with main := .reflooding (s.time + sim.refloodWait) } []
  | refloods (wakeAt : ℚ) (draws : Draws) (main : s.main = .reflooding wakeAt)
      (due : wakeAt ≤ s.time) (shuffles : sim.Shuffles draws) :
      Slice sim s e { s with main := .advertising true (sim.schedule s.time draws) }
        [.round s.time draws.shuffled]
  | begins (draws : Draws) (main : s.main = .advertising true []) :
      Slice sim s e (sim.begin s draws) [.began s.time]
  | stops (wakeAt : ℚ) (main : s.main = .timing wakeAt) (due : wakeAt ≤ s.time) :
      Slice sim s e { s with main := .sampling, adverts := .off, traffic := .off } []
  | quits (code : ℕ) (contacts : Dict NodeName (ℕ × ℕ))
      (last : s.main = .sampling ∧ code = 0 ∧ contacts = sim.recordContacts s ∨
        s.main = .starting ∧ code = 1 ∧ contacts = s.contacts ∧
          ∀ name ∈ sim.names, (s.agents name).started = true) :
      Slice sim s e
        { s with main := .ended code, contacts := contacts, agents := (sim.quitAll s).1 }
        ((sim.quitAll s).2 ++ [.ended s.time code])

theorem main_slice {draws : Draws} (stepped : sim.mainStep s draws = some (s', out)) :
    Slice sim s e s' out := by
  unfold mainStep at stepped
  split at stepped
  · rename_i main
    split_ifs at stepped with ready
    cases stepped
    exact .starts draws main ready.1 ready.2.2
  · rename_i main
    cases stepped
    exact .waits main
  · rename_i wakeAt main
    split_ifs at stepped with due
    cases stepped
    exact .refloods wakeAt draws main due.1 due.2
  · rename_i main
    cases stepped
    exact .begins draws main
  · rename_i wakeAt main
    split_ifs at stepped with due
    cases stepped
    exact .stops wakeAt main due
  · rename_i main
    split_ifs at stepped
    cases stepped
    exact .quits 0 _ (.inl ⟨main, rfl, rfl⟩)
  · cases stepped

theorem advert_slice {k : ℕ} (stepped : advertStep s k = some (s', out)) :
    Slice sim s e s' out := by
  unfold advertStep at stepped
  split at stepped
  · rename_i second pending main
    obtain ⟨name, due, result⟩ := Option.map_eq_some_iff.mp stepped
    cases result
    exact .announced name second pending k main due
  · rename_i pending adverts _
    obtain ⟨name, due, result⟩ := Option.map_eq_some_iff.mp stepped
    cases result
    exact .repeated name pending k adverts due
  · cases stepped

theorem periodic_slice {draws : Draws} (stepped : sim.periodicStep s draws = some (s', out)) :
    Slice sim s e s' out := by
  unfold periodicStep at stepped
  split at stepped
  · rename_i wakeAt adverts
    split_ifs at stepped with due
    cases stepped
    exact .again wakeAt draws adverts due.1 due.2
  · rename_i adverts
    cases stepped
    exact .rests draws adverts
  · cases stepped

theorem traffic_slice {send : Send} (stepped : sim.trafficStep s send = some (s', out)) :
    Slice sim s e s' out := by
  unfold trafficStep at stepped
  split at stepped
  · rename_i wakeAt traffic
    split_ifs at stepped with due few
    · cases stepped
      exact .loops .closed send.wait due.2 (.inl ⟨wakeAt, traffic, due.1, .inl rfl⟩)
    · cases stepped
      exact .loops _ send.wait due.2
        (.inl ⟨wakeAt, traffic, due.1, .inr ⟨not_lt.mp few, rfl⟩⟩)
  · rename_i deadline wakeAt traffic
    split_ifs at stepped with due late sendable
    · cases stepped
      exact .closes deadline wakeAt traffic
    · cases stepped
      exact .sends send deadline wakeAt traffic due (not_le.mp late)
  · rename_i deadline traffic
    split_ifs at stepped with later
    cases stepped
    exact .loops _ send.wait later (.inr ⟨deadline, traffic, rfl⟩)
  · cases stepped

/-- Every step is one of these. -/
theorem step_slice (stepped : sim.step s e = some (s', out)) : Slice sim s e s' out := by
  cases e with
  | tick t =>
      simp only [step] at stepped
      split_ifs at stepped with later
      cases stepped
      exact .tick t later rfl
  | spawn name =>
      simp only [step] at stepped
      split_ifs at stepped with fresh
      cases stepped
      exact .agent name _ s.messages _ (.spawned fresh.1 fresh.2.2) (.inl rfl)
  | report name event =>
      simp only [step] at stepped
      split_ifs at stepped with reads wired
      · cases stepped
        exact .agent name _ _ _ (.reported event reads.1 reads.2 rfl) (.inr ⟨event, rfl, rfl⟩)
      · cases stepped
        exact .agent name _ _ _ (.reported event reads.1 reads.2 rfl) (.inl rfl)
  | exit name =>
      simp only [step] at stepped
      split_ifs at stepped with started
      cases stepped
      exact .agent name _ s.messages _ (.exited started) (.inl rfl)
  | radio name cmd =>
      simp only [step] at stepped
      split_ifs at stepped with wired
      cases stepped
      refine .agent name _ s.messages _ (.radio cmd _ ?_ wired.1 wired.2) (.inl rfl)
      cases cmd with
      | rx => exact .inr rfl
      | rxStart => exact .inl rfl
  | main draws => exact main_slice stepped
  | timeout =>
      simp only [step] at stepped
      split_ifs at stepped with started
      cases stepped
      exact .quits 1 s.contacts (.inr ⟨started.1, rfl, rfl, started.2⟩)
  | advert k => exact advert_slice stepped
  | periodic draws => exact periodic_slice stepped
  | traffic send => exact traffic_slice stepped

/-! ### The tasks -/

/-- Which tasks there are at a time, and what they know of the agents. -/
structure Sound (sim : Simulation) (s : SimState) : Prop where
  spawned : s.main ≠ .starting → ∀ name ∈ sim.names, (s.agents name).started = true
  ready : ∀ name, (s.agents name).state.ready = true → (s.agents name).started = true
  announcing : ∀ second pending, s.main = .advertising second pending →
    ∀ p ∈ pending, p.1 ∈ sim.names
  repeating : ∀ pending, s.adverts = .advertising pending → ∀ p ∈ pending, p.1 ∈ sim.names
  background : s.adverts ≠ .off ∨ s.traffic ≠ .off → ∃ wakeAt, s.main = .timing wakeAt
  senders : s.traffic.Sends → 2 ≤ sim.endpoints.length
  running : (∀ code, s.main ≠ .ended code) → ∀ name, (s.agents name).stopping = false
  finished : ∀ code, s.main = .ended code → ∀ name ∈ sim.names,
    (s.agents name).stopping = true ∨ (s.agents name).exited = true

theorem sound_init (time : ℚ) : sim.Sound (.init time) := by
  constructor <;> simp [SimState.init, NodeAgent.init, NodeState.init, TrafficTask.Sends]

theorem mem_names_of_schedule {now : ℚ} {draws : Draws} (shuffles : sim.Shuffles draws) :
    ∀ p ∈ sim.schedule now draws, p.1 ∈ sim.names := by
  intro p mem
  rw [schedule, TrafficGenerator.runInitialAdverts, List.mem_mapIdx] at mem
  obtain ⟨i, lt, rfl⟩ := mem
  exact shuffles.mem_iff.mp (List.getElem_mem lt)

theorem AgentSlice.flags {a : NodeAgent} {out : List SimObs}
    (slice : AgentSlice sim s e name a out) :
    a.started = true ∧ a.stopping = (s.agents name).stopping ∧
      ((s.agents name).exited = true → a.exited = true) := by
  cases slice with
  | spawned => exact ⟨rfl, rfl, id⟩
  | reported event started => exact ⟨started, rfl, id⟩
  | exited started => exact ⟨started, rfl, fun _ => rfl⟩
  | radio cmd delivered count wired started =>
      cases cmd <;> exact ⟨started, rfl, id⟩

theorem Sound.step (sound : sim.Sound s) (slice : Slice sim s e s' out) : sim.Sound s' := by
  obtain ⟨spawned, ready, announcing, repeating, background, senders, running, finished⟩ := sound
  cases slice with
  | tick => exact ⟨spawned, ready, announcing, repeating, background, senders, running, finished⟩
  | agent name a messages out slice =>
      obtain ⟨started, stopping, exited⟩ := slice.flags
      have updated {P : NodeName → NodeAgent → Prop} (new : P name a)
          (old : ∀ other, P other (s.agents other)) (other : NodeName) :
          P other (Function.update s.agents name a other) := by
        by_cases same : other = name
        · subst same
          rwa [Function.update_self]
        · rw [Function.update_of_ne same]
          exact old other
      refine ⟨fun main => ?_, ?_, announcing, repeating, background, senders, fun alive => ?_,
        fun code main => ?_⟩
      · exact updated (P := fun other a => other ∈ sim.names → a.started = true)
          (fun _ => started) (spawned main)
      · exact updated (P := fun _ a => a.state.ready = true → a.started = true)
          (fun _ => started) ready
      · exact updated (P := fun _ a => a.stopping = false)
          (stopping.trans (running alive name)) (running alive)
      · exact updated (P := fun other a => other ∈ sim.names → a.stopping = true ∨ a.exited = true)
          (fun listed => (finished code main name listed).imp stopping.trans exited)
          (finished code main)
  | announced name second pending k main due =>
      refine ⟨fun _ => spawned (by simp [main]), ready, ?_, repeating, fun alive => ?_, senders,
        ?_, ?_⟩
      · rintro _ _ ⟨rfl, rfl⟩ p mem
        exact announcing _ _ main p (List.mem_of_mem_eraseIdx mem)
      · obtain ⟨wakeAt, timing⟩ := background alive
        cases main.symm.trans timing
      · exact fun _ => running (by simp [main])
      · rintro _ ⟨⟩
  | repeated name pending k adverts due =>
      refine ⟨spawned, ready, announcing, ?_, fun _ => background (.inl (by simp [adverts])),
        senders, running, finished⟩
      rintro _ ⟨rfl⟩ p mem
      exact repeating _ adverts p (List.mem_of_mem_eraseIdx mem)
  | again wakeAt draws adverts due shuffles =>
      refine ⟨spawned, ready, announcing, ?_, fun _ => background (.inl (by simp [adverts])),
        senders, running, finished⟩
      rintro _ ⟨rfl⟩
      exact mem_names_of_schedule shuffles
  | rests draws adverts =>
      refine ⟨spawned, ready, announcing, ?_, fun _ => background (.inl (by simp [adverts])),
        senders, running, finished⟩
      rintro _ ⟨⟩
  | loops task wait later alive =>
      refine ⟨spawned, ready, announcing, repeating, fun _ => background (.inr ?_), ?_, running,
        finished⟩
      · rcases alive with ⟨wakeAt, traffic, -⟩ | ⟨deadline, traffic, -⟩
        · simp [traffic]
        · simp [traffic]
      · rcases alive with ⟨wakeAt, traffic, due, rfl | ⟨many, -⟩⟩ | ⟨deadline, traffic, -⟩
        · exact False.elim
        · exact fun _ => many
        · exact fun _ => senders (by simp [traffic, TrafficTask.Sends])
  | closes deadline wakeAt traffic =>
      exact ⟨spawned, ready, announcing, repeating,
        fun _ => background (.inr (by simp [traffic])), False.elim, running, finished⟩
  | sends send deadline wakeAt traffic due early =>
      exact ⟨spawned, ready, announcing, repeating,
        fun _ => background (.inr (by simp [traffic])),
        fun _ => senders (by simp [traffic, TrafficTask.Sends]), running, finished⟩
  | starts draws main allReady shuffles =>
      refine ⟨fun _ name listed => ready name (allReady name listed), ready, ?_, repeating,
        fun alive => ?_, senders, fun _ => running (by simp [main]), ?_⟩
      · rintro _ _ ⟨rfl, rfl⟩
        exact mem_names_of_schedule shuffles
      · obtain ⟨wakeAt, timing⟩ := background alive
        cases main.symm.trans timing
      · rintro _ ⟨⟩
  | waits main =>
      refine ⟨fun _ => spawned (by simp [main]), ready, ?_, repeating, fun alive => ?_, senders,
        fun _ => running (by simp [main]), ?_⟩
      · rintro _ _ ⟨⟩
      · obtain ⟨wakeAt, timing⟩ := background alive
        cases main.symm.trans timing
      · rintro _ ⟨⟩
  | refloods wakeAt draws main due shuffles =>
      refine ⟨fun _ => spawned (by simp [main]), ready, ?_, repeating, fun alive => ?_, senders,
        fun _ => running (by simp [main]), ?_⟩
      · rintro _ _ ⟨rfl, rfl⟩
        exact mem_names_of_schedule shuffles
      · obtain ⟨wakeAt, timing⟩ := background alive
        cases main.symm.trans timing
      · rintro _ ⟨⟩
  | begins draws main =>
      refine ⟨fun _ => spawned (by simp [main]), ready, ?_, ?_, fun _ => ⟨_, rfl⟩, False.elim,
        fun _ => running (by simp [main]), ?_⟩
      · rintro _ _ ⟨⟩
      · rintro _ ⟨⟩
      · rintro _ ⟨⟩
  | stops wakeAt main due =>
      refine ⟨fun _ => spawned (by simp [main]), ready, ?_, ?_, ?_, False.elim,
        fun _ => running (by simp [main]), ?_⟩
      · rintro _ _ ⟨⟩
      · rintro _ ⟨⟩
      · rintro (alive | alive) <;> exact absurd rfl alive
      · rintro _ ⟨⟩
  | quits code contacts last =>
      have kept (name : NodeName) : ((sim.quitAll s).1 name).started = (s.agents name).started ∧
          ((sim.quitAll s).1 name).state = (s.agents name).state := by
        simp only [quitAll, NodeAgent.quit]
        split_ifs <;> exact ⟨rfl, rfl⟩
      refine ⟨fun _ name listed => ?_, fun name isReady => ?_, ?_, repeating, fun alive => ?_,
        senders, fun alive => absurd rfl (alive code), fun _ _ name listed => ?_⟩
      · rw [(kept name).1]
        rcases last with ⟨main, -⟩ | ⟨-, -, -, started⟩
        · exact spawned (by simp [main]) name listed
        · exact started name listed
      · rw [(kept name).2] at isReady
        exact (kept name).1.trans (ready name isReady)
      · rintro _ _ ⟨⟩
      · obtain ⟨wakeAt, timing⟩ := background alive
        rcases last with ⟨main, -⟩ | ⟨main, -⟩
        · cases main.symm.trans timing
        · cases main.symm.trans timing
      · have started : (s.agents name).started = true := by
          rcases last with ⟨main, -⟩ | ⟨-, -, -, started⟩
          · exact spawned (by simp [main]) name listed
          · exact started name listed
        simp only [quitAll, if_pos listed, NodeAgent.quit, started]
        cases gone : (s.agents name).exited <;> simp [gone]

theorem run_sound {time : ℚ} {ok : SimState → SimEvent → Prop}
    (run : Run sim.step ok (.init time) s tr) : sim.Sound s := by
  apply run.invariant (I := fun s _ => sim.Sound s) (sound_init time)
  intro s tr e s' out _ sound _ stepped
  exact sound.step (step_slice stepped)

/-! ### What is written to a node -/

/-- The commands that are written to a node. -/
def commandsTo (name : NodeName) (tr : List SimObs) : List NodeCommand :=
  tr.filterMap fun
    | .command receiver cmd => if receiver = name then some cmd else none
    | _ => none

@[simp] theorem commandsTo_append (name : NodeName) (tr tr' : List SimObs) :
    commandsTo name (tr ++ tr') = commandsTo name tr ++ commandsTo name tr' :=
  List.filterMap_append

@[simp] theorem commandsTo_map (name receiver : NodeName) (cmds : List NodeCommand) :
    commandsTo name (cmds.map (.command receiver)) = if receiver = name then cmds else [] := by
  rw [commandsTo, List.filterMap_map]
  split_ifs with same
  · simp [same]
  · simp [same]

theorem mem_commandsTo {cmd : NodeCommand} : cmd ∈ commandsTo name tr ↔ .command name cmd ∈ tr := by
  rw [commandsTo, List.mem_filterMap]
  constructor
  · rintro ⟨o, mem, seen⟩
    split at seen
    · split_ifs at seen with here
      cases seen
      exact here ▸ mem
    · cases seen
  · exact fun mem => ⟨_, mem, if_pos rfl⟩

/-- Neither the clock nor `quit`. -/
def IsPlain (cmd : NodeCommand) : Prop := cmd ≠ .quit ∧ ∀ epoch, cmd ≠ .time epoch

theorem isPlain_advert (n : NodeName) : IsPlain (.advert n) := ⟨by simp, by simp⟩

theorem isPlain_sendText (dest text : List ℕ) : IsPlain (.sendText dest text) :=
  ⟨by simp, by simp⟩

theorem isPlain_sendChannel (text : List ℕ) : IsPlain (.sendChannel text) := ⟨by simp, by simp⟩

theorem isPlain_radio (cmd : Command) : IsPlain (.radio cmd) := ⟨by simp, by simp⟩

/-- What a step does to one agent, and writes to its node. -/
inductive AgentChange (sim : Simulation) (s : SimState) (name : NodeName) :
    NodeAgent → List NodeCommand → Prop
  | spawned (fresh : (s.agents name).started = false) :
      AgentChange sim s name { s.agents name with started := true }
        ((s.agents name).sendCommand (.time sim.config.simulation.epoch))
  /-- nothing that decides what is written -/
  | marked (a : NodeAgent) (started : a.started = (s.agents name).started)
      (stopping : a.stopping = (s.agents name).stopping)
      (exited : a.exited = true → (s.agents name).exited = true ∨ (s.agents name).started = true) :
      AgentChange sim s name a []
  | told (a : NodeAgent) (cmd : NodeCommand) (plain : IsPlain cmd)
      (started : (s.agents name).started = true) (same : a.started = true)
      (stopping : a.stopping = (s.agents name).stopping)
      (exited : a.exited = (s.agents name).exited) :
      AgentChange sim s name a ((s.agents name).sendCommand cmd)
  | quit (running : ∀ code, s.main ≠ .ended code) :
      AgentChange sim s name (s.agents name).quit.1 (s.agents name).quit.2

theorem AgentChange.same : AgentChange sim s name (s.agents name) [] :=
  .marked _ rfl rfl .inl

theorem commandsTo_advertise (name receiver : NodeName) :
    commandsTo name (advertise s receiver) =
      if receiver = name then (s.agents receiver).sendCommand (.advert receiver) else [] :=
  commandsTo_map name receiver _

theorem commandsTo_quitAll (name : NodeName) :
    commandsTo name (sim.quitAll s).2 =
      if name ∈ sim.names then (s.agents name).quit.2 else [] := by
  have all (names : List NodeName) (distinct : names.Nodup) :
      commandsTo name (names.flatMap fun n => (s.agents n).quit.2.map (.command n)) =
        if name ∈ names then (s.agents name).quit.2 else [] := by
    induction names with
    | nil => rfl
    | cons n names ih =>
        obtain ⟨new, distinct⟩ := List.nodup_cons.mp distinct
        rw [List.flatMap_cons, commandsTo_append, commandsTo_map, ih distinct]
        by_cases same : n = name
        · subst same
          simp [new]
        · simp [same, Ne.symm same]
  exact all sim.names sim.config.agents.nodup

/-- What a random send tells a node. -/
theorem commandsTo_sentObs (send : Send) (receiver : NodeName) (pubs : List (List ℕ)) :
    commandsTo name (sentObs s send receiver pubs) = [] ∨
      receiver = name ∧ ∃ cmd, IsPlain cmd ∧ (∀ n, cmd ≠ .advert n) ∧
        commandsTo name (sentObs s send receiver pubs) = (s.agents name).sendCommand cmd := by
  by_cases same : receiver = name
  · subst same
    unfold sentObs
    split_ifs
    · refine .inr ⟨rfl, .sendChannel (stamped "ch" receiver send.clock), isPlain_sendChannel _,
        by simp, ?_⟩
      rw [commandsTo_map, if_pos rfl]
    · split
      · exact .inl rfl
      · rename_i destPub known
        refine .inr ⟨rfl, .sendText (destPub.take 8) (stamped "hello" receiver send.clock),
          isPlain_sendText _ _, by simp, ?_⟩
        exact (commandsTo_map _ _ _).trans (if_pos rfl)
  · left
    unfold sentObs
    split_ifs
    · rw [commandsTo_map, if_neg same]
    · split
      · rfl
      · exact (commandsTo_map _ _ _).trans (if_neg same)

theorem endpoints_subset {name : NodeName} (mem : name ∈ sim.endpoints) : name ∈ sim.names := by
  obtain ⟨entry, kept, rfl⟩ := List.mem_map.mp mem
  exact List.mem_map_of_mem (List.mem_of_mem_filter kept)

theorem sender_mem (send : Send) (many : 2 ≤ sim.endpoints.length) :
    sim.sender send ∈ sim.endpoints := by
  have lt : send.sender % sim.endpoints.length < sim.endpoints.length :=
    Nat.mod_lt _ (by omega)
  rw [sender, List.getElem?_eq_getElem lt, Option.getD_some]
  exact List.getElem_mem lt

theorem mem_of_due {now : ℚ} {pending : List (NodeName × ℚ)} {k : ℕ}
    (due : due? now pending k = some name) :
    ∃ wakeAt, pending[k]? = some (name, wakeAt) ∧ wakeAt ≤ now := by
  unfold due? at due
  split at due
  · rename_i name' wakeAt here
    split_ifs at due with late
    cases due
    exact ⟨wakeAt, here, late⟩
  · cases due

theorem advertise_change {receiver : NodeName} (started : (s.agents receiver).started = true)
    {s' : SimState} (same : s'.agents = s.agents) :
    AgentChange sim s name (s'.agents name) (commandsTo name (advertise s receiver)) := by
  rw [commandsTo_advertise, same]
  split_ifs with here
  · subst here
    exact .told _ _ (isPlain_advert _) started started rfl rfl
  · exact .same

/-- A step does one of these things to each agent. -/
theorem Slice.agentChange (sound : sim.Sound s) (slice : Slice sim s e s' out) (name : NodeName) :
    AgentChange sim s name (s'.agents name) (commandsTo name out) := by
  cases slice with
  | agent receiver a messages out slice =>
      by_cases same : name = receiver
      · subst same
        simp only [Function.update_self]
        cases slice with
        | spawned starting fresh =>
            rw [commandsTo_map, if_pos rfl]
            exact .spawned fresh
        | reported event started => exact .marked _ rfl rfl .inl
        | exited started => exact .marked _ rfl rfl fun _ => .inr started
        | radio cmd delivered count wired started =>
            have silent : commandsTo name delivered = [] := by
              rcases count with rfl | rfl <;> rfl
            rw [commandsTo_append, commandsTo_map, if_pos rfl, silent, List.nil_append]
            cases cmd with
            | rx => exact .told _ _ (isPlain_radio _) started started rfl rfl
            | rxStart => exact .told _ _ (isPlain_radio _) started started rfl rfl
      · simp only [Function.update_of_ne same]
        have silent : commandsTo name out = [] := by
          cases slice with
          | spawned => rw [commandsTo_map, if_neg (Ne.symm same)]
          | reported => rfl
          | exited => rfl
          | radio cmd delivered count =>
              rw [commandsTo_append, commandsTo_map, if_neg (Ne.symm same)]
              rcases count with rfl | rfl <;> rfl
        rw [silent]
        exact .same
  | announced receiver second pending k main due =>
      obtain ⟨wakeAt, here, -⟩ := mem_of_due due
      have listed := sound.announcing _ _ main _ (List.mem_of_getElem? here)
      exact advertise_change (sound.spawned (by simp [main]) _ listed) rfl
  | repeated receiver pending k adverts due =>
      obtain ⟨wakeAt, here, -⟩ := mem_of_due due
      have listed := sound.repeating _ adverts _ (List.mem_of_getElem? here)
      obtain ⟨stop, main⟩ := sound.background (.inl (by simp [adverts]))
      exact advertise_change (sound.spawned (by simp [main]) _ listed) rfl
  | sends send deadline wakeAt traffic due early =>
      obtain ⟨stop, main⟩ := sound.background (.inr (by simp [traffic]))
      have many := sound.senders (by simp [traffic, TrafficTask.Sends])
      have started := sound.spawned (by simp [main]) _ (endpoints_subset (sender_mem send many))
      rcases @commandsTo_sentObs s name send (sim.sender send)
        (s.endpointPubs.getD (sim.pubsOf s)) with none | ⟨rfl, cmd, plain, -, one⟩
      · exact (congrArg (AgentChange sim s name (s.agents name)) none).mpr .same
      · exact (congrArg (AgentChange sim s _ (s.agents _)) one).mpr
          (.told _ cmd plain started started rfl rfl)
  | quits code contacts last =>
      have running : ∀ code, s.main ≠ .ended code := by
        rcases last with ⟨main, -⟩ | ⟨main, -⟩ <;> simp [main]
      have silent : commandsTo name [.ended s.time code] = [] := rfl
      rw [commandsTo_append, commandsTo_quitAll, silent, List.append_nil]
      simp only [quitAll]
      split_ifs with listed
      · exact .quit running
      · exact .same
  | _ => exact .same

/-- The clock, then other commands, and at most one `quit` behind them. -/
inductive Framed (epoch : ℤ) : List NodeCommand → Prop
  | none : Framed epoch []
  | running (body : List NodeCommand) (plain : ∀ cmd ∈ body, IsPlain cmd) :
      Framed epoch (.time epoch :: body)
  | quit (body : List NodeCommand) (plain : ∀ cmd ∈ body, IsPlain cmd) :
      Framed epoch (.time epoch :: (body ++ [.quit]))

/-- What has been written to the node of an agent. -/
structure Told (epoch : ℤ) (a : NodeAgent) (cmds : List NodeCommand) : Prop where
  fresh : a.started = false → cmds = [] ∧ a.stopping = false ∧ a.exited = false
  running : a.started = true → a.stopping = false →
    ∃ body, (∀ cmd ∈ body, IsPlain cmd) ∧ cmds = .time epoch :: body
  stopping : a.stopping = true →
    ∃ body, (∀ cmd ∈ body, IsPlain cmd) ∧ cmds = .time epoch :: (body ++ [.quit])

theorem Told.framed {epoch : ℤ} {a : NodeAgent} {cmds : List NodeCommand}
    (told : Told epoch a cmds) : Framed epoch cmds := by
  cases stopping : a.stopping with
  | true =>
      obtain ⟨body, plain, rfl⟩ := told.stopping stopping
      exact .quit body plain
  | false =>
      cases started : a.started with
      | true =>
          obtain ⟨body, plain, rfl⟩ := told.running started stopping
          exact .running body plain
      | false =>
          rw [(told.fresh started).1]
          exact .none

theorem Told.step {a : NodeAgent} {cmds new : List NodeCommand}
    (told : Told sim.config.simulation.epoch (s.agents name) cmds)
    (running : (∀ code, s.main ≠ .ended code) → (s.agents name).stopping = false)
    (change : AgentChange sim s name a new) :
    Told sim.config.simulation.epoch a (cmds ++ new) := by
  cases change with
  | spawned fresh =>
      obtain ⟨rfl, alive, open'⟩ := told.fresh fresh
      have sent : (s.agents name).sendCommand (.time sim.config.simulation.epoch) =
          [.time sim.config.simulation.epoch] := by
        simp [NodeAgent.sendCommand, alive, open']
      rw [sent]
      refine ⟨by simp, fun _ _ => ⟨[], by simp, rfl⟩, fun stopping => ?_⟩
      rw [alive] at stopping
      cases stopping
  | marked a started stopping exited =>
      rw [List.append_nil]
      refine ⟨fun fresh => ?_, fun begun alive => told.running (started ▸ begun) (stopping ▸ alive),
        fun quit => told.stopping (stopping ▸ quit)⟩
      obtain ⟨none, alive, open'⟩ := told.fresh (started ▸ fresh)
      refine ⟨none, stopping.trans alive, Bool.eq_false_iff.mpr fun gone => ?_⟩
      rcases exited gone with before | before
      · simp [open'] at before
      · simp [← started, fresh] at before
  | told a cmd plain started same stopping exited =>
      refine ⟨fun fresh => ?_, fun _ alive => ?_, fun quit => ?_⟩
      · simp [same] at fresh
      · obtain ⟨body, plain', rfl⟩ := told.running started (stopping ▸ alive)
        unfold NodeAgent.sendCommand
        split_ifs
        · exact ⟨body, plain', by simp⟩
        · refine ⟨body ++ [cmd], fun c mem => ?_, rfl⟩
          rcases List.mem_append.mp mem with old | new
          · exact plain' c old
          · exact List.mem_singleton.mp new ▸ plain
      · obtain ⟨body, plain', rfl⟩ := told.stopping (stopping ▸ quit)
        have lost : (s.agents name).sendCommand cmd = [] :=
          if_pos (.inl ⟨stopping ▸ quit, plain.1⟩)
        exact ⟨body, plain', by rw [lost, List.append_nil]⟩
  | quit alive =>
      have stopping := running alive
      unfold NodeAgent.quit
      split_ifs with gone
      · rw [List.append_nil]
        exact told
      · simp only [Bool.or_eq_true, Bool.not_eq_true', not_or, Bool.not_eq_false,
          Bool.not_eq_true] at gone
        obtain ⟨body, plain, rfl⟩ := told.running gone.1 stopping
        have sent : { s.agents name with stopping := true }.sendCommand .quit = [.quit] := by
          simp [NodeAgent.sendCommand, gone.2]
        refine ⟨fun fresh => ?_, fun _ alive => ?_, fun _ => ⟨body, plain, ?_⟩⟩
        · exact absurd (gone.1.symm.trans fresh) (by simp)
        · exact absurd alive (by simp)
        · rw [sent]
          rfl

/-- In every run, whatever nodes report, whenever they exit and whatever the router delivers to
them: a node is told the clock first, and nothing after `quit`. At the end every node that runs has
been told to quit. -/
theorem commands_framed (sim : Simulation) (time : ℚ) (s : SimState) (tr : List SimObs)
    (run : Run sim.step anyStep (.init time) s tr) (name : NodeName) :
    Framed sim.config.simulation.epoch (commandsTo name tr) ∧
      ∀ code, s.main = .ended code → name ∈ sim.names → (s.agents name).exited = false →
        (commandsTo name tr).getLast? = some .quit := by
  have told : Told sim.config.simulation.epoch (s.agents name) (commandsTo name tr) := by
    refine run.invariant (I := fun s tr => Told sim.config.simulation.epoch (s.agents name)
      (commandsTo name tr)) ?_ ?_
    · refine ⟨fun _ => ⟨rfl, rfl, rfl⟩, fun started => ?_, fun stopping => ?_⟩
      · cases started
      · cases stopping
    · intro s tr e s' out before told _ stepped
      rw [commandsTo_append]
      have sound := run_sound before
      exact told.step (fun alive => sound.running alive name)
        ((step_slice stepped).agentChange sound name)
  refine ⟨told.framed, fun code main listed alive => ?_⟩
  rcases (run_sound run).finished code main name listed with stopping | gone
  · obtain ⟨body, -, all⟩ := told.stopping stopping
    rw [all, ← List.cons_append, List.getLast?_concat]
  · rw [alive] at gone
    cases gone

/-- Two endpoints, a warmup of one second and a traffic window of ten. -/
def pairCell : Simulation where
  config :=
    { nodes := ["alice", "bob"].map .named
      edges := []
      simulation := ⟨1, 10, 1, 600, 0, "", none, none⟩
      radio := none }
  warmupOverridden := true

def pairReport (kind key : String) : JsonValue :=
  .object [(points "type", .string (points kind)), (points "pub", .string (points key))]

def pairDraws : Draws := ⟨.zero, 0, ["alice", "bob"]⟩

def pairSend (wait : ℚ) : SimEvent := .traffic ⟨0, 1, 0, 0, wait⟩

/-- Up to the start of the background tasks, and an advert of `bob` that `alice` hears. -/
def pairStarts : List SimEvent :=
  [.spawn "alice", .spawn "bob", .report "alice" (pairReport "ready" "a1a1a1a1"),
    .report "bob" (pairReport "ready" "b0b0b0b0"), .main pairDraws, .tick 100, .advert 0, .advert 0,
    .main pairDraws, .tick 200, .main pairDraws, .tick 300, .advert 0, .advert 0, .main pairDraws,
    .report "alice" (pairReport "advert" "b0b0b0b0")]

/-- A text of `alice`, and the end. -/
def pairTalks : List SimEvent :=
  [.tick 301, pairSend 0, pairSend 0, pairSend 20, .tick 400, .main pairDraws, .main pairDraws]

/-- Two nodes talk, and are told to quit. -/
theorem commands_framed_pairCell : ∃ s tr, Run pairCell.step anyStep (.init 0) s tr ∧
    s.main = .ended 0 ∧ Framed 0 (commandsTo "alice" tr) ∧
    (commandsTo "alice" tr).getLast? = some .quit := by
  have found : (exec (restrict pairCell.step anyStep) (SimState.init 0)
      (pairStarts ++ pairTalks)).any (fun r =>
        r.1.main = .ended 0 && !(r.1.agents "alice").exited) = true := by
    decide +kernel
  obtain ⟨s, tr, run, found⟩ := Run.of_exec_any found
  obtain ⟨finished, alive⟩ := (Bool.and_eq_true _ _).mp found
  have main : s.main = .ended 0 := of_decide_eq_true finished
  obtain ⟨framed, last⟩ := commands_framed pairCell 0 s tr run "alice"
  exact ⟨s, tr, run, main, framed, last 0 main (by decide) (by simpa using alive)⟩

end Simulation

end MeshcoreSim
