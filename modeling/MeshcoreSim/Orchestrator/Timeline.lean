import MeshcoreSim.Orchestrator.Texts

/-!
When a simulation sends its texts.

* `Aloof` — views of a trace that only see what the tasks of the orchestrator do.
* `texts_in_window` — texts go out in the traffic window, and the simulation outlives each of them
  by the grace period.
-/

namespace MeshcoreSim

open Lib

namespace Simulation

variable {sim : Simulation} {s s' : SimState} {e : SimEvent} {tr out : List SimObs}
  {name : NodeName}

/-! ### The traffic window -/

/-- The end of the warmup, while the traffic generator waits for it. -/
def warming? : TrafficTask → Option ℚ
  | .warming wakeAt => some wakeAt
  | _ => none

/-- The end of the warmup is noticed at most `late` seconds after it. -/
def WarmsUp (late : ℚ) (s : SimState) : SimEvent → Prop
  | .tick t => ∀ wakeAt ∈ warming? s.traffic, t ≤ wakeAt + late
  | _ => True

instance (late : ℚ) (s : SimState) : (e : SimEvent) → Decidable (WarmsUp late s e)
  | .tick _ => Option.decidableForallMem _
  | .spawn _ | .report _ _ | .exit _ | .radio _ _ | .main _ | .timeout | .advert _ | .periodic _
  | .traffic _ => .isTrue trivial

def start? : SimObs → Option ℚ
  | .began now => some now
  | _ => none

/-- When the background tasks started. -/
def starts (tr : List SimObs) : List ℚ := tr.filterMap start?

/-- What the traffic generator, started at `start`, waits for. -/
def InWindow (sim : Simulation) (late start now : ℚ) : TrafficTask → Prop
  | .off | .closed => True
  | .warming wakeAt => wakeAt = start + sim.warmupSecs ∧ now ≤ wakeAt + late
  | .waiting deadline _ | .sending deadline =>
      start + sim.warmupSecs ≤ now ∧
        deadline ≤ start + sim.warmupSecs + late + sim.config.simulation.durationSecs

/-- Where a simulation is. -/
inductive Phase (sim : Simulation) (late : ℚ) (s : SimState) : List ℚ → Prop
  | before (main : (∀ wakeAt, s.main ≠ .timing wakeAt) ∧ s.main ≠ .sampling ∧ s.main ≠ .ended 0) :
      Phase sim late s []
  | during (start : ℚ) (main : s.main = .timing (start + sim.totalTime))
      (traffic : InWindow sim late start s.time s.traffic) : Phase sim late s [start]
  | after (start : ℚ) (main : s.main = .sampling ∨ s.main = .ended 0)
      (later : start + sim.totalTime ≤ s.time) : Phase sim late s [start]

/-- A view of traces that does not look at the nodes. -/
structure Aloof {β : Type} (f : SimObs → Option β) : Prop where
  command : ∀ name cmd, f (.command name cmd) = none
  reported : ∀ name event, f (.reported name event) = none
  delivered : ∀ name, f (.delivered name) = none
  attempted : ∀ record, f (.attempted record) = none

section

variable {β : Type} {f : SimObs → Option β}

theorem Aloof.told (aloof : Aloof f) (cmds : List NodeCommand) :
    (cmds.map (SimObs.command name)).filterMap f = [] := by
  rw [List.filterMap_map, List.filterMap_eq_nil_iff]
  exact fun cmd _ => aloof.command name cmd

theorem Aloof.agent {a : NodeAgent} (aloof : Aloof f) (slice : AgentSlice sim s e name a out) :
    out.filterMap f = [] := by
  cases slice with
  | spawned => exact aloof.told _
  | reported event => simp [aloof.reported]
  | exited => rfl
  | radio cmd delivered count =>
      rw [List.filterMap_append, aloof.told]
      rcases count with rfl | rfl <;> simp [aloof.delivered]

theorem Aloof.quitAll (aloof : Aloof f) : (sim.quitAll s).2.filterMap f = [] := by
  rw [Simulation.quitAll, List.filterMap_flatMap, List.flatMap_eq_nil_iff]
  exact fun name _ => aloof.told _

theorem Aloof.quits (aloof : Aloof f) (code : ℕ) :
    ((sim.quitAll s).2 ++ [SimObs.ended s.time code]).filterMap f =
      (f (.ended s.time code)).toList := by
  rw [List.filterMap_append, aloof.quitAll, List.nil_append, List.filterMap_cons]
  cases f (.ended s.time code) <;> rfl

theorem Aloof.sent (aloof : Aloof f) (send : Send) :
    (sim.sendRandom s send).2.filterMap f = [] := by
  simp only [sendRandom, sentObs]
  split_ifs
  · exact aloof.told _
  · split
    · rfl
    · rw [List.filterMap_cons_none (aloof.attempted _)]
      exact aloof.told _

theorem Aloof.advertise (aloof : Aloof f) :
    (advertise s name).filterMap f = (f (.advertised s.time name)).toList := by
  rw [Simulation.advertise, List.filterMap_cons, aloof.told]
  cases f (.advertised s.time name) <;> rfl

end

theorem aloof_start : Aloof start? :=
  ⟨fun _ _ => rfl, fun _ _ => rfl, fun _ => rfl, fun _ => rfl⟩

variable {late : ℚ} {ts : List ℚ}

theorem Phase.same (phase : Phase sim late s ts) (main : s'.main = s.main)
    (traffic : s'.traffic = s.traffic) (time : s'.time = s.time) : Phase sim late s' ts := by
  cases phase with
  | before here => exact .before (main ▸ here)
  | during start here window => exact .during start (main ▸ here) (traffic ▸ time ▸ window)
  | after start here later => exact .after start (main ▸ here) (time ▸ later)

theorem Phase.of_timing (phase : Phase sim late s ts) {wakeAt : ℚ}
    (main : s.main = .timing wakeAt) :
    ∃ start, ts = [start] ∧ wakeAt = start + sim.totalTime ∧
      InWindow sim late start s.time s.traffic := by
  cases phase with
  | before here => exact absurd main (here.1 wakeAt)
  | during start here window =>
      exact ⟨start, rfl, MainTask.timing.inj (main.symm.trans here), window⟩
  | after start here =>
      rcases here with here | here
      · cases main.symm.trans here
      · cases main.symm.trans here

theorem Phase.of_early (phase : Phase sim late s ts) (timing : ∀ wakeAt, s.main ≠ .timing wakeAt)
    (sampling : s.main ≠ .sampling) (ended : s.main ≠ .ended 0) : ts = [] := by
  cases phase with
  | before => rfl
  | during start main => exact absurd main (timing _)
  | after start main => exact (main.elim sampling ended).elim

theorem inWindow_loop {start now deadline wait : ℚ} (warm : start + sim.warmupSecs ≤ now)
    (early : deadline ≤ start + sim.warmupSecs + late + sim.config.simulation.durationSecs) :
    InWindow sim late start now (trafficLoop now deadline wait) := by
  unfold trafficLoop
  split_ifs
  · exact ⟨warm, early⟩
  · trivial

theorem InWindow.later {start now t : ℚ} {task : TrafficTask}
    (window : InWindow sim late start now task) (later : now ≤ t)
    (prompt : ∀ wakeAt, task = .warming wakeAt → t ≤ wakeAt + late) :
    InWindow sim late start t task := by
  cases task with
  | off => trivial
  | closed => trivial
  | warming wakeAt => exact ⟨window.1, prompt wakeAt rfl⟩
  | waiting deadline wakeAt => exact ⟨window.1.trans later, window.2⟩
  | sending deadline => exact ⟨window.1.trans later, window.2⟩

theorem starts_append (tr out : List SimObs) : starts (tr ++ out) = starts tr ++ starts out :=
  List.filterMap_append

theorem Phase.step (notEarly : 0 ≤ late) (positive : 0 ≤ sim.warmupSecs) (sound : sim.Sound s)
    (phase : Phase sim late s (starts tr)) (prompt : WarmsUp late s e)
    (slice : Slice sim s e s' out) : Phase sim late s' (starts (tr ++ out)) := by
  rw [starts_append]
  generalize starts tr = ts at phase
  cases slice with
  | tick t later here =>
      subst here
      rw [show starts [] = [] from rfl, List.append_nil]
      cases phase with
      | before main => exact .before main
      | during start main window =>
          refine .during start main (window.later later fun wakeAt traffic => ?_)
          exact prompt wakeAt (by rw [traffic]; rfl)
      | after start main finished => exact .after start main (finished.trans later)
  | agent name a messages out slice =>
      rw [show starts out = [] from aloof_start.agent slice, List.append_nil]
      exact phase.same rfl rfl rfl
  | announced name second pending k main due =>
      obtain rfl := phase.of_early (by simp [main]) (by simp [main]) (by simp [main])
      rw [show starts _ = [] from aloof_start.advertise, List.append_nil]
      exact .before ⟨nofun, nofun, nofun⟩
  | repeated =>
      rw [show starts _ = [] from aloof_start.advertise, List.append_nil]
      exact phase.same rfl rfl rfl
  | again =>
      rw [show starts _ = [] from rfl, List.append_nil]
      exact phase.same rfl rfl rfl
  | rests =>
      rw [show starts _ = [] from rfl, List.append_nil]
      exact phase.same rfl rfl rfl
  | loops task wait later running =>
      rw [show starts [] = [] from rfl, List.append_nil]
      rcases running with ⟨wakeAt, traffic, due, task⟩ | ⟨deadline, traffic, rfl⟩
      · obtain ⟨stop, main⟩ := sound.background (.inr (by simp [traffic]))
        obtain ⟨start, rfl, rfl, window⟩ := phase.of_timing main
        rw [traffic] at window
        obtain ⟨rfl, soon⟩ := window
        refine .during start main ?_
        rcases task with rfl | ⟨-, rfl⟩
        · trivial
        · exact inWindow_loop due (by linarith)
      · obtain ⟨stop, main⟩ := sound.background (.inr (by simp [traffic]))
        obtain ⟨start, rfl, rfl, window⟩ := phase.of_timing main
        rw [traffic] at window
        exact .during start main (inWindow_loop window.1 window.2)
  | closes deadline wakeAt traffic =>
      rw [show starts [] = [] from rfl, List.append_nil]
      obtain ⟨stop, main⟩ := sound.background (.inr (by simp [traffic]))
      obtain ⟨start, rfl, rfl, window⟩ := phase.of_timing main
      exact .during start main trivial
  | sends send deadline wakeAt traffic due early =>
      rw [show starts _ = [] from aloof_start.sent send, List.append_nil]
      obtain ⟨stop, main⟩ := sound.background (.inr (by simp [traffic]))
      obtain ⟨start, rfl, rfl, window⟩ := phase.of_timing main
      rw [traffic] at window
      exact .during start main window
  | starts draws main =>
      obtain rfl := phase.of_early (by simp [main]) (by simp [main]) (by simp [main])
      exact .before ⟨nofun, nofun, nofun⟩
  | waits main =>
      obtain rfl := phase.of_early (by simp [main]) (by simp [main]) (by simp [main])
      exact .before ⟨nofun, nofun, nofun⟩
  | refloods wakeAt draws main =>
      obtain rfl := phase.of_early (by simp [main]) (by simp [main]) (by simp [main])
      exact .before ⟨nofun, nofun, nofun⟩
  | begins draws main =>
      obtain rfl := phase.of_early (by simp [main]) (by simp [main]) (by simp [main])
      refine .during s.time rfl ⟨rfl, ?_⟩
      change s.time ≤ s.time + sim.warmupSecs + late
      linarith
  | stops wakeAt main due =>
      rw [show starts [] = [] from rfl, List.append_nil]
      obtain ⟨start, rfl, rfl, -⟩ := phase.of_timing main
      exact .after start (.inl rfl) due
  | quits code contacts last =>
      rw [show starts _ = [] from aloof_start.quits code, List.append_nil]
      rcases last with ⟨main, rfl, -⟩ | ⟨main, rfl, -⟩
      · cases phase with
        | before here => exact absurd main here.2.1
        | during start here => cases main.symm.trans here
        | after start here later => exact .after start (.inr rfl) later
      · obtain rfl := phase.of_early (by simp [main]) (by simp [main]) (by simp [main])
        exact .before ⟨nofun, nofun, nofun⟩

theorem run_phase {time : ℚ} {ok : SimState → SimEvent → Prop} (notEarly : 0 ≤ late)
    (positive : 0 ≤ sim.warmupSecs) (prompt : ∀ s e, ok s e → WarmsUp late s e)
    (run : Run sim.step ok (.init time) s tr) : Phase sim late s (starts tr) := by
  apply run.invariant (I := fun s tr => Phase sim late s (starts tr))
  · exact .before ⟨nofun, nofun, nofun⟩
  · intro s tr e s' out before phase admitted stepped
    exact phase.step notEarly positive (run_sound before) (prompt s e admitted)
      (step_slice stepped)

def ending? : SimObs → Option (ℚ × ℕ)
  | .ended now code => some (now, code)
  | _ => none

theorem aloof_ending : Aloof ending? :=
  ⟨fun _ _ => rfl, fun _ _ => rfl, fun _ => rfl, fun _ => rfl⟩

theorem ending?_eq_some {o : SimObs} {now : ℚ} {code : ℕ} :
    ending? o = some (now, code) ↔ o = .ended now code := by
  constructor
  · intro seen
    unfold ending? at seen
    split at seen
    · cases seen
      rfl
    · cases seen
  · rintro rfl
    rfl

theorem mem_endings {now : ℚ} {code : ℕ} :
    (now, code) ∈ tr.filterMap ending? ↔ .ended now code ∈ tr := by
  simp only [List.mem_filterMap, ending?_eq_some, exists_eq_right]

/-- A regular end. -/
theorem Slice.ended (slice : Slice sim s e s' out) {now : ℚ} (mem : .ended now 0 ∈ out) :
    s.main = .sampling ∧ now = s.time ∧ s'.main = .ended 0 ∧
      s'.contacts = sim.recordContacts s ∧ out = (sim.quitAll s).2 ++ [.ended s.time 0] := by
  have seen := mem_endings.mpr mem
  cases slice with
  | quits code contacts last =>
      rw [aloof_ending.quits] at seen
      obtain ⟨rfl, rfl⟩ : now = s.time ∧ 0 = code := by simpa [ending?] using seen
      rcases last with ⟨main, -, rfl⟩ | ⟨-, ⟨⟩, -⟩
      exact ⟨main, rfl, rfl, rfl, rfl⟩
  | agent name a messages out slice =>
      rw [aloof_ending.agent slice] at seen
      cases seen
  | announced =>
      rw [aloof_ending.advertise] at seen
      cases seen
  | repeated =>
      rw [aloof_ending.advertise] at seen
      cases seen
  | sends send =>
      rw [aloof_ending.sent send] at seen
      cases seen
  | _ => simp at mem

/-- A regular end: the timer has run for its whole time. -/
theorem ended_after {time now : ℚ} {ok : SimState → SimEvent → Prop} (notEarly : 0 ≤ late)
    (positive : 0 ≤ sim.warmupSecs) (prompt : ∀ s e, ok s e → WarmsUp late s e)
    (run : Run sim.step ok (.init time) s tr) (ended : .ended now 0 ∈ tr) :
    ∃ start, (starts tr).head? = some start ∧ start + sim.totalTime ≤ now := by
  obtain ⟨before, after, rfl⟩ := List.append_of_mem ended
  obtain ⟨s₁, tr₁, e, s₂, out₁, out₂, tr₂, first, admitted, stepped, -, rfl, rfl⟩ := run.split
  have phase := run_phase notEarly positive prompt first
  obtain ⟨main, rfl, -⟩ :=
    (step_slice stepped).ended (List.mem_append_right out₁ List.mem_cons_self)
  generalize known : starts tr₁ = ts at phase
  cases phase with
  | before other => exact absurd main other.2.1
  | during start timing => cases main.symm.trans timing
  | after start _ later =>
      refine ⟨start, ?_, later⟩
      rw [List.append_assoc, starts_append, known]
      rfl

/-- In every run in which the end of the warmup is noticed at most `late` seconds after it: a text
is sent after the warmup and before the end of the traffic window, and the nodes are shut down no
earlier than the grace period after it, up to `late`. -/
theorem texts_in_window (sim : Simulation) (late time : ℚ) (notEarly : 0 ≤ late)
    (positive : 0 ≤ sim.warmupSecs) (s : SimState) (tr : List SimObs)
    (run : Run sim.step (WarmsUp late) (.init time) s tr) (before after : List SimObs)
    (record : SendRecord) (split : tr = before ++ .attempted record :: after) :
    ∃ start, .began start ∈ before ∧ start + sim.warmupSecs ≤ record.sentAt ∧
      record.sentAt < start + sim.warmupSecs + sim.config.simulation.durationSecs + late ∧
      ∀ now, .ended now 0 ∈ tr → record.sentAt + sim.graceSecs < now + late := by
  subst split
  have whole := run
  obtain ⟨s₁, tr₁, e, s₂, out₁, out₂, tr₂, first, admitted, stepped, -, rfl, rfl⟩ := run.split
  have phase := run_phase notEarly positive (fun _ _ => id) first
  have here : SimObs.attempted record ∈ out₁ ++ .attempted record :: out₂ := by simp
  obtain ⟨send, deadline, wakeAt, traffic, early, sent⟩ := (step_slice stepped).sent here trivial
  obtain ⟨stop, main⟩ := (run_sound first).background (.inr (by simp [traffic]))
  obtain ⟨start, began, -, window⟩ := phase.of_timing main
  rw [traffic] at window
  obtain ⟨warm, close⟩ := window
  have sentAt : record.sentAt = s₁.time := by
    rw [sent] at here
    obtain ⟨destPub, -, all⟩ := sentObs_text here trivial
    rw [sendRandom, all] at here
    rcases List.mem_cons.mp here with same | told
    · exact congrArg SendRecord.sentAt (SimObs.attempted.inj same)
    · cases mem_told told
  refine ⟨start, ?_, by linarith, by linarith, fun now ended => ?_⟩
  · have known : start ∈ starts tr₁ := began ▸ List.mem_singleton_self start
    obtain ⟨o, mem, seen⟩ := List.mem_filterMap.mp known
    unfold start? at seen
    split at seen
    · obtain rfl := Option.some.inj seen
      exact List.mem_append_left _ mem
    · cases seen
  · obtain ⟨start', head, finished⟩ := ended_after notEarly positive (fun _ _ => id) whole ended
    rw [List.append_assoc, starts_append, began] at head
    obtain rfl := Option.some.inj head
    have total : sim.totalTime =
        sim.warmupSecs + sim.config.simulation.durationSecs + sim.graceSecs := rfl
    linarith

/-- A text within the ten seconds behind the warmup, and the end after the grace period. -/
theorem texts_in_window_pairCell : ∃ s tr record now, Run pairCell.step (WarmsUp 1) (.init 0) s tr ∧
    .attempted record ∈ tr ∧ .ended now 0 ∈ tr ∧ record.sentAt + pairCell.graceSecs < now + 1 := by
  have found : (exec (restrict pairCell.step (WarmsUp 1)) (SimState.init 0)
      (pairStarts ++ pairTalks)).any (fun r =>
        0 < (attempts r.2).length && (400, 0) ∈ r.2.filterMap ending?) = true := by
    decide +kernel
  obtain ⟨s, tr, run, found⟩ := Run.of_exec_any found
  obtain ⟨sent, finished⟩ := (Bool.and_eq_true _ _).mp found
  obtain ⟨record, mem⟩ := List.exists_mem_of_length_pos (of_decide_eq_true sent)
  have attempted := mem_attempts.mp mem
  have ended := mem_endings.mp (of_decide_eq_true finished)
  obtain ⟨before, after, split⟩ := List.append_of_mem attempted
  have positive : 0 ≤ pairCell.warmupSecs := by decide +kernel
  obtain ⟨start, -, -, -, alive⟩ :=
    texts_in_window pairCell 1 0 one_pos.le positive s tr run before after record split
  exact ⟨s, tr, record, 400, run, attempted, ended, alive 400 ended⟩

end Simulation

end MeshcoreSim
