import MeshcoreSim.Orchestrator.Timeline

/-!
The rounds of adverts of a simulation.

* `run_told` — each advert of a node that runs is a command to it.
* `adverts_in_rounds` — each node advertises once a round, twice before the traffic starts, and
  two of its adverts are a minimal time apart.
-/

namespace MeshcoreSim

open Lib

namespace Simulation

variable {sim : Simulation} {s s' : SimState} {e : SimEvent} {tr out : List SimObs}
  {name n : NodeName}

def advert? (name : NodeName) : SimObs → Option ℚ
  | .advertised now receiver => if receiver = name then some now else none
  | _ => none

def round? : SimObs → Option ℚ
  | .round now _ => some now
  | _ => none

/-- When a node was told to advertise. -/
def adverts (name : NodeName) (tr : List SimObs) : List ℚ := tr.filterMap (advert? name)

/-- When the rounds started. -/
def rounds (tr : List SimObs) : List ℚ := tr.filterMap round?

/-- The time that lies between two adverts of a node. -/
def advertGap (sim : Simulation) : ℚ :=
  min sim.refloodWait (4 / 5 * sim.config.simulation.advertIntervalSecs)

theorem aloof_advert (name : NodeName) : Aloof (advert? name) :=
  ⟨fun _ _ => rfl, fun _ _ => rfl, fun _ => rfl, fun _ => rfl⟩

theorem aloof_round : Aloof round? :=
  ⟨fun _ _ => rfl, fun _ _ => rfl, fun _ => rfl, fun _ => rfl⟩

/-! ### One round -/

/-- How often a node is among the pending adverts of a round. -/
def waiting (name : NodeName) (pending : List (NodeName × ℚ)) : ℕ :=
  (pending.map Prod.fst).count name

/-- The adverts `ts` of a node in the middle of a round. -/
structure InRound (sim : Simulation) (name : NodeName) (ts rs : List ℚ)
    (pending : List (NodeName × ℚ)) : Prop where
  once : waiting name pending ≤ 1
  count : ts.length + waiting name pending = rs.length
  apart : ∀ wakeAt, (name, wakeAt) ∈ pending → ∀ t ∈ ts, t + sim.advertGap ≤ wakeAt

/-- The adverts of a node between two rounds, the next of which starts at `wakeAt` or later. -/
structure BetweenRounds (sim : Simulation) (ts rs : List ℚ) (wakeAt : ℚ) : Prop where
  count : ts.length = rs.length
  apart : ∀ t ∈ ts, t + sim.advertGap ≤ wakeAt

variable {ts rs : List ℚ} {pending : List (NodeName × ℚ)} {now wakeAt : ℚ} {draws : Draws}

theorem slot_nonneg : 0 ≤ sim.gen.slot := by
  unfold gen TrafficGenerator.slot TrafficGenerator.init advertStaggerSecs
  have airtime := @loraAirtimeMs_nonneg sim.config.radioOrDefault.sf sim.config.radioOrDefault.bwHz
    sim.config.radioOrDefault.cr typicalAdvertBytes sim.config.radioOrDefault.preambleSymbols
    true true
  positivity

/-- Nobody advertises before the round starts. -/
theorem le_of_mem_schedule (mem : (n, wakeAt) ∈ sim.schedule now draws) : now ≤ wakeAt := by
  rw [schedule, TrafficGenerator.runInitialAdverts, List.mem_mapIdx] at mem
  obtain ⟨i, lt, same⟩ := mem
  obtain ⟨-, rfl⟩ := Prod.mk.inj same
  have slot := @slot_nonneg sim
  have drawn := draws.rng.nonneg (draws.pos + i)
  unfold RandomStream.uniform
  have jitter : 0 ≤ sim.gen.slot * (3 / 10) := by positivity
  have delay : 0 ≤ (i : ℚ) * sim.gen.slot := by positivity
  nlinarith [mul_nonneg jitter drawn]

/-- Each node of the simulation is in a round once. -/
theorem waiting_schedule (listed : name ∈ sim.names) (shuffles : sim.Shuffles draws) :
    waiting name (sim.schedule now draws) = 1 := by
  have names : (sim.schedule now draws).map Prod.fst = draws.shuffled := by
    refine List.ext_getElem (by simp [schedule, TrafficGenerator.runInitialAdverts]) ?_
    intro i _ _
    simp [schedule, TrafficGenerator.runInitialAdverts]
  rw [waiting, names, shuffles.count_eq]
  exact List.count_eq_one_of_mem sim.config.agents.nodup listed

/-- A round starts. -/
theorem BetweenRounds.start (done : BetweenRounds sim ts rs wakeAt) (due : wakeAt ≤ now)
    (listed : name ∈ sim.names) (shuffles : sim.Shuffles draws) :
    InRound sim name ts (rs ++ [now]) (sim.schedule now draws) where
  once := (waiting_schedule listed shuffles).le
  count := by
    rw [waiting_schedule listed shuffles, List.length_append, done.count]
    rfl
  apart w mem t old := (done.apart t old).trans (due.trans (le_of_mem_schedule mem))

/-- All of a round is over. -/
theorem InRound.finish (round : InRound sim name ts rs []) (past : ∀ t ∈ ts, t ≤ now)
    (rests : now + sim.advertGap ≤ wakeAt) : BetweenRounds sim ts rs wakeAt where
  count := round.count
  apart t mem := by linarith [past t mem]

theorem waiting_eraseIdx {k : ℕ} (here : pending[k]? = some (n, wakeAt)) :
    waiting name pending = waiting name (pending.eraseIdx k) + if n = name then 1 else 0 := by
  obtain ⟨lt, same⟩ := List.getElem?_eq_some_iff.mp here
  have perm := (List.getElem_cons_eraseIdx_perm lt).map Prod.fst
  rw [same, List.map_cons] at perm
  rw [waiting, waiting, ← perm.count_eq, List.count_cons]
  simp only [beq_iff_eq]

/-- An advert of a round. -/
theorem InRound.advert (round : InRound sim name ts rs pending) {k : ℕ}
    (due : due? now pending k = some n) :
    InRound sim name (ts ++ if n = name then [now] else []) rs (pending.eraseIdx k) ∧
      (n = name → ∀ t ∈ ts, t + sim.advertGap ≤ now) := by
  obtain ⟨wakeAt, here, woken⟩ := mem_of_due due
  have fewer : waiting name pending =
      waiting name (pending.eraseIdx k) + if n = name then 1 else 0 := waiting_eraseIdx here
  have once := round.once
  have count := round.count
  by_cases same : n = name
  · subst same
    rw [if_pos rfl] at fewer ⊢
    have none : waiting n (pending.eraseIdx k) = 0 := by omega
    refine ⟨⟨by omega, ?_, fun w mem => ?_⟩, fun _ t mem => ?_⟩
    · rw [List.length_append, List.length_singleton]
      omega
    · have listed : n ∈ (pending.eraseIdx k).map Prod.fst := List.mem_map.mpr ⟨_, mem, rfl⟩
      exact absurd none (List.count_pos_iff.mpr listed).ne'
    · exact (round.apart wakeAt (List.mem_of_getElem? here) t mem).trans woken
  · rw [if_neg same] at fewer ⊢
    rw [List.append_nil]
    exact ⟨⟨by omega, by omega, fun w mem => round.apart w (List.mem_of_mem_eraseIdx mem)⟩,
      fun eq => absurd eq same⟩

/-! ### Whole runs -/

/-- Where a simulation is in its rounds. -/
inductive Agenda (sim : Simulation) (name : NodeName) (s : SimState) (ts rs began : List ℚ) : Prop
  | fresh (main : s.main = .starting ∨ s.main = .ended 1) (noAdvert : ts = []) (noRound : rs = [])
      (early : began = [])
  | announcing (second : Bool) (pending : List (NodeName × ℚ))
      (main : s.main = .advertising second pending)
      (number : rs.length = if second then 2 else 1) (round : InRound sim name ts rs pending)
      (early : began = [])
  | reflooding (wakeAt : ℚ) (main : s.main = .reflooding wakeAt) (number : rs.length = 1)
      (done : BetweenRounds sim ts rs wakeAt) (early : began = [])
  | repeating (stop : ℚ) (pending : List (NodeName × ℚ)) (main : s.main = .timing stop)
      (adverts : s.adverts = .advertising pending) (number : 2 ≤ ts.length)
      (round : InRound sim name ts rs pending)
  | asleep (stop wakeAt : ℚ) (main : s.main = .timing stop) (adverts : s.adverts = .asleep wakeAt)
      (number : 2 ≤ ts.length) (done : BetweenRounds sim ts rs wakeAt)
  | stopped (main : s.main = .sampling ∨ s.main = .ended 0) (number : 2 ≤ ts.length)
      (atMost : ts.length ≤ rs.length) (almost : rs.length ≤ ts.length + 1)

/-- The adverts of a node up to a state. -/
structure Paced (sim : Simulation) (name : NodeName) (s : SimState) (ts rs began : List ℚ) :
    Prop where
  past : ∀ t ∈ ts, t ≤ s.time
  apart : ts.Pairwise fun t t' => t + sim.advertGap ≤ t'
  agenda : Agenda sim name s ts rs began

variable {began : List ℚ}

theorem Paced.same (paced : Paced sim name s ts rs began) (main : s'.main = s.main)
    (adverts : s'.adverts = s.adverts) (time : s.time ≤ s'.time) :
    Paced sim name s' ts rs began := by
  refine ⟨fun t mem => (paced.past t mem).trans time, paced.apart, ?_⟩
  cases paced.agenda with
  | fresh here noAdvert noRound early => exact .fresh (main ▸ here) noAdvert noRound early
  | announcing second pending here number round early =>
      exact .announcing second pending (main.trans here) number round early
  | reflooding wakeAt here number done early =>
      exact .reflooding wakeAt (main.trans here) number done early
  | repeating stop pending here adverts' number round =>
      exact .repeating stop pending (main.trans here) (adverts.trans adverts') number round
  | asleep stop wakeAt here adverts' number done =>
      exact .asleep stop wakeAt (main.trans here) (adverts.trans adverts') number done
  | stopped here number atMost almost => exact .stopped (main ▸ here) number atMost almost

theorem adverts_append (name : NodeName) (tr out : List SimObs) :
    adverts name (tr ++ out) = adverts name tr ++ adverts name out :=
  List.filterMap_append

theorem rounds_append (tr out : List SimObs) : rounds (tr ++ out) = rounds tr ++ rounds out :=
  List.filterMap_append

theorem adverts_advertise :
    adverts name (advertise s n) = if n = name then [s.time] else [] := by
  refine (aloof_advert name).advertise.trans ?_
  by_cases same : n = name
  · simp [advert?, same]
  · simp [advert?, same]

/-- An advert of a round is not too early. -/
theorem Paced.advert (paced : Paced sim name s ts rs began)
    (round : InRound sim name ts rs pending) {k : ℕ} (due : due? s.time pending k = some n) :
    (∀ t ∈ ts ++ if n = name then [s.time] else [], t ≤ s.time) ∧
      (ts ++ if n = name then [s.time] else []).Pairwise fun t t' => t + sim.advertGap ≤ t' := by
  have waited := (round.advert due).2
  split_ifs with same
  · refine ⟨fun t mem => ?_, List.pairwise_append.mpr
      ⟨paced.apart, List.pairwise_singleton _ _, fun t old t' new => ?_⟩⟩
    · rcases List.mem_append.mp mem with old | new
      · exact paced.past t old
      · exact (List.mem_singleton.mp new).le
    · rw [List.mem_singleton.mp new]
      exact waited same t old
  · rw [List.append_nil]
    exact ⟨paced.past, paced.apart⟩

theorem advertGap_le_refloodWait : sim.advertGap ≤ sim.refloodWait := min_le_left _ _

/-- The next periodic round is at least four fifths of the interval away. -/
theorem add_advertGap_le_nextRound (positive : 0 ≤ sim.config.simulation.advertIntervalSecs) :
    now + sim.advertGap ≤ sim.nextRound now draws := by
  have drawn := mul_nonneg positive (draws.rng.nonneg draws.pos)
  have gap : sim.advertGap ≤ 4 / 5 * sim.config.simulation.advertIntervalSecs := min_le_right _ _
  unfold nextRound RandomStream.uniform
  linarith

theorem Agenda.of_advertising {second : Bool} (agenda : Agenda sim name s ts rs began)
    (main : s.main = .advertising second pending) :
    rs.length = (if second then 2 else 1) ∧ InRound sim name ts rs pending ∧ began = [] := by
  cases agenda with
  | announcing second' pending' here number round early =>
      obtain ⟨rfl, rfl⟩ := MainTask.advertising.inj (main.symm.trans here)
      exact ⟨number, round, early⟩
  | fresh here => rcases here with here | here <;> cases main.symm.trans here
  | reflooding _ here => cases main.symm.trans here
  | repeating _ _ here => cases main.symm.trans here
  | asleep _ _ here => cases main.symm.trans here
  | stopped here => rcases here with here | here <;> cases main.symm.trans here

theorem Agenda.of_timing {stop : ℚ} (agenda : Agenda sim name s ts rs began)
    (main : s.main = .timing stop) :
    2 ≤ ts.length ∧
      ((∃ pending, s.adverts = .advertising pending ∧ InRound sim name ts rs pending) ∨
        ∃ wakeAt, s.adverts = .asleep wakeAt ∧ BetweenRounds sim ts rs wakeAt) := by
  cases agenda with
  | repeating _ pending _ adverts number round => exact ⟨number, .inl ⟨pending, adverts, round⟩⟩
  | asleep _ wakeAt _ adverts number done => exact ⟨number, .inr ⟨wakeAt, adverts, done⟩⟩
  | fresh here => rcases here with here | here <;> cases main.symm.trans here
  | announcing _ _ here => cases main.symm.trans here
  | reflooding _ here => cases main.symm.trans here
  | stopped here => rcases here with here | here <;> cases main.symm.trans here

theorem Agenda.of_starting (agenda : Agenda sim name s ts rs began) (main : s.main = .starting) :
    ts = [] ∧ rs = [] ∧ began = [] := by
  cases agenda with
  | fresh _ noAdvert noRound early => exact ⟨noAdvert, noRound, early⟩
  | announcing _ _ here => cases main.symm.trans here
  | reflooding _ here => cases main.symm.trans here
  | repeating _ _ here => cases main.symm.trans here
  | asleep _ _ here => cases main.symm.trans here
  | stopped here => rcases here with here | here <;> cases main.symm.trans here

theorem Agenda.of_reflooding (agenda : Agenda sim name s ts rs began)
    (main : s.main = .reflooding wakeAt) :
    rs.length = 1 ∧ BetweenRounds sim ts rs wakeAt ∧ began = [] := by
  cases agenda with
  | reflooding wakeAt' here number done early =>
      obtain rfl := MainTask.reflooding.inj (main.symm.trans here)
      exact ⟨number, done, early⟩
  | fresh here => rcases here with here | here <;> cases main.symm.trans here
  | announcing _ _ here => cases main.symm.trans here
  | repeating _ _ here => cases main.symm.trans here
  | asleep _ _ here => cases main.symm.trans here
  | stopped here => rcases here with here | here <;> cases main.symm.trans here

theorem Agenda.of_sampling (agenda : Agenda sim name s ts rs began) (main : s.main = .sampling) :
    2 ≤ ts.length ∧ ts.length ≤ rs.length ∧ rs.length ≤ ts.length + 1 := by
  cases agenda with
  | stopped _ number atMost almost => exact ⟨number, atMost, almost⟩
  | fresh here => rcases here with here | here <;> cases main.symm.trans here
  | announcing _ _ here => cases main.symm.trans here
  | reflooding _ here => cases main.symm.trans here
  | repeating _ _ here => cases main.symm.trans here
  | asleep _ _ here => cases main.symm.trans here

theorem Agenda.counts (agenda : Agenda sim name s ts rs began) :
    ts.length ≤ rs.length ∧ rs.length ≤ ts.length + 1 ∧ (began ≠ [] → 2 ≤ ts.length) := by
  cases agenda with
  | fresh _ noAdvert noRound early => simp [noAdvert, noRound, early]
  | announcing _ _ _ _ round early =>
      have count := round.count
      have once := round.once
      exact ⟨by omega, by omega, fun late => absurd early late⟩
  | reflooding _ _ _ done early =>
      have count := done.count
      exact ⟨by omega, by omega, fun late => absurd early late⟩
  | repeating _ _ _ _ number round =>
      have count := round.count
      have once := round.once
      exact ⟨by omega, by omega, fun _ => number⟩
  | asleep _ _ _ _ number done =>
      have count := done.count
      exact ⟨by omega, by omega, fun _ => number⟩
  | stopped _ number atMost almost => exact ⟨atMost, almost, fun _ => number⟩

theorem Paced.step (positive : 0 ≤ sim.config.simulation.advertIntervalSecs)
    (listed : name ∈ sim.names) (sound : sim.Sound s)
    (paced : Paced sim name s (adverts name tr) (rounds tr) (starts tr))
    (slice : Slice sim s e s' out) :
    Paced sim name s' (adverts name (tr ++ out)) (rounds (tr ++ out)) (starts (tr ++ out)) := by
  rw [adverts_append, rounds_append, starts_append]
  generalize adverts name tr = ts at paced
  generalize rounds tr = rs at paced
  generalize starts tr = began at paced
  have silent (noAdvert : adverts name out = []) (noRound : rounds out = [])
      (noStart : starts out = []) (main : s'.main = s.main) (same : s'.adverts = s.adverts) :
      Paced sim name s' (ts ++ adverts name out) (rs ++ rounds out) (began ++ starts out) := by
    rw [noAdvert, noRound, noStart]
    simp only [List.append_nil]
    exact paced.same main same slice.time_le
  cases slice with
  | tick => exact silent rfl rfl rfl rfl rfl
  | agent name' a messages out slice =>
      exact silent ((aloof_advert name).agent slice) (aloof_round.agent slice)
        (aloof_start.agent slice) rfl rfl
  | loops => exact silent rfl rfl rfl rfl rfl
  | closes => exact silent rfl rfl rfl rfl rfl
  | sends send =>
      exact silent ((aloof_advert name).sent send) (aloof_round.sent send)
        (aloof_start.sent send) rfl rfl
  | announced n second pending k main due =>
      obtain ⟨number, round, early⟩ := paced.agenda.of_advertising main
      obtain ⟨past, apart⟩ := paced.advert round due
      rw [adverts_advertise, show rounds _ = [] from aloof_round.advertise,
        show starts _ = [] from aloof_start.advertise, List.append_nil, List.append_nil]
      exact ⟨past, apart, .announcing second _ rfl number (round.advert due).1 early⟩
  | repeated n pending k here due =>
      obtain ⟨stop, main⟩ := sound.background (.inl (by simp [here]))
      obtain ⟨number, ⟨pending', here', round⟩ | ⟨wakeAt, here', -⟩⟩ := paced.agenda.of_timing main
      · obtain rfl := AdvertTask.advertising.inj (here.symm.trans here')
        obtain ⟨past, apart⟩ := paced.advert round due
        rw [adverts_advertise, show rounds _ = [] from aloof_round.advertise,
          show starts _ = [] from aloof_start.advertise, List.append_nil, List.append_nil]
        refine ⟨past, apart, .repeating stop _ main rfl ?_ (round.advert due).1⟩
        rw [List.length_append]
        omega
      · cases here.symm.trans here'
  | again wakeAt draws here due shuffles =>
      obtain ⟨stop, main⟩ := sound.background (.inl (by simp [here]))
      obtain ⟨number, ⟨pending, here', -⟩ | ⟨wakeAt', here', done⟩⟩ := paced.agenda.of_timing main
      · cases here.symm.trans here'
      · obtain rfl := AdvertTask.asleep.inj (here.symm.trans here')
        change Paced sim name _ (ts ++ []) (rs ++ [s.time]) (began ++ [])
        rw [List.append_nil, List.append_nil]
        exact ⟨paced.past, paced.apart,
          .repeating stop _ main rfl number (done.start due listed shuffles)⟩
  | rests draws here =>
      obtain ⟨stop, main⟩ := sound.background (.inl (by simp [here]))
      change Paced sim name _ (ts ++ []) (rs ++ []) (began ++ [])
      simp only [List.append_nil]
      obtain ⟨number, ⟨pending, here', round⟩ | ⟨wakeAt, here', -⟩⟩ := paced.agenda.of_timing main
      · obtain rfl := AdvertTask.advertising.inj (here.symm.trans here')
        exact ⟨paced.past, paced.apart, .asleep stop _ main rfl number
          (round.finish paced.past (add_advertGap_le_nextRound positive))⟩
      · cases here.symm.trans here'
  | starts draws main ready shuffles =>
      obtain ⟨rfl, rfl, rfl⟩ := paced.agenda.of_starting main
      have done : BetweenRounds sim [] [] s.time := ⟨rfl, nofun⟩
      exact ⟨paced.past, paced.apart,
        .announcing false _ rfl rfl (done.start le_rfl listed shuffles) rfl⟩
  | waits main =>
      obtain ⟨number, round, rfl⟩ := paced.agenda.of_advertising main
      change Paced sim name _ (ts ++ []) (rs ++ []) []
      simp only [List.append_nil]
      have gap := @advertGap_le_refloodWait sim
      exact ⟨paced.past, paced.apart,
        .reflooding _ rfl number (round.finish paced.past (by linarith)) rfl⟩
  | refloods wakeAt draws main due shuffles =>
      obtain ⟨number, done, rfl⟩ := paced.agenda.of_reflooding main
      change Paced sim name _ (ts ++ []) (rs ++ [s.time]) []
      rw [List.append_nil]
      refine ⟨paced.past, paced.apart,
        .announcing true _ rfl ?_ (done.start due listed shuffles) rfl⟩
      rw [List.length_append, number]
      rfl
  | begins draws main =>
      obtain ⟨number, round, rfl⟩ := paced.agenda.of_advertising main
      change Paced sim name _ (ts ++ []) (rs ++ []) [s.time]
      simp only [List.append_nil]
      have next : s.time + sim.advertGap ≤ sim.nextRound s.time draws :=
        add_advertGap_le_nextRound positive
      have done := round.finish paced.past next
      exact ⟨paced.past, paced.apart, .asleep _ _ rfl rfl (done.count.trans number).ge done⟩
  | stops wakeAt main due =>
      change Paced sim name _ (ts ++ []) (rs ++ []) (began ++ [])
      simp only [List.append_nil]
      obtain ⟨number, ⟨pending, -, round⟩ | ⟨wakeAt', -, done⟩⟩ := paced.agenda.of_timing main
      · have count := round.count
        have once := round.once
        exact ⟨paced.past, paced.apart, .stopped (.inl rfl) number (by omega) (by omega)⟩
      · exact ⟨paced.past, paced.apart,
          .stopped (.inl rfl) number done.count.le (by rw [done.count]; omega)⟩
  | quits code contacts last =>
      rw [show adverts name _ = [] from (aloof_advert name).quits code,
        show rounds _ = [] from aloof_round.quits code,
        show starts _ = [] from aloof_start.quits code]
      simp only [List.append_nil]
      rcases last with ⟨main, rfl, -⟩ | ⟨main, rfl, -⟩
      · obtain ⟨number, atMost, almost⟩ := paced.agenda.of_sampling main
        exact ⟨paced.past, paced.apart, .stopped (.inr rfl) number atMost almost⟩
      · obtain ⟨noAdvert, noRound, early⟩ := paced.agenda.of_starting main
        exact ⟨paced.past, paced.apart, .fresh (.inr rfl) noAdvert noRound early⟩

theorem run_paced {time : ℚ} {ok : SimState → SimEvent → Prop}
    (positive : 0 ≤ sim.config.simulation.advertIntervalSecs) (listed : name ∈ sim.names)
    (run : Run sim.step ok (.init time) s tr) :
    Paced sim name s (adverts name tr) (rounds tr) (starts tr) := by
  apply run.invariant (I := fun s tr =>
    Paced sim name s (adverts name tr) (rounds tr) (starts tr))
  · refine ⟨fun t mem => ?_, List.Pairwise.nil, .fresh (.inl rfl) rfl rfl rfl⟩
    cases mem
  · intro s tr e s' out before paced _ stepped
    exact paced.step positive listed (run_sound before) (step_slice stepped)

/-! ### Commands -/

theorem count_sendCommand {a : NodeAgent} {cmd : NodeCommand} (other : ∀ n, cmd ≠ .advert n) :
    (a.sendCommand cmd).count (.advert name) = 0 := by
  unfold NodeAgent.sendCommand
  split_ifs
  · rfl
  · simp [other name]

/-- A node that advertises is told to, unless it has exited. -/
theorem told_advertise {receiver : NodeName} (alive : (s.agents name).stopping = false) :
    (commandsTo name (advertise s receiver)).count (.advert name) ≤
        (adverts name (advertise s receiver)).length ∧
      ((s.agents name).exited = false →
        (commandsTo name (advertise s receiver)).count (.advert name) =
          (adverts name (advertise s receiver)).length) := by
  rw [commandsTo_advertise, adverts_advertise]
  by_cases same : receiver = name
  · subst same
    rw [if_pos rfl, if_pos rfl]
    unfold NodeAgent.sendCommand
    cases (s.agents receiver).exited <;> simp [alive]
  · simp [same]

/-- A step tells a node to advertise as often as it marks an advert of it. -/
theorem Slice.told (sound : sim.Sound s) (slice : Slice sim s e s' out) (name : NodeName) :
    (commandsTo name out).count (.advert name) ≤ (adverts name out).length ∧
      ((s'.agents name).exited = false → (s.agents name).exited = false ∧
        (commandsTo name out).count (.advert name) = (adverts name out).length) := by
  have quiet (none : (commandsTo name out).count (.advert name) = 0)
      (noAdvert : adverts name out = [])
      (exited : (s.agents name).exited = true → (s'.agents name).exited = true) :
      (commandsTo name out).count (.advert name) ≤ (adverts name out).length ∧
        ((s'.agents name).exited = false → (s.agents name).exited = false ∧
          (commandsTo name out).count (.advert name) = (adverts name out).length) := by
    rw [none, noAdvert]
    refine ⟨le_rfl, fun open' => ⟨Bool.eq_false_iff.mpr fun gone => ?_, rfl⟩⟩
    simp [exited gone] at open'
  cases slice with
  | agent receiver a messages out slice =>
      refine quiet ?_ ((aloof_advert name).agent slice) ?_
      · cases slice with
        | spawned =>
            rw [commandsTo_map]
            split_ifs
            · exact count_sendCommand (by simp)
            · rfl
        | reported => rfl
        | exited => rfl
        | radio cmd delivered count =>
            have silent : commandsTo name delivered = [] := by
              rcases count with rfl | rfl <;> rfl
            rw [commandsTo_append, silent, List.nil_append, commandsTo_map]
            split_ifs
            · exact count_sendCommand (by simp)
            · rfl
      · by_cases same : name = receiver
        · subst same
          simp only [Function.update_self]
          exact slice.flags.2.2
        · simp only [Function.update_of_ne same]
          exact id
  | announced receiver second pending k main due =>
      obtain ⟨atMost, all⟩ :=
        @told_advertise s name receiver (sound.running (by simp [main]) name)
      exact ⟨atMost, fun open' => ⟨open', all open'⟩⟩
  | repeated receiver pending k adverts due =>
      obtain ⟨stop, main⟩ := sound.background (.inl (by simp [adverts]))
      obtain ⟨atMost, all⟩ :=
        @told_advertise s name receiver (sound.running (by simp [main]) name)
      exact ⟨atMost, fun open' => ⟨open', all open'⟩⟩
  | sends send =>
      refine quiet ?_ ((aloof_advert name).sent send) id
      rcases @commandsTo_sentObs s name send (sim.sender send)
        (s.endpointPubs.getD (sim.pubsOf s)) with none | ⟨-, cmd, -, other, one⟩
      · exact congrArg (List.count _) none
      · exact (congrArg (List.count _) one).trans (count_sendCommand other)
  | quits code contacts last =>
      refine quiet ?_ ((aloof_advert name).quits code) ?_
      · have silent : commandsTo name [.ended s.time code] = [] := rfl
        rw [commandsTo_append, commandsTo_quitAll, silent, List.append_nil, NodeAgent.quit]
        split_ifs
        · rfl
        · exact count_sendCommand (by simp)
        · rfl
      · simp only [quitAll, NodeAgent.quit]
        split_ifs <;> exact id
  | _ => exact quiet rfl rfl id

/-- A node is told to advertise as often as its adverts are marked, unless it has exited. -/
theorem run_told {time : ℚ} {ok : SimState → SimEvent → Prop}
    (run : Run sim.step ok (.init time) s tr) (name : NodeName) :
    (commandsTo name tr).count (.advert name) ≤ (adverts name tr).length ∧
      ((s.agents name).exited = false →
        (commandsTo name tr).count (.advert name) = (adverts name tr).length) := by
  refine run.invariant (I := fun s tr =>
    (commandsTo name tr).count (.advert name) ≤ (adverts name tr).length ∧
      ((s.agents name).exited = false →
        (commandsTo name tr).count (.advert name) = (adverts name tr).length))
    ⟨le_rfl, fun _ => rfl⟩ ?_
  rintro s tr e s' out before ⟨atMost, all⟩ - stepped
  obtain ⟨atMost', all'⟩ := (step_slice stepped).told (run_sound before) name
  rw [commandsTo_append, adverts_append, List.count_append, List.length_append]
  refine ⟨Nat.add_le_add atMost atMost', fun open' => ?_⟩
  obtain ⟨openBefore, now⟩ := all' open'
  rw [all openBefore, now]

/-- In every run: each node has advertised once in every round that has started, apart from the
last one, in which it may not have yet; at least twice when the background tasks start; and two of
its adverts are never closer than the shorter of the wait between the first rounds and four fifths
of the interval. A node that has not exited was told to advertise each time. -/
theorem adverts_in_rounds (sim : Simulation)
    (positive : 0 ≤ sim.config.simulation.advertIntervalSecs) (time : ℚ) (s : SimState)
    (tr : List SimObs) (run : Run sim.step anyStep (.init time) s tr) (name : NodeName)
    (listed : name ∈ sim.names) :
    (adverts name tr).length ≤ (rounds tr).length ∧
      (rounds tr).length ≤ (adverts name tr).length + 1 ∧
      (starts tr ≠ [] → 2 ≤ (adverts name tr).length) ∧
      ((adverts name tr).Pairwise fun t t' =>
        t + min sim.refloodWait (4 / 5 * sim.config.simulation.advertIntervalSecs) ≤ t') ∧
      (commandsTo name tr).count (.advert name) ≤ (adverts name tr).length ∧
      ((s.agents name).exited = false →
        (commandsTo name tr).count (.advert name) = (adverts name tr).length) := by
  have paced := run_paced positive listed run
  obtain ⟨atMost, almost, twice⟩ := paced.agenda.counts
  exact ⟨atMost, almost, twice, paced.apart, run_told run name⟩

/-- Both rounds of two nodes. -/
theorem adverts_in_rounds_pairCell : ∃ s tr, Run pairCell.step anyStep (.init 0) s tr ∧
    starts tr ≠ [] ∧ 2 ≤ (commandsTo "alice" tr).count (.advert "alice") ∧
    (adverts "alice" tr).Pairwise fun t t' => t + min pairCell.refloodWait 480 ≤ t' := by
  have found : (exec (restrict pairCell.step anyStep) (SimState.init 0) pairStarts).any (fun r =>
      0 < (starts r.2).length && !(r.1.agents "alice").exited) = true := by
    decide +kernel
  obtain ⟨s, tr, run, found⟩ := Run.of_exec_any found
  obtain ⟨found, open'⟩ := (Bool.and_eq_true _ _).mp found
  have began : starts tr ≠ [] := List.length_pos_iff.mp (of_decide_eq_true found)
  have positive : 0 ≤ pairCell.config.simulation.advertIntervalSecs := by decide +kernel
  obtain ⟨-, -, twice, apart, -, told⟩ :=
    adverts_in_rounds pairCell positive 0 s tr run "alice" (by decide)
  have interval : 4 / 5 * pairCell.config.simulation.advertIntervalSecs = 480 := by decide +kernel
  rw [interval] at apart
  refine ⟨s, tr, run, began, ?_, apart⟩
  rw [told ((Bool.not_eq_true' _).mp open')]
  exact twice began

end Simulation

end MeshcoreSim
