import MeshcoreSim.Lib.ReadyQueue
import MeshcoreSim.Orchestrator

/-!
Listen before talk: in which order commands are written to the nodes.

The tasks of the orchestrator share one event loop with a first-in first-out ready queue
(`Lib.Loop`). Here a job is the next slice of a task that can write to a node: the reader loop
of a node, which runs `_on_tx`; a `notify_rx_start` that `gather` has wrapped in a task of
its own; and the tasks of the traffic generator. `Unraced` is the condition under which
the notifications come first: when `_on_tx` gathers them, no task that is ready already
writes to one of the neighbours.

* `rx_start_first` — in a run whose slices meet it, `rx_start` is written to every
  neighbour before any command of another task that follows the start of the transmission.
* `race_of_ready_writer` — a slice that does not meet it leads to a command that overtakes.
* `command_overtakes` — such a slice can be reached.
-/

namespace MeshcoreSim

open Lib

/-- What the traffic generator writes to a node. -/
inductive TrafficCommand where
  | sendText (dest text : String)
  | sendChannel (text : String)
  | advert (name : String)
  deriving DecidableEq, Repr

/-- The next slice of a task. -/
inductive Job where
  /-- The reader loop of a node goes on with the `tx` lines in its buffer; it may have been
  waiting for the notifications of a packet. -/
  | reader (sender : NodeName) (gathered : Option String) (lines : List String)
  | notify (key : ℕ) (receiver : NodeName) (durationMs : ℕ)
  /-- `_delayed_advert`, after its sleep. -/
  | advert (agent : NodeName)
  /-- `_send_random`, with what it draws: `none` when the sender knows nobody. -/
  | traffic (sender : NodeName) (drawn : Option TrafficCommand)
  /-- `_deliver_to`; it writes `rx` commands only, which compete with nothing here. -/
  | deliver (sender : NodeName) (link : EdgeLink) (hexData : String)
  deriving DecidableEq, Repr

/-- An `_on_tx` suspended in its `gather`, with the lines that its reader loop has not
read yet. The key tells transmissions apart. -/
structure Gather where
  key : ℕ
  sender : NodeName
  hexData : String
  lines : List String
  waiting : List NodeName
  deriving DecidableEq, Repr

structure Listening where
  txCount : ℕ
  gathers : List Gather
  deriving DecidableEq, Repr

inductive ListenObs where
  | txStart (key : ℕ) (sender : NodeName) (hexData : String)
  | rxStart (key : ℕ) (receiver : NodeName) (durationMs : ℕ)
  | command (receiver : NodeName) (cmd : TrafficCommand)
  deriving DecidableEq, Repr

/-- The job is that of another task, which writes a command to the node. -/
def Job.WritesTo (receiver : NodeName) : Job → Prop
  | .advert agent => agent = receiver
  | .traffic sender drawn => drawn.isSome ∧ sender = receiver
  | _ => False

instance (receiver : NodeName) : (job : Job) → Decidable (job.WritesTo receiver)
  | .advert agent => inferInstanceAs (Decidable (agent = receiver))
  | .traffic sender drawn => inferInstanceAs (Decidable (drawn.isSome ∧ sender = receiver))
  | .reader _ _ _ => .isFalse id
  | .notify _ _ _ => .isFalse id
  | .deliver _ _ _ => .isFalse id

/-- The node whose reader loop the job is. -/
def Job.readerOf? : Job → Option NodeName
  | .reader sender _ _ => some sender
  | _ => none

namespace PacketRouter

variable (R : PacketRouter)

/-- Whom `_on_tx` notifies of a packet. -/
def listeners (sender : NodeName) (hexData : String) : List NodeName :=
  R.lbtReceivers sender (R.airtimeMs hexData)

/-- The delivery tasks that `_on_tx` creates, one a link. -/
def deliverJobs (sender : NodeName) (hexData : String) : List Job :=
  (R.topology.neighbours sender).map fun link => .deliver sender link hexData

/-- The reader loop works through the lines in its buffer. An `_on_tx` with nobody to
notify does not suspend it; one with neighbours to notify does, in its `gather`. -/
def readLines (sender : NodeName) : List String → Listening → Listening × List Job × List ListenObs
  | [], s => (s, [], [])
  | hexData :: lines, s =>
      let key := s.txCount
      let s' := { s with txCount := key + 1 }
      if R.listeners sender hexData = [] then
        let (s'', queued, out) := readLines sender lines s'
        (s'', R.deliverJobs sender hexData ++ queued, .txStart key sender hexData :: out)
      else
        ({ s' with
            gathers := s'.gathers ++ [⟨key, sender, hexData, lines, R.listeners sender hexData⟩] },
          (R.listeners sender hexData).map
            fun receiver => .notify key receiver ⌊R.airtimeMs hexData⌋.toNat,
          [.txStart key sender hexData])

/-- One slice of a task. -/
def runJob (s : Listening) : Job → Listening × List Job × List ListenObs
  | .reader sender gathered lines =>
      let resumed := (gathered.map (R.deliverJobs sender)).getD []
      let (s', queued, out) := R.readLines sender lines s
      (s', resumed ++ queued, out)
  | .notify key receiver durationMs =>
      ({ s with
          gathers := s.gathers.map fun g =>
            if g.key = key then { g with waiting := g.waiting.erase receiver } else g },
        [], [.rxStart key receiver durationMs])
  | .advert agent => (s, [], [.command agent (.advert agent)])
  | .traffic sender drawn => (s, [], drawn.toList.map (.command sender))
  | .deliver _ _ _ => (s, [], [])

/-- What may become ready from outside: timers, pipes, and a `gather` that is done. Each
node has one reader loop. -/
def admits (l : Loop Listening Job) : Job → Option Listening
  | .reader sender none _ =>
      if (R.agents.get? sender).isSome ∧ (∀ g ∈ l.state.gathers, g.sender ≠ sender) ∧
          ∀ job ∈ l.ready, job.readerOf? ≠ some sender then
        some l.state
      else none
  | .reader sender (some hexData) lines =>
      match l.state.gathers.find? fun g =>
        g.sender = sender ∧ g.hexData = hexData ∧ g.lines = lines ∧ g.waiting = [] with
      | some g => some { l.state with gathers := l.state.gathers.erase g }
      | none => none
  | .advert agent => if (R.agents.get? agent).isSome then some l.state else none
  | .traffic sender _ => if (R.agents.get? sender).isSome then some l.state else none
  | .notify _ _ _ => none
  | .deliver _ _ _ => some l.state

/-- Whom the transmission that suspends the reader loop is announced to. -/
def announced (sender : NodeName) : List String → List NodeName
  | [] => []
  | hexData :: lines =>
      if R.listeners sender hexData = [] then announced sender lines
      else R.listeners sender hexData

/-- When `_on_tx` gathers its notifications, no task that is ready already writes to one of
the neighbours that they go to. -/
def UnracedHead : List Job → Prop
  | .reader sender _ lines :: rest =>
      ∀ job ∈ rest, ∀ receiver ∈ R.announced sender lines, ¬ job.WritesTo receiver
  | _ => True

instance : (ready : List Job) → Decidable (R.UnracedHead ready)
  | .reader sender _ lines :: rest => inferInstanceAs (Decidable
      (∀ job ∈ rest, ∀ receiver ∈ R.announced sender lines, ¬ job.WritesTo receiver))
  | [] | .notify _ _ _ :: _ | .advert _ :: _ | .traffic _ _ :: _ | .deliver _ _ _ :: _ =>
      .isTrue trivial

/-- The slice that runs next gathers no notifications that another task can overtake. -/
def Unraced (l : Loop Listening Job) : Turn Job → Prop
  | .next => R.UnracedHead l.ready
  | .wake _ => True

instance (l : Loop Listening Job) : (turn : Turn Job) → Decidable (R.Unraced l turn)
  | .next => inferInstanceAs (Decidable (R.UnracedHead l.ready))
  | .wake _ => .isTrue trivial

/-- The event loop of the orchestrator. -/
def loopStep : Loop Listening Job → Turn Job → Option (Loop Listening Job × List ListenObs) :=
  Loop.step R.runJob R.admits

/-- Nothing is ready, and nothing has been sent. -/
def idle : Loop Listening Job := ⟨⟨0, []⟩, []⟩

variable {R} {l l' : Loop Listening Job} {sender receiver : NodeName} {lines : List String}
  {s : Listening} {tr : List ListenObs}

/-- Who is notified: the neighbours that exist and hear the sender at or above the
threshold of the spreading factor. -/
theorem mem_listeners {hexData : String} : receiver ∈ R.listeners sender hexData ↔
    0 < R.airtimeMs hexData ∧ ∃ link ∈ R.topology.neighbours sender,
      R.belowThreshold link = false ∧ (R.agents.get? link.other).isSome ∧
        link.other = receiver := by
  unfold listeners lbtReceivers
  by_cases onAir : R.airtimeMs hexData > 0
  · simp [onAir, and_assoc]
  · simp [onAir]

/-! ### What one slice does -/

/-- Reading lines starts transmissions, and queues no job that writes a command of another
task. Whoever is to be notified is notified by a job that is queued now. -/
theorem readLines_queues (R : PacketRouter) (sender : NodeName) (lines : List String)
    (s : Listening) :
    (∀ o ∈ (R.readLines sender lines s).2.2, ∃ key hexData, o = .txStart key sender hexData) ∧
      (∀ job ∈ (R.readLines sender lines s).2.1, ∀ receiver, ¬ job.WritesTo receiver) ∧
      ∀ key hexData, .txStart key sender hexData ∈ (R.readLines sender lines s).2.2 →
        s.txCount ≤ key ∧ ∀ receiver ∈ R.listeners sender hexData,
          receiver ∈ R.announced sender lines ∧
            ∃ durationMs, .notify key receiver durationMs ∈ (R.readLines sender lines s).2.1 := by
  induction lines generalizing s with
  | nil => simp [readLines]
  | cons hexData lines ih =>
      unfold readLines announced
      by_cases nobody : R.listeners sender hexData = []
      · simp only [if_pos nobody]
        obtain ⟨starts, writes, queued⟩ := ih { s with txCount := s.txCount + 1 }
        refine ⟨?_, ?_, ?_⟩
        · intro o mem
          rcases List.mem_cons.mp mem with rfl | later
          · exact ⟨_, _, rfl⟩
          · exact starts o later
        · intro job mem receiver
          rcases List.mem_append.mp mem with delivery | later
          · obtain ⟨link, -, rfl⟩ := List.mem_map.mp delivery
            exact id
          · exact writes job later receiver
        · intro key hexData' mem
          rcases List.mem_cons.mp mem with first | later
          · obtain ⟨rfl, rfl⟩ : key = s.txCount ∧ hexData' = hexData := by simpa using first
            exact ⟨le_rfl, by simp [nobody]⟩
          · obtain ⟨fresh, each⟩ := queued key hexData' later
            refine ⟨Nat.le_of_succ_le fresh, fun receiver mem => ?_⟩
            obtain ⟨announced, durationMs, notifies⟩ := each receiver mem
            exact ⟨announced, durationMs, List.mem_append_right _ notifies⟩
      · simp only [if_neg nobody]
        refine ⟨?_, ?_, ?_⟩
        · intro o mem
          exact ⟨_, _, List.mem_singleton.mp mem⟩
        · intro job mem receiver
          obtain ⟨receiver', -, rfl⟩ := List.mem_map.mp mem
          exact id
        · intro key hexData' mem
          obtain ⟨rfl, rfl⟩ : key = s.txCount ∧ hexData' = hexData := by simpa using mem
          refine ⟨le_rfl, fun receiver mem => ⟨mem, ⌊R.airtimeMs hexData'⌋.toNat, ?_⟩⟩
          exact List.mem_map.mpr ⟨receiver, mem, rfl⟩

/-- A slice that starts a transmission is one of the sender's reader loop. It starts
transmissions only, and queues the notifications behind everything that is ready. -/
theorem started {out : List ListenObs} {turn : Turn Job} {key : ℕ} {hexData : String}
    (stepped : R.loopStep l turn = some (l', out)) (starts : .txStart key sender hexData ∈ out) :
    ∃ gathered lines rest, turn = .next ∧ l.ready = .reader sender gathered lines :: rest ∧
      (∀ o ∈ out, ∃ key hexData, o = .txStart key sender hexData) ∧ l.state.txCount ≤ key ∧
      ∃ queued, l'.ready = rest ++ queued ∧
        (∀ job ∈ queued, ∀ receiver, ¬ job.WritesTo receiver) ∧
        ∀ receiver ∈ R.listeners sender hexData, receiver ∈ R.announced sender lines ∧
          ∃ durationMs, .notify key receiver durationMs ∈ queued := by
  cases turn with
  | wake job =>
      obtain ⟨state, -, -, rfl⟩ : ∃ state, R.admits l job = some state ∧
          ⟨state, l.ready ++ [job]⟩ = l' ∧ [] = out := by
        simpa [loopStep, Loop.step] using stepped
      cases starts
  | next =>
      cases queue : l.ready with
      | nil => simp [loopStep, Loop.step, queue] at stepped
      | cons job rest =>
          simp only [loopStep, Loop.step, queue, Option.some.injEq, Prod.mk.injEq] at stepped
          obtain ⟨rfl, rfl⟩ := stepped
          cases job with
          | reader sender' gathered lines =>
              obtain ⟨only, writes, queued⟩ := readLines_queues R sender' lines l.state
              obtain ⟨key', hexData', same⟩ := only _ starts
              obtain ⟨rfl, rfl, rfl⟩ : key = key' ∧ sender = sender' ∧ hexData = hexData' := by
                simpa using same
              obtain ⟨fresh, each⟩ := queued key hexData starts
              refine ⟨gathered, lines, rest, rfl, rfl, only, fresh, _, rfl, ?_, ?_⟩
              · intro job mem receiver
                rcases List.mem_append.mp mem with resumed | later
                · cases gathered with
                  | none => cases resumed
                  | some hexData' =>
                      obtain ⟨link, -, rfl⟩ := List.mem_map.mp resumed
                      exact id
                · exact writes job later receiver
              · intro receiver mem
                obtain ⟨announced, durationMs, notifies⟩ := each receiver mem
                exact ⟨announced, durationMs, List.mem_append_right _ notifies⟩
          | notify key' receiver durationMs => simp [runJob] at starts
          | advert agent => simp [runJob] at starts
          | traffic sender' drawn => simp [runJob] at starts
          | deliver sender' link hexData' => simp [runJob] at starts

/-- Only a job that writes to a node has a command written to it. -/
theorem writesTo_of_command (state : Listening) (job : Job) (receiver : NodeName) :
    ∀ o ∈ (R.runJob state job).2.2, (∃ cmd, o = .command receiver cmd) → job.WritesTo receiver := by
  rintro o mem ⟨cmd, rfl⟩
  cases job with
  | reader sender gathered lines =>
      obtain ⟨only, -⟩ := readLines_queues R sender lines state
      obtain ⟨key, hexData, start⟩ := only _ mem
      cases start
  | notify key receiver' durationMs => simp [runJob] at mem
  | advert agent =>
      obtain ⟨same, -⟩ : receiver = agent ∧ cmd = .advert agent := by simpa [runJob] using mem
      exact same.symm
  | traffic sender drawn =>
      obtain ⟨drew, same⟩ : drawn = some cmd ∧ sender = receiver := by
        simpa [runJob] using mem
      exact ⟨by simp [drew], same⟩
  | deliver sender link hexData => simp [runJob] at mem

/-! ### Whole runs -/

/-- Listen before talk. In a run in which no task that is ready when `_on_tx` gathers its
notifications writes to a neighbour they go to, no command of another task is written to a
neighbour between the start of a transmission and the `rx_start` of that transmission. -/
theorem rx_start_first (R : PacketRouter) (l : Loop Listening Job)
    (before mid after : List ListenObs) (key : ℕ) (sender : NodeName) (hexData : String)
    (receiver : NodeName) (cmd : TrafficCommand)
    (neighbour : receiver ∈ R.listeners sender hexData)
    (run : Run R.loopStep R.Unraced idle l
      (before ++ .txStart key sender hexData :: (mid ++ .command receiver cmd :: after))) :
    ∃ durationMs, .rxStart key receiver durationMs ∈ mid := by
  obtain ⟨l₁, tr₁, turn, l₂, out₁, out₂, tr₂, -, unraced, stepped, rest, -, seen⟩ := run.split
  obtain ⟨gathered, lines, others, rfl, ready, only, -, queued, ready', writes, each⟩ :=
    started stepped (List.mem_append_right _ List.mem_cons_self)
  obtain ⟨announced, durationMs, notifies⟩ := each receiver neighbour
  have clear : ∀ job ∈ l₂.ready, ¬ job.WritesTo receiver := by
    intro job mem
    rw [ready'] at mem
    rcases List.mem_append.mp mem with other | new
    · have quiet : R.UnracedHead l₁.ready := unraced
      rw [ready] at quiet
      exact quiet job other receiver announced
    · exact writes job new receiver
  have waits : Loop.Waits (Job.WritesTo receiver) (.notify key receiver durationMs) l₂.ready := by
    refine .of_mem ?_ clear
    rw [ready']
    exact List.mem_append_right _ notifies
  -- The slice itself writes no command, so the command comes in the rest of the run.
  have notInSlice : .command receiver cmd ∉ out₂ := by
    intro mem
    obtain ⟨key', hexData', start⟩ := only _ (List.mem_append_right _ (List.mem_cons_of_mem _ mem))
    cases start
  obtain ⟨mid', rfl, rfl⟩ := split_after seen notInSlice
  rcases Loop.waits_or_ran (fun state job => writesTo_of_command state job receiver) rest waits with
    ⟨-, unseen⟩ | ⟨first, state, last, eq, unseen⟩
  · exact absurd ⟨cmd, rfl⟩ (unseen (.command receiver cmd) (by simp))
  · rw [List.append_assoc] at eq
    obtain ⟨between, rfl, tail⟩ := split_after eq fun mem => unseen _ mem ⟨cmd, rfl⟩
    have ran : (R.runJob state (.notify key receiver durationMs)).2.2 =
        [.rxStart key receiver durationMs] := rfl
    rw [ran] at tail
    cases between with
    | nil => cases tail
    | cons o between =>
        obtain ⟨rfl, -⟩ : .rxStart key receiver durationMs = o ∧
            last = between ++ .command receiver cmd :: after := by simpa using tail
        exact ⟨durationMs, by simp⟩

/-! ### The condition is exact -/

/-- A reader loop that announces a transmission to a node has started it. -/
theorem starts_of_announced (R : PacketRouter) (sender : NodeName) (lines : List String)
    (s : Listening) (announced : receiver ∈ R.announced sender lines) :
    ∃ key hexData, .txStart key sender hexData ∈ (R.readLines sender lines s).2.2 ∧
      receiver ∈ R.listeners sender hexData := by
  induction lines generalizing s with
  | nil => cases announced
  | cons hexData lines ih =>
      unfold PacketRouter.announced at announced
      unfold readLines
      by_cases nobody : R.listeners sender hexData = []
      · simp only [if_pos nobody] at announced ⊢
        obtain ⟨key, hexData', started, listens⟩ := ih _ announced
        exact ⟨key, hexData', List.mem_cons_of_mem _ started, listens⟩
      · simp only [if_neg nobody] at announced ⊢
        exact ⟨_, hexData, List.mem_cons_self, announced⟩

/-- Notifications that are queued are of transmissions that have been counted. -/
def Counted (s : Listening) (jobs : List Job) : Prop :=
  ∀ key receiver durationMs, .notify key receiver durationMs ∈ jobs → key < s.txCount

theorem readLines_counted (R : PacketRouter) (sender : NodeName) (lines : List String)
    (s : Listening) :
    s.txCount ≤ (R.readLines sender lines s).1.txCount ∧
      Counted (R.readLines sender lines s).1 (R.readLines sender lines s).2.1 := by
  induction lines generalizing s with
  | nil => exact ⟨le_rfl, nofun⟩
  | cons hexData lines ih =>
      unfold readLines
      by_cases nobody : R.listeners sender hexData = []
      · simp only [if_pos nobody]
        obtain ⟨grows, counted⟩ := ih { s with txCount := s.txCount + 1 }
        refine ⟨Nat.le_of_succ_le grows, fun key receiver durationMs mem => ?_⟩
        rcases List.mem_append.mp mem with delivery | later
        · obtain ⟨link, -, same⟩ := List.mem_map.mp delivery
          cases same
        · exact counted key receiver durationMs later
      · simp only [if_neg nobody]
        refine ⟨Nat.le_succ _, fun key receiver durationMs mem => ?_⟩
        obtain ⟨receiver', -, same⟩ := List.mem_map.mp mem
        obtain ⟨rfl, -⟩ : s.txCount = key ∧ _ := by simpa using same
        exact Nat.lt_succ_self _

/-- What is queued by a slice has been counted. -/
theorem runJob_counted (R : PacketRouter) (s : Listening) (job : Job) :
    s.txCount ≤ (R.runJob s job).1.txCount ∧
      Counted (R.runJob s job).1 (R.runJob s job).2.1 := by
  cases job with
  | reader sender gathered lines =>
      obtain ⟨grows, counted⟩ := readLines_counted R sender lines s
      refine ⟨grows, fun key receiver durationMs mem => ?_⟩
      rcases List.mem_append.mp mem with resumed | later
      · cases gathered with
        | none => cases resumed
        | some hexData =>
            obtain ⟨link, -, same⟩ := List.mem_map.mp resumed
            cases same
      · exact counted key receiver durationMs later
  | notify key receiver durationMs => exact ⟨le_rfl, nofun⟩
  | advert agent => exact ⟨le_rfl, nofun⟩
  | traffic sender drawn => exact ⟨le_rfl, nofun⟩
  | deliver sender link hexData => exact ⟨le_rfl, nofun⟩

/-- What the environment wakes is no notification, and waking counts nothing. -/
theorem admits_counted {job : Job} (admitted : R.admits l job = some s) :
    s.txCount = l.state.txCount ∧
      ∀ key receiver durationMs, job ≠ .notify key receiver durationMs := by
  cases job with
  | reader sender gathered lines =>
      cases gathered with
      | none =>
          simp only [admits, Option.ite_none_right_eq_some, Option.some.injEq] at admitted
          exact ⟨by rw [admitted.2], by simp⟩
      | some hexData =>
          simp only [admits] at admitted
          split at admitted
          · cases admitted
            exact ⟨rfl, by simp⟩
          · cases admitted
  | notify key receiver durationMs => cases admitted
  | advert agent =>
      simp only [admits, Option.ite_none_right_eq_some, Option.some.injEq] at admitted
      exact ⟨by rw [admitted.2], by simp⟩
  | traffic sender drawn =>
      simp only [admits, Option.ite_none_right_eq_some, Option.some.injEq] at admitted
      exact ⟨by rw [admitted.2], by simp⟩
  | deliver sender link hexData =>
      cases admitted
      exact ⟨rfl, by simp⟩

/-- In every run the notifications in the queue are of transmissions that have started. -/
theorem run_counted {ok : Loop Listening Job → Turn Job → Prop}
    (run : Run R.loopStep ok idle l tr) : Counted l.state l.ready := by
  apply run.invariant (I := fun l _ => Counted l.state l.ready) nofun
  intro l tr turn l' out _ counted _ stepped
  cases turn with
  | wake job =>
      obtain ⟨state, admitted, rfl, -⟩ : ∃ state, R.admits l job = some state ∧
          ⟨state, l.ready ++ [job]⟩ = l' ∧ [] = out := by
        simpa [loopStep, Loop.step] using stepped
      obtain ⟨same, other⟩ := admits_counted admitted
      intro key receiver durationMs mem
      rw [same]
      rcases List.mem_append.mp mem with old | new
      · exact counted key receiver durationMs old
      · exact absurd (List.mem_singleton.mp new).symm (other key receiver durationMs)
  | next =>
      cases queue : l.ready with
      | nil => simp [loopStep, Loop.step, queue] at stepped
      | cons job rest =>
          simp only [loopStep, Loop.step, queue, Option.some.injEq, Prod.mk.injEq] at stepped
          obtain ⟨rfl, -⟩ := stepped
          obtain ⟨grows, new⟩ := runJob_counted R l.state job
          intro key receiver durationMs mem
          rcases List.mem_append.mp mem with old | queued
          · refine lt_of_lt_of_le (counted key receiver durationMs ?_) grows
            rw [queue]
            exact List.mem_cons_of_mem _ old
          · exact new key receiver durationMs queued

/-- What it means that the condition is not met. -/
theorem exists_writer (raced : ¬ R.Unraced l .next) :
    ∃ sender gathered lines ahead job behind receiver,
      l.ready = .reader sender gathered lines :: (ahead ++ job :: behind) ∧
      receiver ∈ R.announced sender lines ∧ job.WritesTo receiver := by
  have head : ¬ R.UnracedHead l.ready := raced
  cases queue : l.ready with
  | nil => simp [queue, UnracedHead] at head
  | cons first rest =>
      rw [queue] at head
      cases first with
      | reader sender gathered lines =>
          simp only [UnracedHead, not_forall, not_not] at head
          obtain ⟨job, ready, receiver, announced, writes⟩ := head
          obtain ⟨ahead, behind, rfl⟩ := List.append_of_mem ready
          exact ⟨sender, gathered, lines, ahead, job, behind, receiver, rfl, announced, writes⟩
      | _ => exact absurd trivial head

/-- A job that writes to a node has a command written to it by its slice. -/
theorem command_of_writesTo (s : Listening) {job : Job} (writes : job.WritesTo receiver) :
    ∃ cmd, (R.runJob s job).2.2 = [.command receiver cmd] := by
  cases job with
  | advert agent =>
      cases writes
      exact ⟨_, rfl⟩
  | traffic sender drawn =>
      obtain ⟨drew, rfl⟩ := writes
      obtain ⟨cmd, rfl⟩ := Option.isSome_iff_exists.mp drew
      exact ⟨cmd, rfl⟩
  | _ => exact writes.elim

/-- Whenever a task that writes to a neighbour is ready as `_on_tx` gathers, the loop comes
to write that command before the `rx_start`. -/
theorem race_of_ready_writer (R : PacketRouter) (run : Run R.loopStep anyStep idle l tr)
    (raced : ¬ R.Unraced l .next) :
    ∃ l' before mid key sender hexData receiver cmd, receiver ∈ R.listeners sender hexData ∧
      Run R.loopStep anyStep idle l'
        (before ++ .txStart key sender hexData :: (mid ++ .command receiver cmd :: [])) ∧
      ∀ durationMs, .rxStart key receiver durationMs ∉ mid := by
  obtain ⟨sender, gathered, lines, ahead, job, behind, receiver, queue, announced, writes⟩ :=
    exists_writer raced
  -- The slice of the reader loop.
  have first : R.loopStep l .next = some (⟨(R.runJob l.state (.reader sender gathered lines)).1,
      ahead ++ (job :: behind ++ (R.runJob l.state (.reader sender gathered lines)).2.1)⟩,
      (R.readLines sender lines l.state).2.2) := by
    simp [loopStep, Loop.step, queue, runJob]
  obtain ⟨only, -, keys⟩ := readLines_queues R sender lines l.state
  obtain ⟨key, hexData, start, listens⟩ := starts_of_announced R sender lines l.state announced
  have fresh := (keys key hexData start).1
  obtain ⟨out₁, out₂, out⟩ := List.append_of_mem start
  -- The jobs ahead of the writer, and the writer itself.
  obtain ⟨state, queued, tr₂, replay, worked⟩ := Loop.exec_ahead R.runJob R.admits ahead
    (job :: behind ++ (R.runJob l.state (.reader sender gathered lines)).2.1)
    (R.runJob l.state (.reader sender gathered lines)).1
  obtain ⟨cmd, wrote⟩ := command_of_writesTo (R := R) state writes
  have last : R.loopStep ⟨state, job :: behind ++
      (R.runJob l.state (.reader sender gathered lines)).2.1 ++ queued⟩ .next =
      some (⟨(R.runJob state job).1, behind ++
        (R.runJob l.state (.reader sender gathered lines)).2.1 ++ queued ++
          (R.runJob state job).2.1⟩, [.command receiver cmd]) := by
    simp [loopStep, Loop.step, wrote]
  obtain ⟨l', whole⟩ : ∃ l', Run R.loopStep anyStep idle l'
      (tr ++ (R.readLines sender lines l.state).2.2 ++ tr₂ ++ [.command receiver cmd]) :=
    ⟨_, ((run.next trivial first).trans (.of_exec_step replay)).next trivial last⟩
  refine ⟨l', tr ++ out₁, out₂ ++ tr₂, key, sender, hexData, receiver, cmd, listens, ?_, ?_⟩
  · rw [out] at whole
    simpa using whole
  · intro durationMs mem
    rcases List.mem_append.mp mem with inSlice | later
    · obtain ⟨key', hexData', same⟩ := only (.rxStart key receiver durationMs) (by
        rw [out]
        exact List.mem_append_right _ (List.mem_cons_of_mem _ inSlice))
      cases same
    · -- A notification ahead of the writer is of an earlier transmission.
      obtain ⟨s, job', inAhead, wrote'⟩ := worked _ later
      cases job' with
      | notify key' receiver' durationMs' =>
          obtain ⟨rfl, rfl, rfl⟩ :
              key = key' ∧ receiver = receiver' ∧ durationMs = durationMs' := by
            simpa [runJob] using wrote'
          have early := run_counted run key receiver durationMs (by
            rw [queue]
            exact List.mem_cons_of_mem _ (List.mem_append_left _ inAhead))
          omega
      | reader sender' gathered' lines' =>
          obtain ⟨only', -⟩ := readLines_queues R sender' lines' s
          obtain ⟨key', hexData', same⟩ := only' _ wrote'
          cases same
      | advert agent => simp [runJob] at wrote'
      | traffic sender' drawn => simp [runJob] at wrote'
      | deliver sender' link hexData' => simp [runJob] at wrote'

/-- In every run, no command of another task overtakes an `rx_start`. -/
def RxStartFirst (R : PacketRouter) : Prop :=
  ∀ l before mid after key sender hexData receiver cmd,
    receiver ∈ R.listeners sender hexData →
    Run R.loopStep anyStep idle l
      (before ++ .txStart key sender hexData :: (mid ++ .command receiver cmd :: after)) →
    ∃ durationMs, .rxStart key receiver durationMs ∈ mid

/-- Two endpoints in range of each other. -/
def pairCell : TopologyConfig where
  nodes := [.named "alice", .named "bob"]
  edges := [⟨"alice", "bob", 0, 0, 6, none, none⟩]
  simulation := ⟨0, 0, 0, 0, 0, "", none, none⟩
  radio := some .default

/-- A packet of `alice`, the notification of `bob`, and then a text that `bob` is to send. -/
theorem rx_start_first_pairCell :
    ∃ R l before mid after cmd, PacketRouter.ofConfig? pairCell .zero = some R ∧
      Run R.loopStep R.Unraced idle l
        (before ++ .txStart 0 "alice" "0500" :: (mid ++ .command "bob" cmd :: after)) ∧
      ∃ durationMs, .rxStart 0 "bob" durationMs ∈ mid := by
  have found : ((PacketRouter.ofConfig? pairCell .zero).any fun R =>
      decide ("bob" ∈ R.listeners "alice" "0500") &&
      (exec (restrict R.loopStep R.Unraced) idle
        [.wake (.reader "alice" none ["0500"]), .next,
          .wake (.traffic "bob" (some (.sendText "a1" "hello"))), .next, .next]).any
        fun (_, tr) => tr = [.txStart 0 "alice" "0500", .rxStart 0 "bob" 103,
          .command "bob" (.sendText "a1" "hello")]) = true := by
    decide +kernel
  obtain ⟨R, router, found⟩ := (Option.any_eq_true _ _).mp found
  obtain ⟨hears, found⟩ := (Bool.and_eq_true _ _).mp found
  obtain ⟨l, tr, run, seen⟩ := Run.of_exec_any found
  obtain rfl := of_decide_eq_true seen
  exact ⟨R, l, [], [.rxStart 0 "bob" 103], [], .sendText "a1" "hello", router, run,
    rx_start_first R l [] [.rxStart 0 "bob" 103] [] 0 "alice" "0500" "bob" _
      (of_decide_eq_true hears) run⟩

/-- The traffic generator is ready when the packet of `alice` is read, and writes to `bob`
before he is notified. -/
theorem command_overtakes :
    ∃ R, PacketRouter.ofConfig? pairCell .zero = some R ∧ ¬ R.RxStartFirst := by
  have found : ((PacketRouter.ofConfig? pairCell .zero).any fun R =>
      decide ("bob" ∈ R.listeners "alice" "0500") &&
      (exec (restrict R.loopStep anyStep) idle
        [.wake (.reader "alice" none ["0500"]),
          .wake (.traffic "bob" (some (.sendText "a1" "hello"))), .next, .next]).any
        fun (_, tr) => tr = [.txStart 0 "alice" "0500",
          .command "bob" (.sendText "a1" "hello")]) = true := by
    decide +kernel
  obtain ⟨R, router, found⟩ := (Option.any_eq_true _ _).mp found
  obtain ⟨hears, found⟩ := (Bool.and_eq_true _ _).mp found
  obtain ⟨l, tr, run, seen⟩ := Run.of_exec_any found
  obtain rfl := of_decide_eq_true seen
  refine ⟨R, router, fun claim => ?_⟩
  obtain ⟨durationMs, notified⟩ := claim l [] [] [] 0 "alice" "0500" "bob"
    (.sendText "a1" "hello") (of_decide_eq_true hears) run
  cases notified

end PacketRouter

end MeshcoreSim
