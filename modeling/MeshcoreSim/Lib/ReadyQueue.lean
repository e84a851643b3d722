import MeshcoreSim.Lib.Run

/-!
An event loop with a first-in first-out ready queue.

The loop repeatedly takes the job at the head of its queue and runs one slice of it; the
jobs that the slice queues, and those that the environment wakes, join at the tail. What a
slice does (`slice`) and which jobs the environment may wake (`wakes`) are parameters.

* `Waits` — a job stands in the queue, and no job with a property stands before it.
* `Loop.waits_or_ran` — the rule for the order of two effects: while a job waits behind no
  job with a property, nothing that only such jobs can do is done before it has run.
* `Loop.exec_ahead` — the queue is worked off from the head, whatever is queued meanwhile.
-/

namespace MeshcoreSim.Lib

variable {σ α ο : Type}

/-- What an event loop knows: the state its jobs share, and the jobs that are ready to run. -/
structure Loop (σ α : Type) where
  state : σ
  ready : List α

/-- The loop goes on with its next job, or the environment wakes one. -/
inductive Turn (α : Type) where
  | next
  | wake (job : α)

namespace Loop

variable (slice : σ → α → σ × List α × List ο) (wakes : Loop σ α → α → Option σ)

/-- One turn of the loop. -/
def step (l : Loop σ α) : Turn α → Option (Loop σ α × List ο)
  | .next =>
      match l.ready with
      | [] => none
      | job :: rest =>
          let (state, queued, out) := slice l.state job
          some (⟨state, rest ++ queued⟩, out)
  | .wake job => (wakes l job).map fun state => (⟨state, l.ready ++ [job]⟩, [])

/-- The job stands in the queue, and no job with the property stands before it. -/
def Waits (P : α → Prop) (job : α) (ready : List α) : Prop :=
  ∃ ahead behind, ready = ahead ++ job :: behind ∧ ∀ job' ∈ ahead, ¬ P job'

variable {slice wakes} {P : α → Prop} {Q : ο → Prop} {job : α} {ready : List α}
  {ok : Loop σ α → Turn α → Prop} {l l' : Loop σ α} {tr : List ο}

/-- Jobs that join the queue join it behind. -/
theorem Waits.append (waits : Waits P job ready) (queued : List α) :
    Waits P job (ready ++ queued) := by
  obtain ⟨ahead, behind, rfl, clear⟩ := waits
  exact ⟨ahead, behind ++ queued, by simp, clear⟩

/-- A job waits in a queue without jobs that have the property. -/
theorem Waits.of_mem (mem : job ∈ ready) (clear : ∀ job' ∈ ready, ¬ P job') :
    Waits P job ready := by
  obtain ⟨ahead, behind, rfl⟩ := List.append_of_mem mem
  exact ⟨ahead, behind, rfl, fun job' before => clear job' (List.mem_append_left _ before)⟩

/-- The job at the head of the queue is the waiting one, or one without the property. -/
theorem Waits.head {first : α} {rest : List α} (waits : Waits P job (first :: rest)) :
    first = job ∨ (¬ P first ∧ Waits P job rest) := by
  obtain ⟨ahead, behind, queue, clear⟩ := waits
  cases ahead with
  | nil =>
      obtain ⟨rfl, -⟩ : first = job ∧ rest = behind := by simpa using queue
      exact .inl rfl
  | cons first' ahead =>
      obtain ⟨rfl, rfl⟩ : first = first' ∧ rest = ahead ++ job :: behind := by simpa using queue
      exact .inr ⟨clear _ List.mem_cons_self, ahead, behind, rfl, fun job' before =>
        clear job' (List.mem_cons_of_mem _ before)⟩

/-- Where only jobs with the property have an effect, and a job waits behind none of them,
the effect is not seen before that job has run. -/
theorem waits_or_ran
    (only : ∀ state job, ∀ o ∈ (slice state job).2.2, Q o → P job)
    (run : Run (step slice wakes) ok l l' tr) (waits : Waits P job l.ready) :
    (Waits P job l'.ready ∧ ∀ o ∈ tr, ¬ Q o) ∨
      ∃ before state after, tr = before ++ (slice state job).2.2 ++ after ∧
        ∀ o ∈ before, ¬ Q o := by
  refine run.invariant (I := fun l tr => (Waits P job l.ready ∧ ∀ o ∈ tr, ¬ Q o) ∨
    ∃ before state after, tr = before ++ (slice state job).2.2 ++ after ∧
      ∀ o ∈ before, ¬ Q o) (.inl ⟨waits, by simp⟩) ?_
  rintro l tr turn l' out - (⟨waits, unseen⟩ | ⟨before, state, after, rfl, unseen⟩) - stepped
  · cases turn with
    | wake woken =>
        obtain ⟨state, -, rfl, rfl⟩ : ∃ state, wakes l woken = some state ∧
            ⟨state, l.ready ++ [woken]⟩ = l' ∧ [] = out := by
          simpa [step] using stepped
        refine .inl ⟨waits.append _, ?_⟩
        simpa using unseen
    | next =>
        cases queue : l.ready with
        | nil => simp [step, queue] at stepped
        | cons first rest =>
            rw [queue] at waits
            simp only [step, queue, Option.some.injEq, Prod.mk.injEq] at stepped
            obtain ⟨rfl, rfl⟩ := stepped
            rcases waits.head with rfl | ⟨without, waits⟩
            · exact .inr ⟨tr, l.state, [], by simp, unseen⟩
            · refine .inl ⟨waits.append _, fun o mem => ?_⟩
              rcases List.mem_append.mp mem with old | new
              · exact unseen o old
              · exact fun effect => without (only _ _ o new effect)
  · exact .inr ⟨before, state, after ++ out, by simp, unseen⟩

/-- The loop works its queue off from the head: after as many turns as there were jobs
ahead, it stands where they stood, and what has been seen was done by them. -/
theorem exec_ahead (slice : σ → α → σ × List α × List ο) (wakes : Loop σ α → α → Option σ)
    (ahead behind : List α) (state : σ) :
    ∃ state' queued tr,
      exec (step slice wakes) ⟨state, ahead ++ behind⟩ (List.replicate ahead.length .next) =
        some (⟨state', behind ++ queued⟩, tr) ∧
      ∀ o ∈ tr, ∃ s, ∃ job ∈ ahead, o ∈ (slice s job).2.2 := by
  induction ahead generalizing behind state with
  | nil => exact ⟨state, [], [], by simp [exec], by simp⟩
  | cons first ahead ih =>
      obtain ⟨state', queued, tr, replay, done⟩ :=
        ih (behind ++ (slice state first).2.1) (slice state first).1
      refine ⟨state', (slice state first).2.1 ++ queued, (slice state first).2.2 ++ tr, ?_, ?_⟩
      · have turn : step slice wakes ⟨state, first :: ahead ++ behind⟩ .next =
            some (⟨(slice state first).1, ahead ++ (behind ++ (slice state first).2.1)⟩,
              (slice state first).2.2) := by
          simp [step]
        rw [List.length_cons, List.replicate_succ, exec, turn]
        simp [replay]
      · intro o mem
        rcases List.mem_append.mp mem with now | later
        · exact ⟨state, first, List.mem_cons_self, now⟩
        · obtain ⟨s, job, before, did⟩ := done o later
          exact ⟨s, job, List.mem_cons_of_mem _ before, did⟩

end Loop

end MeshcoreSim.Lib
