import MeshcoreSim.Orchestrator
import MeshcoreSim.Router.Slices
import MeshcoreSim.Tracer.Steps

/-!
The order of the broadcast steps in the traces of the router.

`broadcast_steps` lists the transmissions of a packet in the order in which one of their
deliveries is first recorded. `InOrder` is the condition under which a slice keeps that the order
of their ids: a reception that it records is of a transmission that the packet has a hop of, or
of one that started after all of these.

* `Slice.stepsByTxId_iff` — a slice keeps the order just when it meets the condition.
* `steps_ordered_iff` — so the steps are in order after the runs whose slices all meet it.
* `not_stepsOrdered` — two transmissions of one packet whose deliveries complete the other way
  round.
-/

namespace MeshcoreSim

open Lib

/-- The steps are right in the trace that the tracer can write now. -/
def World.StepsByTxId (w : World) : Prop :=
  ∀ tracer ∈ w.tracer, ∀ totalSimSecs, (tracer.toDict totalSimSecs).StepsByTxId

namespace PacketRouter

variable {R : PacketRouter} {w w' : World} {d : Delivery} {e : Event} {tr out : List Obs}

/-- The delivery that a slice brings to the contention checks. -/
def arriving? (R : PacketRouter) (w : World) : Event → Option Delivery
  | .start k =>
      match w.tasks[k]? with
      | some (.created d) =>
          match (R.gates (w.without k) d).2 with
          | .passed hexData _ =>
              if wakeAt? w.time { d with hexData := hexData } = none then
                some { d with hexData := hexData }
              else none
          | .stopped _ => none
      | _ => none
  | .wake k =>
      match w.tasks[k]? with
      | some (.sleeping d _ _) => some d
      | _ => none
  | _ => none

/-- A delivery that passes the checks is expected by its packet. -/
def InOrder (R : PacketRouter) (w : World) (e : Event) : Prop :=
  ∀ d ∈ R.arriving? w e, verdict w.channel d = .clear →
    ∀ tracer ∈ w.tracer, tracer.Expects d.hexData d.txId

instance (R : PacketRouter) (w : World) (e : Event) : Decidable (R.InOrder w e) :=
  inferInstanceAs (Decidable (∀ d ∈ R.arriving? w e, _ → ∀ tracer ∈ w.tracer, _))

/-- The order of the steps is that of the traces. -/
theorem stepsByTxId_world :
    w.StepsByTxId ↔ ∀ tracer ∈ w.tracer, tracer.StepsByTxId := by
  unfold World.StepsByTxId
  simp only [stepsByTxId_toDict, forall_const]

/-! ### One slice -/

/-- A call that goes past its sleep keeps the order, unless it is recorded as a reception that
its packet does not expect. -/
theorem Arrival.stepsByTxId_iff {outcome : Outcome} {after : Option PacketTracer}
    {commands : List Obs} (arrival : Arrival R w d outcome after commands) :
    (∀ tracer ∈ after, tracer.StepsByTxId) ↔
      (∀ tracer ∈ w.tracer, tracer.StepsByTxId) ∧
        (verdict w.channel d = .clear → ∀ tracer ∈ w.tracer, tracer.Expects d.hexData d.txId) := by
  cases current : w.tracer with
  | none => cases arrival <;> simp [current]
  | some tracer =>
      cases arrival with
      | halfduplex blockerTxId decided =>
          simp [current, decided, PacketTracer.stepsByTxId_recordHalfduplex]
      | collision interferer interfererTxId overlapS decided =>
          simp [current, decided, PacketTracer.stepsByTxId_recordCollision]
      | rx decided agent => simp [current, decided, PacketTracer.stepsByTxId_recordRx]
      | noReceiver decided missing =>
          simp [current, decided, PacketTracer.stepsByTxId_recordRx]

/-- A transmission adds no hops. -/
theorem stepsByTxId_transmitted (sender : NodeName) (hexData : String) :
    (∀ tracer ∈ (R.transmitted w sender hexData).tracer, tracer.StepsByTxId) ↔
      ∀ tracer ∈ w.tracer, tracer.StepsByTxId := by
  unfold transmitted traceTx
  cases w.tracer with
  | none => exact Iff.rfl
  | some tracer => simp [PacketTracer.stepsByTxId_recordTx]

/-- A slice leaves the steps in order when they are in order and the slice meets the
condition. -/
theorem Slice.stepsByTxId_iff (slice : Slice R w e w' out) :
    w'.StepsByTxId ↔ w.StepsByTxId ∧ R.InOrder w e := by
  rw [stepsByTxId_world, stepsByTxId_world]
  -- A slice that brings nothing to the checks meets the condition.
  have silent (nothing : R.arriving? w e = none) :
      (∀ tracer ∈ w.tracer, tracer.StepsByTxId) ↔
        (∀ tracer ∈ w.tracer, tracer.StepsByTxId) ∧ R.InOrder w e := by
    refine (and_iff_left fun d arrives => ?_).symm
    rw [nothing] at arrives
    cases arrives
  cases slice with
  | tick => exact silent rfl
  | alone sender hexData => exact (stepsByTxId_transmitted sender hexData).trans (silent rfl)
  | announced sender hexData => exact (stepsByTxId_transmitted sender hexData).trans (silent rfl)
  | notify => exact silent rfl
  | resume => exact silent rfl
  | stopped k d outcome task gate => exact silent (by simp only [arriving?, task, gate])
  | asleep k d hexData corrupted t task gate sleeps =>
      refine silent ?_
      simp only [arriving?, task, gate, sleeps]
      rfl
  | through k d hexData corrupted outcome after commands task gate awake arrival =>
      have arrives : R.arriving? w (.start k) = some { d with hexData := hexData } := by
        simp only [arriving?, task, gate, awake, if_true]
      unfold InOrder
      rw [arrives]
      simpa using arrival.stepsByTxId_iff
  | woken k d corrupted t outcome after commands task due arrival =>
      have arrives : R.arriving? w (.wake k) = some d := by
        simp only [arriving?, task]
      unfold InOrder
      rw [arrives]
      simpa using arrival.stepsByTxId_iff
  | drain => exact silent rfl

/-! ### Whole runs -/

/-- In every run from a fresh tracer, the steps of the trace that can be written at the end are
the hops of every packet, grouped by `tx_id` and listed in the order of the ids, just when every
reception that the run has recorded was of a transmission that the packet had a hop of, or of one
with a larger id than these. -/
theorem steps_ordered_iff (R : PacketRouter) (time : ℚ) (channel : Option ChannelModel)
    (w : World) (tr : List Obs) (run : Run R.step anyStep (R.init time (some .init) channel) w tr) :
    w.StepsByTxId ↔ Run R.step R.InOrder (R.init time (some .init) channel) w tr := by
  have start : (R.init time (some .init) channel).StepsByTxId := by
    rw [stepsByTxId_world]
    intro tracer fresh entry mem
    cases fresh
    cases mem
  constructor
  · intro ordered
    induction run with
    | start => exact .start
    | next before _ stepped ih =>
        obtain ⟨orderedBefore, inOrder⟩ := (step_slice stepped).stepsByTxId_iff.mp ordered
        exact (ih orderedBefore).next inOrder stepped
  · intro inOrderRun
    refine inOrderRun.invariant (I := fun w _ => w.StepsByTxId) start ?_
    intro s tr e s' out _ ordered inOrder stepped
    exact (step_slice stepped).stepsByTxId_iff.mpr ⟨ordered, inOrder⟩

/-- A relay that hears `alice` with a latency of 500 ms, and `bob` at once. -/
def slowPair : TopologyConfig where
  nodes := ["alice", "bob", "relay"].map .named
  edges := [⟨"alice", "relay", 0, 500, 6, none, none⟩, ⟨"bob", "relay", 0, 0, 6, none, none⟩]
  simulation := ⟨0, 0, 0, 0, 0, "", none, none⟩
  radio := some .default

/-- The `tx_id`s of the hops of each packet. -/
def recordedIds (w : World) : List (List (Option ℕ)) :=
  (w.tracer.map fun tracer => tracer.traces.values.map (·.hops.map HopRecord.txId)).getD []

/-- `bob` repeats the packet of `alice` when the relay has received it. -/
theorem steps_ordered_iff_slowPair :
    ∃ R channel w tr, PacketRouter.ofConfig? slowPair .zero = some R ∧
      R.channel = some channel ∧
      Run R.step anyStep (R.init 0 (some .init) (some channel)) w tr ∧
      recordedIds w = [[some 1, some 2]] ∧ w.StepsByTxId := by
  have found : ((PacketRouter.ofConfig? slowPair .zero).any fun R => R.channel.any fun channel =>
      (exec (restrict R.step R.InOrder) (R.init 0 (some .init) (some channel))
        [.onTx "alice" "0500", .notify 0, .resume 0, .start 0, .tick 1, .wake 0,
          .onTx "bob" "0500", .notify 0, .resume 0, .start 0, .tick 2, .wake 0]).any
        fun r => recordedIds r.1 = [[some 1, some 2]]) = true := by
    decide +kernel
  obtain ⟨R, channel, router, model, found⟩ := exists_wired found
  obtain ⟨w, tr, inOrder, ids⟩ := Run.of_exec_any found
  have run : Run R.step anyStep (R.init 0 (some .init) (some channel)) w tr :=
    inOrder.mono fun _ _ _ => trivial
  exact ⟨R, channel, w, tr, router, model, run, of_decide_eq_true ids,
    (steps_ordered_iff R 0 (some channel) w tr run).mpr inOrder⟩

/-- In every run the steps are the hops of every packet, listed in the order of the ids. -/
def StepsOrdered (R : PacketRouter) (time : ℚ) (channel : Option ChannelModel) : Prop :=
  ∀ w tr, Run R.step anyStep (R.init time (some .init) channel) w tr → w.StepsByTxId

/-- `bob` repeats the packet while that of `alice` is still on its way to the relay. -/
theorem not_stepsOrdered :
    ∃ R channel, PacketRouter.ofConfig? slowPair .zero = some R ∧ R.channel = some channel ∧
      ¬ R.StepsOrdered 0 (some channel) := by
  have found : ((PacketRouter.ofConfig? slowPair .zero).any fun R => R.channel.any fun channel =>
      (exec (restrict R.step anyStep) (R.init 0 (some .init) (some channel))
        [.onTx "alice" "0500", .notify 0, .resume 0, .start 0, .tick (1 / 4),
          .onTx "bob" "0500", .notify 0, .resume 0, .start 1, .tick (1 / 2), .wake 1, .tick 1,
          .wake 0]).any
        fun r => recordedIds r.1 = [[some 2, some 1]] ∧
          ¬ ∀ tracer ∈ r.1.tracer, ∀ entry ∈ tracer.traces.entries,
            ByTxId (stepsOf entry.2.hops)) = true := by
    decide +kernel
  obtain ⟨R, channel, router, model, found⟩ := exists_wired found
  obtain ⟨w, tr, run, checked⟩ := Run.of_exec_any found
  refine ⟨R, channel, router, model, fun claim => ?_⟩
  exact (of_decide_eq_true checked).2 (stepsByTxId_world.mp (claim w tr run))

end PacketRouter

end MeshcoreSim
