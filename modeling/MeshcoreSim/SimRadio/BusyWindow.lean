import MeshcoreSim.Lib.Run
import MeshcoreSim.SimRadio

/-!
The radio of a node over any sequence of calls (`node_agent/SimRadio.cpp`).

The calls of a run come at non-decreasing times of the millisecond clock. Its observations are the
notifications, the starts of transmissions and the calls of `isSendComplete` that return true.

* `tracked` — one deadline stands for all notifications, and `txPending` for the last start that
  is not yet complete.
* `busy_window` — what `isReceiving` and `isSendComplete` return.
-/

namespace MeshcoreSim.SimRadio

open Lib

inductive RadioCall where
  | notifyRxStart (durationMs : ℕ)
  | enqueue (packet : IncomingPacket)
  | recvRaw
  | startSendRaw (len : ℕ)
  | isSendComplete

inductive RadioObs where
  | notified (millis durationMs : ℕ)
  | started (millis len : ℕ)
  /-- `isSendComplete` has returned true. -/
  | completed (millis : ℕ)
  deriving DecidableEq

/-- One call. -/
def call (radio : SimRadio) (millis : ℕ) : RadioCall → SimRadio × List RadioObs
  | .notifyRxStart durationMs =>
      (radio.notifyRxStart millis durationMs, [.notified millis durationMs])
  | .enqueue packet => (radio.enqueue packet, [])
  | .recvRaw => (radio.recvRaw, [])
  | .startSendRaw len => (radio.startSendRaw millis len, [.started millis len])
  | .isSendComplete =>
      ((radio.isSendComplete millis).1,
        if (radio.isSendComplete millis).2 then [.completed millis] else [])

/-- A radio and the time of its last call. -/
structure Timed where
  radio : SimRadio
  millis : ℕ

/-- A call at a time, which is not before that of the last one. -/
def Timed.step (timed : Timed) (e : ℕ × RadioCall) : Option (Timed × List RadioObs) :=
  if e.1 < timed.millis then none
  else some (⟨(timed.radio.call e.1 e.2).1, e.1⟩, (timed.radio.call e.1 e.2).2)

/-- The transmission that is pending after some observations: the time and the length of the last
one that has been started, unless it is complete. -/
def pendingTx (tr : List RadioObs) : Option (ℕ × ℕ) :=
  tr.foldl (fun pending o =>
    match o with
    | .notified _ _ => pending
    | .started millis len => some (millis, len)
    | .completed _ => none) none

/-- The time is in the on-air window of one of the notifications. -/
def Notified (tr : List RadioObs) (millis : ℕ) : Prop :=
  ∃ since durationMs, .notified since durationMs ∈ tr ∧ since ≤ millis ∧ millis < since + durationMs

@[simp] theorem pendingTx_nil : pendingTx [] = none := rfl

@[simp] theorem pendingTx_notified (tr : List RadioObs) (millis durationMs : ℕ) :
    pendingTx (tr ++ [.notified millis durationMs]) = pendingTx tr := by
  simp [pendingTx]

@[simp] theorem pendingTx_started (tr : List RadioObs) (millis len : ℕ) :
    pendingTx (tr ++ [.started millis len]) = some (millis, len) := by
  simp [pendingTx]

@[simp] theorem pendingTx_completed (tr : List RadioObs) (millis : ℕ) :
    pendingTx (tr ++ [.completed millis]) = none := by
  simp [pendingTx]

/-- What is pending after a completion has been started since. -/
theorem started_of_pendingTx {before between : List RadioObs} {millis start len : ℕ}
    (pending : pendingTx (before ++ .completed millis :: between) = some (start, len)) :
    .started start len ∈ between := by
  induction between using List.reverseRecOn with
  | nil => simp at pending
  | append_singleton between last ih =>
      rw [← List.cons_append, ← List.append_assoc] at pending
      cases last with
      | notified =>
          rw [pendingTx_notified] at pending
          exact List.mem_append_left _ (ih pending)
      | started =>
          rw [pendingTx_started] at pending
          cases pending
          simp
      | completed =>
          rw [pendingTx_completed] at pending
          cases pending

/-- The state of a radio after some observations, whose estimates are those of `origin`: its two
deadlines, and what has been completed. -/
structure Tracked (origin : SimRadio) (timed : Timed) (tr : List RadioObs) : Prop where
  modem : ∀ len, timed.radio.getEstAirtimeFor len = origin.getEstAirtimeFor len
  active : ∀ millis, millis < timed.radio.rxActiveUntil ↔
    ∃ since durationMs, .notified since durationMs ∈ tr ∧ millis < since + durationMs
  past : ∀ since durationMs, .notified since durationMs ∈ tr → since ≤ timed.millis
  pending : timed.radio.txPending = (pendingTx tr).isSome
  doneAt : ∀ since len, pendingTx tr = some (since, len) →
    timed.radio.txDoneAt = since + origin.getEstAirtimeFor len
  completed : ∀ before millis after, tr = before ++ .completed millis :: after →
    ∃ since len, pendingTx before = some (since, len) ∧
      since + origin.getEstAirtimeFor len ≤ millis

variable {radio origin : SimRadio} {timed : Timed} {tr : List RadioObs} {millis : ℕ}

@[simp] theorem notifyRxStart_frame (durationMs : ℕ) :
    (radio.notifyRxStart millis durationMs).txPending = radio.txPending ∧
      (radio.notifyRxStart millis durationMs).txDoneAt = radio.txDoneAt ∧
      (radio.notifyRxStart millis durationMs).getEstAirtimeFor = radio.getEstAirtimeFor := by
  unfold notifyRxStart
  simp only
  split <;> exact ⟨rfl, rfl, rfl⟩

@[simp] theorem recvRaw_frame :
    radio.recvRaw.txPending = radio.txPending ∧ radio.recvRaw.txDoneAt = radio.txDoneAt ∧
      radio.recvRaw.getEstAirtimeFor = radio.getEstAirtimeFor := by
  unfold recvRaw
  split <;> exact ⟨rfl, rfl, rfl⟩

/-- A call of `isSendComplete` that returns true ends a transmission that is due, and any other
changes nothing. -/
theorem isSendComplete_cases (radio : SimRadio) (millis : ℕ) :
    radio.isSendComplete millis = (radio, false) ∨
      radio.txPending = true ∧ radio.txDoneAt ≤ millis ∧
        radio.isSendComplete millis = ({ radio with txPending := false }, true) := by
  unfold isSendComplete
  split
  · exact .inl rfl
  · rename_i sending
    split
    · exact .inl rfl
    · rename_i due
      exact .inr ⟨by simpa using sending, not_lt.mp due, rfl⟩

/-- A trace with one more observation splits at the new one or at an older one. -/
theorem split_concat {o o' : RadioObs} {before after : List RadioObs}
    (whole : tr ++ [o] = before ++ o' :: after) :
    before = tr ∧ o' = o ∨ ∃ after', tr = before ++ o' :: after' := by
  rcases List.eq_nil_or_concat after with rfl | ⟨after', last, rfl⟩
  · obtain ⟨same, last⟩ := List.append_inj' whole rfl
    exact .inl ⟨same.symm, (List.singleton_inj.mp last).symm⟩
  · refine .inr ⟨after', ?_⟩
    rw [List.concat_eq_append, ← List.cons_append, ← List.append_assoc] at whole
    exact (List.append_inj' whole rfl).1

namespace Tracked

/-- A call that concerns neither deadline. -/
theorem silent (tracked : Tracked origin timed tr) (later : timed.millis ≤ millis)
    (modem : radio.getEstAirtimeFor = timed.radio.getEstAirtimeFor)
    (active : radio.rxActiveUntil = timed.radio.rxActiveUntil)
    (pending : radio.txPending = timed.radio.txPending)
    (doneAt : radio.txDoneAt = timed.radio.txDoneAt) : Tracked origin ⟨radio, millis⟩ tr where
  modem len := by rw [modem, tracked.modem]
  active millis := by rw [active, tracked.active]
  past since durationMs mem := (tracked.past since durationMs mem).trans later
  pending := pending.trans tracked.pending
  doneAt since len started := doneAt.trans (tracked.doneAt since len started)
  completed := tracked.completed

/-- A notification moves the deadline of the busy window. -/
theorem notified (tracked : Tracked origin timed tr) (later : timed.millis ≤ millis)
    (durationMs : ℕ) : Tracked origin ⟨timed.radio.notifyRxStart millis durationMs, millis⟩
      (tr ++ [.notified millis durationMs]) where
  modem len := by
    rw [(notifyRxStart_frame durationMs).2.2, tracked.modem]
  active now := by
    rw [notifyRxStart_rxActiveUntil, lt_max_iff, tracked.active]
    constructor
    · rintro (⟨since, duration, mem, within⟩ | within)
      · exact ⟨since, duration, List.mem_append_left _ mem, within⟩
      · exact ⟨millis, durationMs, by simp, within⟩
    · rintro ⟨since, duration, mem, within⟩
      rcases List.mem_append.mp mem with old | new
      · exact .inl ⟨since, duration, old, within⟩
      · cases List.mem_singleton.mp new
        exact .inr within
  past since duration mem := by
    rcases List.mem_append.mp mem with old | new
    · exact (tracked.past since duration old).trans later
    · cases List.mem_singleton.mp new
      exact le_rfl
  pending := by
    rw [pendingTx_notified]
    exact (notifyRxStart_frame durationMs).1.trans tracked.pending
  doneAt since len started := by
    rw [pendingTx_notified] at started
    exact (notifyRxStart_frame durationMs).2.1.trans (tracked.doneAt since len started)
  completed before now after whole := by
    rcases split_concat whole with ⟨-, other⟩ | ⟨after', earlier⟩
    · cases other
    · exact tracked.completed before now after' earlier

/-- A start sets the deadline of the transmission. -/
theorem started (tracked : Tracked origin timed tr) (later : timed.millis ≤ millis) (len : ℕ) :
    Tracked origin ⟨timed.radio.startSendRaw millis len, millis⟩
      (tr ++ [.started millis len]) where
  modem := tracked.modem
  active now := by simpa [startSendRaw] using tracked.active now
  past since duration mem := by
    have old : .notified since duration ∈ tr := by simpa using mem
    exact (tracked.past since duration old).trans later
  pending := by rw [pendingTx_started]; rfl
  doneAt since len' begun := by
    rw [pendingTx_started] at begun
    cases begun
    exact congrArg (millis + ·) (tracked.modem len)
  completed before now after whole := by
    rcases split_concat whole with ⟨-, other⟩ | ⟨after', earlier⟩
    · cases other
    · exact tracked.completed before now after' earlier

/-- A completion ends a transmission whose deadline has passed. -/
theorem ended (tracked : Tracked origin timed tr) (later : timed.millis ≤ millis)
    (sending : timed.radio.txPending = true) (due : timed.radio.txDoneAt ≤ millis) :
    Tracked origin ⟨{ timed.radio with txPending := false }, millis⟩
      (tr ++ [.completed millis]) where
  modem := tracked.modem
  active now := by simpa using tracked.active now
  past since duration mem := by
    have old : .notified since duration ∈ tr := by simpa using mem
    exact (tracked.past since duration old).trans later
  pending := by rw [pendingTx_completed]; rfl
  doneAt since len begun := by
    rw [pendingTx_completed] at begun
    cases begun
  completed before now after whole := by
    rcases split_concat whole with ⟨rfl, same⟩ | ⟨after', earlier⟩
    · cases same
      obtain ⟨⟨since, len⟩, begun⟩ :=
        Option.isSome_iff_exists.mp (tracked.pending.symm.trans sending)
      exact ⟨since, len, begun, tracked.doneAt since len begun ▸ due⟩
    · exact tracked.completed before now after' earlier

/-- What one call keeps. -/
theorem step {timed' : Timed} {e : ℕ × RadioCall} {out : List RadioObs}
    (tracked : Tracked origin timed tr) (stepped : timed.step e = some (timed', out)) :
    Tracked origin timed' (tr ++ out) := by
  obtain ⟨millis, c⟩ := e
  unfold Timed.step at stepped
  split at stepped
  · cases stepped
  · rename_i notBefore
    have later : timed.millis ≤ millis := not_lt.mp notBefore
    cases stepped
    cases c with
    | notifyRxStart durationMs => exact tracked.notified later durationMs
    | enqueue packet =>
        simp only [call, List.append_nil]
        exact tracked.silent later rfl rfl rfl rfl
    | recvRaw =>
        simp only [call, List.append_nil]
        exact tracked.silent later recvRaw_frame.2.2 recvRaw_rxActiveUntil recvRaw_frame.1
          recvRaw_frame.2.1
    | startSendRaw len => exact tracked.started later len
    | isSendComplete =>
        simp only [call]
        rcases timed.radio.isSendComplete_cases millis with same | ⟨sending, due, done⟩
        · simp only [same, Bool.false_eq_true, if_false, List.append_nil]
          exact tracked.silent later rfl rfl rfl rfl
        · simp only [done, if_true]
          exact tracked.ended later sending due

end Tracked

theorem tracked {sf bwHz cr : ℤ} {since : ℕ}
    (run : Run Timed.step anyStep ⟨init sf bwHz cr, since⟩ timed tr) :
    Tracked (init sf bwHz cr) timed tr := by
  refine run.invariant ?_ fun _ _ _ _ _ _ tracked _ stepped => tracked.step stepped
  refine ⟨fun _ => rfl, ?_, ?_, rfl, ?_, ?_⟩
  · simp [init]
  · simp
  · simp
  · simp

/-- In every run, at every later time: while no transmission is pending and the queue is empty,
`isReceiving` is true exactly in the windows of the notifications so far; while one is pending, it
is false. `isSendComplete` returns true only for a transmission that is pending, not before its
estimated airtime has passed, and not again before the next one is started. -/
theorem busy_window {sf bwHz cr : ℤ} {since : ℕ}
    (run : Run Timed.step anyStep ⟨init sf bwHz cr, since⟩ timed tr) :
    (∀ later, timed.millis ≤ later →
      (pendingTx tr = none → timed.radio.rxQueue = [] →
        (timed.radio.isReceiving later = true ↔ Notified tr later)) ∧
      ((pendingTx tr).isSome → timed.radio.isReceiving later = false)) ∧
    (∀ before millis after, tr = before ++ .completed millis :: after →
      ∃ start len, pendingTx before = some (start, len) ∧
        start + (init sf bwHz cr).getEstAirtimeFor len ≤ millis) ∧
    ∀ before millis between millis' after,
      tr = before ++ .completed millis :: between ++ .completed millis' :: after →
        ∃ start len, .started start len ∈ between := by
  have state := tracked run
  refine ⟨fun later notBefore => ⟨fun idle empty => ?_, fun pending => ?_⟩, state.completed, ?_⟩
  · have notSending : timed.radio.txPending = false := by
      rw [state.pending, idle]
      rfl
    have receiving : timed.radio.isReceiving later = true ↔ later < timed.radio.rxActiveUntil := by
      simp [isReceiving, notSending, empty]
    rw [receiving, state.active]
    constructor
    · rintro ⟨start, durationMs, mem, within⟩
      exact ⟨start, durationMs, mem, (state.past start durationMs mem).trans notBefore, within⟩
    · rintro ⟨start, durationMs, mem, -, within⟩
      exact ⟨start, durationMs, mem, within⟩
  · have sending : timed.radio.txPending = true := state.pending.trans pending
    simp [isReceiving, sending]
  · intro before millis between millis' after twice
    obtain ⟨start, len, pending, -⟩ := state.completed _ millis' after twice
    exact ⟨start, len, started_of_pendingTx pending⟩

/-- Two neighbours transmit, and the packet of the second one ends first. At 1000 ms the node is
still receiving. -/
theorem busy_window_overlap :
    ∃ timed, Run Timed.step anyStep ⟨init 8 62500 4, 0⟩ timed
        [.notified 0 1099, .notified 500 411] ∧ timed.radio.isReceiving 1000 = true := by
  let calls : List (ℕ × RadioCall) := [(0, .notifyRxStart 1099), (500, .notifyRxStart 411)]
  have replay : exec Timed.step ⟨init 8 62500 4, 0⟩ calls =
      some (⟨{ init 8 62500 4 with rxActiveUntil := 1099 }, 500⟩,
        [.notified 0 1099, .notified 500 411]) := rfl
  have run := Run.of_exec_step replay
  have window := (((busy_window run).1 1000 (by decide)).1 rfl rfl).mpr
    ⟨0, 1099, by decide, by decide, by decide⟩
  exact ⟨_, run, window⟩

end MeshcoreSim.SimRadio
