import MeshcoreSim.SimNode

/-!
Acknowledgements that come late.

Each attempt of a message may get an acknowledgement of its own, and they may arrive in any order.
A node only matches that of the latest attempt.

* `believed_iff` — an acknowledged message is neither retried nor reported as failed exactly when
  no acknowledgement of an earlier attempt is the last that arrives before a timeout: where an
  attempt is acknowledged, the latest one is before the next timeout.
* `late_ack` — a message that is acknowledged after its first retry and is reported as failed.
-/

namespace MeshcoreSim

/-- The acknowledgement that an attempt expects. -/
def Effect.ack? : Effect → Option UInt32
  | .send _ _ _ expectedAck => some expectedAck
  | .emit _ => none

/-- A message is retried or reported as failed. -/
def Effect.Alarm (effect : Effect) : Prop :=
  effect = .emit (.log .deliveryFailed) ∨ ∃ attempt, effect = .emit (.log (.ackTimeout attempt))

namespace SimNode

def Call.isSend : Call → Bool
  | .sendTextTo _ _ _ => true
  | .processAck _ _ | .onSendTimeout _ => false

/-- Acknowledgements one after the other, each with the chat stack at its turn. -/
def ackCalls (acks : List (ChatMesh × UInt32)) : List Call :=
  acks.map fun a => .processAck a.1 a.2

/-- The acknowledgements that the attempts of the calls expect. -/
def expectedAcks (cs : List Call) : List UInt32 := (init.calls cs).2.filterMap Effect.ack?

/-- Once the acknowledgement of an attempt is processed, and no failure was reported before, the
message is neither retried nor reported as failed. -/
def Believed (cs : List Call) : Prop :=
  ∀ before mesh receivedCrc after, cs = before ++ .processAck mesh receivedCrc :: after →
    receivedCrc ∈ expectedAcks before → .emit (.log .deliveryFailed) ∉ (init.calls before).2 →
    ∀ effect ∈ ((init.calls before).1.calls (.processAck mesh receivedCrc :: after)).2,
      ¬ effect.Alarm

/-- Where an attempt of the pending message is acknowledged, its latest attempt is acknowledged
before the next timeout. -/
def LatestAcked (cs : List Call) : Prop :=
  ∀ before acks mesh after msg, cs = before ++ ackCalls acks ++ .onSendTimeout mesh :: after →
    (init.calls before).1.pendingMsg = some msg → (∃ a ∈ acks, a.2 ∈ expectedAcks before) →
    ∃ a ∈ acks, a.2 = msg.expectedAck

variable {node : SimNode} {cs before after : List Call} {msg : PendingMsg}
  {acks : List (ChatMesh × UInt32)}

/-! ### Calls without alarm -/

/-- Without a pending message nothing happens until the next text. -/
theorem calls_idle (noSend : cs.countP Call.isSend = 0) : init.calls cs = (init, []) := by
  induction cs with
  | nil => rfl
  | cons c cs ih =>
      obtain ⟨rest, other⟩ : cs.countP Call.isSend = 0 ∧ c.isSend = false := by
        simpa [List.countP_cons] using noSend
      have quiet : init.call c = (init, []) := by
        cases c with
        | sendTextTo mesh destPubHex text => cases other
        | processAck mesh receivedCrc => rfl
        | onSendTimeout mesh => rfl
      rw [calls_cons, quiet, ih rest]
      rfl

/-- An acknowledgement never alarms. -/
theorem ackCalls_quiet (node : SimNode) (acks : List (ChatMesh × UInt32)) :
    ∀ effect ∈ (node.calls (ackCalls acks)).2, ¬ effect.Alarm := by
  induction acks generalizing node with
  | nil => exact nofun
  | cons a acks ih =>
      intro effect mem
      rcases List.mem_append.mp mem with first | later
      · rcases processAck_eq node a.1 a.2 with
          ⟨msg, -, -, -, printed⟩ | ⟨-, eq⟩
        · obtain rfl : effect = .emit (.log (.ackConfirmed msg.attempt)) := by
            simpa [call, printed] using first
          simp [Effect.Alarm]
        · simp only [eq, List.not_mem_nil] at first
      · exact ih _ effect later

/-- Acknowledgements that the message does not expect change nothing. -/
theorem ackCalls_unexpected (pending : node.pendingMsg = some msg)
    (unexpected : ∀ a ∈ acks, a.2 ≠ msg.expectedAck) :
    node.calls (ackCalls acks) = (node, []) := by
  induction acks with
  | nil => rfl
  | cons a acks ih =>
      have ignored : node.call (.processAck a.1 a.2) = (node, []) := by
        rcases processAck_eq node a.1 a.2 with
          ⟨msg', pending', expected, -⟩ | ⟨-, eq⟩
        · cases pending.symm.trans pending'
          exact absurd expected (unexpected a List.mem_cons_self)
        · simp [call, eq]
      change (node.calls (.processAck a.1 a.2 :: ackCalls acks)) = _
      simp only [calls, ignored, ih fun a' mem => unexpected a' (List.mem_cons_of_mem _ mem),
        List.nil_append]

/-- The expected acknowledgement ends the message. -/
theorem ackCalls_expected (pending : node.pendingMsg = some msg)
    (expected : ∃ a ∈ acks, a.2 = msg.expectedAck) :
    (node.calls (ackCalls acks)).1 = init := by
  induction acks with
  | nil => simp at expected
  | cons a acks ih =>
      change (node.calls (.processAck a.1 a.2 :: ackCalls acks)).1 = _
      rcases processAck_eq node a.1 a.2 with
        ⟨msg', -, -, ends, -⟩ | ⟨unexpected, eq⟩
      · have rest : init.calls (ackCalls acks) = (init, []) :=
          calls_idle (by simp [ackCalls, Call.isSend, List.countP_eq_zero])
        simp only [calls, call, ends, rest]
      · have later : ∃ a ∈ acks, a.2 = msg.expectedAck := by
          obtain ⟨a', mem, same⟩ := expected
          rcases List.mem_cons.mp mem with rfl | mem
          · exact absurd same (unexpected msg pending)
          · exact ⟨a', mem, same⟩
        simp only [calls, call, eq, ih later]

/-- A timeout of a pending message alarms. -/
theorem onSendTimeout_alarm (pending : node.pendingMsg = some msg) (mesh : ChatMesh) :
    ∃ effect ∈ (node.onSendTimeout mesh).2, effect.Alarm := by
  rcases onSendTimeout_eq mesh pending with
    ⟨-, eq⟩ | ⟨-, _, _, -, eq⟩ | ⟨-, -, rest, eq, -⟩
  · exact ⟨.emit (.log .deliveryFailed), by simp [eq], Or.inl rfl⟩
  · exact ⟨.emit (.log (.ackTimeout (msg.attempt + 1))), by simp [eq], Or.inr ⟨_, rfl⟩⟩
  · exact ⟨.emit (.log (.ackTimeout (msg.attempt + 1))), by simp [eq], Or.inr ⟨_, rfl⟩⟩

/-- Nothing follows a reported failure until the next text. -/
theorem calls_failed (noSend : cs.countP Call.isSend = 0)
    (failed : .emit (.log .deliveryFailed) ∈ (node.calls cs).2) : (node.calls cs).1 = init := by
  induction cs generalizing node with
  | nil => exact absurd failed nofun
  | cons c cs ih =>
      obtain ⟨rest, other⟩ : cs.countP Call.isSend = 0 ∧ c.isSend = false := by
        simpa [List.countP_cons] using noSend
      rw [calls_cons] at failed ⊢
      rcases List.mem_append.mp failed with first | later
      · have ended : (node.call c).1 = init := by
          cases c with
          | sendTextTo mesh destPubHex text => cases other
          | processAck mesh receivedCrc =>
              exact absurd (Or.inl rfl) (ackCalls_quiet node [(mesh, receivedCrc)] _
                (by simpa [ackCalls, calls] using first))
          | onSendTimeout mesh =>
              cases pending : node.pendingMsg with
              | none => simp [call, onSendTimeout_idle mesh pending] at first
              | some msg =>
                  rcases onSendTimeout_eq mesh pending with
                    ⟨-, eq⟩ | ⟨-, _, _, -, eq⟩ | ⟨-, -, rest, eq, -⟩
                  · simp [call, eq]
                  · simp [call, eq] at first
                  · simp [call, eq]
        rw [ended, calls_idle rest]
      · exact ih rest later

/-! ### One text -/

/-- A message that is pending has not failed, if it is the only one. -/
theorem not_failed_of_pending (one : cs.countP Call.isSend ≤ 1)
    (pending : (init.calls cs).1.pendingMsg = some msg) :
    .emit (.log .deliveryFailed) ∉ (init.calls cs).2 := by
  induction cs with
  | nil => exact nofun
  | cons c cs ih =>
      rw [calls_cons] at pending ⊢
      rw [List.countP_cons] at one
      cases c with
      | sendTextTo mesh destPubHex text =>
          have rest : cs.countP Call.isSend = 0 := by simpa [Call.isSend] using one
          intro failed
          rcases sendTextTo_eq init mesh destPubHex text with
            ⟨expectedAck, target, -, -, eq⟩ | ⟨-, line, refusal, eq⟩
          · have later : .emit (.log .deliveryFailed) ∈
                ((init.call (.sendTextTo mesh destPubHex text)).1.calls cs).2 := by
              simpa [call, eq] using failed
            rw [calls_failed rest later] at pending
            cases pending
          · simp only [call, eq, calls_idle rest] at pending
            cases pending
      | processAck mesh receivedCrc =>
          exact ih (by simpa [Call.isSend] using one) pending
      | onSendTimeout mesh => exact ih (by simpa [Call.isSend] using one) pending

/-- A message of which an attempt is known was sent. -/
theorem sent_of_expectedAcks {expectedAck : UInt32} (expected : expectedAck ∈ expectedAcks cs) :
    cs.countP Call.isSend ≠ 0 := by
  intro noSend
  simp [expectedAcks, calls_idle noSend] at expected

/-- Calls without another text begin with some acknowledgements, up to the next timeout. -/
theorem exists_acks (noSend : cs.countP Call.isSend = 0) :
    ∃ acks rest, cs = ackCalls acks ++ rest ∧
      (rest = [] ∨ ∃ mesh rest', rest = .onSendTimeout mesh :: rest') := by
  induction cs with
  | nil => exact ⟨[], [], rfl, Or.inl rfl⟩
  | cons c cs ih =>
      obtain ⟨fewer, other⟩ : cs.countP Call.isSend = 0 ∧ c.isSend = false := by
        simpa [List.countP_cons] using noSend
      cases c with
      | sendTextTo mesh destPubHex text => cases other
      | processAck mesh receivedCrc =>
          obtain ⟨acks, rest, rfl, ends⟩ := ih fewer
          exact ⟨(mesh, receivedCrc) :: acks, rest, rfl, ends⟩
      | onSendTimeout mesh => exact ⟨[], _, rfl, Or.inr ⟨mesh, cs, rfl⟩⟩

/-- If the latest attempt is acknowledged in time, an acknowledged message is believed. -/
theorem LatestAcked.believed (one : cs.countP Call.isSend = 1) (latest : LatestAcked cs) :
    Believed cs := by
  rintro before mesh receivedCrc after rfl expected - effect mem
  have sent := sent_of_expectedAcks expected
  have noSend : (Call.processAck mesh receivedCrc :: after).countP Call.isSend = 0 := by
    rw [List.countP_append] at one
    omega
  obtain ⟨acks, rest, split, ends⟩ : ∃ acks rest,
      after = ackCalls acks ++ rest ∧
        (rest = [] ∨ ∃ mesh rest', rest = .onSendTimeout mesh :: rest') :=
    exists_acks (by simpa [Call.isSend] using noSend)
  have whole : .processAck mesh receivedCrc :: after =
      ackCalls ((mesh, receivedCrc) :: acks) ++ rest := by
    rw [split]
    rfl
  rw [whole, calls_append] at mem
  rcases List.mem_append.mp mem with acked | later
  · exact ackCalls_quiet _ _ effect acked
  · rcases ends with rfl | ⟨mesh', rest', rfl⟩
    · cases later
    · -- Before this timeout the message has ended.
      have ended : ((init.calls before).1.calls (ackCalls ((mesh, receivedCrc) :: acks))).1 =
          init := by
        cases pending : (init.calls before).1.pendingMsg with
        | none =>
            rw [eq_init pending, calls_idle (by simp [ackCalls, Call.isSend, List.countP_eq_zero])]
        | some msg =>
            apply ackCalls_expected pending
            exact latest before _ mesh' rest' msg (by rw [whole, List.append_assoc]) pending
              ⟨_, List.mem_cons_self, expected⟩
      rw [whole, List.countP_append] at noSend
      rw [ended, calls_idle (by omega)] at later
      cases later

/-- If an acknowledged message is believed, the latest attempt is acknowledged in time. -/
theorem Believed.latestAcked (one : cs.countP Call.isSend = 1) (believed : Believed cs) :
    LatestAcked cs := by
  rintro before acks mesh after msg rfl pending ⟨a, mem, expected⟩
  by_contra unexpected
  push Not at unexpected
  obtain ⟨earlier, later, rfl⟩ := List.append_of_mem mem
  have kept : (init.calls (before ++ ackCalls earlier)) = init.calls before := by
    rw [calls_append, ackCalls_unexpected pending fun a' mem' =>
      unexpected a' (List.mem_append_left _ mem')]
    simp
  have sent : (before ++ ackCalls earlier).countP Call.isSend ≤ 1 := by
    simp only [List.countP_append, ackCalls, List.map_append] at one ⊢
    omega
  have quiet := believed (before ++ ackCalls earlier) a.1 a.2
    (ackCalls later ++ .onSendTimeout mesh :: after) (by simp [ackCalls])
    (by simpa [expectedAcks, kept] using expected)
    (not_failed_of_pending sent (by rw [kept]; exact pending))
  -- The message is still pending when the timeout comes.
  have whole : .processAck a.1 a.2 :: (ackCalls later ++ .onSendTimeout mesh :: after) =
      ackCalls (a :: later) ++ .onSendTimeout mesh :: after := rfl
  rw [kept, whole, calls_append, ackCalls_unexpected pending fun a' mem' =>
    unexpected a' (List.mem_append_right _ mem')] at quiet
  obtain ⟨effect, printed, alarm⟩ := onSendTimeout_alarm pending mesh
  exact quiet effect (by simp [calls_cons, call, printed]) alarm

/-- For one text and any acknowledgements and timeouts, in any order: an acknowledged message is
neither retried nor reported as failed exactly when, where an attempt is acknowledged, the latest
attempt is acknowledged before the next timeout. -/
theorem believed_iff (cs : List Call) (one : cs.countP Call.isSend = 1) :
    Believed cs ↔ LatestAcked cs :=
  ⟨fun believed => believed.latestAcked one, fun latest => latest.believed one⟩

/-- A message whose first retry is acknowledged before the next timeout. -/
theorem believed_retryAck :
    Believed [.sendTextTo smallMesh (ascii "b0") (ascii "hi"), .onSendTimeout smallMesh,
      .processAck smallMesh 0xB01, .onSendTimeout smallMesh] := by
  apply (believed_iff _ (by decide)).mpr
  rintro before acks mesh after msg split pending ⟨a, mem, -⟩
  obtain ⟨b, acks, rfl⟩ := List.exists_cons_of_ne_nil (List.ne_nil_of_mem mem)
  have latest : ((init.calls [.sendTextTo smallMesh (ascii "b0") (ascii "hi"),
      .onSendTimeout smallMesh]).1.pendingMsg.map PendingMsg.expectedAck) = some 0xB01 := by
    decide +kernel
  rcases before with _ | ⟨first, _ | ⟨second, _ | ⟨third, before⟩⟩⟩
  · simp [ackCalls] at split
  · simp [ackCalls] at split
  · -- The acknowledgement is behind the timeout.
    simp only [ackCalls, List.map_cons, List.cons_append, List.nil_append, List.cons.injEq,
      Call.processAck.injEq] at split
    obtain ⟨rfl, rfl, ⟨-, received⟩, -⟩ := split
    rw [pending, Option.map_some] at latest
    exact ⟨b, List.mem_cons_self, received.symm.trans (Option.some.inj latest).symm⟩
  · cases before <;> simp [ackCalls] at split

/-- Every acknowledged message is believed. -/
def AlwaysBelieved : Prop := ∀ cs : List Call, cs.countP Call.isSend = 1 → Believed cs

/-- The acknowledgement of the first attempt comes after the first retry. The node retries twice
more and reports a failure. -/
theorem late_ack : ¬ AlwaysBelieved := by
  intro claim
  let sent : List Call :=
    [.sendTextTo smallMesh (ascii "b0") (ascii "hi"), .onSendTimeout smallMesh]
  let timeouts : List Call := .replicate 3 (.onSendTimeout smallMesh)
  have quiet := claim (sent ++ .processAck smallMesh 0xB00 :: timeouts) (by decide) sent
    smallMesh 0xB00 timeouts rfl (by decide) (by decide)
  exact quiet (.emit (.log .deliveryFailed)) (by decide) (Or.inl rfl)

end SimNode

end MeshcoreSim
