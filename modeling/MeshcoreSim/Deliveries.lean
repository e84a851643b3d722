import MeshcoreSim.Config
import MeshcoreSim.Hex
import MeshcoreSim.Lib.Json

/-!
Message tracking of the simulation (`orchestrator/metrics.py`), the part of `MetricsCollector`
that the traffic generator and the events of the nodes write.

Texts are kept as the code points of their Python strings.

* `completed_of_carries` — a message is completed by the first event with exactly its text.
-/

namespace MeshcoreSim

open Lib

structure SendRecord where
  sender : NodeName
  destPub : List ℕ
  text : List ℕ
  sentAt : ℚ
  receivedAt : Option ℚ
  receivedBy : Option NodeName

structure DeliveryMetrics where
  pending : Dict (List ℕ) SendRecord
  completed : List SendRecord
  channelSent : ℕ
  channelRecv : ℕ
  ackConfirmed : ℕ
  ackRetries : ℕ
  ackFailed : ℕ

namespace DeliveryMetrics

/-- `MetricsCollector.__init__`. -/
def init : DeliveryMetrics := ⟨.empty, [], 0, 0, 0, 0, 0⟩

variable (m : DeliveryMetrics) (now : ℚ)

def recordSendAttempt (sender : NodeName) (destPub text : List ℕ) : DeliveryMetrics :=
  { m with pending := m.pending.set text ⟨sender, destPub, text, now, none, none⟩ }

def recordChannelSend : DeliveryMetrics := { m with channelSent := m.channelSent + 1 }

/-- A text has arrived at a node. -/
def receiveText (nodeName : NodeName) (text : List ℕ) : DeliveryMetrics :=
  match m.pending.get? text with
  | some record =>
      { m with
        pending := m.pending.erase text
        completed := m.completed ++
          [{ record with receivedAt := some now, receivedBy := some nodeName }] }
  | none => m

/-- A node has logged the outcome of an attempt. -/
def receiveLog (msg : List ℕ) : DeliveryMetrics :=
  if points "ACK confirmed" <+: msg then { m with ackConfirmed := m.ackConfirmed + 1 }
  else if points "ACK timeout" <+: msg then { m with ackRetries := m.ackRetries + 1 }
  else if points "msg delivery failed" <+: msg then { m with ackFailed := m.ackFailed + 1 }
  else m

/-- `on_event`. A text or a message that is no string, which no node prints, is skipped. -/
def onEvent (nodeName : NodeName) (event : JsonValue) : DeliveryMetrics :=
  match event.get? (points "type") with
  | some (.string etype) =>
      if etype = points "recv_text" then
        match (event.get? (points "text")).getD (.string []) with
        | .string text => m.receiveText now nodeName text
        | _ => m
      else if etype = points "recv_channel" then { m with channelRecv := m.channelRecv + 1 }
      else if etype = points "log" then
        match (event.get? (points "msg")).getD (.string []) with
        | .string msg => m.receiveLog msg
        | _ => m
      else m
  | _ => m

/-! ### Logged outcomes -/

/-- The message of a log event, the empty one if the event has none. -/
def logged? (event : JsonValue) : Option (List ℕ) :=
  match event.get? (points "type") with
  | some (.string etype) =>
      if etype = points "log" then
        match (event.get? (points "msg")).getD (.string []) with
        | .string msg => some msg
        | _ => none
      else none
  | _ => none

/-- A message on a channel has arrived. -/
def receivesChannel (event : JsonValue) : Bool :=
  match event.get? (points "type") with
  | some (.string etype) => etype = points "recv_channel"
  | _ => false

/-- A message does not start with two texts of which neither starts with the other. -/
theorem not_prefix_of_prefix {a b msg : List ℕ} (first : a <+: msg) (apart : ¬ a <+: b)
    (apart' : ¬ b <+: a) : ¬ b <+: msg := fun second =>
  (List.prefix_or_prefix_of_prefix first second).elim apart apart'

/-- Each outcome is counted with the messages that start with its text. -/
theorem receiveLog_eq (m : DeliveryMetrics) (msg : List ℕ) :
    (m.receiveLog msg).ackConfirmed =
        m.ackConfirmed + (decide (points "ACK confirmed" <+: msg)).toNat ∧
      (m.receiveLog msg).ackRetries =
        m.ackRetries + (decide (points "ACK timeout" <+: msg)).toNat ∧
      (m.receiveLog msg).ackFailed =
        m.ackFailed + (decide (points "msg delivery failed" <+: msg)).toNat := by
  unfold receiveLog
  split_ifs with confirmed timeout failed
  · have noTimeout := not_prefix_of_prefix confirmed (b := points "ACK timeout")
      (by decide) (by decide)
    have noFailure := not_prefix_of_prefix confirmed (b := points "msg delivery failed")
      (by decide) (by decide)
    simp [confirmed, noTimeout, noFailure]
  · have noFailure := not_prefix_of_prefix timeout (b := points "msg delivery failed")
      (by decide) (by decide)
    simp [confirmed, timeout, noFailure]
  · simp [confirmed, timeout, failed]
  · simp [confirmed, timeout, failed]

/-- What an event adds to the outcomes and to the messages on channels. -/
theorem onEvent_eq (m : DeliveryMetrics) (now : ℚ) (nodeName : NodeName) (event : JsonValue) :
    (m.onEvent now nodeName event).ackConfirmed = m.ackConfirmed +
        ((logged? event).any fun msg => points "ACK confirmed" <+: msg).toNat ∧
      (m.onEvent now nodeName event).ackRetries = m.ackRetries +
        ((logged? event).any fun msg => points "ACK timeout" <+: msg).toNat ∧
      (m.onEvent now nodeName event).ackFailed = m.ackFailed +
        ((logged? event).any fun msg => points "msg delivery failed" <+: msg).toNat ∧
      (m.onEvent now nodeName event).channelSent = m.channelSent ∧
      (m.onEvent now nodeName event).channelRecv =
        m.channelRecv + (receivesChannel event).toNat := by
  have text (m : DeliveryMetrics) (body : List ℕ) :
      (m.receiveText now nodeName body).ackConfirmed = m.ackConfirmed ∧
        (m.receiveText now nodeName body).ackRetries = m.ackRetries ∧
        (m.receiveText now nodeName body).ackFailed = m.ackFailed ∧
        (m.receiveText now nodeName body).channelSent = m.channelSent ∧
        (m.receiveText now nodeName body).channelRecv = m.channelRecv := by
    unfold receiveText
    split <;> exact ⟨rfl, rfl, rfl, rfl, rfl⟩
  have log (m : DeliveryMetrics) (msg : List ℕ) :
      (m.receiveLog msg).channelSent = m.channelSent ∧
        (m.receiveLog msg).channelRecv = m.channelRecv := by
    unfold receiveLog
    split_ifs <;> exact ⟨rfl, rfl⟩
  unfold onEvent logged? receivesChannel
  split
  · rename_i etype _
    by_cases isText : etype = points "recv_text"
    · subst isText
      simp only [if_pos, show points "recv_text" ≠ points "log" by decide, if_false,
        show points "recv_text" ≠ points "recv_channel" by decide]
      split <;> simp [text]
    · by_cases isChannel : etype = points "recv_channel"
      · subst isChannel
        simp [show points "recv_channel" ≠ points "log" by decide,
          show points "recv_channel" ≠ points "recv_text" by decide]
      · by_cases isLog : etype = points "log"
        · subst isLog
          simp only [isText, isChannel, if_false, if_true, decide_false]
          cases (event.get? (points "msg")).getD (.string []) <;> simp [receiveLog_eq, log]
        · simp [isText, isChannel, isLog]
  · simp

/-! ### Pending messages -/

/-- A text event with this text, the empty one if the event has none. -/
def Carries (text : List ℕ) (event : JsonValue) : Prop :=
  event.get? (points "type") = some (.string (points "recv_text")) ∧
    (event.get? (points "text")).getD (.string []) = .string text

variable {m : DeliveryMetrics} {now : ℚ} {nodeName : NodeName} {event : JsonValue}
  {text : List ℕ} {record : SendRecord}

theorem onEvent_of_carries (carries : Carries text event) :
    m.onEvent now nodeName event = m.receiveText now nodeName text := by
  simp [onEvent, carries.1, carries.2]

/-- Any other event leaves the message alone. -/
theorem pending_onEvent (other : ¬ Carries text event) :
    (m.onEvent now nodeName event).pending.get? text = m.pending.get? text := by
  unfold onEvent
  split
  · rename_i etype type
    split_ifs with isText _ _
    · split
      · rename_i text' body
        have different : text ≠ text' := by
          rintro rfl
          exact other ⟨by rw [type, isText], body⟩
        unfold receiveText
        split
        · simp [Dict.get?_erase, different]
        · rfl
      · rfl
    · rfl
    · split
      · unfold receiveLog
        split_ifs <;> rfl
      · rfl
    · rfl
  · rfl

/-- What some events of the nodes make of the metrics. -/
def onEvents (m : DeliveryMetrics) (events : List (ℚ × NodeName × JsonValue)) : DeliveryMetrics :=
  events.foldl (fun m (now, nodeName, event) => m.onEvent now nodeName event) m

theorem pending_onEvents {events : List (ℚ × NodeName × JsonValue)}
    (others : ∀ e ∈ events, ¬ Carries text e.2.2) :
    (m.onEvents events).pending.get? text = m.pending.get? text := by
  induction events generalizing m with
  | nil => rfl
  | cons e events ih =>
      have rest := @ih (m.onEvent e.1 e.2.1 e.2.2) fun e mem =>
        others e (List.mem_cons_of_mem _ mem)
      exact rest.trans (pending_onEvent (others e List.mem_cons_self))

/-- A message that has been sent is completed, and no longer pending, with the first event that
carries its text. -/
theorem completed_of_carries {sender : NodeName} {destPub : List ℕ} {sentAt : ℚ}
    {events : List (ℚ × NodeName × JsonValue)} (others : ∀ e ∈ events, ¬ Carries text e.2.2)
    (carries : Carries text event) :
    let sent := (m.recordSendAttempt sentAt sender destPub text).onEvents events
    let done := sent.onEvent now nodeName event
    done.completed =
        sent.completed ++ [⟨sender, destPub, text, sentAt, some now, some nodeName⟩] ∧
      done.pending.get? text = none := by
  intro sent done
  have pending : sent.pending.get? text = some ⟨sender, destPub, text, sentAt, none, none⟩ := by
    rw [pending_onEvents others]
    exact Dict.get?_set_self _ _ _
  have received : done = sent.receiveText now nodeName text := onEvent_of_carries carries
  rw [received]
  unfold receiveText
  rw [pending]
  exact ⟨rfl, by simp [Dict.get?_erase]⟩

end DeliveryMetrics

end MeshcoreSim
