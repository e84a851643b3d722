import Mathlib.Data.List.Infix
import Mathlib.Data.List.Perm.Subperm
import MeshcoreSim.SimNode

/-!
What becomes of the texts that `sendTextTo` has accepted.

A `Tracker` is a node beside the texts that it has promised to track. A text is due from the call
of `sendTextTo` that returned true for it, and each text on its own until the acknowledgement of
its latest attempt arrives, its retries are exhausted or a retry is not sent. The due texts are
computed from the calls and the answers of the chat stack, not from what the node has kept.

* `pending_sendTextTo`, `pending_processAck`, `pending_onSendTimeout` — the slot of a node follows
  the rules for due texts, apart from a text that is accepted while another one is pending.
* `noneLost_iff` — the node tracks every due text in every state of a run exactly when no text is
  accepted while another one is pending.
* `forwarding_loses` — a room server that forwards a post to two contacts keeps track of the
  second text only.
-/

namespace MeshcoreSim

/-- A text that is to be tracked, as of its latest attempt: the acknowledgement that the chat stack
expects for it, if it was sent. -/
structure DueText where
  expectedAck : Option UInt32
  destPubHex : Bytes
  text : Bytes
  attempt : ℕ
  deriving DecidableEq

/-- What a timeout makes of a due text: the next attempt, if there is one and it is sent. -/
def DueText.retry (mesh : ChatMesh) (due : DueText) : Option DueText :=
  if due.attempt < ackMaxRetries then
    (mesh.attempt due.destPubHex due.text (due.attempt + 1)).map fun expectedAck =>
      { due with expectedAck := some expectedAck, attempt := due.attempt + 1 }
  else none

def PendingMsg.due (msg : PendingMsg) : DueText :=
  ⟨some msg.expectedAck, msg.destPubHex, msg.text, msg.attempt⟩

namespace SimNode

/-- The text in the slot of a node. -/
def pending (node : SimNode) : List DueText := node.pendingMsg.toList.map PendingMsg.due

/-- A node, and the texts that it has to track. -/
structure Tracker where
  node : SimNode
  due : List DueText

/-- No text is pending when another one is accepted. -/
def OneAtATime (node : SimNode) : Call → Prop
  | .sendTextTo mesh destPubHex text =>
      (mesh.attempt destPubHex text 0).isSome → node.pendingMsg = none
  | .processAck _ _ | .onSendTimeout _ => True

instance (node : SimNode) : (c : Call) → Decidable (node.OneAtATime c)
  | .sendTextTo _ _ _ => inferInstanceAs (Decidable (_ → _))
  | .processAck _ _ | .onSendTimeout _ => inferInstanceAs (Decidable True)

namespace Tracker

def init : Tracker := ⟨SimNode.init, []⟩

variable (t : Tracker)

/-- The due texts after a call. -/
def dueAfter : Call → List DueText
  | .sendTextTo mesh destPubHex text =>
      if (t.node.sendTextTo mesh destPubHex text).2.2 then
        t.due ++ [⟨mesh.attempt destPubHex text 0, destPubHex, text, 0⟩]
      else t.due
  | .processAck _ receivedCrc => t.due.filter fun due => due.expectedAck ≠ some receivedCrc
  | .onSendTimeout mesh => t.due.filterMap (DueText.retry mesh)

def call (c : Call) : Tracker := ⟨(t.node.call c).1, t.dueAfter c⟩

/-- Calls one after the other. -/
def calls (cs : List Call) : Tracker := cs.foldl call t

/-- Every due text is tracked. -/
structure NoneLost : Prop where
  /-- each has a place of its own -/
  kept : t.due.Subperm t.node.pending
  /-- the acknowledgement of its latest attempt confirms it -/
  matched : ∀ due ∈ t.due, ∀ crc, due.expectedAck = some crc → ∀ mesh,
    (t.node.processAck mesh crc).2.1 = [.emit (.log (.ackConfirmed due.attempt))]
  /-- a timeout sends it once more while there are retries -/
  retried : ∀ due ∈ t.due, ∀ mesh crc, due.attempt < ackMaxRetries →
    mesh.attempt due.destPubHex due.text (due.attempt + 1) = some crc →
    ∃ target, .send target (UInt8.ofNat (due.attempt + 1)) due.text crc ∈
      (t.node.onSendTimeout mesh).2

end Tracker

/-! ### The slot -/

variable {node : SimNode} {msg : PendingMsg} {due : DueText}

theorem pending_of_some (slot : node.pendingMsg = some msg) : node.pending = [msg.due] := by
  rw [pending, slot]
  rfl

theorem pending_of_none (slot : node.pendingMsg = none) : node.pending = [] := by
  rw [pending, slot]
  rfl

theorem pending_eq_nil : node.pending = [] ↔ node.pendingMsg = none := by
  cases slot : node.pendingMsg with
  | none => exact iff_of_true (pending_of_none slot) rfl
  | some msg =>
      rw [pending_of_some slot]
      exact iff_of_false (List.cons_ne_nil _ _) (Option.some_ne_none msg)

/-- The text in the slot, as a message. -/
theorem mem_pending (mem : due ∈ node.pending) :
    ∃ msg, node.pendingMsg = some msg ∧ due = msg.due := by
  obtain ⟨msg, inSlot, rfl⟩ := List.mem_map.mp mem
  exact ⟨msg, Option.mem_toList.mp inSlot, rfl⟩

/-- An accepted text takes the slot. -/
theorem pending_sendTextTo (node : SimNode) (mesh : ChatMesh) (destPubHex text : Bytes) :
    (node.sendTextTo mesh destPubHex text).2.2 = (mesh.attempt destPubHex text 0).isSome ∧
      (node.sendTextTo mesh destPubHex text).1.pending =
        if (node.sendTextTo mesh destPubHex text).2.2 then
          [⟨mesh.attempt destPubHex text 0, destPubHex, text, 0⟩]
        else node.pending := by
  rcases sendTextTo_eq node mesh destPubHex text with
    ⟨expectedAck, target, -, sent, eq⟩ | ⟨refused, line, -, eq⟩
  · rw [eq, sent]
    exact ⟨rfl, rfl⟩
  · rw [eq, refused]
    exact ⟨rfl, rfl⟩

/-- An acknowledgement takes a text that expects it out of the slot, and no other one. -/
theorem pending_processAck (mesh : ChatMesh) (receivedCrc : UInt32) :
    (node.processAck mesh receivedCrc).1.pending =
      node.pending.filter fun due => due.expectedAck ≠ some receivedCrc := by
  rcases processAck_eq node mesh receivedCrc with ⟨msg, slot, rfl, ends, -⟩ | ⟨unexpected, eq⟩
  · have none : [msg.due].filter (fun due => due.expectedAck ≠ some msg.expectedAck) = [] :=
      List.filter_eq_nil_iff.mpr fun due mem => by simp [List.mem_singleton.mp mem, PendingMsg.due]
    rw [ends, pending_of_some slot, none]
    rfl
  · rw [eq]
    refine (List.filter_eq_self.mpr fun due mem => ?_).symm
    obtain ⟨msg, slot, rfl⟩ := mem_pending mem
    have other := unexpected msg slot
    simpa [PendingMsg.due] using other.symm

/-- A timeout puts the next attempt into the slot, if there is one and it is sent. -/
theorem pending_onSendTimeout (mesh : ChatMesh) :
    (node.onSendTimeout mesh).1.pending = node.pending.filterMap (DueText.retry mesh) := by
  cases slot : node.pendingMsg with
  | none =>
      rw [onSendTimeout_idle mesh slot, pending_of_none slot]
      rfl
  | some msg =>
      rw [pending_of_some slot, List.filterMap_cons, List.filterMap_nil]
      rcases onSendTimeout_eq mesh slot with
        ⟨last, eq⟩ | ⟨more, expectedAck, target, sent, eq⟩ | ⟨more, unsent, rest, eq, -⟩
      · have none : msg.due.retry mesh = none := if_neg (Nat.not_lt.mpr (Nat.le_of_lt_succ last))
        rw [eq, none]
        rfl
      · have next : msg.due.retry mesh =
            some ⟨some expectedAck, msg.destPubHex, msg.text, msg.attempt + 1⟩ := by
          rw [DueText.retry, if_pos (show msg.due.attempt < ackMaxRetries from more)]
          simp only [PendingMsg.due, sent, Option.map_some]
        rw [eq, next]
        rfl
      · have none : msg.due.retry mesh = none := by
          rw [DueText.retry, if_pos (show msg.due.attempt < ackMaxRetries from more)]
          simp only [PendingMsg.due, unsent, Option.map_none]
        rw [eq, none]
        rfl

/-! ### The text in the slot is tracked -/

theorem matched_of_pending (mem : due ∈ node.pending) {crc : UInt32}
    (expected : due.expectedAck = some crc) (mesh : ChatMesh) :
    (node.processAck mesh crc).2.1 = [.emit (.log (.ackConfirmed due.attempt))] := by
  obtain ⟨msg, slot, rfl⟩ := mem_pending mem
  obtain rfl := Option.some.inj expected
  rcases processAck_eq node mesh msg.expectedAck with
    ⟨msg', slot', -, -, confirms⟩ | ⟨unexpected, -⟩
  · obtain rfl := Option.some.inj (slot.symm.trans slot')
    exact confirms
  · exact absurd rfl (unexpected msg slot)

theorem retried_of_pending (mem : due ∈ node.pending) {mesh : ChatMesh} {crc : UInt32}
    (more : due.attempt < ackMaxRetries)
    (sent : mesh.attempt due.destPubHex due.text (due.attempt + 1) = some crc) :
    ∃ target, .send target (UInt8.ofNat (due.attempt + 1)) due.text crc ∈
      (node.onSendTimeout mesh).2 := by
  obtain ⟨msg, slot, rfl⟩ := mem_pending mem
  rcases onSendTimeout_eq mesh slot with
    ⟨last, -⟩ | ⟨-, expectedAck, target, sent', eq⟩ | ⟨-, unsent, -⟩
  · exact absurd last (Nat.not_lt.mpr more)
  · obtain rfl := Option.some.inj (sent.symm.trans sent')
    rw [eq]
    exact ⟨target, List.mem_cons_of_mem _ List.mem_cons_self⟩
  · cases sent.symm.trans unsent

namespace Tracker

variable {t : Tracker} {c : Call} {cs : List Call}

theorem noneLost_of_subperm (kept : t.due.Subperm t.node.pending) : t.NoneLost where
  kept := kept
  matched _ mem _ expected mesh := matched_of_pending (kept.subset mem) expected mesh
  retried _ mem _ _ more sent := retried_of_pending (kept.subset mem) more sent

theorem calls_concat : t.calls (cs ++ [c]) = (t.calls cs).call c := List.foldl_concat ..

/-! ### What holds in every run -/

/-- What is pending is due, whatever was lost before. -/
theorem pending_subset_step (sound : t.node.pending ⊆ t.due) :
    (t.call c).node.pending ⊆ (t.call c).due := by
  cases c with
  | sendTextTo mesh destPubHex text =>
      have slot := (pending_sendTextTo t.node mesh destPubHex text).2
      simp only [call, SimNode.call, slot, dueAfter]
      split_ifs
      · exact List.subset_append_right _ _
      · exact sound
  | processAck mesh receivedCrc =>
      simp only [call, SimNode.call, pending_processAck, dueAfter]
      exact List.filter_subset _ sound
  | onSendTimeout mesh =>
      simp only [call, SimNode.call, pending_onSendTimeout, dueAfter]
      exact List.filterMap_subset _ sound

theorem pending_subset (cs : List Call) :
    (init.calls cs).node.pending ⊆ (init.calls cs).due := by
  induction cs using List.reverseRecOn with
  | nil => exact List.Subset.refl _
  | append_singleton cs c ih =>
      rw [calls_concat]
      exact pending_subset_step ih

/-- While no text is accepted on top of another one, the slot holds what is due. -/
theorem subperm_step (kept : t.due.Subperm t.node.pending) (alone : t.node.OneAtATime c) :
    (t.call c).due.Subperm (t.call c).node.pending := by
  cases c with
  | sendTextTo mesh destPubHex text =>
      obtain ⟨returned, slot⟩ := pending_sendTextTo t.node mesh destPubHex text
      simp only [call, SimNode.call, slot, dueAfter]
      split_ifs with accepted
      · have idle := pending_of_none (alone (returned.symm.trans accepted))
        rw [idle, List.subperm_nil] at kept
        rw [kept]
        exact .refl _
      · exact kept
  | processAck mesh receivedCrc =>
      simp only [call, SimNode.call, pending_processAck, dueAfter]
      exact kept.filter _
  | onSendTimeout mesh =>
      simp only [call, SimNode.call, pending_onSendTimeout, dueAfter]
      obtain ⟨due, perm, sublist⟩ := kept
      exact ⟨_, perm.filterMap _, sublist.filterMap _⟩

/-- A text that is accepted while another one is due leaves no place for one of the two. -/
theorem oneAtATime_of_subperm (sound : t.node.pending ⊆ t.due)
    (kept : (t.call c).due.Subperm (t.call c).node.pending) : t.node.OneAtATime c := by
  cases c with
  | sendTextTo mesh destPubHex text =>
      intro sent
      obtain ⟨returned, slot⟩ := pending_sendTextTo t.node mesh destPubHex text
      have accepted := returned.trans sent
      simp only [call, SimNode.call, slot, dueAfter, if_pos accepted] at kept
      have noOther : t.due = [] := by
        have places := kept.length_le
        rw [List.length_append, List.length_singleton] at places
        exact List.eq_nil_of_length_eq_zero (by omega)
      rw [noOther] at sound
      exact pending_eq_nil.mp (List.subset_nil.mp sound)
  | processAck mesh receivedCrc => trivial
  | onSendTimeout mesh => trivial

/-- Every due text is tracked in every state of a run exactly when no text is accepted while another
one is pending. The calls of a run are `sendTextTo`, those of a forwarding loop among them,
`processAck` and `onSendTimeout`, with any answers of the chat stack. -/
theorem noneLost_iff (cs : List Call) :
    (∀ before, before <+: cs → (init.calls before).NoneLost) ↔
      ∀ before c, before ++ [c] <+: cs → (init.calls before).node.OneAtATime c := by
  constructor
  · intro tracked before c isPrefix
    have kept := (tracked _ isPrefix).kept
    rw [calls_concat] at kept
    exact oneAtATime_of_subperm (pending_subset before) kept
  · intro careful before isPrefix
    apply noneLost_of_subperm
    induction before using List.reverseRecOn with
    | nil => exact .refl _
    | append_singleton before c ih =>
        rw [calls_concat]
        exact subperm_step (ih ((List.prefix_append before [c]).trans isPrefix))
          (careful before c isPrefix)

/-- A text that is retried and then acknowledged is no longer due. -/
example : (init.calls [.sendTextTo smallMesh (ascii "b0") (ascii "hi"), .onSendTimeout smallMesh,
    .processAck smallMesh 0xB01]).due = [] := by decide +kernel

/-! ### A room server with two subscribers -/

/-- The forwarding loop sends the post "hi" of `alice` to `bob` and to `carol`; both texts are due,
and the slot holds the second one. -/
theorem forwarding_loses : ¬ ∀ cs before, before <+: cs → (init.calls before).NoneLost := by
  intro claim
  let cs := forwardCalls alice (forwarded alice (ascii "hi"))
    [(alice, smallMesh), (bob, smallMesh), (carol, smallMesh)]
  have places := (claim cs cs List.prefix_rfl).kept.length_le
  exact absurd places (by decide +kernel)

end Tracker

end SimNode

end MeshcoreSim
