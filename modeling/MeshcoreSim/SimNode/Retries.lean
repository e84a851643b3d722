import MeshcoreSim.Lib.Run
import MeshcoreSim.SimNode

/-!
The retry discipline of `sendTextTo`, `processAck` and `onSendTimeout`.

A `Retrier` is a node that counts the messages that `sendTextTo` has accepted; the message that
is pending is the last one of them. Its journal holds each call of `sendMessage` for such a
message, sent or not, and each "msg delivery failed" that is logged.

* `call_withSend`, `sendMessageAttempt_eq_some` — which calls of the node call `sendMessage`.
* `retry_discipline` — in every run, a message is attempted with the numbers 0, 1, 2, ... in
  order and at most `ackMaxRetries + 1` times, it fails only after all of them, and once it has
  ended only the next accepted message can change anything.
-/

namespace MeshcoreSim.SimNode

open Lib

variable {node : SimNode} {mesh : ChatMesh} {msg : PendingMsg}

/-- The attempt number with which a call of the node calls `sendMessage`, if it does: both
callers first decode the destination and look the contact up. -/
def sendMessageAttempt (node : SimNode) : Call → Option ℕ
  | .sendTextTo mesh destPubHex _ =>
      if hexToBytes destPubHex = [] then none
      else (mesh.lookupContactByPubKey (hexToBytes destPubHex)).map fun _ => 0
  | .processAck _ _ => none
  | .onSendTimeout mesh =>
      match node.pendingMsg with
      | none => none
      | some msg =>
          if msg.attempt + 1 > ackMaxRetries then none
          else if hexToBytes msg.destPubHex = [] then none
          else (mesh.lookupContactByPubKey (hexToBytes msg.destPubHex)).map fun _ =>
            msg.attempt + 1

/-- The same call, with other answers of `sendMessage`. -/
def Call.withSend (sendMessage : Contact → UInt8 → Bytes → Option UInt32) : Call → Call
  | .sendTextTo mesh destPubHex text => .sendTextTo { mesh with sendMessage } destPubHex text
  | .processAck mesh receivedCrc => .processAck { mesh with sendMessage } receivedCrc
  | .onSendTimeout mesh => .onSendTimeout { mesh with sendMessage }

/-- `sendTextTo` accepts the message. -/
def Call.Accepts : Call → Prop
  | .sendTextTo mesh destPubHex text => (mesh.attempt destPubHex text 0).isSome
  | .processAck _ _ | .onSendTimeout _ => False

instance : ∀ c : Call, Decidable c.Accepts
  | .sendTextTo _ _ _ => inferInstanceAs (Decidable (_ = true))
  | .processAck _ _ | .onSendTimeout _ => inferInstanceAs (Decidable False)

/-- A call without an attempt does not depend on what `sendMessage` answers. -/
theorem call_withSend {c : Call} (unasked : node.sendMessageAttempt c = none)
    (sendMessage : Contact → UInt8 → Bytes → Option UInt32) :
    node.call (c.withSend sendMessage) = node.call c := by
  cases c with
  | sendTextTo mesh destPubHex text =>
      simp only [sendMessageAttempt] at unasked
      unfold Call.withSend call sendTextTo
      split at unasked
      · rename_i invalid
        simp only [if_pos invalid]
      · rename_i valid
        simp only [if_neg valid, Option.map_eq_none_iff.mp unasked]
  | processAck mesh receivedCrc => rfl
  | onSendTimeout mesh =>
      simp only [sendMessageAttempt] at unasked
      unfold Call.withSend call onSendTimeout
      cases pending : node.pendingMsg with
      | none => rfl
      | some msg =>
          simp only [pending] at unasked
          simp only
          split at unasked
          · rename_i last
            simp only [if_pos last]
          · rename_i more
            split at unasked
            · rename_i invalid
              simp only [if_neg more, if_pos invalid]
            · rename_i valid
              simp only [if_neg more, if_neg valid, Option.map_eq_none_iff.mp unasked]

/-- A call with an attempt sends the message with that attempt number, or logs that it could
not. -/
theorem sendMessageAttempt_eq_some {c : Call} {attempt : ℕ}
    (asked : node.sendMessageAttempt c = some attempt) :
    (∃ target text expectedAck,
      .send target (UInt8.ofNat attempt) text expectedAck ∈ (node.call c).2) ∨
    .emit (.log .sendFailed) ∈ (node.call c).2 ∨ .emit (.log .retryFailed) ∈ (node.call c).2 := by
  cases c with
  | sendTextTo mesh destPubHex text =>
      simp only [sendMessageAttempt] at asked
      split at asked
      · cases asked
      rename_i valid
      obtain ⟨target, known, rfl⟩ := Option.map_eq_some_iff.mp asked
      unfold call sendTextTo
      simp only [if_neg valid, known]
      cases mesh.sendMessage target 0 text with
      | none => exact .inr (.inl List.mem_cons_self)
      | some expectedAck => exact .inl ⟨target, text, expectedAck, List.mem_cons_self⟩
  | processAck mesh receivedCrc => cases asked
  | onSendTimeout mesh =>
      simp only [sendMessageAttempt] at asked
      split at asked
      · cases asked
      rename_i msg pending
      split at asked
      · cases asked
      rename_i more
      split at asked
      · cases asked
      rename_i valid
      obtain ⟨target, known, rfl⟩ := Option.map_eq_some_iff.mp asked
      unfold call onSendTimeout
      simp only [pending, if_neg more, if_neg valid, known]
      cases mesh.sendMessage target (UInt8.ofNat (msg.attempt + 1)) msg.text with
      | none => exact .inr (.inr (by simp))
      | some expectedAck => exact .inl ⟨target, msg.text, expectedAck, by simp⟩

/-! ### The journal -/

/-- A node, and how many messages it has accepted. -/
structure Retrier where
  node : SimNode
  accepted : ℕ
  deriving DecidableEq

/-- What the journal holds of the `i`-th accepted message. -/
inductive Entry where
  | sendMessage (i attempt : ℕ)
  | deliveryFailed (i : ℕ)
  deriving DecidableEq

def Entry.attempt? (i : ℕ) : Entry → Option ℕ
  | .sendMessage j attempt => if j = i then some attempt else none
  | .deliveryFailed _ => none

/-- The attempt numbers of the calls of `sendMessage` for a message, in order. -/
def attempts (journal : List Entry) (i : ℕ) : List ℕ := journal.filterMap (Entry.attempt? i)

namespace Retrier

def init : Retrier := ⟨SimNode.init, 0⟩

variable (r : Retrier)

/-- A call of the node. A text that is refused is no tracked message. -/
def step (c : Call) : Option (Retrier × List Entry) :=
  let (node', effects) := r.node.call c
  let asked := (r.node.sendMessageAttempt c).toList
  match c with
  | .sendTextTo _ _ _ =>
      if c.Accepts then some (⟨node', r.accepted + 1⟩, asked.map (.sendMessage (r.accepted + 1)))
      else some (⟨node', r.accepted⟩, [])
  | .processAck _ _ => some (⟨node', r.accepted⟩, [])
  | .onSendTimeout _ =>
      some (⟨node', r.accepted⟩, asked.map (.sendMessage r.accepted) ++
        if .emit (.log .deliveryFailed) ∈ effects then [.deliveryFailed r.accepted] else [])

/-- What a call does, in cases: the accepted message, the call without effect, the retry that is
sent, and the exits by acknowledgement, by the last timeout, by a failed lookup and by a failed
retry. -/
inductive Step (r : Retrier) : Call → Retrier → List Entry → Prop
  | accepted (mesh : ChatMesh) (destPubHex text : Bytes) (expectedAck : UInt32) :
      Step r (.sendTextTo mesh destPubHex text)
        ⟨⟨some ⟨expectedAck, destPubHex, text, 0⟩⟩, r.accepted + 1⟩
        [.sendMessage (r.accepted + 1) 0]
  | quiet (c : Call) : Step r c r []
  | retried (mesh : ChatMesh) (msg : PendingMsg) (expectedAck : UInt32)
      (pending : r.node.pendingMsg = some msg) (more : msg.attempt + 1 ≤ ackMaxRetries) :
      Step r (.onSendTimeout mesh)
        ⟨⟨some { msg with expectedAck := expectedAck, attempt := msg.attempt + 1 }⟩, r.accepted⟩
        [.sendMessage r.accepted (msg.attempt + 1)]
  | exhausted (mesh : ChatMesh) (msg : PendingMsg) (pending : r.node.pendingMsg = some msg)
      (last : ackMaxRetries < msg.attempt + 1) :
      Step r (.onSendTimeout mesh) ⟨SimNode.init, r.accepted⟩ [.deliveryFailed r.accepted]
  | retryFailed (mesh : ChatMesh) (msg : PendingMsg) (pending : r.node.pendingMsg = some msg)
      (more : msg.attempt + 1 ≤ ackMaxRetries) :
      Step r (.onSendTimeout mesh) ⟨SimNode.init, r.accepted⟩
        [.sendMessage r.accepted (msg.attempt + 1)]
  | ended (c : Call) : Step r c ⟨SimNode.init, r.accepted⟩ []

variable {r} {r' : Retrier} {c : Call} {journal out : List Entry} {i : ℕ}

/-- A timeout of a pending message before its last one attempts the next number, if the contact
is found. -/
theorem sendMessageAttempt_onSendTimeout (mesh : ChatMesh) (pending : node.pendingMsg = some msg)
    (more : msg.attempt + 1 ≤ ackMaxRetries) :
    node.sendMessageAttempt (.onSendTimeout mesh) = none ∨
      node.sendMessageAttempt (.onSendTimeout mesh) = some (msg.attempt + 1) := by
  simp only [sendMessageAttempt, pending, if_neg (Nat.not_lt.mpr more)]
  split
  · exact .inl rfl
  · cases mesh.lookupContactByPubKey (hexToBytes msg.destPubHex) with
    | none => exact .inl rfl
    | some target => exact .inr rfl

/-- A text that is sent has a destination that can be decoded, of a known contact. -/
theorem known_of_attempt {destPubHex text : Bytes} {n : ℕ}
    (sent : (mesh.attempt destPubHex text n).isSome) :
    hexToBytes destPubHex ≠ [] ∧
      ∃ target, mesh.lookupContactByPubKey (hexToBytes destPubHex) = some target := by
  unfold ChatMesh.attempt at sent
  split at sent
  · cases sent
  · rename_i valid
    cases known : mesh.lookupContactByPubKey (hexToBytes destPubHex) with
    | none => simp [known] at sent
    | some target => exact ⟨valid, target, rfl⟩

/-- What is sent was asked for. -/
theorem sendMessageAttempt_of_attempt (pending : node.pendingMsg = some msg)
    (more : msg.attempt + 1 ≤ ackMaxRetries)
    (sent : (mesh.attempt msg.destPubHex msg.text (msg.attempt + 1)).isSome) :
    node.sendMessageAttempt (.onSendTimeout mesh) = some (msg.attempt + 1) := by
  obtain ⟨valid, target, known⟩ := known_of_attempt sent
  simp only [sendMessageAttempt, pending, if_neg (Nat.not_lt.mpr more), if_neg valid, known]
  rfl

theorem sendMessageAttempt_sendTextTo {destPubHex text : Bytes}
    (sent : (mesh.attempt destPubHex text 0).isSome) :
    node.sendMessageAttempt (.sendTextTo mesh destPubHex text) = some 0 := by
  obtain ⟨valid, target, known⟩ := known_of_attempt sent
  simp only [sendMessageAttempt, if_neg valid, known]
  rfl

theorem Step.of_step (stepped : r.step c = some (r', out)) : Step r c r' out := by
  cases c with
  | sendTextTo mesh destPubHex text =>
      rcases sendTextTo_eq r.node mesh destPubHex text with
        ⟨expectedAck, target, -, sent, eq⟩ | ⟨refused, line, -, eq⟩
      · have accepts : (mesh.attempt destPubHex text 0).isSome := by simp [sent]
        simp only [step, call, eq, Call.Accepts, if_pos accepts,
          sendMessageAttempt_sendTextTo accepts] at stepped
        obtain ⟨rfl, rfl⟩ := Prod.mk.inj (Option.some.inj stepped)
        exact .accepted mesh destPubHex text expectedAck
      · have refuses : ¬ (mesh.attempt destPubHex text 0).isSome := by simp [refused]
        simp only [step, call, eq, Call.Accepts, if_neg refuses] at stepped
        obtain ⟨rfl, rfl⟩ := Prod.mk.inj (Option.some.inj stepped)
        exact .quiet _
  | processAck mesh receivedCrc =>
      rcases processAck_eq r.node mesh receivedCrc with ⟨msg, -, -, ends, -⟩ | ⟨-, eq⟩
      · simp only [step, call, ends] at stepped
        obtain ⟨rfl, rfl⟩ := Prod.mk.inj (Option.some.inj stepped)
        exact .ended _
      · simp only [step, call, eq] at stepped
        obtain ⟨rfl, rfl⟩ := Prod.mk.inj (Option.some.inj stepped)
        exact .quiet _
  | onSendTimeout mesh =>
      cases pending : r.node.pendingMsg with
      | none =>
          simp only [step, call, onSendTimeout_idle mesh pending, sendMessageAttempt,
            pending] at stepped
          obtain ⟨rfl, rfl⟩ := Prod.mk.inj (Option.some.inj stepped)
          exact .quiet _
      | some msg =>
          rcases onSendTimeout_eq mesh pending with
            ⟨last, eq⟩ | ⟨more, expectedAck, target, sent, eq⟩ | ⟨more, -, rest, eq, logged⟩
          · simp only [step, call, eq, sendMessageAttempt, pending, if_pos last] at stepped
            obtain ⟨rfl, rfl⟩ := Prod.mk.inj (Option.some.inj stepped)
            exact .exhausted mesh msg pending last
          · have asked := sendMessageAttempt_of_attempt pending more (Option.isSome_of_eq_some sent)
            simp only [step, call, eq, asked] at stepped
            obtain ⟨rfl, rfl⟩ := Prod.mk.inj (Option.some.inj stepped)
            exact .retried mesh msg expectedAck pending more
          · have noFailure : Effect.emit (.log .deliveryFailed) ∉
                Effect.emit (.log (.ackTimeout (msg.attempt + 1))) :: rest := by
              rcases logged with rfl | rfl <;> simp
            rcases sendMessageAttempt_onSendTimeout mesh pending more with asked | asked
            · simp only [step, call, eq, asked, if_neg noFailure] at stepped
              obtain ⟨rfl, rfl⟩ := Prod.mk.inj (Option.some.inj stepped)
              exact .ended _
            · simp only [step, call, eq, asked, if_neg noFailure] at stepped
              obtain ⟨rfl, rfl⟩ := Prod.mk.inj (Option.some.inj stepped)
              exact .retryFailed mesh msg pending more

/-! ### What holds in every run -/

@[simp] theorem attempts_append (first second : List Entry) (i : ℕ) :
    attempts (first ++ second) i = attempts first i ++ attempts second i :=
  List.filterMap_append

theorem attempts_sendMessage (i j attempt : ℕ) :
    attempts [.sendMessage j attempt] i = if j = i then [attempt] else [] := by
  unfold attempts Entry.attempt?
  split <;> simp_all

@[simp] theorem attempts_deliveryFailed (i j : ℕ) : attempts [.deliveryFailed j] i = [] := rfl

/-- The attempts of every message are numbered from 0 on, those of the pending message up to its
attempt number, and a message that has failed has made all of them. -/
structure Disciplined (r : Retrier) (journal : List Entry) : Prop where
  bounded : ∀ msg, r.node.pendingMsg = some msg → msg.attempt ≤ ackMaxRetries
  inOrder : ∀ i, ∃ n ≤ ackMaxRetries + 1, attempts journal i = List.range n
  current : ∀ msg, r.node.pendingMsg = some msg →
    attempts journal r.accepted = List.range (msg.attempt + 1)
  fresh : ∀ i, r.accepted < i → attempts journal i = []
  failed : ∀ before after i, journal = before ++ .deliveryFailed i :: after →
    attempts before i = List.range (ackMaxRetries + 1)

/-- One more attempt of the message that was accepted last keeps the numbers in order. -/
theorem Disciplined.inOrder_attempt (kept : Disciplined r journal) {j n : ℕ}
    (atMost : n ≤ ackMaxRetries) (soFar : attempts journal j = List.range n) (i : ℕ) :
    ∃ m ≤ ackMaxRetries + 1, attempts (journal ++ [.sendMessage j n]) i = List.range m := by
  rw [attempts_append, attempts_sendMessage]
  by_cases same : j = i
  · subst same
    refine ⟨n + 1, by omega, ?_⟩
    rw [if_pos rfl, soFar, List.range_succ]
  · rw [if_neg same, List.append_nil]
    exact kept.inOrder i

/-- A failure in a journal that ends with an attempt came before that attempt. -/
theorem Disciplined.failed_attempt (kept : Disciplined r journal) {j n : ℕ}
    (before after : List Entry) (i : ℕ)
    (whole : journal ++ [.sendMessage j n] = before ++ .deliveryFailed i :: after) :
    attempts before i = List.range (ackMaxRetries + 1) := by
  obtain ⟨front, last, rfl⟩ : ∃ front last, after = front ++ [last] := by
    rcases List.eq_nil_or_concat after with rfl | ⟨front, last, rfl⟩
    · have lasts := congrArg List.getLast? whole
      simp at lasts
    · exact ⟨front, last, by simp⟩
  rw [← List.cons_append, ← List.append_assoc] at whole
  exact kept.failed before front i (List.append_inj_left' whole rfl)

theorem Disciplined.fresh_attempt (kept : Disciplined r journal) {j n : ℕ} (i : ℕ)
    (beyond : r.accepted < i) (other : j ≠ i) :
    attempts (journal ++ [.sendMessage j n]) i = [] := by
  rw [attempts_append, attempts_sendMessage, if_neg other, kept.fresh i beyond]
  rfl

theorem Disciplined.step (kept : Disciplined r journal) (taken : Step r c r' out) :
    Disciplined r' (journal ++ out) := by
  cases taken with
  | accepted mesh destPubHex text expectedAck =>
      have soFar := kept.fresh (r.accepted + 1) (Nat.lt_succ_self _)
      refine ⟨?_, ?_, ?_, ?_, fun before after i whole => kept.failed_attempt before after i whole⟩
      · intro msg pending
        cases pending
        exact Nat.zero_le _
      · exact kept.inOrder_attempt (Nat.zero_le _) soFar
      · intro msg pending
        cases pending
        rw [attempts_append, soFar, attempts_sendMessage, if_pos rfl]
        rfl
      · intro i beyond
        have beyond' : r.accepted + 1 < i := beyond
        exact kept.fresh_attempt i (by omega) (by omega)
  | quiet _ => simpa using kept
  | retried mesh msg expectedAck pending more =>
      have soFar := kept.current msg pending
      refine ⟨?_, ?_, ?_, ?_, fun before after i whole => kept.failed_attempt before after i whole⟩
      · intro msg' pending'
        cases pending'
        exact more
      · exact kept.inOrder_attempt more soFar
      · intro msg' pending'
        cases pending'
        rw [attempts_append, soFar, attempts_sendMessage, if_pos rfl, ← List.range_succ]
      · intro i beyond
        exact kept.fresh_attempt i beyond (Nat.ne_of_lt beyond)
  | exhausted mesh msg pending last =>
      have all : attempts journal r.accepted = List.range (ackMaxRetries + 1) := by
        rw [kept.current msg pending]
        have atMost := kept.bounded msg pending
        congr 1
        omega
      refine ⟨nofun, ?_, nofun, ?_, ?_⟩
      · simpa using kept.inOrder
      · simpa using kept.fresh
      · intro before after i whole
        rcases List.eq_nil_or_concat after with rfl | ⟨front, last, rfl⟩
        · obtain ⟨rfl, same⟩ := List.append_inj' whole rfl
          obtain rfl : r.accepted = i := by simpa using same
          exact all
        · rw [List.concat_eq_append, ← List.cons_append, ← List.append_assoc] at whole
          exact kept.failed before front i (List.append_inj_left' whole rfl)
  | retryFailed mesh msg pending more =>
      have soFar := kept.current msg pending
      refine ⟨nofun, kept.inOrder_attempt more soFar, nofun, ?_,
        fun before after i whole => kept.failed_attempt before after i whole⟩
      intro i beyond
      exact kept.fresh_attempt i beyond (Nat.ne_of_lt beyond)
  | ended _ =>
      refine ⟨nofun, ?_, nofun, ?_, ?_⟩
      · simpa using kept.inOrder
      · simpa using kept.fresh
      · simpa using kept.failed

theorem disciplined (run : Run step anyStep init r journal) : Disciplined r journal := by
  refine run.invariant ⟨nofun, fun _ => ⟨0, Nat.zero_le _, rfl⟩, nofun, fun _ _ => rfl, ?_⟩
    fun _ _ _ _ _ _ kept _ stepped => kept.step (.of_step stepped)
  intro before after i whole
  simp at whole

/-! ### The end of a message -/

/-- Where nothing is pending, a call that accepts no message changes nothing. -/
theorem call_idle (idle : node.pendingMsg = none) {c : Call} (refuses : ¬ c.Accepts) :
    (node.call c).1 = node := by
  cases c with
  | sendTextTo mesh destPubHex text =>
      rcases sendTextTo_eq node mesh destPubHex text with
        ⟨expectedAck, target, -, sent, -⟩ | ⟨-, line, -, eq⟩
      · exact absurd (Option.isSome_of_eq_some sent) refuses
      · simp only [call, eq]
  | processAck mesh receivedCrc => simp only [call, processAck, idle]
  | onSendTimeout mesh => simp only [call, onSendTimeout_idle mesh idle]

theorem calls_idle (idle : node.pendingMsg = none) {cs : List Call}
    (refuse : ∀ c ∈ cs, ¬ c.Accepts) : (node.calls cs).1 = node := by
  induction cs with
  | nil => rfl
  | cons c cs ih =>
      rw [calls_cons, call_idle idle (refuse c List.mem_cons_self)]
      exact ih fun c' later => refuse c' (List.mem_cons_of_mem _ later)

/-- A timeout ends the pending message exactly after the last retry or when the text is not sent
again: the destination is no hex string, no contact is found, or `sendMessage` fails. -/
theorem onSendTimeout_ends_iff (pending : node.pendingMsg = some msg)
    (bounded : msg.attempt ≤ ackMaxRetries) (mesh : ChatMesh) :
    (node.onSendTimeout mesh).1.pendingMsg = none ↔
      msg.attempt = ackMaxRetries ∨
        mesh.attempt msg.destPubHex msg.text (msg.attempt + 1) = none := by
  rcases onSendTimeout_eq mesh pending with
    ⟨last, eq⟩ | ⟨more, expectedAck, target, sent, eq⟩ | ⟨more, unsent, rest, eq, -⟩
  · rw [eq]
    exact iff_of_true rfl (.inl (by omega))
  · rw [eq, sent]
    simp only [reduceCtorEq, or_false, false_iff]
    omega
  · rw [eq]
    exact iff_of_true rfl (.inr unsent)

/-- An acknowledgement ends the pending message exactly when the message expects it. -/
theorem processAck_ends_iff (pending : node.pendingMsg = some msg) (mesh : ChatMesh)
    (receivedCrc : UInt32) :
    (node.processAck mesh receivedCrc).1.pendingMsg = none ↔ receivedCrc = msg.expectedAck := by
  rcases processAck_eq node mesh receivedCrc with ⟨msg', same, expected, ends, -⟩ | ⟨other, eq⟩
  · cases pending.symm.trans same
    rw [ends]
    exact iff_of_true rfl expected
  · rw [eq, pending]
    simp only [reduceCtorEq, false_iff]
    exact other msg pending

/-- Retry discipline, in every run of `sendTextTo`, `processAck` and `onSendTimeout` with any
answers of the chat stack. The attempt number of the pending message is at most
`ackMaxRetries`; `sendMessage` is called for a message with the attempt numbers 0, 1, 2, ... in
this order and at most `ackMaxRetries + 1` times; "msg delivery failed" comes after exactly that
many of them. The pending message ends with the acknowledgement that it expects, with the
timeout after its last retry or with one that cannot send it again; from then on timeouts and
acknowledgements do nothing, until `sendTextTo` accepts the next message. -/
theorem retry_discipline (run : Run step anyStep init r journal) :
    (∀ msg, r.node.pendingMsg = some msg → msg.attempt ≤ ackMaxRetries) ∧
    (∀ i, ∃ n ≤ ackMaxRetries + 1, attempts journal i = List.range n) ∧
    (∀ before after i, journal = before ++ .deliveryFailed i :: after →
      attempts before i = List.range (ackMaxRetries + 1)) ∧
    (∀ msg, r.node.pendingMsg = some msg → ∀ mesh,
      ((r.node.onSendTimeout mesh).1.pendingMsg = none ↔ msg.attempt = ackMaxRetries ∨
        mesh.attempt msg.destPubHex msg.text (msg.attempt + 1) = none) ∧
      ∀ receivedCrc, (r.node.processAck mesh receivedCrc).1.pendingMsg = none ↔
        receivedCrc = msg.expectedAck) ∧
    (r.node.pendingMsg = none → ∀ cs : List Call, (∀ c ∈ cs, ¬ c.Accepts) →
      (r.node.calls cs).1 = r.node ∧
      ∀ mesh, (r.node.calls cs).1.onSendTimeout mesh = (r.node, []) ∧
        ∀ receivedCrc, (r.node.calls cs).1.processAck mesh receivedCrc = (r.node, [], none)) := by
  obtain ⟨bounded, inOrder, -, -, failed⟩ := disciplined run
  refine ⟨bounded, inOrder, failed, ?_, ?_⟩
  · intro msg pending mesh
    exact ⟨onSendTimeout_ends_iff pending (bounded msg pending) mesh,
      processAck_ends_iff pending mesh⟩
  · intro idle cs refuse
    have still := calls_idle idle refuse
    refine ⟨still, fun mesh => ?_⟩
    rw [still]
    refine ⟨onSendTimeout_idle mesh idle, fun receivedCrc => ?_⟩
    unfold processAck
    rw [idle]

/-- A text that is never acknowledged: four attempts, and then the failure. -/
theorem retry_discipline_unanswered : ∃ r journal,
    Run step anyStep init r journal ∧ .deliveryFailed 1 ∈ journal ∧
      ∃ n ≤ ackMaxRetries + 1, attempts journal 1 = List.range n := by
  have replay : (exec (restrict step anyStep) init
      [.sendTextTo smallMesh (ascii "b0") (ascii "hi"), .onSendTimeout smallMesh,
        .onSendTimeout smallMesh, .onSendTimeout smallMesh, .onSendTimeout smallMesh]).any
        fun r => decide (.deliveryFailed 1 ∈ r.2) := by decide +kernel
  obtain ⟨r, journal, run, failed⟩ := Run.of_exec_any replay
  obtain ⟨-, inOrder, -, -, -⟩ := retry_discipline run
  exact ⟨r, journal, run, by simpa using failed, inOrder 1⟩

end Retrier

end MeshcoreSim.SimNode
