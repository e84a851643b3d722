import MeshcoreSim.Hex

/-!
A simulated node (`node_agent/SimNode.cpp`): the message that it tracks until it is acknowledged,
and the forwarding loop of the room server.

The chat stack that `SimNode` inherits is not part of the repository. What it answers, the contact
for a prefix of a public key and the acknowledgement that a message it has sent will have, is a
parameter of each call, so it may change from one call to the next.

* `sendTextTo_eq`, `processAck_eq`, `onSendTimeout_eq` — what each call does to the pending
  message.
* `roomServerOnMessageRecv_eq` — the forwarding loop of a room server is a sequence of `sendTextTo`
  calls.
-/

namespace MeshcoreSim

/-- A peer, as far as the node agent reads its `ContactInfo`: the name is a C string in an array
of 32 bytes. -/
structure Contact where
  pubKey : Bytes
  name : Bytes
  length_pubKey : pubKey.length = 32
  length_name : name.length < 32
  nonzero_name : 0 ∉ name
  deriving DecidableEq

/-- What `emitLog` is called with. -/
inductive Log where
  | ackConfirmed (attempt : ℕ)
  | ackTimeout (attempt : ℕ)
  | deliveryFailed
  | retryFailed
  | invalidPubKey
  | unknownDestination (destPubHex : Bytes)
  | sendFailed
  | noChannel
  | pathUpdated (contact : Contact) (outPathLen : ℕ)
  /-- The lines of `logRx` and `logTx`, which print floats. -/
  | packet (line : Bytes)
  deriving DecidableEq

/-- `ACK_MAX_RETRIES`. -/
def ackMaxRetries : ℕ := 3

/-- The formatted message of a log line, before it is cut to the size of the buffer. -/
def Log.msg : Log → Bytes
  | .ackConfirmed attempt => ascii ("ACK confirmed (attempt " ++ toString attempt ++ ")")
  | .ackTimeout attempt =>
      ascii ("ACK timeout, retry " ++ toString attempt ++ "/" ++ toString ackMaxRetries)
  | .deliveryFailed =>
      ascii ("msg delivery failed after " ++ toString (ackMaxRetries + 1) ++ " attempts")
  | .retryFailed => ascii "retry sendMessage failed"
  | .invalidPubKey => ascii "sendTextTo: invalid pub key hex"
  | .unknownDestination destPubHex =>
      ascii "sendTextTo: unknown destination " ++ destPubHex
  | .sendFailed => ascii "sendTextTo: sendMessage failed (pool exhausted?)"
  | .noChannel => ascii "sendChannelText: no channel at index 0"
  | .pathUpdated contact outPathLen =>
      ascii "path updated to " ++ writeHex hexUc contact.pubKey ++
        ascii (" (len=" ++ toString outPathLen ++ ")")
  | .packet line => line

/-- The events that a node prints, with what each of them is about. -/
inductive NodeEvent where
  | ready (pubKey : Bytes) (isRelay isRoomSvr : Bool) (nodeName : Bytes)
  | advert (contact : Contact)
  | recvText (contact : Contact) (text : Bytes)
  | recvChannel (text : Bytes)
  | roomPost (contact : Contact) (text : Bytes)
  | log (line : Log)
  deriving DecidableEq

/-- What a call does besides changing the node. -/
inductive Effect where
  | emit (event : NodeEvent)
  /-- `sendMessage` has put the text on its way and expects an acknowledgement. -/
  | send (target : Contact) (attempt : UInt8) (text : Bytes) (expectedAck : UInt32)
  deriving DecidableEq

/-- The chat stack during one call. -/
structure ChatMesh where
  lookupContactByPubKey : Bytes → Option Contact
  /-- The expected acknowledgement; `none` is `MSG_SEND_FAILED`. -/
  sendMessage : Contact → UInt8 → Bytes → Option UInt32

/-- One attempt to send a text: the acknowledgement to expect, if the destination is a known
contact and the text is sent. -/
def ChatMesh.attempt (mesh : ChatMesh) (destPubHex text : Bytes) (attempt : ℕ) :
    Option UInt32 :=
  if hexToBytes destPubHex = [] then none
  else (mesh.lookupContactByPubKey (hexToBytes destPubHex)).bind fun target =>
    mesh.sendMessage target (UInt8.ofNat attempt) text

/-- `SimNode::PendingMsg`. -/
structure PendingMsg where
  expectedAck : UInt32
  destPubHex : Bytes
  text : Bytes
  attempt : ℕ
  deriving DecidableEq, Repr

structure SimNode where
  pendingMsg : Option PendingMsg
  deriving DecidableEq, Repr

namespace SimNode

/-- The constructor. -/
def init : SimNode := ⟨none⟩

variable (node : SimNode) (mesh : ChatMesh)

/-- `sendTextTo`, with what it returns. -/
def sendTextTo (destPubHex text : Bytes) : SimNode × List Effect × Bool :=
  let pub := hexToBytes destPubHex
  if pub = [] then (node, [.emit (.log .invalidPubKey)], false)
  else match mesh.lookupContactByPubKey pub with
    | none => (node, [.emit (.log (.unknownDestination destPubHex))], false)
    | some target =>
        match mesh.sendMessage target 0 text with
        | none => (node, [.emit (.log .sendFailed)], false)
        | some expectedAck =>
            -- A message that is still pending is overwritten.
            ({ node with pendingMsg := some ⟨expectedAck, destPubHex, text, 0⟩ },
              [.send target 0 text expectedAck], true)

/-- `processAck`, with the contact that it returns to the chat stack. -/
def processAck (receivedCrc : UInt32) : SimNode × List Effect × Option Contact :=
  match node.pendingMsg with
  | none => (node, [], none)
  | some msg =>
      if receivedCrc = msg.expectedAck then
        let pub := hexToBytes msg.destPubHex
        ({ node with pendingMsg := none }, [.emit (.log (.ackConfirmed msg.attempt))],
          if pub = [] then none else mesh.lookupContactByPubKey pub)
      else (node, [], none)

/-- `onSendTimeout`. -/
def onSendTimeout : SimNode × List Effect :=
  match node.pendingMsg with
  | none => (node, [])
  | some msg =>
      let attempt := msg.attempt + 1
      if attempt > ackMaxRetries then
        ({ node with pendingMsg := none }, [.emit (.log .deliveryFailed)])
      else
        let pub := hexToBytes msg.destPubHex
        let retry := Effect.emit (.log (.ackTimeout attempt))
        if pub = [] then ({ node with pendingMsg := none }, [retry])
        else match mesh.lookupContactByPubKey pub with
          | none => ({ node with pendingMsg := none }, [retry])
          | some target =>
              match mesh.sendMessage target (UInt8.ofNat attempt) msg.text with
              | none =>
                  ({ node with pendingMsg := none }, [retry, .emit (.log .retryFailed)])
              | some expectedAck =>
                  ({ node with pendingMsg := some { msg with expectedAck, attempt } },
                    [retry, .send target (UInt8.ofNat attempt) msg.text expectedAck])

/-- A call that may change the pending message. -/
inductive Call where
  | sendTextTo (mesh : ChatMesh) (destPubHex text : Bytes)
  | processAck (mesh : ChatMesh) (receivedCrc : UInt32)
  | onSendTimeout (mesh : ChatMesh)

def call : Call → SimNode × List Effect
  | .sendTextTo mesh destPubHex text =>
      ((node.sendTextTo mesh destPubHex text).1, (node.sendTextTo mesh destPubHex text).2.1)
  | .processAck mesh receivedCrc =>
      ((node.processAck mesh receivedCrc).1, (node.processAck mesh receivedCrc).2.1)
  | .onSendTimeout mesh => node.onSendTimeout mesh

/-- Calls one after the other. -/
def calls : SimNode → List Call → SimNode × List Effect
  | node, [] => (node, [])
  | node, c :: cs =>
      let (node', effects) := node.call c
      let (node'', more) := node'.calls cs
      (node'', effects ++ more)

/-! ### The room server -/

/-- The text that a room server forwards, in a buffer of 320 bytes. -/
def forwarded (contact : Contact) (text : Bytes) : Bytes :=
  (ascii "[" ++ contact.name ++ ascii "]: " ++ text).take 319

/-- The forwarding loop: the contacts in their order, each with the chat stack at its turn. -/
def forwardLoop (contact : Contact) (fwd : Bytes) :
    SimNode → List (Contact × ChatMesh) → SimNode × List Effect
  | node, [] => (node, [])
  | node, (info, mesh) :: rest =>
      if info.pubKey = contact.pubKey then forwardLoop contact fwd node rest
      else
        let (node', effects, _) := node.sendTextTo mesh (writeHex hexUc info.pubKey) fwd
        let (node'', more) := forwardLoop contact fwd node' rest
        (node'', effects ++ more)

/-- `SimNode::onMessageRecv`, and `onSignedMessageRecv`. -/
def onMessageRecv (contact : Contact) (text : Bytes) : SimNode × List Effect :=
  (node, [.emit (.recvText contact text)])

/-- `RoomServerNode::onMessageRecv`. -/
def roomServerOnMessageRecv (contacts : List (Contact × ChatMesh)) (contact : Contact)
    (text : Bytes) : SimNode × List Effect :=
  let (node', printed) := node.onMessageRecv contact text
  let (node'', effects) := forwardLoop contact (forwarded contact text) node' contacts
  (node'', printed ++ .emit (.roomPost contact text) :: effects)

/-! ### What the calls do -/

variable {destPubHex text fwd : Bytes} {msg : PendingMsg}

/-- A text that can be sent becomes the pending message; another one changes nothing. -/
theorem sendTextTo_eq (destPubHex text : Bytes) :
    (∃ expectedAck target, mesh.lookupContactByPubKey (hexToBytes destPubHex) = some target ∧
      mesh.attempt destPubHex text 0 = some expectedAck ∧
      node.sendTextTo mesh destPubHex text =
        ({ node with pendingMsg := some ⟨expectedAck, destPubHex, text, 0⟩ },
          [.send target 0 text expectedAck], true)) ∨
    (mesh.attempt destPubHex text 0 = none ∧ ∃ line,
      (line = .invalidPubKey ∨ line = .unknownDestination destPubHex ∨ line = .sendFailed) ∧
      node.sendTextTo mesh destPubHex text = (node, [.emit (.log line)], false)) := by
  unfold sendTextTo ChatMesh.attempt
  by_cases invalid : hexToBytes destPubHex = []
  · exact Or.inr ⟨if_pos invalid, _, Or.inl rfl, if_pos invalid⟩
  · simp only [if_neg invalid]
    cases mesh.lookupContactByPubKey (hexToBytes destPubHex) with
    | none => exact Or.inr ⟨rfl, _, Or.inr (Or.inl rfl), rfl⟩
    | some target =>
        simp only [Option.bind_some]
        cases mesh.sendMessage target (UInt8.ofNat 0) text with
        | none => exact Or.inr ⟨rfl, _, Or.inr (Or.inr rfl), rfl⟩
        | some expectedAck => exact Or.inl ⟨expectedAck, target, rfl, rfl, rfl⟩

/-- An acknowledgement confirms the message that expects it; another one changes nothing. -/
theorem processAck_eq (receivedCrc : UInt32) :
    (∃ msg, node.pendingMsg = some msg ∧ receivedCrc = msg.expectedAck ∧
      (node.processAck mesh receivedCrc).1 = init ∧
      (node.processAck mesh receivedCrc).2.1 = [.emit (.log (.ackConfirmed msg.attempt))]) ∨
    ((∀ msg ∈ node.pendingMsg, receivedCrc ≠ msg.expectedAck) ∧
      node.processAck mesh receivedCrc = (node, [], none)) := by
  unfold processAck
  cases pending : node.pendingMsg with
  | none => exact Or.inr ⟨nofun, rfl⟩
  | some msg =>
      by_cases expected : receivedCrc = msg.expectedAck
      · simp only [if_pos expected]
        exact Or.inl ⟨msg, rfl, expected, rfl, rfl⟩
      · refine Or.inr ⟨?_, if_neg expected⟩
        intro msg' same
        cases same
        exact expected

variable {node}

theorem eq_init (idle : node.pendingMsg = none) : node = init := congrArg SimNode.mk idle

/-- A timeout without a pending message does nothing. -/
theorem onSendTimeout_idle (idle : node.pendingMsg = none) :
    node.onSendTimeout mesh = (node, []) := by
  unfold onSendTimeout
  rw [idle]

/-- A timeout of a pending message gives up after the last retry, and retries before it; a retry
that cannot be sent ends the message. -/
theorem onSendTimeout_eq (pending : node.pendingMsg = some msg) :
    (ackMaxRetries < msg.attempt + 1 ∧
      node.onSendTimeout mesh = (init, [.emit (.log .deliveryFailed)])) ∨
    (msg.attempt + 1 ≤ ackMaxRetries ∧ ∃ expectedAck target,
      mesh.attempt msg.destPubHex msg.text (msg.attempt + 1) = some expectedAck ∧
      node.onSendTimeout mesh =
        (⟨some { msg with expectedAck := expectedAck, attempt := msg.attempt + 1 }⟩,
          [.emit (.log (.ackTimeout (msg.attempt + 1))),
            .send target (UInt8.ofNat (msg.attempt + 1)) msg.text expectedAck])) ∨
    (msg.attempt + 1 ≤ ackMaxRetries ∧
      mesh.attempt msg.destPubHex msg.text (msg.attempt + 1) = none ∧ ∃ rest,
      node.onSendTimeout mesh =
        (init, .emit (.log (.ackTimeout (msg.attempt + 1))) :: rest) ∧
      (rest = [] ∨ rest = [.emit (.log .retryFailed)])) := by
  unfold onSendTimeout ChatMesh.attempt
  simp only [pending]
  by_cases last : ackMaxRetries < msg.attempt + 1
  · exact Or.inl ⟨last, if_pos last⟩
  · apply Or.inr
    have more := Nat.not_lt.mp last
    simp only [if_neg last]
    by_cases invalid : hexToBytes msg.destPubHex = []
    · exact Or.inr ⟨more, if_pos invalid, [], if_pos invalid, Or.inl rfl⟩
    · simp only [if_neg invalid]
      cases mesh.lookupContactByPubKey (hexToBytes msg.destPubHex) with
      | none => exact Or.inr ⟨more, rfl, [], rfl, Or.inl rfl⟩
      | some target =>
          simp only [Option.bind_some]
          cases mesh.sendMessage target (UInt8.ofNat (msg.attempt + 1)) msg.text with
          | none => exact Or.inr ⟨more, rfl, _, rfl, Or.inr rfl⟩
          | some expectedAck => exact Or.inl ⟨more, expectedAck, target, rfl, rfl⟩

variable {mesh}

theorem calls_cons (c : Call) (cs : List Call) :
    node.calls (c :: cs) =
      (((node.call c).1.calls cs).1, (node.call c).2 ++ ((node.call c).1.calls cs).2) := rfl

theorem calls_append (cs cs' : List Call) :
    node.calls (cs ++ cs') = (((node.calls cs).1.calls cs').1,
      (node.calls cs).2 ++ ((node.calls cs).1.calls cs').2) := by
  induction cs generalizing node with
  | nil => rfl
  | cons c cs ih =>
      simp only [List.cons_append, calls, ih, List.append_assoc]

/-! ### The forwarding loop -/

/-- The calls that the forwarding loop makes: one for each contact but the sender. -/
def forwardCalls (contact : Contact) (fwd : Bytes) (contacts : List (Contact × ChatMesh)) :
    List Call :=
  (contacts.filter fun c => c.1.pubKey ≠ contact.pubKey).map fun c =>
    .sendTextTo c.2 (writeHex hexUc c.1.pubKey) fwd

theorem forwardLoop_eq (contact : Contact) (contacts : List (Contact × ChatMesh)) :
    forwardLoop contact fwd node contacts = node.calls (forwardCalls contact fwd contacts) := by
  induction contacts generalizing node with
  | nil => rfl
  | cons c rest ih =>
      by_cases sender : c.1.pubKey = contact.pubKey
      · rw [forwardLoop, if_pos sender, ih]
        simp [forwardCalls, sender]
      · rw [forwardLoop, if_neg sender]
        simp [forwardCalls, sender, calls, call, ih]

/-- What a room server does with a message: it prints it twice and makes the calls of the
forwarding loop. -/
theorem roomServerOnMessageRecv_eq (contacts : List (Contact × ChatMesh)) (contact : Contact) :
    node.roomServerOnMessageRecv contacts contact text =
      ((node.calls (forwardCalls contact (forwarded contact text) contacts)).1,
        .emit (.recvText contact text) :: .emit (.roomPost contact text) ::
          (node.calls (forwardCalls contact (forwarded contact text) contacts)).2) := by
  unfold roomServerOnMessageRecv onMessageRecv
  simp only [forwardLoop_eq, List.cons_append, List.nil_append]

/-! ### A small mesh -/

def alice : Contact := ⟨.replicate 32 0xA1, ascii "alice", rfl, by decide, by decide⟩

def bob : Contact := ⟨.replicate 32 0xB0, ascii "bob", rfl, by decide, by decide⟩

def carol : Contact := ⟨.replicate 32 0xCA, ascii "carol", rfl, by decide, by decide⟩

/-- All three are known, and every message is sent. -/
def smallMesh : ChatMesh where
  lookupContactByPubKey pub := [alice, bob, carol].find? fun contact => pub <+: contact.pubKey
  sendMessage target attempt _ :=
    some (16 * (target.pubKey.headD 0).toUInt32 + attempt.toUInt32)

end SimNode

end MeshcoreSim
