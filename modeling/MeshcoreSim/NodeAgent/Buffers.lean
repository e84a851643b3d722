import MeshcoreSim.NodeAgent.Commands
import MeshcoreSim.SimNode.Addressing

/-!
The output buffers of `hex_to_bytes`.

The decoder is told where to write, and not how much room there is. A packet goes into a buffer of
`MAX_TRANS_UNIT + 1` bytes and a destination into one of `PUB_KEY_SIZE` bytes; a write past the end
is `none`. The destination of a pending message is decoded again with every acknowledgement and
timeout.

* `decodeInto_eq` — the writes stay inside exactly when the decoded bytes fit.
* `staysInside_iff` — the lines after which no buffer has ever been overrun.
-/

namespace MeshcoreSim

open Lib CString

/-- `MAX_TRANS_UNIT + 1` -/
def rxBufSize : ℕ := 256

/-- `PUB_KEY_SIZE` -/
def pubKeySize : ℕ := 32

/-- The loop of `hex_to_bytes`: the output buffer before iteration `i`. -/
def decodeLoop (out hex : Bytes) : ℕ → Option Bytes
  | 0 => some out
  | i + 1 => do
      let filled ← decodeLoop out hex i
      if i < filled.length then
        return filled.set i (nib (hex.getD (2 * i) 0) <<< 4 ||| nib (hex.getD (2 * i + 1) 0))
      else none

/-- `hex_to_bytes` into a buffer of its own: the bytes that it has written. -/
def decodeInto (size : ℕ) (hex : Bytes) : Option Bytes :=
  if hex.length % 2 ≠ 0 then some []
  else (decodeLoop (List.replicate size 0) hex (hex.length / 2)).map (List.take (hex.length / 2))

/-! ### The writes -/

theorem getD_hexPairs {hex : Bytes} {i : ℕ} (inside : i < hex.length / 2) :
    (hexPairs hex)[i]? =
      some (nib (hex.getD (2 * i) 0) <<< 4 ||| nib (hex.getD (2 * i + 1) 0)) := by
  induction hex using hexPairs.induct generalizing i with
  | case1 high low rest ih =>
      cases i with
      | zero => rfl
      | succ i =>
          simp only [List.length_cons] at inside
          rw [hexPairs, List.getElem?_cons_succ, ih (by omega), Nat.mul_succ]
          rfl
  | case2 hex short =>
      rcases hex with _ | ⟨high, _ | ⟨low, rest⟩⟩
      · simp at inside
      · simp at inside
      · exact absurd rfl (short high low rest)

theorem decodeLoop_eq (out : Bytes) {hex : Bytes} {i : ℕ} (inside : i ≤ hex.length / 2) :
    decodeLoop out hex i =
      if i ≤ out.length then some ((hexPairs hex).take i ++ out.drop i) else none := by
  induction i with
  | zero => rw [decodeLoop, if_pos (Nat.zero_le _), List.take_zero, List.drop_zero, List.nil_append]
  | succ i ih =>
      have length : ((hexPairs hex).take i).length = i :=
        List.length_take_of_le (by rw [length_hexPairs]; omega)
      rw [decodeLoop, ih (by omega)]
      by_cases before : i ≤ out.length
      · have filled : ((hexPairs hex).take i ++ out.drop i).length = out.length := by
          rw [List.length_append, length, List.length_drop]
          omega
        simp only [if_pos before, Option.bind_eq_bind, Option.bind_some, filled]
        by_cases room : i < out.length
        · rw [if_pos room, if_pos (by omega), List.take_add_one, getD_hexPairs (by omega),
            List.drop_eq_getElem_cons room, List.set_append_right _ _ length.le, length,
            Nat.sub_self, List.set_cons_zero]
          simp
        · rw [if_neg room, if_neg (by omega)]
      · rw [if_neg before, if_neg (by omega)]
        rfl

/-- The writes stay inside of the buffer exactly when what they write fits into it. -/
theorem decodeInto_eq (size : ℕ) (hex : Bytes) :
    decodeInto size hex =
      if size < (hexToBytes hex).length then none else some (hexToBytes hex) := by
  unfold decodeInto hexToBytes
  by_cases odd : hex.length % 2 ≠ 0
  · simp only [if_pos odd]
    rfl
  · have length := length_hexPairs hex
    simp only [if_neg odd]
    rw [decodeLoop_eq _ le_rfl, List.length_replicate, length]
    by_cases fits : hex.length / 2 ≤ size
    · rw [if_pos fits, if_neg (by omega), Option.map_some, List.take_of_length_le length.le,
        ← length, List.take_left]
    · rw [if_neg fits, if_pos (by omega), Option.map_none]

/-- An odd number of characters is rejected before anything is written. -/
def FitsBuffer (size : ℕ) (hex : Bytes) : Prop := hex.length % 2 = 1 ∨ hex.length ≤ 2 * size

theorem length_hexToBytes_le_iff (size : ℕ) (hex : Bytes) :
    (hexToBytes hex).length ≤ size ↔ FitsBuffer size hex := by
  unfold FitsBuffer hexToBytes
  split_ifs with odd
  · have : hex.length % 2 = 1 := by omega
    simp [this]
  · rw [length_hexPairs]
    omega

theorem isSome_decodeInto_iff (size : ℕ) (hex : Bytes) :
    (decodeInto size hex).isSome = true ↔ FitsBuffer size hex := by
  rw [decodeInto_eq, ← length_hexToBytes_le_iff]
  split_ifs with long
  · simpa using long
  · simpa using long

/-! ### The callers -/

namespace SimNode

variable (node : SimNode) (mesh : ChatMesh)

/-- `processAck`, with its buffer. -/
def processAck? (receivedCrc : UInt32) : Option (SimNode × List Effect × Option Contact) :=
  match node.pendingMsg with
  | none => some (node.processAck mesh receivedCrc)
  | some msg =>
      if receivedCrc = msg.expectedAck then
        (decodeInto pubKeySize msg.destPubHex).map fun _ => node.processAck mesh receivedCrc
      else some (node.processAck mesh receivedCrc)

/-- `onSendTimeout`, with its buffer. -/
def onSendTimeout? : Option (SimNode × List Effect) :=
  match node.pendingMsg with
  | none => some (node.onSendTimeout mesh)
  | some msg =>
      if msg.attempt + 1 > ackMaxRetries then some (node.onSendTimeout mesh)
      else (decodeInto pubKeySize msg.destPubHex).map fun _ => node.onSendTimeout mesh

/-- The buffer of `sendTextTo`. -/
theorem sendTextTo?_eq (destPubHex text : Bytes) :
    node.sendTextTo? mesh destPubHex text =
      (decodeInto pubKeySize destPubHex).map fun _ => node.sendTextTo mesh destPubHex text := by
  unfold sendTextTo?
  rw [decodeInto_eq, pubKeySize]
  split_ifs <;> rfl

end SimNode

/-- What makes a node decode a destination, or dispatch a line. -/
inductive AgentEvent where
  | line (line : Bytes) (mesh : ChatMesh)
  /-- The room server sends a text on to a contact. -/
  | forward (mesh : ChatMesh) (contact : Contact) (fwd : Bytes)
  | processAck (mesh : ChatMesh) (receivedCrc : UInt32)
  | onSendTimeout (mesh : ChatMesh)

/-- The node after an event; the inner `none` where the process has ended. The outer `none` is a
write past the end of a buffer. -/
def agentStep (node : SimNode) : AgentEvent → Option (Option SimNode)
  | .line line mesh =>
      (dispatch line).bind fun
        | some (.sendTextTo dest text) =>
            (node.sendTextTo? mesh dest text).map fun result => some result.1
        | some .exit => some none
        | _ => some (some node)
  | .forward mesh contact fwd =>
      (node.sendTextTo? mesh (writeHex hexUc contact.pubKey) fwd).map fun result => some result.1
  | .processAck mesh receivedCrc =>
      (node.processAck? mesh receivedCrc).map fun result => some result.1
  | .onSendTimeout mesh => (node.onSendTimeout? mesh).map fun result => some result.1

/-- The events one after the other, until the process ends. -/
def runAgent : SimNode → List AgentEvent → Option SimNode
  | node, [] => some node
  | node, event :: events =>
      (agentStep node event).bind fun
        | none => some node
        | some node' => runAgent node' events

/-- `json_str_field` returns a value. -/
def HasField (line : Bytes) (key : String) (value : Bytes) : Prop :=
  jsonStrField (cstr line) (ascii key) = some (some value)

instance (line : Bytes) (key : String) (value : Bytes) : Decidable (HasField line key value) :=
  inferInstanceAs (Decidable (_ = _))

/-- The lines that are dispatched, up to the first one that ends the process. -/
def executedLines : List AgentEvent → List Bytes
  | [] => []
  | .line line _ :: events =>
      line :: if HasField line "type" (ascii "quit") then [] else executedLines events
  | _ :: events => executedLines events

/-- What a line makes the node decode fits into the buffer for it. -/
structure FitsBuffers (line : Bytes) : Prop where
  rx : HasField line "type" (ascii "rx") → ∀ hex, HasField line "hex" hex →
    FitsBuffer rxBufSize hex
  sendText : HasField line "type" (ascii "send_text") → ∀ dest text, HasField line "dest" dest →
    HasField line "text" text → FitsBuffer pubKeySize dest

/-- No write of `hex_to_bytes` is ever past the end of its buffer. -/
def StaysInside (events : List AgentEvent) : Prop :=
  ∃ node, runAgent .init events = some node

/-! ### Lines -/

section

variable {line dest text : Bytes}

/-- What is read under a key, on any line. -/
theorem readField (line : Bytes) {key : String} (noNul : 0 ∉ ascii key) :
    ∃ value, jsonStrField (cstr line) (ascii key) = some value :=
  Option.isSome_iff_exists.mp (jsonStrField_inBounds line noNul)

/-- What is read as a number under a key, on any line. -/
theorem readNumber (line : Bytes) (default : ℚ) {key : String} (noNul : 0 ∉ ascii key) :
    ∃ value, jsonNumField (cstr line) (ascii key) default = some value :=
  Option.isSome_iff_exists.mp (jsonNumField_inBounds line noNul default)

theorem HasField.unique {key : String} {value value' : Bytes} (field : HasField line key value)
    (field' : HasField line key value') : value = value' := by
  cases field.symm.trans field'
  rfl

/-- A packet is decoded into its buffer. -/
theorem dispatch_rx (type : HasField line "type" (ascii "rx")) :
    ((∃ hex, HasField line "hex" hex ∧ ¬ FitsBuffer rxBufSize hex) ∧ dispatch line = none) ∨
    ((∀ hex, HasField line "hex" hex → FitsBuffer rxBufSize hex) ∧
      (dispatch line = some none ∨
        ∃ data snr rssi, dispatch line = some (some (.enqueue data snr rssi)))) := by
  obtain ⟨hex, hexRead⟩ := readField line (by decide : 0 ∉ ascii "hex")
  obtain ⟨snr, snrRead⟩ := readNumber line 6 (by decide : 0 ∉ ascii "snr")
  obtain ⟨rssi, rssiRead⟩ := readNumber line (-90) (by decide : 0 ∉ ascii "rssi")
  unfold HasField at type
  simp only [dispatch, dispatchFields, type, hexRead, snrRead, rssiRead, Option.bind_eq_bind,
    Option.bind_some, if_pos]
  cases hex with
  | none =>
      refine .inr ⟨fun hex other => ?_, .inl rfl⟩
      cases hexRead.symm.trans other
  | some hex =>
      have only : ∀ other, HasField line "hex" other → other = hex := fun other field =>
        HasField.unique field hexRead
      have fits := length_hexToBytes_le_iff rxBufSize hex
      rw [rxBufSize] at fits
      by_cases empty : hex = []
      · exact .inr ⟨fun other field => by rw [only other field, empty]; exact .inr (Nat.zero_le _),
          .inl (if_pos empty)⟩
      · by_cases long : (hexToBytes hex).length > 256
        · have overrun : ¬ FitsBuffer rxBufSize hex := fun inside =>
            absurd (fits.mpr inside) (Nat.not_le.mpr long)
          exact .inl ⟨⟨hex, hexRead, overrun⟩, by simp only [if_neg empty, if_pos long]⟩
        · refine .inr ⟨fun other field => ?_, ?_⟩
          · rw [only other field]
            exact fits.mp (Nat.not_lt.mp long)
          · simp only [if_neg empty, if_neg long]
            by_cases nothing : hexToBytes hex = []
            · exact .inl (if_pos nothing)
            · exact .inr ⟨_, _, _, if_neg nothing⟩

/-- A text is sent if there are a destination and a text. -/
theorem dispatch_sendText' (type : HasField line "type" (ascii "send_text")) :
    (∃ dest text, HasField line "dest" dest ∧ HasField line "text" text ∧
      dispatch line = some (some (.sendTextTo dest text))) ∨
    ((∀ dest text, HasField line "dest" dest → ¬ HasField line "text" text) ∧
      dispatch line = some none) := by
  obtain ⟨dest, destRead⟩ := readField line (by decide : 0 ∉ ascii "dest")
  obtain ⟨text, textRead⟩ := readField line (by decide : 0 ∉ ascii "text")
  have notEarlier : ∀ other ∈ ["rx", "rx_start", "time"], ascii "send_text" ≠ ascii other := by
    decide
  simp only [List.forall_mem_cons] at notEarlier
  obtain ⟨rx, rxStart, time, -⟩ := notEarlier
  unfold HasField at type
  simp only [dispatch, dispatchFields, type, destRead, textRead, Option.bind_eq_bind,
    Option.bind_some, if_neg rx, if_neg rxStart, if_neg time, if_pos]
  cases dest with
  | none =>
      refine .inr ⟨fun other _ field => ?_, rfl⟩
      cases destRead.symm.trans field
  | some dest =>
      cases text with
      | none =>
          refine .inr ⟨fun _ other _ field => ?_, rfl⟩
          cases textRead.symm.trans field
      | some text => exact .inl ⟨dest, text, destRead, textRead, rfl⟩

theorem dispatch_quit (type : HasField line "type" (ascii "quit")) :
    dispatch line = some (some .exit) := by
  have notEarlier : ∀ other ∈ ["rx", "rx_start", "time", "send_text", "send_channel", "advert"],
      ascii "quit" ≠ ascii other := by
    decide
  simp only [List.forall_mem_cons] at notEarlier
  obtain ⟨rx, rxStart, time, sendText, sendChannel, advert, -⟩ := notEarlier
  unfold HasField at type
  simp only [dispatch, dispatchFields, type, Option.bind_eq_bind, Option.bind_some, if_neg rx,
    if_neg rxStart, if_neg time, if_neg sendText, if_neg sendChannel, if_neg advert, if_pos]
  rfl

/-- Any other line is dispatched, and neither sends a text nor ends the process. -/
theorem dispatch_other (notRx : ¬ HasField line "type" (ascii "rx"))
    (notSendText : ¬ HasField line "type" (ascii "send_text"))
    (notQuit : ¬ HasField line "type" (ascii "quit")) :
    ∃ call?, dispatch line = some call? ∧ call? ≠ some .exit ∧
      ∀ dest text, call? ≠ some (.sendTextTo dest text) := by
  obtain ⟨type, typeRead⟩ := readField line (by decide : 0 ∉ ascii "type")
  obtain ⟨text, textRead⟩ := readField line (by decide : 0 ∉ ascii "text")
  obtain ⟨name, nameRead⟩ := readField line (by decide : 0 ∉ ascii "name")
  obtain ⟨durationMs, durationRead⟩ := readNumber line 0 (by decide : 0 ∉ ascii "duration_ms")
  obtain ⟨epoch, epochRead⟩ := readNumber line 0 (by decide : 0 ∉ ascii "epoch")
  simp only [HasField, typeRead, Option.some.injEq] at notRx notSendText notQuit
  simp only [dispatch, dispatchFields, typeRead, textRead, nameRead, durationRead, epochRead,
    Option.bind_eq_bind, Option.bind_some]
  cases type with
  | none => exact ⟨none, rfl, by simp, by simp⟩
  | some word =>
      simp only [Option.some.injEq] at notRx notSendText notQuit
      simp only [if_neg notRx, if_neg notSendText, if_neg notQuit]
      split_ifs
      · exact ⟨_, rfl, by simp, by simp⟩
      · exact ⟨_, rfl, by simp, by simp⟩
      · exact ⟨_, rfl, by simp, by simp⟩
      · cases text with
        | none => exact ⟨_, rfl, by simp, by simp⟩
        | some text => exact ⟨_, rfl, by simp, by simp⟩
      · exact ⟨_, rfl, by simp, by simp⟩
      · exact ⟨_, rfl, by simp, by simp⟩

end

/-! ### Runs -/

/-- The destination of a pending message fits into the buffer for it. -/
def SimNode.Decodable (node : SimNode) : Prop :=
  ∀ msg ∈ node.pendingMsg, FitsBuffer pubKeySize msg.destPubHex

section

variable {node : SimNode} {mesh : ChatMesh} {line destPubHex text : Bytes}

theorem decodeInto_of_fits {size : ℕ} {hex : Bytes} (fits : FitsBuffer size hex) :
    ∃ bytes, decodeInto size hex = some bytes :=
  Option.isSome_iff_exists.mp ((isSome_decodeInto_iff size hex).mpr fits)

theorem SimNode.Decodable.sendTextTo (decodable : node.Decodable) (mesh : ChatMesh)
    (text : Bytes) (fits : FitsBuffer pubKeySize destPubHex) :
    ∃ result, node.sendTextTo? mesh destPubHex text = some result ∧ result.1.Decodable := by
  obtain ⟨bytes, decoded⟩ := decodeInto_of_fits fits
  refine ⟨node.sendTextTo mesh destPubHex text,
    by rw [sendTextTo?_eq, decoded, Option.map_some], ?_⟩
  rcases sendTextTo_eq node mesh destPubHex text with
    ⟨expectedAck, target, -, -, sent⟩ | ⟨-, line, -, rejected⟩
  · rw [sent]
    rintro msg pending
    cases pending
    exact fits
  · rw [rejected]
    exact decodable

theorem SimNode.decodable_init : SimNode.init.Decodable := nofun

theorem SimNode.Decodable.processAck (decodable : node.Decodable) (mesh : ChatMesh)
    (receivedCrc : UInt32) :
    ∃ result, node.processAck? mesh receivedCrc = some result ∧ result.1.Decodable := by
  have kept : (node.processAck mesh receivedCrc).1.Decodable := by
    rcases processAck_eq node mesh receivedCrc with ⟨msg, -, -, idle, -⟩ | ⟨-, same⟩
    · rw [idle]
      exact decodable_init
    · rw [same]
      exact decodable
  refine ⟨_, ?_, kept⟩
  unfold processAck?
  cases pending : node.pendingMsg with
  | none => rfl
  | some msg =>
      obtain ⟨bytes, decoded⟩ := decodeInto_of_fits (decodable msg pending)
      simp only [decoded, Option.map_some, ite_self]

theorem SimNode.Decodable.onSendTimeout (decodable : node.Decodable) (mesh : ChatMesh) :
    ∃ result, node.onSendTimeout? mesh = some result ∧ result.1.Decodable := by
  unfold onSendTimeout?
  cases pending : node.pendingMsg with
  | none =>
      refine ⟨_, rfl, ?_⟩
      rw [onSendTimeout_idle mesh pending]
      exact decodable
  | some msg =>
      obtain ⟨bytes, decoded⟩ := decodeInto_of_fits (decodable msg pending)
      refine ⟨node.onSendTimeout mesh, by simp only [decoded, Option.map_some, ite_self], ?_⟩
      rcases onSendTimeout_eq mesh pending with
        ⟨-, gaveUp⟩ | ⟨-, expectedAck, target, -, retried⟩ | ⟨-, -, rest, ended, -⟩
      · rw [gaveUp]
        exact decodable_init
      · rw [retried]
        rintro msg' pending'
        cases pending'
        exact decodable msg pending
      · rw [ended]
        exact decodable_init

/-- The digits of a key fill the buffer. -/
theorem fitsBuffer_writeHex (contact : Contact) :
    FitsBuffer pubKeySize (writeHex hexUc contact.pubKey) := by
  refine .inr ?_
  rw [length_writeHex, contact.length_pubKey, pubKeySize]

/-- A line that fits is dispatched. -/
theorem agentStep_line (decodable : node.Decodable) (mesh : ChatMesh) (fits : FitsBuffers line) :
    ∃ after, agentStep node (.line line mesh) = some after ∧
      (after = none ↔ HasField line "type" (ascii "quit")) ∧
      ∀ node' ∈ after, node'.Decodable := by
  have same : ∀ node' ∈ some node, node'.Decodable := by
    rintro node' here
    cases here
    exact decodable
  by_cases quit : HasField line "type" (ascii "quit")
  · refine ⟨none, ?_, ⟨fun _ => quit, fun _ => rfl⟩, nofun⟩
    rw [agentStep, dispatch_quit quit, Option.bind_some]
  · by_cases rx : HasField line "type" (ascii "rx")
    · have stays : agentStep node (.line line mesh) = some (some node) := by
        rcases dispatch_rx rx with
          ⟨⟨hex, field, long⟩, -⟩ | ⟨-, nothing | ⟨data, snr, rssi, queued⟩⟩
        · exact absurd (fits.rx rx hex field) long
        · rw [agentStep, nothing, Option.bind_some]
        · rw [agentStep, queued, Option.bind_some]
      exact ⟨_, stays, by simp [quit], same⟩
    · by_cases sendText : HasField line "type" (ascii "send_text")
      · rcases dispatch_sendText' sendText with
          ⟨dest, text, destField, textField, sent⟩ | ⟨-, nothing⟩
        · obtain ⟨result, done, kept⟩ := decodable.sendTextTo mesh text
            (fits.sendText sendText dest text destField textField)
          refine ⟨some result.1, ?_, by simp [quit], ?_⟩
          · rw [agentStep, sent, Option.bind_some]
            simp only [done, Option.map_some]
          · rintro node' here
            cases here
            exact kept
        · exact ⟨_, by rw [agentStep, nothing, Option.bind_some], by simp [quit], same⟩
      · obtain ⟨call?, called, notExit, notSend⟩ := dispatch_other rx sendText quit
        refine ⟨some node, ?_, by simp [quit], same⟩
        rw [agentStep, called, Option.bind_some]
        rcases call? with - | call
        · rfl
        · cases call with
          | sendTextTo dest text => exact absurd rfl (notSend dest text)
          | exit => exact absurd rfl notExit
          | _ => rfl

/-- Any other line is decoded past the end of a buffer. -/
theorem agentStep_overrun (overrun : ¬ FitsBuffers line) :
    agentStep node (.line line mesh) = none := by
  have distinct : ascii "rx" ≠ ascii "send_text" := by decide
  by_cases rx : HasField line "type" (ascii "rx")
  · have notSendText : ¬ HasField line "type" (ascii "send_text") := fun sendText =>
      distinct (rx.unique sendText)
    rcases dispatch_rx rx with ⟨-, nothing⟩ | ⟨fits, -⟩
    · rw [agentStep, nothing, Option.bind_none]
    · exact absurd ⟨fun _ => fits, fun sendText => absurd sendText notSendText⟩ overrun
  · by_cases sendText : HasField line "type" (ascii "send_text")
    · rcases dispatch_sendText' sendText with
        ⟨dest, text, destField, textField, sent⟩ | ⟨missing, -⟩
      · have long : ¬ FitsBuffer pubKeySize dest := fun fits =>
          overrun ⟨fun type => absurd type rx, fun _ dest' text' field _ =>
            destField.unique field ▸ fits⟩
        have nothing : decodeInto pubKeySize dest = none := by
          rwa [← Option.not_isSome_iff_eq_none, isSome_decodeInto_iff]
        rw [agentStep, sent, Option.bind_some]
        simp only [SimNode.sendTextTo?_eq, nothing, Option.map_none]
      · exact absurd ⟨fun type => absurd type rx, fun _ dest text field field' =>
          absurd field' (missing dest text field)⟩ overrun
    · exact absurd ⟨fun type => absurd type rx, fun type => absurd type sendText⟩ overrun

/-- Over any run, the buffers hold exactly if those of every dispatched line do. -/
theorem runAgent_iff (decodable : node.Decodable) (events : List AgentEvent) :
    (∃ node', runAgent node events = some node') ↔
      ∀ line ∈ executedLines events, FitsBuffers line := by
  induction events generalizing node with
  | nil => simp [runAgent, executedLines]
  | cons event events ih =>
      -- What does not dispatch a line decodes a destination that fits.
      have goesOn : ∀ node', node'.Decodable → agentStep node event = some (some node') →
          ((∃ last, runAgent node (event :: events) = some last) ↔
            ∀ line ∈ executedLines events, FitsBuffers line) := by
        intro node' kept stepped
        rw [runAgent, stepped, Option.bind_some]
        exact ih kept
      cases event with
      | line line mesh =>
          rw [executedLines, List.forall_mem_cons]
          by_cases fits : FitsBuffers line
          · obtain ⟨after, stepped, exits, kept⟩ := agentStep_line decodable mesh fits
            by_cases quit : HasField line "type" (ascii "quit")
            · rw [exits.mpr quit] at stepped
              rw [runAgent, stepped, Option.bind_some, if_pos quit]
              simp [fits]
            · obtain ⟨node', rfl⟩ := Option.ne_none_iff_exists'.mp fun ended =>
                quit (exits.mp ended)
              rw [if_neg quit, goesOn node' (kept node' rfl) stepped]
              simp [fits]
          · rw [runAgent, agentStep_overrun fits]
            simp [fits]
      | forward mesh contact fwd =>
          obtain ⟨result, done, kept⟩ :=
            decodable.sendTextTo mesh fwd (fitsBuffer_writeHex contact)
          exact goesOn result.1 kept (by rw [agentStep, done, Option.map_some])
      | processAck mesh receivedCrc =>
          obtain ⟨result, done, kept⟩ := decodable.processAck mesh receivedCrc
          exact goesOn result.1 kept (by rw [agentStep, done, Option.map_some])
      | onSendTimeout mesh =>
          obtain ⟨result, done, kept⟩ := decodable.onSendTimeout mesh
          exact goesOn result.1 kept (by rw [agentStep, done, Option.map_some])

end

/-- No buffer is overrun exactly when the packet or the destination of every line that is dispatched
fits into its own. -/
theorem staysInside_iff (events : List AgentEvent) :
    StaysInside events ↔ ∀ line ∈ executedLines events, FitsBuffers line :=
  runAgent_iff SimNode.decodable_init events

/-- The lines that are dispatched, whether or not the process ends before. -/
def AgentEvent.line? : AgentEvent → Option Bytes
  | .line text _ => some text
  | _ => none

/-- No buffer is overrun, whatever lines of at most 4095 bytes are dispatched. -/
def AlwaysStaysInside : Prop :=
  ∀ events : List AgentEvent,
    (∀ line ∈ events.filterMap AgentEvent.line?, line ≠ [] ∧ line.length ≤ 4095 ∧ 10 ∉ line) →
      StaysInside events

/-- A text for a destination of 33 bytes. -/
def longDest : Bytes := dumps (.sendText (List.replicate 66 48) (pyString "hi"))

theorem not_alwaysStaysInside : ¬ AlwaysStaysInside := by
  intro claim
  obtain ⟨node, inside⟩ := claim [.line longDest SimNode.smallMesh] (by decide +kernel)
  have overrun : decodeInto pubKeySize (jsonEscaped (List.replicate 66 48)) = none := by
    decide +kernel
  have sent := dispatch_sendText (List.replicate 66 48) (pyString "hi")
  rw [runAgent, agentStep, longDest, sent, Option.bind_some] at inside
  simp only [SimNode.sendTextTo?_eq, overrun] at inside
  cases inside

end MeshcoreSim
