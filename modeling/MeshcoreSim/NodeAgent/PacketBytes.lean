import MeshcoreSim.Lib.Run
import MeshcoreSim.NodeAgent.Commands
import MeshcoreSim.SimNode.EventLines

/-!
The bytes of a packet, from the radio of one node to that of another.

The sender's `startSendRaw` prints a packet in hex, the orchestrator parses the line, and
`deliver_rx` writes the hex in lower case to a receiver. The receiver's process (`NodeProcess`)
reads its stdin byte by byte, and its Dispatcher takes packets from the radio with `recvRaw`
whenever it likes.

* `dispatch_command` — the node decodes what the sender has encoded.
* `packets_in_order` — in every run, the packets received are those written, in order, up to those
  that are still queued.
* `exists_run_received` — and they can all be received.
-/

namespace MeshcoreSim

open Lib Utf8 JsonText CString

/-! ### From the sender to the line of the receiver -/

/-- The `tx` line of `startSendRaw`, without its newline. -/
def txLine (bytes : Bytes) : Bytes :=
  ascii "\x7b\"type\":\"tx\",\"hex\":\"" ++ writeHex hexLc bytes ++ ascii "\"\x7d"

/-- `event.get("hex", "")` for the event of a line. -/
def eventHex (line : Bytes) : List ℕ :=
  match (readEvent line).bind fun event => event.get? (points "hex") with
  | some (.string hexData) => hexData
  | _ => []

/-- `str.lower`, on ASCII. -/
def lower (s : List ℕ) : List ℕ := s.map fun c => if 65 ≤ c ∧ c ≤ 90 then c + 32 else c

/-- A finite float as `json.dumps` prints it, with the fewest digits that it is read back from. -/
structure FloatToken extends NumberToken where
  short : bytes.length ≤ 24

/-- A packet that is delivered to a node: it is not empty, and fits into `MAX_TRANS_UNIT`. -/
structure RxPacket where
  data : Bytes
  snr : FloatToken
  rssi : FloatToken
  nonempty : data ≠ []
  fits : data.length ≤ 255

/-- The command that `deliver_rx` sends for a packet whose sender has printed it. -/
def RxPacket.command (packet : RxPacket) : CommandDict :=
  .deliverRx (lower (eventHex (txLine packet.data))) packet.snr.toNumberToken
    packet.rssi.toNumberToken

theorem plainBytes_writeHex_lc (bytes : Bytes) : PlainBytes (writeHex hexLc bytes) := by
  have digits : PlainBytes hexLc := by decide
  exact forall_mem_writeHex length_hexLc digits bytes

/-- The orchestrator reads the hex that the sender has printed. -/
theorem eventHex_txLine (bytes : Bytes) :
    eventHex (txLine bytes) = (writeHex hexLc bytes).map UInt8.toNat := by
  have printed : txLine bytes = objectBytes (.raw .type (ascii "tx"))
      [.raw .hex (writeHex hexLc bytes)] := by
    simp [txLine, objectBytes, fieldsBytes, Printed.raw, EventKey.bytes, EventKey.word, ascii]
  have word : PlainBytes (ascii "tx") := by decide
  have read := (readEvent_objectBytes_iff (.raw .type (ascii "tx"))
    [.raw .hex (writeHex hexLc bytes)]).mpr (by
      simp [word, plainBytes_writeHex_lc])
  have printable : Printable (writeHex hexLc bytes) := by
    have digits : Printable hexLc := by decide
    exact forall_mem_writeHex length_hexLc digits bytes
  have decoded := (splits_printable printable).decode_eq
  rw [eventHex, printed, read, ← decoded]
  rfl

/-- Characters that are neither made lower case nor escaped. -/
def Steady (s : Bytes) : Prop := ∀ c ∈ s, lower [c.toNat] = [c.toNat] ∧ escapeChar c.toNat = [c]

instance (s : Bytes) : Decidable (Steady s) := List.decidableBAll _ _

theorem Steady.jsonEscaped_lower {s : Bytes} (steady : Steady s) :
    jsonEscaped (lower (s.map UInt8.toNat)) = s := by
  induction s with
  | nil => rfl
  | cons c s ih =>
      obtain ⟨lowered, escaped⟩ := steady c List.mem_cons_self
      have rest := ih fun c mem => steady c (List.mem_cons_of_mem _ mem)
      have head : lower ((c :: s).map UInt8.toNat) = c.toNat :: lower (s.map UInt8.toNat) :=
        congrArg (· ++ lower (s.map UInt8.toNat)) lowered
      rw [head, jsonEscaped, List.flatMap_cons, escaped, ← jsonEscaped, rest]
      rfl

/-- In lower-case hex there is nothing to be made lower case, and nothing to be escaped. -/
theorem jsonEscaped_lower_hex (bytes : Bytes) :
    jsonEscaped (lower ((writeHex hexLc bytes).map UInt8.toNat)) = writeHex hexLc bytes := by
  have digits : Steady hexLc := by decide
  have steady : Steady (writeHex hexLc bytes) :=
    forall_mem_writeHex length_hexLc digits bytes
  exact steady.jsonEscaped_lower

/-- The line of a packet fits into the line buffer. -/
theorem RxPacket.short_command (packet : RxPacket) : (dumps packet.command).length < 4096 := by
  have snr := packet.snr.short
  have rssi := packet.rssi.short
  have fits := packet.fits
  have hex : (jsonEscaped (lower (eventHex (txLine packet.data)))).length ≤ 510 := by
    rw [eventHex_txLine, jsonEscaped_lower_hex, length_writeHex]
    omega
  have word : jsonEscaped (pyString "rx") = ascii "rx" := by decide
  simp only [RxPacket.command, CommandDict.deliverRx, CommandDict.of, dumps, List.map_cons,
    List.map_nil, printMore, printField, CommandValue.print, List.flatMap_cons, List.flatMap_nil,
    List.length_append, List.length_cons, List.length_nil, word, ascii, List.length_map]
  simp
  omega

/-- The node decodes the packet that the sender has encoded. -/
theorem RxPacket.dispatch_command (packet : RxPacket) :
    dispatch (dumps packet.command) = some (some
      (.enqueue packet.data (decimal packet.snr.bytes) (decimal packet.rssi.bytes))) := by
  have fits := packet.fits
  refine dispatch_deliverRx _ _ ?_ packet.nonempty (by omega)
  rw [eventHex_txLine, jsonEscaped_lower_hex, hexToBytes_writeHex hexTable_hexLc]

/-! ### The process of the receiver -/

/-- The line buffer and the radio of a node agent. -/
structure NodeProcess where
  lineBuf : Bytes
  radio : SimRadio

inductive ProcessEvent where
  /-- The main loop reads a byte from stdin. -/
  | read (c : UInt8) (millis : ℕ)
  /-- The Dispatcher takes a packet from the radio into a buffer of `sz` bytes. -/
  | recvRaw (sz : ℕ)
  | startSendRaw (len millis : ℕ)
  | isSendComplete (millis : ℕ)

inductive ProcessObs where
  | read (c : UInt8)
  /-- `recvRaw` has returned a packet. -/
  | received (data : Bytes)

/-- What a call of `dispatch` does to the radio; `none` where the process ends. What the mesh
sends is sent from the main loop. -/
def NodeCall.onRadio (millis : ℕ) (radio : SimRadio) : NodeCall → Option SimRadio
  | .enqueue data snr rssi => some (radio.enqueue ⟨data, snr, rssi⟩)
  | .notifyRxStart durationMs => some (radio.notifyRxStart millis durationMs)
  | .exit => none
  | .setCurrentTime _ | .sendTextTo _ _ | .sendChannelText _ | .broadcastAdvert _ => some radio

/-- What a line does to the radio. -/
def dispatchLine (millis : ℕ) (radio : SimRadio) (line : Bytes) : Option SimRadio :=
  (dispatch line).bind fun call? => call?.elim (some radio) (NodeCall.onRadio millis radio)

namespace NodeProcess

/-- The process when it starts to read. -/
def start (sf bwHz cr : ℤ) : NodeProcess := ⟨[], .init sf bwHz cr⟩

def step (process : NodeProcess) : ProcessEvent → Option (NodeProcess × List ProcessObs)
  | .read c millis =>
      match readByte process.lineBuf c with
      | (lineBuf, none) => some ({ process with lineBuf := lineBuf }, [.read c])
      | (lineBuf, some line) =>
          (dispatchLine millis process.radio line).map fun radio => (⟨lineBuf, radio⟩, [.read c])
  | .recvRaw sz =>
      some ({ process with radio := process.radio.recvRaw },
        if process.radio.rxQueue.isEmpty then [] else [.received (process.radio.received sz)])
  | .startSendRaw len millis =>
      some ({ process with radio := process.radio.startSendRaw millis len }, [])
  | .isSendComplete millis =>
      some ({ process with radio := (process.radio.isSendComplete millis).1 }, [])

/-- Each packet is received into a buffer that is large enough for it. -/
def RoomForFront (process : NodeProcess) : ProcessEvent → Prop
  | .recvRaw sz => ∀ front ∈ process.radio.rxQueue.head?, front.data.length ≤ sz
  | _ => True

end NodeProcess

/-- The bytes that have been read from stdin. -/
def bytesRead (tr : List ProcessObs) : Bytes :=
  tr.filterMap fun
    | .read c => some c
    | .received _ => none

/-- The packets that `recvRaw` has returned. -/
def packetsReceived (tr : List ProcessObs) : List Bytes :=
  tr.filterMap fun
    | .read _ => none
    | .received data => some data

/-- The bytes that are queued. -/
def SimRadio.queued (radio : SimRadio) : List Bytes := radio.rxQueue.map IncomingPacket.data

/-- What is written to the stdin of a node: packets, and other commands that fit into its line
buffer. -/
inductive Written where
  | rx (packet : RxPacket)
  | other (cmd : CommandDict) (notRx : cmd.str (ascii "type") ≠ some (ascii "rx"))
      (short : (dumps cmd).length < 4096)

namespace Written

def command : Written → CommandDict
  | rx packet => packet.command
  | other cmd _ _ => cmd

/-- `send_command` ends the line. -/
def line (written : Written) : Bytes := dumps written.command ++ [10]

def packet? : Written → Option Bytes
  | rx packet => some packet.data
  | other _ _ _ => none

end Written

/-! ### The queue of the radio -/

namespace SimRadio

variable (radio : SimRadio) (millis : ℕ)

theorem queued_enqueue (packet : IncomingPacket) :
    (radio.enqueue packet).queued = radio.queued ++ [packet.data] := by
  simp [queued, enqueue]

@[simp] theorem queued_notifyRxStart (durationMs : ℕ) :
    (radio.notifyRxStart millis durationMs).queued = radio.queued := by
  unfold notifyRxStart
  simp only
  split <;> rfl

@[simp] theorem queued_startSendRaw (len : ℕ) :
    (radio.startSendRaw millis len).queued = radio.queued := rfl

@[simp] theorem queued_isSendComplete : (radio.isSendComplete millis).1.queued = radio.queued := by
  unfold isSendComplete
  split
  · rfl
  · split <;> rfl

end SimRadio

/-- The packet that a line puts into the queue, if any. -/
def enqueuedBy (line : Bytes) : Option Bytes :=
  match dispatch line with
  | some (some (.enqueue data _ _)) => some data
  | _ => none

/-- A line adds its packet to the end of the queue, and nothing else. -/
theorem dispatchLine_queued {millis : ℕ} {radio radio' : SimRadio} {line : Bytes}
    (done : dispatchLine millis radio line = some radio') :
    radio'.queued = radio.queued ++ (enqueuedBy line).toList := by
  unfold dispatchLine at done
  unfold enqueuedBy
  cases called : dispatch line with
  | none => simp [called] at done
  | some call? =>
      rw [called] at done
      cases call? with
      | none =>
          obtain rfl : radio = radio' := Option.some.inj done
          simp
      | some call =>
          have effect : call.onRadio millis radio = some radio' := done
          cases call with
          | enqueue data snr rssi =>
              obtain rfl := Option.some.inj effect
              exact radio.queued_enqueue _
          | notifyRxStart durationMs =>
              obtain rfl := Option.some.inj effect
              simp
          | exit => cases effect
          | setCurrentTime _ | sendTextTo _ _ | sendChannelText _ | broadcastAdvert _ =>
              obtain rfl : radio = radio' := Option.some.inj effect
              simp

/-! ### The packets of a stream -/

variable {process process' : NodeProcess} {tr : List ProcessObs} {sf bwHz cr : ℤ}

/-- What holds of a process that has read some bytes: its line buffer is theirs, and each packet
that their lines have queued has been received or is still queued, in order. -/
def NodeProcess.Consistent (process : NodeProcess) (tr : List ProcessObs) : Prop :=
  process.lineBuf = (readBytes [] (bytesRead tr)).1 ∧
    packetsReceived tr ++ process.radio.queued =
      (readBytes [] (bytesRead tr)).2.filterMap enqueuedBy

theorem bytesRead_append (tr tr' : List ProcessObs) :
    bytesRead (tr ++ tr') = bytesRead tr ++ bytesRead tr' := List.filterMap_append

theorem packetsReceived_append (tr tr' : List ProcessObs) :
    packetsReceived (tr ++ tr') = packetsReceived tr ++ packetsReceived tr' :=
  List.filterMap_append

/-- A step that reads nothing and moves packets from the queue to the Dispatcher, if any. -/
theorem NodeProcess.Consistent.moving {out : List ProcessObs} (consistent : process.Consistent tr)
    (sameBuf : process'.lineBuf = process.lineBuf) (silent : bytesRead out = [])
    (moved : packetsReceived out ++ process'.radio.queued = process.radio.queued) :
    process'.Consistent (tr ++ out) := by
  obtain ⟨lineBuf, packets⟩ := consistent
  have sameBytes : bytesRead (tr ++ out) = bytesRead tr := by
    rw [bytesRead_append, silent, List.append_nil]
  refine ⟨?_, ?_⟩
  · rw [sameBytes, sameBuf, lineBuf]
  · rw [sameBytes, packetsReceived_append, List.append_assoc, moved, packets]

/-- A byte that is read may end a line, whose packet is then the last one in the queue. -/
theorem NodeProcess.Consistent.read {c : UInt8} {millis : ℕ} {out : List ProcessObs}
    (consistent : process.Consistent tr)
    (stepped : process.step (.read c millis) = some (process', out)) :
    process'.Consistent (tr ++ out) := by
  obtain ⟨lineBuf, packets⟩ := consistent
  have bytes : ∀ rest, readBytes [] (bytesRead (tr ++ .read c :: rest)) =
      readBytes [] (bytesRead tr ++ c :: bytesRead rest) := fun rest => by
    rw [bytesRead_append]
    rfl
  have read : readBytes [] (bytesRead (tr ++ [.read c])) =
      ((readByte process.lineBuf c).1,
        (readBytes [] (bytesRead tr)).2 ++ (readByte process.lineBuf c).2.toList) := by
    rw [bytes, readBytes_append, ← lineBuf]
    simp [readBytes, bytesRead]
  have received : packetsReceived (tr ++ [.read c]) = packetsReceived tr := by
    rw [packetsReceived_append]
    exact List.append_nil _
  unfold Consistent
  cases passed : readByte process.lineBuf c with
  | mk lineBuf' line? =>
      cases line? with
      | none =>
          simp only [step, passed, Option.some.injEq, Prod.mk.injEq] at stepped
          obtain ⟨rfl, rfl⟩ := stepped
          rw [read, received, passed]
          simpa using packets
      | some line =>
          simp only [step, passed, Option.map_eq_some_iff, Prod.mk.injEq] at stepped
          obtain ⟨radio, done, rfl, rfl⟩ := stepped
          rw [read, received, passed]
          refine ⟨rfl, ?_⟩
          rw [dispatchLine_queued done, ← List.append_assoc, packets, List.filterMap_append]
          cases queued : enqueuedBy line <;> simp [queued]

/-- The Dispatcher takes the first packet of the queue, whole if there is room. -/
theorem NodeProcess.received_queued {sz : ℕ} (room : process.RoomForFront (.recvRaw sz)) :
    packetsReceived
        (if process.radio.rxQueue.isEmpty then [] else [.received (process.radio.received sz)]) ++
      process.radio.recvRaw.queued = process.radio.queued := by
  unfold RoomForFront at room
  cases queue : process.radio.rxQueue with
  | nil => simp [packetsReceived, SimRadio.recvRaw, SimRadio.queued, queue]
  | cons front rest =>
      have whole : front.data.take sz = front.data :=
        List.take_of_length_le (room front (by simp [queue]))
      simp [packetsReceived, SimRadio.recvRaw, SimRadio.queued, SimRadio.received, queue, whole]

theorem consistent (run : Run NodeProcess.step NodeProcess.RoomForFront (.start sf bwHz cr)
    process tr) : process.Consistent tr := by
  refine run.invariant ⟨rfl, rfl⟩ ?_
  intro process tr e process' out _ consistent room stepped
  cases e with
  | read c millis => exact consistent.read stepped
  | recvRaw sz =>
      simp only [NodeProcess.step, Option.some.injEq, Prod.mk.injEq] at stepped
      obtain ⟨rfl, rfl⟩ := stepped
      refine consistent.moving rfl ?_ (NodeProcess.received_queued room)
      split <;> rfl
  | startSendRaw len millis =>
      obtain ⟨rfl, rfl⟩ := Prod.mk.inj (Option.some.inj stepped)
      exact consistent.moving rfl rfl rfl
  | isSendComplete millis =>
      obtain ⟨rfl, rfl⟩ := Prod.mk.inj (Option.some.inj stepped)
      exact consistent.moving rfl rfl (process.radio.queued_isSendComplete millis)

/-! ### What is written to a node -/

theorem Written.short (written : Written) : (dumps written.command).length < 4096 := by
  cases written with
  | rx packet => exact packet.short_command
  | other _ _ short => exact short

/-- Only a command of type `rx` puts a packet into the queue. -/
theorem Written.enqueuedBy_command (written : Written) :
    enqueuedBy (dumps written.command) = written.packet? := by
  cases written with
  | rx packet => rw [enqueuedBy, Written.command, packet.dispatch_command, packet?]
  | other cmd notRx _ =>
      unfold enqueuedBy
      split
      · next called => exact absurd (type_of_enqueue called) notRx
      · rfl

/-- The lines of a stream are those that were written. -/
theorem readBytes_written (written : List Written) (begun : Bytes) (noNewline : 10 ∉ begun) :
    (readBytes [] (written.flatMap Written.line ++ begun)).2 =
      written.map fun w => dumps w.command := by
  induction written with
  | nil => exact readBytes_noNewline noNewline []
  | cons w written ih =>
      have stream : (w :: written).flatMap Written.line ++ begun =
          dumps w.command ++ 10 :: (written.flatMap Written.line ++ begun) := by
        simp [Written.line]
      rw [stream, readBytes_newline (printable_dumps _).noNewline (dumps_ne_nil _) w.short, ih]
      rfl

/-! ### Runs that receive every packet -/

variable {s₀ : NodeProcess} {radio : SimRadio} {lineBuf : Bytes}

/-- Bytes that are no newline are collected. -/
theorem run_bytes {bytes : Bytes} (noNewline : 10 ∉ bytes)
    (short : lineBuf.length + bytes.length < 4096)
    (run : Run NodeProcess.step NodeProcess.RoomForFront s₀ ⟨lineBuf, radio⟩ tr) :
    Run NodeProcess.step NodeProcess.RoomForFront s₀ ⟨lineBuf ++ bytes, radio⟩
      (tr ++ bytes.map .read) := by
  induction bytes generalizing lineBuf tr with
  | nil => simpa using run
  | cons c bytes ih =>
      have other : c ≠ 10 := fun newline => noNewline (newline ▸ List.mem_cons_self)
      have rest : 10 ∉ bytes := fun mem => noNewline (List.mem_cons_of_mem _ mem)
      rw [List.length_cons] at short
      have collected : readByte lineBuf c = (lineBuf ++ [c], none) := by
        rw [readByte, if_neg other, if_pos (by omega)]
      have stepped : NodeProcess.step ⟨lineBuf, radio⟩ (.read c 0) =
          some (⟨lineBuf ++ [c], radio⟩, [.read c]) := by simp [NodeProcess.step, collected]
      have room : NodeProcess.RoomForFront ⟨lineBuf, radio⟩ (.read c 0) := trivial
      have whole := ih rest (by simp; omega) (run.next room stepped)
      simpa using whole

/-- A packet's line, when it has been read, has put it into the queue. -/
theorem run_line (packet : RxPacket)
    (run : Run NodeProcess.step NodeProcess.RoomForFront s₀ ⟨[], radio⟩ tr) :
    ∃ radio', Run NodeProcess.step NodeProcess.RoomForFront s₀ ⟨[], radio'⟩
        (tr ++ (Written.rx packet).line.map .read) ∧
      radio'.queued = radio.queued ++ [packet.data] := by
  have collected := run_bytes (printable_dumps packet.command).noNewline
    (by simpa using packet.short_command) run
  have passed : readByte (dumps packet.command) 10 = ([], some (dumps packet.command)) := by
    rw [readByte, if_pos rfl, if_pos (List.length_pos_of_ne_nil (dumps_ne_nil _))]
  let incoming : IncomingPacket :=
    ⟨packet.data, decimal packet.snr.bytes, decimal packet.rssi.bytes⟩
  have stepped : NodeProcess.step ⟨dumps packet.command, radio⟩ (.read 10 0) =
      some (⟨[], radio.enqueue incoming⟩, [.read 10]) := by
    simp [NodeProcess.step, passed, dispatchLine, packet.dispatch_command, NodeCall.onRadio,
      incoming]
  have room : NodeProcess.RoomForFront ⟨dumps packet.command, radio⟩ (.read 10 0) := trivial
  have whole := collected.next room stepped
  exact ⟨radio.enqueue incoming, by simpa [Written.line, Written.command] using whole,
    radio.queued_enqueue incoming⟩

theorem run_lines (packets : List RxPacket)
    (run : Run NodeProcess.step NodeProcess.RoomForFront s₀ ⟨[], radio⟩ tr) :
    ∃ radio', Run NodeProcess.step NodeProcess.RoomForFront s₀ ⟨[], radio'⟩
        (tr ++ (packets.flatMap fun packet => (Written.rx packet).line).map .read) ∧
      radio'.queued = radio.queued ++ packets.map RxPacket.data := by
  induction packets generalizing radio tr with
  | nil => exact ⟨radio, by simpa using run, by simp⟩
  | cons packet packets ih =>
      obtain ⟨radio₁, first, queued₁⟩ := run_line packet run
      obtain ⟨radio₂, rest, queued₂⟩ := ih first
      exact ⟨radio₂, by simpa using rest, by simp [queued₂, queued₁]⟩

/-- The Dispatcher can take every packet that is queued. -/
theorem run_recvRaw (run : Run NodeProcess.step NodeProcess.RoomForFront s₀ ⟨lineBuf, radio⟩ tr) :
    ∃ radio', Run NodeProcess.step NodeProcess.RoomForFront s₀ ⟨lineBuf, radio'⟩
        (tr ++ radio.queued.map .received) ∧ radio'.rxQueue = [] := by
  induction queue : radio.rxQueue generalizing radio tr with
  | nil => exact ⟨radio, by simpa [SimRadio.queued, queue] using run, queue⟩
  | cons front rest ih =>
      have stepped : NodeProcess.step ⟨lineBuf, radio⟩ (.recvRaw front.data.length) =
          some (⟨lineBuf, radio.recvRaw⟩, [.received front.data]) := by
        simp [NodeProcess.step, SimRadio.received, queue]
      have room : NodeProcess.RoomForFront ⟨lineBuf, radio⟩ (.recvRaw front.data.length) := by
        simp [NodeProcess.RoomForFront, queue]
      have tail : radio.recvRaw.rxQueue = rest := by simp [SimRadio.recvRaw, queue]
      obtain ⟨radio', drained, empty⟩ := ih (run.next room stepped) tail
      refine ⟨radio', ?_, empty⟩
      simpa [SimRadio.queued, queue, tail] using drained

/-- Whatever packets are written to a node, it can receive them all. -/
theorem exists_run_received (sf bwHz cr : ℤ) (packets : List RxPacket) :
    ∃ process tr, Run NodeProcess.step NodeProcess.RoomForFront (.start sf bwHz cr) process tr ∧
      bytesRead tr = (packets.map Written.rx).flatMap Written.line ∧
      process.radio.rxQueue = [] := by
  have nothing : Run NodeProcess.step NodeProcess.RoomForFront (.start sf bwHz cr)
      ⟨[], .init sf bwHz cr⟩ [] := .start
  obtain ⟨radio₁, written, -⟩ := run_lines packets nothing
  obtain ⟨radio₂, drained, empty⟩ := run_recvRaw written
  refine ⟨_, _, drained, ?_, empty⟩
  simp [bytesRead, List.filterMap_append, List.filterMap_map, List.flatMap_map]

/-! ### Packets cross unchanged and in order -/

/-- The packets that are written to a node are received unchanged, each once and in order: those
that have not been received yet are queued. The bytes that have been read are those of some
commands, and maybe a part of a next line. -/
theorem packets_in_order {written : List Written} {begun : Bytes}
    (run : Run NodeProcess.step NodeProcess.RoomForFront (.start sf bwHz cr) process tr)
    (stream : bytesRead tr = written.flatMap Written.line ++ begun) (noNewline : 10 ∉ begun) :
    packetsReceived tr ++ process.radio.queued = written.filterMap Written.packet? := by
  obtain ⟨-, packets⟩ := consistent run
  rw [packets, stream, readBytes_written written begun noNewline, List.filterMap_map]
  exact List.filterMap_congr fun w _ => w.enqueuedBy_command

/-- A packet of some bytes at 6 dB over the default noise floor. -/
def loudPacket (data : Bytes) (nonempty : data ≠ []) (fits : data.length ≤ 255) : RxPacket where
  data := data
  snr := ⟨⟨ascii "6.0", by decide, by decide⟩, by decide⟩
  rssi := ⟨⟨ascii "-114.0", by decide, by decide⟩, by decide⟩
  nonempty := nonempty
  fits := fits

/-- Two packets, with a NUL, a quote and a newline among their bytes. -/
theorem packets_in_order_twoPackets :
    ∃ process tr, Run NodeProcess.step NodeProcess.RoomForFront (.start 8 62500 4) process tr ∧
      packetsReceived tr = [[0, 34, 10], [255]] := by
  obtain ⟨process, tr, run, stream, empty⟩ := exists_run_received 8 62500 4
    [loudPacket [0, 34, 10] (by decide) (by decide), loudPacket [255] (by decide) (by decide)]
  have packets := packets_in_order run (stream.trans (List.append_nil _).symm) (by simp)
  rw [SimRadio.queued, empty] at packets
  exact ⟨process, tr, run, by simpa [Written.packet?, loudPacket] using packets⟩

end MeshcoreSim
