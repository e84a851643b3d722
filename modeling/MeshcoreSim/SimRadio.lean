import MeshcoreSim.Airtime
import MeshcoreSim.Packet
import Mathlib.Data.Rat.Floor

/-!
The simulated radio of a node agent (`node_agent/SimRadio.cpp`) and its millisecond clock.

The radio parameters are C++ `int`s. Times are in milliseconds since the start of the
process; they are natural numbers, as no run reaches 2^64 ms. A double that is converted to
an unsigned integer is truncated.

* `getEstAirtimeFor_eq` — the node's own airtime formula is that of the orchestrator, for 8
  preamble symbols and rounded down to milliseconds.
* `airtimes_agree` — a node is done with a transmission at most a millisecond before the
  window of the orchestrator ends, and never after it.
* `notifyRxStart_rxActiveUntil` — the busy window of overlapping notifications is the
  longest of theirs.
-/

namespace MeshcoreSim

/-- A single raw packet sitting in the inbound queue. -/
structure IncomingPacket where
  data : Bytes
  snr : ℚ
  rssi : ℚ
  deriving DecidableEq, Repr

structure SimRadio where
  rxQueue : List IncomingPacket
  lastSnr : ℚ
  lastRssi : ℚ
  txPending : Bool
  rxActiveUntil : ℕ
  sf : ℤ
  bwHz : ℤ
  cr : ℤ
  txDoneAt : ℕ
  deriving DecidableEq, Repr

/-- `SimClock::getMillis`, in a process that was started at `origin`. -/
def getMillis (origin now : ℚ) : ℕ := ⌊1000 * (now - origin)⌋₊

namespace SimRadio

/-- The constructor. -/
def init (sf bwHz cr : ℤ) : SimRadio := ⟨[], 0, -100, false, 0, sf, bwHz, cr, 0⟩

variable (radio : SimRadio) (millis : ℕ)

/-- Mark the radio as receiving for a duration; a window that reaches further stays. -/
def notifyRxStart (durationMs : ℕ) : SimRadio :=
  let newUntil := millis + durationMs
  if newUntil > radio.rxActiveUntil then { radio with rxActiveUntil := newUntil } else radio

def isReceiving : Bool :=
  if radio.txPending then false
  else if millis < radio.rxActiveUntil then true
  else !radio.rxQueue.isEmpty

def enqueue (packet : IncomingPacket) : SimRadio :=
  { radio with rxQueue := radio.rxQueue ++ [packet] }

/-- Pop the first packet of the inbound queue. -/
def recvRaw : SimRadio :=
  match radio.rxQueue with
  | [] => radio
  | front :: rest =>
      { radio with rxQueue := rest, lastSnr := front.snr, lastRssi := front.rssi }

/-- The bytes that `recvRaw` copies into a buffer of `sz` bytes, and returns the number of. -/
def received (sz : ℕ) : Bytes := (radio.rxQueue.head?.map fun front => front.data.take sz).getD []

/-- On-air time in milliseconds, for explicit header and CRC. The shift and the conversions
are taken to be in range; C++ leaves them undefined elsewhere. -/
def getEstAirtimeFor (lenBytes : ℕ) : ℕ :=
  let tSym : ℚ := 2 ^ radio.sf.toNat / (radio.bwHz / 1000)
  let tPre := (8 + 17 / 4) * tSym
  let de : ℤ := if tSym ≥ 16 then 1 else 0
  let num : ℚ := 8 * lenBytes - 4 * radio.sf + 44
  let den : ℚ := 4 * (radio.sf - 2 * de)
  let paySym : ℤ := 8 + max (⌈num / den⌉ * (radio.cr + 4)) 0
  ⌊tPre + paySym * tSym⌋₊

/-- Start to transmit a packet of `len` bytes. The `tx` line that is written to stdout is
what the orchestrator receives. -/
def startSendRaw (len : ℕ) : SimRadio :=
  { radio with txPending := true, txDoneAt := millis + radio.getEstAirtimeFor len }

/-- `isSendComplete`, with the radio after the call. -/
def isSendComplete : SimRadio × Bool :=
  if !radio.txPending then (radio, false)
  else if millis < radio.txDoneAt then (radio, false)
  else ({ radio with txPending := false }, true)

/-! ### The airtime formula -/

/-- The formula of the node is the orchestrator's, rounded down, with 8 preamble symbols. -/
theorem getEstAirtimeFor_eq {sf bwHz cr : ℕ} (sameSf : radio.sf = sf) (sameBw : radio.bwHz = bwHz)
    (sameCr : radio.cr = cr) (lenBytes : ℕ) :
    radio.getEstAirtimeFor lenBytes = ⌊loraAirtimeMs sf bwHz cr lenBytes 8 true true⌋₊ := by
  have symbol : (2 : ℚ) ^ (sf : ℤ).toNat / (((bwHz : ℤ) : ℚ) / 1000) = symbolMs sf bwHz := by
    simp [symbolMs]
  unfold getEstAirtimeFor loraAirtimeMs payloadSymbols lowDataRate
  rw [sameSf, sameBw, sameCr]
  simp only [symbol]
  by_cases slow : symbolMs sf bwHz ≥ 16
  · simp [slow]
    ring_nf
  · simp [slow]
    ring_nf

/-- The node waits for exactly its estimate. -/
theorem isSendComplete_startSendRaw (len later : ℕ) :
    ((radio.startSendRaw millis len).isSendComplete later).2 = true ↔
      millis + radio.getEstAirtimeFor len ≤ later := by
  unfold startSendRaw isSendComplete
  simp only [Bool.not_true, Bool.false_eq_true, if_false]
  split
  · rename_i onAir
    simpa using onAir
  · rename_i done
    simpa using not_lt.mp done

/-- The airtime formulas agree: the node's estimate is the orchestrator's airtime for 8
preamble symbols, rounded down, so the wait for the end of a transmission is never longer
than the window that the orchestrator registers, and less than a millisecond shorter. -/
theorem airtimes_agree (spreads : 7 ≤ radio.sf) (band : 0 < radio.bwHz) (coded : 0 ≤ radio.cr)
    (len : ℕ) :
    let window := loraAirtimeMs radio.sf.toNat radio.bwHz.toNat radio.cr.toNat len 8 true true
    radio.getEstAirtimeFor len = ⌊window⌋₊ ∧
      ∃ wait : ℕ, (∀ later, ((radio.startSendRaw millis len).isSendComplete later).2 = true ↔
          millis + wait ≤ later) ∧
        (wait : ℚ) ≤ window ∧ window < wait + 1 := by
  intro window
  have estimate : radio.getEstAirtimeFor len = ⌊window⌋₊ :=
    radio.getEstAirtimeFor_eq (Int.toNat_of_nonneg (by omega)).symm
      (Int.toNat_of_nonneg band.le).symm (Int.toNat_of_nonneg coded).symm len
  have positive : 0 ≤ window := loraAirtimeMs_nonneg _ _ _ _ _ _ _
  refine ⟨estimate, ⌊window⌋₊, ?_, Nat.floor_le positive, Nat.lt_floor_add_one window⟩
  intro later
  rw [← estimate]
  exact radio.isSendComplete_startSendRaw millis len later

/-- The default radio, and an advert of 110 bytes that is sent at second 20. -/
theorem airtimes_agree_advert :
    let window := loraAirtimeMs 10 250000 1 110 8 true true
    (init 10 250000 1).getEstAirtimeFor 110 = ⌊window⌋₊ ∧
      ∃ wait : ℕ, (∀ later, (((init 10 250000 1).startSendRaw 20000 110).isSendComplete later).2 =
          true ↔ 20000 + wait ≤ later) ∧
        (wait : ℚ) ≤ window ∧ window < wait + 1 :=
  (init 10 250000 1).airtimes_agree 20000 (by decide) (by decide) (by decide) 110

/-! ### The busy window -/

variable {radio millis}

/-- A notification never shortens the busy window, and covers its own duration. -/
theorem notifyRxStart_rxActiveUntil (durationMs : ℕ) :
    (radio.notifyRxStart millis durationMs).rxActiveUntil =
      max radio.rxActiveUntil (millis + durationMs) := by
  unfold notifyRxStart
  simp only
  split
  · simp only
    omega
  · omega

/-! Nothing but a notification touches the busy window. -/

@[simp] theorem startSendRaw_rxActiveUntil (len : ℕ) :
    (radio.startSendRaw millis len).rxActiveUntil = radio.rxActiveUntil := rfl

@[simp] theorem isSendComplete_rxActiveUntil :
    (radio.isSendComplete millis).1.rxActiveUntil = radio.rxActiveUntil := by
  unfold isSendComplete
  split
  · rfl
  · split <;> rfl

@[simp] theorem recvRaw_rxActiveUntil : radio.recvRaw.rxActiveUntil = radio.rxActiveUntil := by
  unfold recvRaw
  split <;> rfl

/-- An idle radio that is not receiving is past its busy window. -/
theorem rxActiveUntil_le (idle : radio.txPending = false)
    (silent : radio.isReceiving millis = false) : radio.rxActiveUntil ≤ millis := by
  unfold isReceiving at silent
  rw [idle] at silent
  by_contra active
  simp [not_le.mp active] at silent

end SimRadio

end MeshcoreSim
