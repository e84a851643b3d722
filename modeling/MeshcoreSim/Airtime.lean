import Mathlib.Algebra.Order.Floor.Ring
import Mathlib.Data.Rat.Floor
import Mathlib.Tactic.Positivity
import Mathlib.Tactic.Linarith

/-!
LoRa on-air time (`orchestrator/airtime.py`), in exact rational arithmetic.

`loraAirtimeMs` is the Semtech formula of the source, all timing values in
milliseconds. `loraAirtimeMs_nonneg` and `loraAirtimeMs_ge` say what the channel
model relies on: a packet lasts at least its preamble and eight payload symbols.
-/

namespace MeshcoreSim

/-- Symbol duration in milliseconds. -/
def symbolMs (sf bwHz : ℕ) : ℚ := 2 ^ sf / (bwHz / 1000)

/-- Low data-rate optimisation: mandatory when a symbol lasts at least 16 ms. -/
def lowDataRate (sf bwHz : ℕ) : ℕ := if symbolMs sf bwHz ≥ 16 then 1 else 0

/-- Number of payload symbols (Semtech formula). -/
def payloadSymbols (sf bwHz cr payloadBytes : ℕ) (crc explicitHeader : Bool) : ℤ :=
  let h : ℤ := if explicitHeader then 0 else 1
  let crcFlag : ℤ := if crc then 1 else 0
  let numerator : ℤ := 8 * payloadBytes - 4 * sf + 28 + 16 * crcFlag - 20 * h
  let denominator : ℤ := 4 * (sf - 2 * lowDataRate sf bwHz)
  8 + max (⌈(numerator : ℚ) / denominator⌉ * (cr + 4)) 0

/-- The on-air time in milliseconds for a LoRa packet. -/
def loraAirtimeMs (sf bwHz cr payloadBytes preambleSymbols : ℕ) (crc explicitHeader : Bool) : ℚ :=
  let tPreambleMs := ((preambleSymbols : ℚ) + 17 / 4) * symbolMs sf bwHz
  let tPayloadMs := payloadSymbols sf bwHz cr payloadBytes crc explicitHeader * symbolMs sf bwHz
  tPreambleMs + tPayloadMs

/-- `_TYPICAL_ADVERT_BYTES`. -/
def typicalAdvertBytes : ℕ := 110

/-- The width of the window over which the initial adverts are staggered, in seconds. -/
def advertStaggerSecs (sf bwHz cr nodeCount preambleSymbols : ℕ) (margin maxStagger : ℚ) : ℚ :=
  let airtimeMs := loraAirtimeMs sf bwHz cr typicalAdvertBytes preambleSymbols true true
  let raw := nodeCount * airtimeMs / 1000 * margin
  min raw maxStagger

/-- `_TYPICAL_MSG_BYTES`. -/
def typicalMsgBytes : ℕ := 60

/-- The time to wait for the acknowledgement of a flooded text message, in seconds. -/
def floodTimeoutSecs (sf bwHz cr preambleSymbols retries : ℕ) : ℚ :=
  let airtimeMs := loraAirtimeMs sf bwHz cr typicalMsgBytes preambleSymbols true true
  let singleTimeoutMs := 500 + 16 * airtimeMs
  (retries + 1) * singleTimeoutMs / 1000

/-- `SNR_THRESHOLD`: the SNR in dB below which the radio cannot demodulate. -/
def snrThreshold : ℕ → Option ℚ
  | 7 => some (-15 / 2)
  | 8 => some (-10)
  | 9 => some (-25 / 2)
  | 10 => some (-15)
  | 11 => some (-35 / 2)
  | 12 => some (-20)
  | _ => none

section Bounds

variable (sf bwHz cr payloadBytes preambleSymbols : ℕ) (crc explicitHeader : Bool)

theorem symbolMs_nonneg : 0 ≤ symbolMs sf bwHz := by
  unfold symbolMs
  positivity

/-- The formula never counts fewer than eight payload symbols. -/
theorem eight_le_payloadSymbols : 8 ≤ payloadSymbols sf bwHz cr payloadBytes crc explicitHeader :=
  le_add_of_nonneg_right (le_max_right _ _)

/-- A packet lasts at least its preamble and eight payload symbols. -/
theorem loraAirtimeMs_ge :
    ((preambleSymbols : ℚ) + 17 / 4 + 8) * symbolMs sf bwHz ≤
      loraAirtimeMs sf bwHz cr payloadBytes preambleSymbols crc explicitHeader := by
  have symbols : (8 : ℚ) ≤ payloadSymbols sf bwHz cr payloadBytes crc explicitHeader := by
    exact_mod_cast eight_le_payloadSymbols sf bwHz cr payloadBytes crc explicitHeader
  have payload := mul_le_mul_of_nonneg_right symbols (symbolMs_nonneg sf bwHz)
  unfold loraAirtimeMs
  linarith

theorem loraAirtimeMs_nonneg :
    0 ≤ loraAirtimeMs sf bwHz cr payloadBytes preambleSymbols crc explicitHeader := by
  refine le_trans ?_ (loraAirtimeMs_ge sf bwHz cr payloadBytes preambleSymbols crc explicitHeader)
  have := symbolMs_nonneg sf bwHz
  positivity

end Bounds

end MeshcoreSim
