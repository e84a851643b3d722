import MeshcoreSim.Airtime
import Mathlib.Algebra.Order.SuccPred
import Mathlib.Data.Nat.SuccPred
import Mathlib.Order.Interval.Set.OrdConnected
import Mathlib.Tactic.Ring

/-!
How the on-air time depends on the parameters of the radio.

The payload is sent in blocks of `cr + 4` symbols. A higher spreading factor needs fewer blocks
of symbols that last twice as long, and the low data-rate optimisation, which the spreading factor
and the bandwidth switch, makes the blocks smaller. `blocks_le` bounds what a step of the spreading
factor saves; the eight symbols that every payload has and the preamble outweigh it.

* `loraAirtimeMs_lt_succ_sf` — one step of the spreading factor, across the switch.
* `airtime_monotone` — all parameters.
-/

namespace MeshcoreSim

/-- The coded blocks of the payload: the ceiling in the Semtech formula. -/
def payloadBlocks (sf bwHz payloadBytes : ℕ) (crc explicitHeader : Bool) : ℤ :=
  let h : ℤ := if explicitHeader then 0 else 1
  let crcFlag : ℤ := if crc then 1 else 0
  let numerator : ℤ := 8 * payloadBytes - 4 * sf + 28 + 16 * crcFlag - 20 * h
  let denominator : ℤ := 4 * (sf - 2 * lowDataRate sf bwHz)
  ⌈(numerator : ℚ) / denominator⌉

variable {sf bwHz cr payloadBytes preambleSymbols : ℕ} {crc explicitHeader : Bool}

theorem payloadSymbols_eq (sf bwHz cr payloadBytes : ℕ) (crc explicitHeader : Bool) :
    payloadSymbols sf bwHz cr payloadBytes crc explicitHeader =
      8 + max (payloadBlocks sf bwHz payloadBytes crc explicitHeader) 0 * (cr + 4) := by
  have positive : (0 : ℤ) ≤ cr + 4 := by positivity
  unfold payloadSymbols payloadBlocks
  rw [max_mul_of_nonneg _ _ positive, zero_mul]

/-- The on-air time as a number of symbols. -/
theorem loraAirtimeMs_eq (sf bwHz cr payloadBytes preambleSymbols : ℕ) (crc explicitHeader : Bool) :
    loraAirtimeMs sf bwHz cr payloadBytes preambleSymbols crc explicitHeader =
      (preambleSymbols + 17 / 4 + payloadSymbols sf bwHz cr payloadBytes crc explicitHeader) *
        symbolMs sf bwHz := by
  unfold loraAirtimeMs
  ring

theorem symbolMs_pos (band : 0 < bwHz) : 0 < symbolMs sf bwHz := by
  unfold symbolMs
  positivity

theorem symbolMs_succ : symbolMs (sf + 1) bwHz = 2 * symbolMs sf bwHz := by
  unfold symbolMs
  ring

/-- A wider band has shorter symbols. -/
theorem symbolMs_lt {wider : ℕ} (band : 0 < bwHz) (wide : bwHz < wider) :
    symbolMs sf wider < symbolMs sf bwHz := by
  have positive : (0 : ℚ) < bwHz := by exact_mod_cast band
  have larger : (bwHz : ℚ) < wider := by exact_mod_cast wide
  unfold symbolMs
  gcongr

/-- Longer symbols have the optimisation if shorter ones have it. -/
theorem lowDataRate_le {sf' bwHz' : ℕ} (longer : symbolMs sf bwHz ≤ symbolMs sf' bwHz') :
    lowDataRate sf bwHz ≤ lowDataRate sf' bwHz' := by
  unfold lowDataRate
  split
  · rename_i slow
    rw [if_pos (ge_trans longer slow)]
  · exact Nat.zero_le _

theorem lowDataRate_le_one : lowDataRate sf bwHz ≤ 1 := by
  unfold lowDataRate
  split <;> omega

/-! ### Blocks -/

/-- The payload in units of 4 bits, with its header and checksum. -/
def payloadNibbles (payloadBytes : ℕ) (crc explicitHeader : Bool) : ℤ :=
  2 * payloadBytes + 7 + (if crc then 4 else 0) - (if explicitHeader then 0 else 5)

/-- The number of blocks is the least that holds the payload: a block has `sf - 2 * de` units of
4 bits, and the first `sf` of them are not counted. -/
theorem payloadBlocks_le_iff (spreads : 7 ≤ sf) (n : ℤ) :
    payloadBlocks sf bwHz payloadBytes crc explicitHeader ≤ n ↔
      payloadNibbles payloadBytes crc explicitHeader - sf ≤
        n * (sf - 2 * lowDataRate sf bwHz) := by
  have optimised : lowDataRate sf bwHz ≤ 1 := lowDataRate_le_one
  have positive : (0 : ℤ) < 4 * (sf - 2 * lowDataRate sf bwHz) := by omega
  have positiveRat : (0 : ℚ) < ((4 * (sf - 2 * lowDataRate sf bwHz) : ℤ) : ℚ) := by
    exact_mod_cast positive
  unfold payloadBlocks payloadNibbles
  rw [Int.ceil_le, div_le_iff₀ positiveRat, ← Int.cast_mul, Int.cast_le]
  cases crc <;> cases explicitHeader <;> simp <;> constructor <;> intro fits <;> linarith

/-- A longer payload has no fewer blocks. -/
theorem payloadBlocks_mono_bytes (spreads : 7 ≤ sf) {longer : ℕ} (more : payloadBytes ≤ longer) :
    payloadBlocks sf bwHz payloadBytes crc explicitHeader ≤
      payloadBlocks sf bwHz longer crc explicitHeader := by
  have holds : payloadNibbles longer crc explicitHeader - sf ≤
      payloadBlocks sf bwHz longer crc explicitHeader * (sf - 2 * lowDataRate sf bwHz) :=
    (payloadBlocks_le_iff spreads _).mp le_rfl
  rw [payloadBlocks_le_iff spreads]
  refine le_trans ?_ holds
  unfold payloadNibbles
  omega

/-- A wider band has no more blocks: its symbols are shorter, so they are not optimised unless
longer ones are. -/
theorem payloadBlocks_anti_bw (spreads : 7 ≤ sf) {wider : ℕ} (band : 0 < bwHz)
    (wide : bwHz < wider) (payloadBytes : ℕ) (crc explicitHeader : Bool) :
    max (payloadBlocks sf wider payloadBytes crc explicitHeader) 0 ≤
      max (payloadBlocks sf bwHz payloadBytes crc explicitHeader) 0 := by
  have switched : lowDataRate sf wider ≤ lowDataRate sf bwHz :=
    lowDataRate_le (symbolMs_lt band wide).le
  set blocks := max (payloadBlocks sf bwHz payloadBytes crc explicitHeader) 0
  have holds : payloadNibbles payloadBytes crc explicitHeader - sf ≤
      blocks * (sf - 2 * lowDataRate sf bwHz) :=
    (payloadBlocks_le_iff spreads blocks).mp (le_max_left _ _)
  have positive : 0 ≤ blocks := le_max_right _ _
  refine max_le ?_ positive
  rw [payloadBlocks_le_iff spreads]
  refine holds.trans (mul_le_mul_of_nonneg_left ?_ positive)
  omega

/-- A step of the spreading factor saves at most half of the blocks and one more, whether or not
it switches the optimisation on. -/
theorem blocks_le (spreads : 7 ≤ sf) :
    max (payloadBlocks sf bwHz payloadBytes crc explicitHeader) 0 ≤
      2 * max (payloadBlocks (sf + 1) bwHz payloadBytes crc explicitHeader) 0 + 1 := by
  have switched : lowDataRate sf bwHz ≤ lowDataRate (sf + 1) bwHz := by
    refine lowDataRate_le ?_
    rw [symbolMs_succ]
    linarith [symbolMs_nonneg sf bwHz]
  have optimised : lowDataRate (sf + 1) bwHz ≤ 1 := lowDataRate_le_one
  set blocks' := max (payloadBlocks (sf + 1) bwHz payloadBytes crc explicitHeader) 0
  have positive : 0 ≤ blocks' := le_max_right _ _
  have holds : payloadNibbles payloadBytes crc explicitHeader - ((sf + 1 : ℕ) : ℤ) ≤
      blocks' * (((sf + 1 : ℕ) : ℤ) - 2 * lowDataRate (sf + 1) bwHz) :=
    (payloadBlocks_le_iff (by omega) blocks').mp (le_max_left _ _)
  push_cast at holds
  refine max_le ?_ (by omega)
  rw [payloadBlocks_le_iff spreads]
  -- The blocks of the higher factor have at most one unit more, and there are twice as many.
  have wide : (sf : ℤ) + 1 - 2 * lowDataRate (sf + 1) bwHz ≤
      (sf - 2 * lowDataRate sf bwHz) + 1 := by omega
  have enough := mul_le_mul_of_nonneg_left wide positive
  have room : (5 : ℤ) ≤ sf - 2 * lowDataRate sf bwHz := by omega
  have spare := mul_le_mul_of_nonneg_left room positive
  linarith

/-! ### Airtime -/

/-- A step of the spreading factor doubles the duration of a symbol, and the preamble with the
eight symbols of every payload outweighs what it saves. -/
theorem loraAirtimeMs_lt_succ_sf (spreads : 7 ≤ sf) (band : 0 < bwHz) (coded : cr ≤ 4) :
    loraAirtimeMs sf bwHz cr payloadBytes preambleSymbols crc explicitHeader <
      loraAirtimeMs (sf + 1) bwHz cr payloadBytes preambleSymbols crc explicitHeader := by
  rw [loraAirtimeMs_eq, loraAirtimeMs_eq, symbolMs_succ, ← mul_assoc]
  apply mul_lt_mul_of_pos_right _ (symbolMs_pos band)
  rw [payloadSymbols_eq, payloadSymbols_eq]
  set blocks := max (payloadBlocks sf bwHz payloadBytes crc explicitHeader) 0
  set blocks' := max (payloadBlocks (sf + 1) bwHz payloadBytes crc explicitHeader) 0
  have saved : blocks ≤ 2 * blocks' + 1 := blocks_le spreads
  have block : (0 : ℤ) ≤ cr + 4 := by positivity
  have symbols := mul_le_mul_of_nonneg_right saved block
  have short : (cr : ℤ) + 4 ≤ 8 := by omega
  have bound : blocks * (cr + 4) ≤ 2 * (blocks' * (cr + 4)) + 8 := by linarith
  have boundRat : (blocks : ℚ) * (cr + 4) ≤ 2 * (blocks' * (cr + 4)) + 8 := by
    exact_mod_cast bound
  have preamble : (0 : ℚ) ≤ preambleSymbols := by positivity
  push_cast
  linarith

theorem loraAirtimeMs_lt_bw (spreads : 7 ≤ sf) (band : 0 < bwHz) {wider : ℕ} (wide : bwHz < wider) :
    loraAirtimeMs sf wider cr payloadBytes preambleSymbols crc explicitHeader <
      loraAirtimeMs sf bwHz cr payloadBytes preambleSymbols crc explicitHeader := by
  have block : (0 : ℤ) ≤ cr + 4 := by positivity
  have symbols : payloadSymbols sf wider cr payloadBytes crc explicitHeader ≤
      payloadSymbols sf bwHz cr payloadBytes crc explicitHeader := by
    rw [payloadSymbols_eq, payloadSymbols_eq]
    have blocks := payloadBlocks_anti_bw spreads band wide
    linarith [mul_le_mul_of_nonneg_right (blocks payloadBytes crc explicitHeader) block]
  have symbolsRat : (payloadSymbols sf wider cr payloadBytes crc explicitHeader : ℚ) ≤
      payloadSymbols sf bwHz cr payloadBytes crc explicitHeader := by
    exact_mod_cast symbols
  have some_ : (8 : ℚ) ≤ payloadSymbols sf wider cr payloadBytes crc explicitHeader := by
    exact_mod_cast eight_le_payloadSymbols sf wider cr payloadBytes crc explicitHeader
  have preamble : (0 : ℚ) ≤ preambleSymbols := by positivity
  rw [loraAirtimeMs_eq, loraAirtimeMs_eq]
  apply mul_lt_mul' _ (symbolMs_lt band wide) (symbolMs_nonneg _ _)
  · linarith
  · linarith

/-- More symbols of the same duration last longer. -/
theorem loraAirtimeMs_le_of_symbols {cr' payloadBytes' : ℕ}
    (symbols : payloadSymbols sf bwHz cr payloadBytes crc explicitHeader ≤
      payloadSymbols sf bwHz cr' payloadBytes' crc explicitHeader) :
    loraAirtimeMs sf bwHz cr payloadBytes preambleSymbols crc explicitHeader ≤
      loraAirtimeMs sf bwHz cr' payloadBytes' preambleSymbols crc explicitHeader := by
  have symbolsRat : (payloadSymbols sf bwHz cr payloadBytes crc explicitHeader : ℚ) ≤
      payloadSymbols sf bwHz cr' payloadBytes' crc explicitHeader := by
    exact_mod_cast symbols
  rw [loraAirtimeMs_eq, loraAirtimeMs_eq]
  apply mul_le_mul_of_nonneg_right _ (symbolMs_nonneg _ _)
  linarith

theorem payloadSymbols_mono_bytes (spreads : 7 ≤ sf) {longer : ℕ} (more : payloadBytes ≤ longer) :
    payloadSymbols sf bwHz cr payloadBytes crc explicitHeader ≤
      payloadSymbols sf bwHz cr longer crc explicitHeader := by
  have blocks : max (payloadBlocks sf bwHz payloadBytes crc explicitHeader) 0 ≤
      max (payloadBlocks sf bwHz longer crc explicitHeader) 0 :=
    max_le_max_right 0 (payloadBlocks_mono_bytes spreads more)
  have block : (0 : ℤ) ≤ cr + 4 := by positivity
  rw [payloadSymbols_eq, payloadSymbols_eq]
  linarith [mul_le_mul_of_nonneg_right blocks block]

theorem payloadSymbols_mono_cr {cr' : ℕ} (more : cr ≤ cr') :
    payloadSymbols sf bwHz cr payloadBytes crc explicitHeader ≤
      payloadSymbols sf bwHz cr' payloadBytes crc explicitHeader := by
  have blocks : 0 ≤ max (payloadBlocks sf bwHz payloadBytes crc explicitHeader) 0 :=
    le_max_right _ _
  have block : (cr : ℤ) + 4 ≤ cr' + 4 := by omega
  rw [payloadSymbols_eq, payloadSymbols_eq]
  linarith [mul_le_mul_of_nonneg_left block blocks]

theorem loraAirtimeMs_lt_preamble (band : 0 < bwHz) {preambleSymbols' : ℕ}
    (more : preambleSymbols < preambleSymbols') :
    loraAirtimeMs sf bwHz cr payloadBytes preambleSymbols crc explicitHeader <
      loraAirtimeMs sf bwHz cr payloadBytes preambleSymbols' crc explicitHeader := by
  have longer : (preambleSymbols : ℚ) < preambleSymbols' := by exact_mod_cast more
  rw [loraAirtimeMs_eq, loraAirtimeMs_eq]
  apply mul_lt_mul_of_pos_right _ (symbolMs_pos band)
  linarith

/-- The on-air time is monotone in every parameter, whatever the others are: strictly increasing
in the spreading factor and the preamble, strictly decreasing in the bandwidth, and
non-decreasing in the payload and the coding rate. -/
theorem airtime_monotone (spreads : sf ∈ Set.Icc 7 12) (band : 0 < bwHz)
    (coded : cr ∈ Set.Icc 1 4) (payloadBytes preambleSymbols : ℕ) (crc explicitHeader : Bool) :
    StrictMonoOn (fun sf => loraAirtimeMs sf bwHz cr payloadBytes preambleSymbols crc
      explicitHeader) (Set.Icc 7 12) ∧
    StrictAntiOn (fun bwHz => loraAirtimeMs sf bwHz cr payloadBytes preambleSymbols crc
      explicitHeader) (Set.Ioi 0) ∧
    Monotone (fun payloadBytes => loraAirtimeMs sf bwHz cr payloadBytes preambleSymbols crc
      explicitHeader) ∧
    MonotoneOn (fun cr => loraAirtimeMs sf bwHz cr payloadBytes preambleSymbols crc
      explicitHeader) (Set.Icc 1 4) ∧
    StrictMono (fun preambleSymbols => loraAirtimeMs sf bwHz cr payloadBytes preambleSymbols crc
      explicitHeader) := by
  refine ⟨?_, ?_, ?_, ?_, ?_⟩
  · apply strictMonoOn_of_lt_add_one Set.ordConnected_Icc
    intro sf _ inRange _
    exact loraAirtimeMs_lt_succ_sf inRange.1 band coded.2
  · intro bwHz positive wider _ wide
    exact loraAirtimeMs_lt_bw spreads.1 positive wide
  · intro payloadBytes longer more
    exact loraAirtimeMs_le_of_symbols (payloadSymbols_mono_bytes spreads.1 more)
  · intro cr _ cr' _ more
    exact loraAirtimeMs_le_of_symbols (payloadSymbols_mono_cr more)
  · intro preambleSymbols preambleSymbols' more
    exact loraAirtimeMs_lt_preamble band more

/-- At 125 kHz with CR 4/5, from SF 10 on, where the next step switches the optimisation on. -/
theorem airtime_monotone_switch :
    StrictMonoOn (fun sf => loraAirtimeMs sf 125000 1 60 8 true true) (Set.Icc 7 12) ∧
    StrictAntiOn (fun bwHz => loraAirtimeMs 10 bwHz 1 60 8 true true) (Set.Ioi 0) ∧
    Monotone (fun payloadBytes => loraAirtimeMs 10 125000 1 payloadBytes 8 true true) ∧
    MonotoneOn (fun cr => loraAirtimeMs 10 125000 cr 60 8 true true) (Set.Icc 1 4) ∧
    StrictMono (fun preambleSymbols => loraAirtimeMs 10 125000 1 60 preambleSymbols true true) :=
  airtime_monotone ⟨by decide, by decide⟩ (by decide) ⟨by decide, by decide⟩ 60 8 true true

end MeshcoreSim
