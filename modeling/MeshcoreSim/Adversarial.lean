import Mathlib.Data.Rat.Floor
import Mathlib.Tactic.Linarith
import MeshcoreSim.Config
import MeshcoreSim.Packet

/-!
Per-node adversarial packet filter (`orchestrator/adversarial.py`) and the random
stream it shares with the router.

The filter of a receiving node drops, corrupts or captures a packet. A `RandomStream`
is any sequence of draws in `[0, 1)`; the position in it is part of the state. The
filter can also fail: `binascii.unhexlify` raises on a string that is not hex.
-/

namespace MeshcoreSim

/-! ### Randomness -/

/-- The outcomes of a `random.Random`, one draw after the other. -/
structure RandomStream where
  draw : ℕ → ℚ
  nonneg : ∀ i, 0 ≤ draw i
  lt_one : ∀ i, draw i < 1

/-- The stream that always yields zero. -/
def RandomStream.zero : RandomStream := ⟨fun _ => 0, fun _ => le_rfl, fun _ => one_pos⟩

/-- `randrange(n)` on the draw at `i`. -/
def RandomStream.randrange (rng : RandomStream) (i n : ℕ) : ℕ := ⌊rng.draw i * n⌋.toNat

theorem RandomStream.randrange_lt (rng : RandomStream) (i : ℕ) {n : ℕ} (pos : 0 < n) :
    rng.randrange i n < n := by
  have positive : (0 : ℚ) < n := by exact_mod_cast pos
  have below : rng.draw i * n < n := by
    have := mul_lt_mul_of_pos_right (rng.lt_one i) positive
    linarith
  have floor : ⌊rng.draw i * n⌋ < (n : ℤ) := Int.floor_lt.mpr (by exact_mod_cast below)
  unfold randrange
  omega

/-! ### The filter -/

structure AdversarialFilter where
  cfg : AdversarialConfig
  replayBuffer : List (ℚ × String)
  deriving DecidableEq, Repr

/-- What `filter_packet` does with a packet: the source returns `None` (suppressed) or
a string to deliver, or raises. -/
inductive FilterResult where
  | suppressed
  | deliver (hexData : String)
  | raised
  deriving DecidableEq, Repr

/-- Flip one bit of one byte. -/
def flipBit (data : Bytes) (idx bit : ℕ) : Bytes :=
  data.modify idx (· ^^^ ((1 : UInt8) <<< UInt8.ofNat bit))

/-- The loop of `_corrupt`: each round draws a byte and a bit of it. -/
def corruptLoop (rng : RandomStream) : ℕ → ℕ → Bytes → Bytes × ℕ
  | 0, pos, data => (data, pos)
  | rounds + 1, pos, data =>
      corruptLoop rng rounds (pos + 2)
        (flipBit data (rng.randrange pos data.length) (rng.randrange (pos + 1) 8))

namespace AdversarialFilter

variable (rng : RandomStream) (filter : AdversarialFilter)

/-- Probabilistic gate on one draw. -/
def shouldApply (pos : ℕ) : Bool := rng.draw pos < filter.cfg.probability

/-- `_corrupt`, with the position in the random stream after it. -/
def corrupt (hexData : String) (pos : ℕ) : FilterResult × ℕ :=
  match unhexlify hexData.toList with
  | none => (.raised, pos)
  | some [] => (.deliver hexData, pos)
  | some data =>
      let (corrupted, pos') := corruptLoop rng filter.cfg.corruptByteCount.toNat pos data
      (.deliver (bytesToHex corrupted), pos')

/-- Apply the adversarial mode to a packet. -/
def filterPacket (hexData : String) (now : ℚ) (pos : ℕ) :
    FilterResult × AdversarialFilter × ℕ :=
  match filter.cfg.mode with
  | .drop => (.suppressed, filter, pos)
  | .corrupt =>
      let (result, pos') := filter.corrupt rng hexData pos
      (result, filter, pos')
  | .replay =>
      let emitAt := now + filter.cfg.replayDelayMs / 1000
      -- Suppress the original: only the replayed copy will propagate.
      (.suppressed, { filter with replayBuffer := filter.replayBuffer ++ [(emitAt, hexData)] }, pos)
  | .other _ => (.deliver hexData, filter, pos)

/-- The packets whose replay deadline has passed, and the filter without them. -/
def drainReplays (now : ℚ) : List String × AdversarialFilter :=
  ((filter.replayBuffer.filter fun entry => decide (now ≥ entry.1)).map Prod.snd,
    { filter with replayBuffer := filter.replayBuffer.filter fun entry => decide (now < entry.1) })

end AdversarialFilter

end MeshcoreSim
