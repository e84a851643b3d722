import MeshcoreSim.AdaptiveDelay.Calls

/-!
The delays of the adaptive-delay node against the window that its comments give.

The comments say that the delay of a packet that is not an advert is uniform in
`[0, 5 × LORA_AIRTIME_MS × txdelay)`. In single precision the largest draws round up to the end of
the window.

* `frac_eq` — what a draw is worth as a fraction.
* `abs_sub_scaled_le` — the delay before it is cut to whole milliseconds.
* `delay_window` — the delays of every node that runs reach.
-/

namespace MeshcoreSim.AdaptiveDelay

open Lib Run
open Nexthop (PubKey Packet payloadTypeTxtMsg)

/-! ### Single precision -/

theorem float_mono {x y : ℚ} (nonneg : 0 ≤ x) (le : x ≤ y) : float x ≤ float y :=
  roundTo_mono (by omega) nonneg le

theorem float_nonneg {x : ℚ} (nonneg : 0 ≤ x) : 0 ≤ float x := roundTo_nonneg (by omega) nonneg

/-- The error below a power of two. -/
theorem abs_sub_float_le {x : ℚ} {k : ℤ} (nonneg : 0 ≤ x) (below : x < 2 ^ k) :
    |x - float x| ≤ 2 ^ (k - 24) / 2 :=
  abs_sub_roundTo_le_of_lt 24 nonneg below

/-! ### Draws -/

/-- The fraction that a draw stands for. -/
def frac (r : UInt32) : ℚ := float (float r.toNat * float (float 1 / float 4294967296))

theorem backoff_eq (maxMs : ℚ) (r : UInt32) : Node.backoff maxMs r = ⌊float (frac r * maxMs)⌋₊ :=
  rfl

theorem float_two_pow_32 : float 4294967296 = 4294967296 :=
  roundTo_of_digits (m := 1) (e := 32) (by norm_num) (by norm_num)

theorem frac_eq (r : UInt32) : frac r = float r.toNat / 2 ^ 32 := by
  have one : float 1 = 1 := roundTo_of_digits (m := 1) (e := 0) (by norm_num) (by norm_num)
  have small : (1 / 4294967296 : ℚ) = 2 ^ (-32 : ℤ) := by norm_num
  have part : float (1 / 4294967296) = (2 : ℚ) ^ (-32 : ℤ) := by
    rw [small]
    exact roundTo_of_digits (m := 1) (e := -32) (by norm_num) (by norm_num)
  have moved : float (float r.toNat * 2 ^ (-32 : ℤ)) = float r.toNat * 2 ^ (-32 : ℤ) :=
    roundTo_mul_zpow (by omega) (Nat.cast_nonneg _) (-32)
  rw [frac, one, float_two_pow_32, part, moved, ← small, mul_one_div]
  norm_num

theorem frac_nonneg (r : UInt32) : 0 ≤ frac r := by
  rw [frac_eq]
  exact div_nonneg (float_nonneg (Nat.cast_nonneg _)) (by norm_num)

/-- One is not excluded: the largest draws are rounded up to it. -/
theorem frac_le_one (r : UInt32) : frac r ≤ 1 := by
  have le : (r.toNat : ℚ) ≤ 4294967296 := by exact_mod_cast r.toNat_lt.le
  have floats := float_mono (Nat.cast_nonneg r.toNat) le
  rw [float_two_pow_32] at floats
  rw [frac_eq, div_le_one (by norm_num)]
  exact floats.trans (by norm_num)

theorem frac_mono {r r' : UInt32} (le : r.toNat ≤ r'.toNat) : frac r ≤ frac r' := by
  rw [frac_eq, frac_eq]
  have floats : float r.toNat ≤ float r'.toNat :=
    float_mono (Nat.cast_nonneg _) (Nat.cast_le.mpr le)
  exact div_le_div_of_nonneg_right floats (by norm_num)

theorem abs_sub_frac_le (r : UInt32) : |(r.toNat : ℚ) / 2 ^ 32 - frac r| ≤ 1 / 2 ^ 25 := by
  have below : (r.toNat : ℚ) < 2 ^ (32 : ℤ) := by exact_mod_cast r.toNat_lt
  have error := abs_sub_float_le (Nat.cast_nonneg _) below
  rw [frac_eq, ← sub_div, abs_div, abs_of_pos (by norm_num : (0 : ℚ) < 2 ^ 32), div_le_iff₀ (by
    norm_num)]
  refine error.trans (le_of_eq ?_)
  norm_num

theorem backoff_mono {maxMs : ℚ} (nonneg : 0 ≤ maxMs) {r r' : UInt32} (le : r.toNat ≤ r'.toNat) :
    Node.backoff maxMs r ≤ Node.backoff maxMs r' :=
  Nat.floor_mono (float_mono (mul_nonneg (frac_nonneg r) nonneg)
    (mul_le_mul_of_nonneg_right (frac_mono le) nonneg))

/-! ### Windows -/

/-- The multipliers of the table, in tenths. -/
def multipliers : List ℕ := [4, 5, 6, 7, 8, 9, 10, 11, 12, 13, 15, 17, 18, 19, 20, 21]

/-- `5 × LORA_AIRTIME_MS × txdelay`. -/
def windowMs (tenths : ℕ) : ℕ := 165 * tenths

/-- The number of draws, from the largest one down, for which the delay is the whole window. -/
def reaching (tenths : ℕ) : ℕ :=
  if tenths = 6 ∨ tenths = 12 then 383 else if tenths = 21 then 0 else 128

/-- The width of the window as it is computed. -/
def computedMs (tenths : ℕ) : ℚ := float (float (float 5 * loraAirtimeMs) * float (tenths / 10))

theorem computedMs_nonneg (tenths : ℕ) : 0 ≤ computedMs tenths := by
  have product : (0 : ℚ) ≤ float (float 5 * loraAirtimeMs) :=
    float_nonneg (mul_nonneg (float_nonneg (by norm_num)) (float_nonneg (by norm_num)))
  exact float_nonneg (mul_nonneg product (float_nonneg (by positivity)))

/-- What has to be computed for each multiplier: the width, the delay of the largest draw, and the
delays on both sides of the first draw that reaches the end. -/
theorem computed : ∀ tenths ∈ multipliers,
    |computedMs tenths - windowMs tenths| ≤ 1 / 2 ^ 12 ∧ windowMs tenths ≤ 3465 ∧
      Node.backoff (computedMs tenths) 4294967295 ≤ windowMs tenths ∧
      Node.backoff (computedMs tenths) (4294967295 - .ofNat (reaching tenths)) <
        windowMs tenths ∧
      (0 < reaching tenths → windowMs tenths ≤
        Node.backoff (computedMs tenths) (4294967295 - .ofNat (reaching tenths - 1))) := by
  decide +kernel

/-- What a draw is worth in a window. -/
def share (tenths : ℕ) (r : UInt32) : ℚ := r.toNat / 2 ^ 32 * windowMs tenths

variable {tenths : ℕ}

/-- Before it is cut to whole milliseconds, a delay is within a microsecond of its share. -/
theorem abs_sub_scaled_le (mem : tenths ∈ multipliers) (r : UInt32) :
    |share tenths r - float (frac r * computedMs tenths)| ≤ 1 / 1000 := by
  obtain ⟨width, bound, -⟩ := computed tenths mem
  have windowBound : (windowMs tenths : ℚ) ≤ 3465 := by exact_mod_cast bound
  have windowNonneg : (0 : ℚ) ≤ windowMs tenths := Nat.cast_nonneg _
  have nonneg := mul_nonneg (frac_nonneg r) (computedMs_nonneg tenths)
  have part := frac_le_one r
  have product : |share tenths r - frac r * computedMs tenths| ≤ 1 / 2 ^ 12 + 3465 / 2 ^ 25 := by
    have parts : share tenths r - frac r * computedMs tenths =
        ((r.toNat : ℚ) / 2 ^ 32 - frac r) * windowMs tenths +
          frac r * (windowMs tenths - computedMs tenths) := by
      rw [share]
      ring
    have first : |((r.toNat : ℚ) / 2 ^ 32 - frac r) * windowMs tenths| ≤ 1 / 2 ^ 25 * 3465 := by
      rw [abs_mul, abs_of_nonneg windowNonneg]
      exact mul_le_mul (abs_sub_frac_le r) windowBound windowNonneg (by norm_num)
    have second : |frac r * (windowMs tenths - computedMs tenths)| ≤ 1 * (1 / 2 ^ 12) := by
      rw [abs_mul, abs_of_nonneg (frac_nonneg r), abs_sub_comm]
      exact mul_le_mul part width (abs_nonneg _) zero_le_one
    calc |share tenths r - frac r * computedMs tenths|
        ≤ |((r.toNat : ℚ) / 2 ^ 32 - frac r) * windowMs tenths| +
            |frac r * (windowMs tenths - computedMs tenths)| := parts ▸ abs_add_le _ _
      _ ≤ 1 / 2 ^ 25 * 3465 + 1 * (1 / 2 ^ 12) := add_le_add first second
      _ = 1 / 2 ^ 12 + 3465 / 2 ^ 25 := by norm_num
  have rounding :
      |frac r * computedMs tenths - float (frac r * computedMs tenths)| ≤ 1 / 2 ^ 13 := by
    have small : frac r * computedMs tenths < 2 ^ (12 : ℤ) := by
      have width' := (abs_le.mp width).2
      calc frac r * computedMs tenths ≤ 1 * computedMs tenths :=
            mul_le_mul_of_nonneg_right part (computedMs_nonneg tenths)
        _ < 2 ^ (12 : ℤ) := by
          norm_num at width' ⊢
          linarith
    refine (abs_sub_float_le nonneg small).trans (le_of_eq ?_)
    norm_num
  calc |share tenths r - float (frac r * computedMs tenths)|
      ≤ |share tenths r - frac r * computedMs tenths| +
          |frac r * computedMs tenths - float (frac r * computedMs tenths)| := abs_sub_le _ _ _
    _ ≤ 1 / 2 ^ 12 + 3465 / 2 ^ 25 + 1 / 2 ^ 13 := add_le_add product rounding
    _ ≤ 1 / 1000 := by norm_num

/-- A delay in a window: it never passes the end, it is the end for the largest draws only, and it
is the share of its draw in whole milliseconds. -/
structure InWindow (tenths : ℕ) (r : UInt32) (ms : ℕ) : Prop where
  inside : ms ≤ windowMs tenths
  full : ms = windowMs tenths ↔ 2 ^ 32 ≤ r.toNat + reaching tenths
  above : share tenths r < ms + 1 + 1 / 1000
  below : (ms : ℚ) ≤ share tenths r + 1 / 1000

theorem backoff_inWindow (mem : tenths ∈ multipliers) (r : UInt32) :
    InWindow tenths r (Node.backoff (computedMs tenths) r) := by
  obtain ⟨-, -, last, before, first⟩ := computed tenths mem
  have few : reaching tenths ≤ 383 := by
    unfold reaching
    split_ifs <;> omega
  have inside : Node.backoff (computedMs tenths) r ≤ windowMs tenths :=
    (backoff_mono (computedMs_nonneg tenths) (Nat.le_of_lt_succ r.toNat_lt)).trans last
  have place (n : ℕ) (small : n ≤ 383) :
      (4294967295 - UInt32.ofNat n).toNat = 4294967295 - n := by
    rw [UInt32.toNat_sub_of_le]
    · simp [UInt32.toNat_ofNat']
      omega
    · rw [UInt32.le_iff_toNat_le]
      simp [UInt32.toNat_ofNat']
      omega
  have error := abs_le.mp (abs_sub_scaled_le mem r)
  have nonneg : 0 ≤ float (frac r * computedMs tenths) :=
    float_nonneg (mul_nonneg (frac_nonneg r) (computedMs_nonneg tenths))
  have cut := Nat.floor_le nonneg
  have more := Nat.lt_floor_add_one (float (frac r * computedMs tenths))
  rw [← backoff_eq] at cut more
  refine ⟨inside, ⟨fun all => ?_, fun late => le_antisymm inside ?_⟩, by linarith, by linarith⟩
  · -- The draw before the first one that reaches the end stays below it.
    by_contra early
    have le : r.toNat ≤ (4294967295 - UInt32.ofNat (reaching tenths)).toNat := by
      rw [place _ few]
      omega
    have less := (backoff_mono (computedMs_nonneg tenths) le).trans_lt before
    omega
  · have some : 0 < reaching tenths := by
      have bound := r.toNat_lt
      omega
    have le : (4294967295 - UInt32.ofNat (reaching tenths - 1)).toNat ≤ r.toNat := by
      rw [place _ (by omega)]
      omega
    exact (first some).trans (backoff_mono (computedMs_nonneg tenths) le)

/-! ### Runs -/

/-- The multipliers of the table are these. -/
theorem densityTable_multipliers : ∀ e ∈ densityTable,
    (∃ tenths ∈ multipliers, e.txdelay = float (tenths / 10)) ∧
      ∃ tenths ∈ multipliers, e.directTxdelay = float (tenths / 10) := by
  decide +kernel

namespace Node

variable {node : Node} {isRelay : Bool} {selfId : PubKey} {tr : List Effect}

/-- The multiplier of a packet's window. -/
def multiplier (node : Node) (packet : Packet) : ℚ :=
  if packet.isRouteDirect then node.directTxdelay else node.txdelay

theorem multiplier_mem (good : node.Good) (packet : Packet) :
    ∃ tenths ∈ multipliers, node.multiplier packet = float (tenths / 10) := by
  obtain ⟨flood, direct⟩ :=
    densityTable_multipliers _ (densityEntry_isGreatest node.contacts.length).1
  unfold multiplier
  split_ifs
  · rwa [good.directTxdelay]
  · rwa [good.txdelay]

/-- In every run, an advert is not delayed and draws nothing; any other packet draws four bytes, and
its delay is in the window of a multiplier of the table. -/
theorem delay_window (run : Run step anyStep (init isRelay selfId) node tr) (packet : Packet) :
    (packet.info.payloadType = payloadTypeAdvert →
      ∀ rng, node.getRetransmitDelay packet rng = (0, rng)) ∧
    (packet.info.payloadType ≠ payloadTypeAdvert → ∃ tenths ∈ multipliers,
      node.multiplier packet = float (tenths / 10) ∧
      ∀ rng, ∃ ms, node.getRetransmitDelay packet rng = (ms, (rng.random 4).2) ∧
        InWindow tenths (drawn (rng.random 4).1) ms) := by
  obtain ⟨good, -, -⟩ := run_invariant (I := fun _ _ => True) run trivial fun _ _ _ _ _ _ _ _ _ =>
    trivial
  refine ⟨fun advert rng => if_pos advert, fun other => ?_⟩
  obtain ⟨tenths, mem, value⟩ := multiplier_mem good packet
  refine ⟨tenths, mem, value, fun rng => ⟨_, ?_, backoff_inWindow mem _⟩⟩
  have width : node.maxMs packet = computedMs tenths := by
    rw [computedMs, ← value]
    rfl
  rw [getRetransmitDelay, if_neg other, ← width]

/-- A flooded text at a node with two neighbours. -/
theorem delay_window_two :
    ∃ node tr packet, exec step (init true (Nexthop.keyOf 0))
        [.onAdvertRecv (Nexthop.keyOf 1) [], .onAdvertRecv (Nexthop.keyOf 2) []] =
        some (node, tr) ∧
      ∃ tenths ∈ multipliers, node.multiplier packet = float (tenths / 10) ∧
        ∀ rng, ∃ ms, node.getRetransmitDelay packet rng = (ms, (rng.random 4).2) ∧
          InWindow tenths (drawn (rng.random 4).1) ms := by
  obtain ⟨node, tr, replay⟩ := exec_good (good_init true (Nexthop.keyOf 0))
    [.onAdvertRecv (Nexthop.keyOf 1) [], .onAdvertRecv (Nexthop.keyOf 2) []]
  have inRange : PacketInfo.InRange ⟨routeTypeFlood, payloadTypeTxtMsg, 0, 1, 1, [0xA1], []⟩ := by
    constructor <;> simp <;> decide
  have other : payloadTypeTxtMsg ≠ payloadTypeAdvert := by decide
  obtain ⟨-, window⟩ := delay_window (.of_exec_step replay) ⟨_, inRange⟩
  exact ⟨node, tr, ⟨_, inRange⟩, replay, window other⟩

end Node

end MeshcoreSim.AdaptiveDelay
