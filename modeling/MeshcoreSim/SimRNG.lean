import MeshcoreSim.Hex
import MeshcoreSim.Lib.WordMixing

/-!
The random number generator of a node (`node_agent/SimRNG.cpp`): xoshiro256**, seeded through
SplitMix64.

A `uint64_t` is a `UInt64`, and `memcpy` of one is little-endian.

* `splitmix64_injective` — different states give different words.
* `xoshiro256ss_ne_zero` — no step leads to the state that is all zero.
* `never_degenerates` — nothing that is done with a generator does.
-/

namespace MeshcoreSim

open Lib WordMixing

/-- The four words of `_s`. -/
structure SimRNG where
  s0 : UInt64
  s1 : UInt64
  s2 : UInt64
  s3 : UInt64
  deriving DecidableEq, Repr

/-- What `_splitmix64` adds to its state. -/
def splitmixGamma : UInt64 := 0x9e3779b97f4a7c15

/-- What `_splitmix64` makes of its new state. -/
def splitmixOutput (z : UInt64) : UInt64 :=
  let z := (z ^^^ (z >>> 30)) * 0xbf58476d1ce4e5b9
  let z := (z ^^^ (z >>> 27)) * 0x94d049bb133111eb
  z ^^^ (z >>> 31)

/-- `_splitmix64`: a word, and the state after it. -/
def splitmix64 (state : UInt64) : UInt64 × UInt64 :=
  (splitmixOutput (state + splitmixGamma), state + splitmixGamma)

def rotl (x : UInt64) (k : UInt64) : UInt64 := (x <<< k) ||| (x >>> (64 - k))

/-- The core: a word, and the state after it. -/
def xoshiro256ss (s : SimRNG) : UInt64 × SimRNG :=
  let result := rotl (s.s1 * 5) 7 * 9
  let t := s.s1 <<< 17
  let s2 := s.s2 ^^^ s.s0
  let s3 := s.s3 ^^^ s.s1
  let s1 := s.s1 ^^^ s2
  let s0 := s.s0 ^^^ s3
  let s2 := s2 ^^^ t
  (result, ⟨s0, s1, s2, rotl s3 45⟩)

namespace SimRNG

/-- `seed(uint64_t)`. -/
def seed (s : UInt64) : SimRNG :=
  let (s0, sm) := splitmix64 s
  let (s1, sm) := splitmix64 sm
  let (s2, sm) := splitmix64 sm
  let (s3, _) := splitmix64 sm
  ⟨s0, s1, s2, s3⟩

/-- The hash of a key, FNV-1a. -/
def keyHash (key : Bytes) : UInt64 :=
  key.foldl (fun h b => (h ^^^ b.toUInt64) * 0x100000001b3) 0xcbf29ce484222325

/-- `seed(const uint8_t*, size_t)`. -/
def seedKey (key : Bytes) : SimRNG := seed (keyHash key)

/-- The constructor. -/
def init : SimRNG := seed 0

/-- The bytes of a word in memory. -/
def wordBytes (val : UInt64) : Bytes :=
  (List.range 8).map fun i => (val >>> (8 * UInt64.ofNat i)).toUInt8

/-- The loop of `random`, with so many bytes still to be written. -/
def random (rng : SimRNG) (remaining : ℕ) : Bytes × SimRNG :=
  if remaining = 0 then ([], rng)
  else
    let (val, next) := xoshiro256ss rng
    let (rest, last) := next.random (remaining - min remaining 8)
    ((wordBytes val).take (min remaining 8) ++ rest, last)
termination_by remaining
decreasing_by omega

/-- What is done with a generator. -/
inductive Call where
  | seed (s : UInt64)
  | seedKey (key : Bytes)
  | random (sz : ℕ)

/-- The generator after a call. -/
def call (rng : SimRNG) : Call → SimRNG
  | .seed s => .seed s
  | .seedKey key => .seedKey key
  | .random sz => (rng.random sz).2

/-- The state from which xoshiro never gets away. -/
def zero : SimRNG := ⟨0, 0, 0, 0⟩

end SimRNG

/-! ### Seeding -/

/-- The shift counts modulo 64. -/
theorem xorShift_injective {k : UInt64} (inside : k.toBitVec % 64 ≠ 0) :
    Function.Injective fun z : UInt64 => z ^^^ (z >>> k) := by
  intro z z' same
  have positive : 0 < (k.toBitVec % 64).toNat := Nat.pos_of_ne_zero fun zero =>
    inside (BitVec.eq_of_toNat_eq zero)
  have bits := congrArg UInt64.toBitVec same
  simp only [UInt64.toBitVec_xor, UInt64.toBitVec_shiftRight, BitVec.ushiftRight_eq'] at bits
  exact UInt64.toBitVec_inj.mp (xorShiftRight_injective positive bits)

theorem mul_injective {factor inverse : UInt64} (unit : factor * inverse = 1) :
    Function.Injective fun z : UInt64 => z * factor := by
  have undone : Function.LeftInverse (fun z : UInt64 => z * inverse) fun z => z * factor := by
    intro z
    simp only [UInt64.mul_assoc, unit, UInt64.mul_one]
  exact undone.injective

/-- Both factors of the output are odd, and so have an inverse modulo 2^64. -/
theorem splitmixOutput_injective : Function.Injective splitmixOutput := by
  have first : (0xbf58476d1ce4e5b9 : UInt64) * 0x96de1b173f119089 = 1 := by decide
  have second : (0x94d049bb133111eb : UInt64) * 0x319642b2d24d8ec3 = 1 := by decide
  have mixed := (xorShift_injective (k := 31) (by decide)).comp
    ((mul_injective second).comp ((xorShift_injective (k := 27) (by decide)).comp
      ((mul_injective first).comp (xorShift_injective (k := 30) (by decide)))))
  exact mixed

/-- Different states give different words. -/
theorem splitmix64_injective : Function.Injective fun state => (splitmix64 state).1 := by
  intro state state' same
  exact (UInt64.add_left_inj splitmixGamma).mp (splitmixOutput_injective same)

namespace SimRNG

/-- The first two words are those of different states, and only one state has the word zero. -/
theorem seed_ne_zero (s : UInt64) : seed s ≠ zero := by
  intro all
  have first : (splitmix64 s).1 = 0 := congrArg SimRNG.s0 all
  have second : (splitmix64 (s + splitmixGamma)).1 = 0 := congrArg SimRNG.s1 all
  have same : s = s + splitmixGamma := splitmix64_injective (first.trans second.symm)
  have noStep : splitmixGamma = 0 := by
    have added := (UInt64.add_zero s).trans same
    exact ((UInt64.add_right_inj s).mp added).symm
  exact absurd noStep (by decide)

/-! ### Steps -/

theorem rotl_eq_zero {x : UInt64} (zero : rotl x 45 = 0) : x = 0 := by
  have bits := congrArg UInt64.toBitVec zero
  exact UInt64.toBitVec_inj.mp (rotate_eq_zero (k := 45) (by decide) bits)

theorem xor_shiftLeft_eq_zero {x : UInt64} (zero : x ^^^ (x <<< 17) = 0) : x = 0 := by
  have bits : x.toBitVec ^^^ x.toBitVec <<< 17 = (0#64 ^^^ 0#64 <<< 17) :=
    congrArg UInt64.toBitVec zero
  exact UInt64.toBitVec_inj.mp (xorShiftLeft_injective (k := 17) (by decide) bits)

/-- The words before a step can be told from those after it, one after the other. -/
theorem xoshiro256ss_ne_zero {rng : SimRNG} (nonzero : rng ≠ zero) :
    (xoshiro256ss rng).2 ≠ zero := by
  intro all
  obtain ⟨s0, s1, s2, s3⟩ := rng
  simp only [xoshiro256ss, zero, SimRNG.mk.injEq] at all
  obtain ⟨after0, after1, after2, after3⟩ := all
  have mixed3 : s3 ^^^ s1 = 0 := rotl_eq_zero after3
  have is0 : s0 = 0 := by rwa [mixed3, UInt64.xor_zero] at after0
  have mixed1 : s1 ^^^ s2 = 0 := by rwa [is0, UInt64.xor_zero] at after1
  have same : s1 = s2 := UInt64.xor_eq_zero_iff.mp mixed1
  have is1 : s1 = 0 := by
    rw [is0, UInt64.xor_zero, ← same] at after2
    exact xor_shiftLeft_eq_zero after2
  have is3 : s3 = 0 := by rwa [is1, UInt64.xor_zero] at mixed3
  exact nonzero (by rw [is0, ← same, is1, is3, zero])

theorem random_ne_zero {rng : SimRNG} (nonzero : rng ≠ zero) (remaining : ℕ) :
    (rng.random remaining).2 ≠ zero := by
  induction remaining using Nat.strong_induction_on generalizing rng with
  | _ remaining ih =>
      rw [random]
      split_ifs with done
      · exact nonzero
      · exact ih _ (by omega) (xoshiro256ss_ne_zero nonzero)

theorem call_ne_zero {rng : SimRNG} (nonzero : rng ≠ zero) (c : Call) : rng.call c ≠ zero := by
  cases c with
  | seed s => exact seed_ne_zero s
  | seedKey key => exact seed_ne_zero _
  | random sz => exact random_ne_zero nonzero sz

/-- A generator is never all zero, whatever it is seeded with, and after any calls. -/
theorem never_degenerates (calls : List Call) : calls.foldl call init ≠ zero :=
  List.foldlRecOn (motive := fun rng => rng ≠ zero) calls call (seed_ne_zero 0)
    fun _ nonzero c _ => call_ne_zero nonzero c

end SimRNG

end MeshcoreSim
