import Mathlib.Algebra.GroupWithZero.Nat
import Mathlib.Data.List.Basic

/-!
UTF-8 decoding that never fails: what cannot be decoded becomes U+FFFD.

The decoder reads one byte at a time. A sequence that is not complete when a byte comes that
cannot continue it is replaced by one U+FFFD, and the byte starts anew. Code points are natural
numbers.

* `decodeFrom_append_ascii` — an ASCII byte always stands for itself, so a text splits at it.
* `mem_decode_ascii` — ASCII characters only come from their own bytes.
* `decode_flatMap` — a substitution of ASCII bytes by ASCII bytes commutes with decoding.
-/

namespace MeshcoreSim.Lib.Utf8

/-- What stands for bytes that cannot be decoded. -/
def replacement : ℕ := 0xFFFD

theorem replacement_high : 128 ≤ replacement := by decide

/-- A sequence that is not complete: how many bytes are missing after the next one, the range
of the next one, and the value so far. Its code point will not be an ASCII one. -/
structure Pending where
  later : ℕ
  low : ℕ
  high : ℕ
  value : ℕ
  low_ge : 128 ≤ low
  grows : 128 ≤ (value * 64 + (low - 128)) * 64 ^ later

/-- The sequence that a byte begins. Overlong forms, surrogates and what is beyond U+10FFFF are
left out by the ranges of the second byte. -/
def lead? (b : ℕ) : Option Pending :=
  if h : 0xC2 ≤ b ∧ b ≤ 0xDF then some ⟨0, 0x80, 0xBF, b - 0xC0, by omega, by omega⟩
  else if b = 0xE0 then some ⟨1, 0xA0, 0xBF, 0, by omega, by omega⟩
  else if b = 0xED then some ⟨1, 0x80, 0x9F, 0xD, by omega, by omega⟩
  else if h : 0xE1 ≤ b ∧ b ≤ 0xEF then some ⟨1, 0x80, 0xBF, b - 0xE0, by omega, by omega⟩
  else if b = 0xF0 then some ⟨2, 0x90, 0xBF, 0, by omega, by omega⟩
  else if h : 0xF1 ≤ b ∧ b ≤ 0xF3 then some ⟨2, 0x80, 0xBF, b - 0xF0, by omega, by omega⟩
  else if b = 0xF4 then some ⟨2, 0x80, 0x8F, 4, by omega, by omega⟩
  else none

/-- A byte where no sequence is pending. -/
def start (b : ℕ) : List ℕ × Option Pending :=
  if b < 128 then ([b], none)
  else match lead? b with
    | some p => ([], some p)
    | none => ([replacement], none)

/-- A byte of a pending sequence, in its range. -/
def Pending.continue (p : Pending) (b : ℕ) (inRange : p.low ≤ b) : List ℕ × Option Pending :=
  match later : p.later with
  | 0 => ([p.value * 64 + (b - 128)], none)
  | n + 1 => ([], some ⟨n, 0x80, 0xBF, p.value * 64 + (b - 128), by omega, by
      have grows := p.grows
      rw [later] at grows
      calc 128 ≤ (p.value * 64 + (p.low - 128)) * 64 ^ (n + 1) := grows
        _ ≤ (p.value * 64 + (b - 128)) * 64 ^ (n + 1) := Nat.mul_le_mul_right _ (by omega)
        _ = ((p.value * 64 + (b - 128)) * 64 + (0x80 - 128)) * 64 ^ n := by
            rw [Nat.pow_succ, Nat.sub_self, Nat.add_zero, Nat.mul_assoc, Nat.mul_comm 64]⟩)

/-- One byte: the code points that are finished, and what is pending. -/
def feed : Option Pending → ℕ → List ℕ × Option Pending
  | none, b => start b
  | some p, b =>
      if inRange : p.low ≤ b ∧ b ≤ p.high then p.continue b inRange.1
      else (replacement :: (start b).1, (start b).2)

/-- What an incomplete sequence leaves. -/
def flush (s : Option Pending) : List ℕ := if s.isSome then [replacement] else []

def decodeFrom (s : Option Pending) : List UInt8 → List ℕ
  | [] => flush s
  | b :: bytes => (feed s b.toNat).1 ++ decodeFrom (feed s b.toNat).2 bytes

/-- Decoding with replacement. -/
def decode (bytes : List UInt8) : List ℕ := decodeFrom none bytes

variable {s : Option Pending} {bytes : List UInt8} {b : UInt8}

/-! ### ASCII bytes -/

theorem feed_ascii (small : b.toNat < 128) : feed s b.toNat = (flush s ++ [b.toNat], none) := by
  cases s with
  | none => simp [feed, start, small, flush]
  | some p =>
      have outside : ¬ (p.low ≤ b.toNat ∧ b.toNat ≤ p.high) := by
        have low := p.low_ge
        omega
      simp [feed, outside, start, small, flush]

/-- An ASCII byte ends what is pending and stands for itself. -/
theorem decodeFrom_ascii (small : b.toNat < 128) (bytes : List UInt8) :
    decodeFrom s (b :: bytes) = flush s ++ b.toNat :: decode bytes := by
  rw [decodeFrom, feed_ascii small]
  simp [decode]

theorem decodeFrom_append_ascii (xs : List UInt8) (small : b.toNat < 128) (ys : List UInt8) :
    decodeFrom s (xs ++ b :: ys) = decodeFrom s xs ++ b.toNat :: decode ys := by
  induction xs generalizing s with
  | nil => exact decodeFrom_ascii small ys
  | cons x xs ih => rw [List.cons_append, decodeFrom, decodeFrom, ih, List.append_assoc]

theorem decode_append_ascii (xs : List UInt8) (small : b.toNat < 128) (ys : List UInt8) :
    decode (xs ++ b :: ys) = decode xs ++ b.toNat :: decode ys :=
  decodeFrom_append_ascii xs small ys

/-- A text of ASCII bytes is decoded byte by byte. -/
theorem decode_ascii_append {xs : List UInt8} (ascii : ∀ b ∈ xs, b.toNat < 128)
    (ys : List UInt8) : decode (xs ++ ys) = xs.map UInt8.toNat ++ decode ys := by
  induction xs with
  | nil => rfl
  | cons x xs ih =>
      rw [List.cons_append, decode, decodeFrom_ascii (ascii x List.mem_cons_self),
        ih fun b mem => ascii b (List.mem_cons_of_mem _ mem)]
      rfl

/-- A text that is decoded to `cs` whatever follows it. -/
def Splits (bytes : List UInt8) (cs : List ℕ) : Prop :=
  ∀ rest, decode (bytes ++ rest) = cs ++ decode rest

theorem Splits.ascii {xs : List UInt8} (ascii : ∀ b ∈ xs, b.toNat < 128) :
    Splits xs (xs.map UInt8.toNat) :=
  decode_ascii_append ascii

/-- A text splits at an ASCII byte behind it. -/
theorem Splits.before (xs : List UInt8) (small : b.toNat < 128) :
    Splits (xs ++ [b]) (decode xs ++ [b.toNat]) := by
  intro rest
  simpa using decode_append_ascii xs small rest

theorem Splits.append {xs ys : List UInt8} {cs ds : List ℕ} (first : Splits xs cs)
    (second : Splits ys ds) : Splits (xs ++ ys) (cs ++ ds) := by
  intro rest
  rw [List.append_assoc, first, second, List.append_assoc]

theorem Splits.decode_eq {xs : List UInt8} {cs : List ℕ} (splits : Splits xs cs) :
    decode xs = cs := by
  have whole := splits []
  rwa [List.append_nil, show decode [] = [] from rfl, List.append_nil] at whole

/-! ### Other bytes -/

/-- What a byte above the ASCII range finishes is no ASCII character. -/
theorem feed_high (high : 128 ≤ b.toNat) : ∀ c ∈ (feed s b.toNat).1, 128 ≤ c := by
  have started : ∀ c ∈ (start b.toNat).1, 128 ≤ c := by
    intro c mem
    unfold start at mem
    rw [if_neg (by omega)] at mem
    split at mem
    · cases mem
    · obtain rfl := List.mem_singleton.mp mem
      exact replacement_high
  intro c mem
  cases s with
  | none => exact started c mem
  | some p =>
      simp only [feed] at mem
      split at mem
      · rename_i inRange
        unfold Pending.continue at mem
        split at mem
        · rename_i last
          have grows := p.grows
          rw [last, Nat.pow_zero, Nat.mul_one] at grows
          rw [List.mem_singleton.mp mem]
          have low := inRange.1
          omega
        · cases mem
      · rcases List.mem_cons.mp mem with rfl | mem
        · exact replacement_high
        · exact started c mem

/-- ASCII characters come from their own bytes only. -/
theorem mem_decodeFrom_ascii {c : ℕ} (mem : c ∈ decodeFrom s bytes) (small : c < 128) :
    ∃ b ∈ bytes, b.toNat = c := by
  induction bytes generalizing s with
  | nil =>
      simp only [decodeFrom, flush] at mem
      split at mem
      · obtain rfl := List.mem_singleton.mp mem
        exact absurd small (Nat.not_lt.mpr replacement_high)
      · cases mem
  | cons b bytes ih =>
      by_cases isAscii : b.toNat < 128
      · rw [decodeFrom_ascii isAscii] at mem
        rcases List.mem_append.mp mem with flushed | mem
        · simp only [flush] at flushed
          split at flushed
          · obtain rfl := List.mem_singleton.mp flushed
            exact absurd small (Nat.not_lt.mpr replacement_high)
          · cases flushed
        · rcases List.mem_cons.mp mem with rfl | later
          · exact ⟨b, List.mem_cons_self, rfl⟩
          · obtain ⟨b', mem', same⟩ := ih later
            exact ⟨b', List.mem_cons_of_mem _ mem', same⟩
      · rw [decodeFrom] at mem
        rcases List.mem_append.mp mem with now | later
        · have high := feed_high (Nat.not_lt.mp isAscii) c now
          omega
        · obtain ⟨b', mem', same⟩ := ih later
          exact ⟨b', List.mem_cons_of_mem _ mem', same⟩

theorem mem_decode_ascii {c : ℕ} (small : c < 128) :
    c ∈ decode bytes ↔ ∃ b ∈ bytes, b.toNat = c := by
  constructor
  · exact fun mem => mem_decodeFrom_ascii mem small
  · rintro ⟨b, mem, rfl⟩
    obtain ⟨xs, ys, rfl⟩ := List.append_of_mem mem
    rw [decode_append_ascii xs small]
    simp

/-- What holds of every character that is not an ASCII one holds of a decoded text exactly when
it holds of its bytes. -/
theorem forall_decode_iff {p : ℕ → Prop} (high : ∀ c, 128 ≤ c → p c) (bytes : List UInt8) :
    (∀ c ∈ decode bytes, p c) ↔ ∀ b ∈ bytes, p b.toNat := by
  constructor
  · intro all b mem
    by_cases small : b.toNat < 128
    · exact all b.toNat ((mem_decode_ascii small).mpr ⟨b, mem, rfl⟩)
    · exact high _ (Nat.not_lt.mp small)
  · intro all c mem
    by_cases small : c < 128
    · obtain ⟨b, mem', rfl⟩ := (mem_decode_ascii small).mp mem
      exact all b mem'
    · exact high _ (Nat.not_lt.mp small)

/-! ### Substitution -/

theorem feed_high_flatMap (g : ℕ → List ℕ) (high : 128 ≤ b.toNat)
    (kept : ∀ c, 128 ≤ c → g c = [c]) :
    (feed s b.toNat).1.flatMap g = (feed s b.toNat).1 := by
  have all := feed_high (s := s) high
  generalize (feed s b.toNat).1 = cs at all
  induction cs with
  | nil => rfl
  | cons c cs ih =>
      rw [List.flatMap_cons, kept c (all c List.mem_cons_self),
        ih fun c' mem => all c' (List.mem_cons_of_mem _ mem)]
      rfl

/-- Replacing ASCII bytes by ASCII texts, and leaving the others, commutes with decoding. -/
theorem decodeFrom_flatMap {f : UInt8 → List UInt8} {g : ℕ → List ℕ}
    (ascii : ∀ b, b.toNat < 128 → f b ≠ [] ∧ (∀ b' ∈ f b, b'.toNat < 128) ∧
      (f b).map UInt8.toNat = g b.toNat)
    (high : ∀ b, 128 ≤ b.toNat → f b = [b]) (kept : ∀ c, 128 ≤ c → g c = [c])
    (bytes : List UInt8) :
    decodeFrom s (bytes.flatMap f) = (decodeFrom s bytes).flatMap g := by
  have flushed : ∀ s, (flush s).flatMap g = flush s := by
    intro s
    unfold flush
    split
    · simp [kept _ replacement_high]
    · rfl
  induction bytes generalizing s with
  | nil => exact (flushed s).symm
  | cons b bytes ih =>
      rw [List.flatMap_cons]
      by_cases small : b.toNat < 128
      · obtain ⟨nonempty, small', same⟩ := ascii b small
        rw [decodeFrom_ascii small, List.flatMap_append, flushed, List.flatMap_cons, ← same]
        obtain ⟨first, rest, split⟩ := List.exists_cons_of_ne_nil nonempty
        rw [split] at small' ⊢
        have tail : decode (rest ++ bytes.flatMap f) =
            rest.map UInt8.toNat ++ (decode bytes).flatMap g := by
          rw [decode_ascii_append fun b' mem => small' b' (List.mem_cons_of_mem _ mem)]
          exact congrArg _ ih
        rw [List.cons_append, decodeFrom_ascii (small' first List.mem_cons_self), tail]
        rfl
      · have large := Nat.not_lt.mp small
        rw [high b large, List.singleton_append, decodeFrom, decodeFrom, List.flatMap_append, ih,
          feed_high_flatMap g large kept]

theorem decode_flatMap {f : UInt8 → List UInt8} {g : ℕ → List ℕ}
    (ascii : ∀ b, b.toNat < 128 → f b ≠ [] ∧ (∀ b' ∈ f b, b'.toNat < 128) ∧
      (f b).map UInt8.toNat = g b.toNat)
    (high : ∀ b, 128 ≤ b.toNat → f b = [b]) (kept : ∀ c, 128 ≤ c → g c = [c])
    (bytes : List UInt8) : decode (bytes.flatMap f) = (decode bytes).flatMap g :=
  decodeFrom_flatMap ascii high kept bytes

end MeshcoreSim.Lib.Utf8
