import Mathlib.Algebra.Group.Nat.Defs
import Mathlib.Data.Int.Notation
import Mathlib.Data.List.DropRight
import MeshcoreSim.Hex

/-!
Base64 as `addChannel` gets it (`node_agent/arduino_shim/base64.hpp`).

The decoder collects six bits a character in an accumulator, and writes a byte whenever it has
eight. It is not told how long its output buffer is; a write past the end is `none`.

* `decodeStep_emit` — what is left in the accumulator when a byte has been written.
* `decodeBase64_eq` — what the decoder does not know makes no difference, wherever it stands.
* `decode_encodeBase64` — the decoder reads back what is encoded, and writes nothing else.
-/

namespace MeshcoreSim

/-- The table `T`. -/
def base64Table : List ℤ := [
  -1,-1,-1,-1,-1,-1,-1,-1,-1,-1,-1,-1,-1,-1,-1,-1,
  -1,-1,-1,-1,-1,-1,-1,-1,-1,-1,-1,-1,-1,-1,-1,-1,
  -1,-1,-1,-1,-1,-1,-1,-1,-1,-1,-1,62,-1,-1,-1,63,
  52,53,54,55,56,57,58,59,60,61,-1,-1,-1,-1,-1,-1,
  -1, 0, 1, 2, 3, 4, 5, 6, 7, 8, 9,10,11,12,13,14,
  15,16,17,18,19,20,21,22,23,24,25,-1,-1,-1,-1,-1,
  -1,26,27,28,29,30,31,32,33,34,35,36,37,38,39,40,
  41,42,43,44,45,46,47,48,49,50,51,-1,-1,-1,-1,-1,
  -1,-1,-1,-1,-1,-1,-1,-1,-1,-1,-1,-1,-1,-1,-1,-1,
  -1,-1,-1,-1,-1,-1,-1,-1,-1,-1,-1,-1,-1,-1,-1,-1,
  -1,-1,-1,-1,-1,-1,-1,-1,-1,-1,-1,-1,-1,-1,-1,-1,
  -1,-1,-1,-1,-1,-1,-1,-1,-1,-1,-1,-1,-1,-1,-1,-1,
  -1,-1,-1,-1,-1,-1,-1,-1,-1,-1,-1,-1,-1,-1,-1,-1,
  -1,-1,-1,-1,-1,-1,-1,-1,-1,-1,-1,-1,-1,-1,-1,-1,
  -1,-1,-1,-1,-1,-1,-1,-1,-1,-1,-1,-1,-1,-1,-1,-1,
  -1,-1,-1,-1,-1,-1,-1,-1,-1,-1,-1,-1,-1,-1,-1,-1]

/-- `T[c]`. -/
def base64Value (c : UInt8) : ℤ := base64Table.getD c.toNat (-1)

/-- The variables of the loop. -/
structure Base64State where
  output : Bytes
  outLen : ℕ
  accum : UInt32
  bits : ℕ
  deriving DecidableEq, Repr

/-- The body of the loop. -/
def decodeStep (st : Base64State) (c : UInt8) : Option Base64State :=
  let val := base64Value c
  if val < 0 then some st
  else
    let accum := (st.accum <<< 6) ||| UInt32.ofNat val.toNat
    let bits := st.bits + 6
    if bits ≥ 8 then
      if st.outLen < st.output.length then
        some {
          output := st.output.set st.outLen (accum >>> UInt32.ofNat (bits - 8)).toUInt8
          outLen := st.outLen + 1
          accum := accum &&& ((1 <<< UInt32.ofNat (bits - 8)) - 1)
          bits := bits - 8 }
      else none
    else some { st with accum := accum, bits := bits }

/-- Strip trailing `=` padding. -/
def stripPadding (input : Bytes) : Bytes := input.rdropWhile (· = 61)

/-- `decode_base64`: the output buffer afterwards, and the number of bytes that is returned. -/
def decodeBase64 (input output : Bytes) : Option (Bytes × ℕ) :=
  ((stripPadding input).foldlM decodeStep ⟨output, 0, 0, 0⟩).map fun st => (st.output, st.outLen)

/-! ### Standard Base64 -/

def base64Alphabet : Bytes :=
  ascii "ABCDEFGHIJKLMNOPQRSTUVWXYZabcdefghijklmnopqrstuvwxyz0123456789+/"

/-- The character of six bits. -/
def sextet (v : ℕ) : UInt8 := base64Alphabet.getD v 0

/-- The padded encoding: three bytes as four characters. -/
def encodeBase64 : Bytes → Bytes
  | a :: b :: c :: rest =>
      sextet (a.toNat / 4) :: sextet (a.toNat % 4 * 16 + b.toNat / 16) ::
        sextet (b.toNat % 16 * 4 + c.toNat / 64) :: sextet (c.toNat % 64) :: encodeBase64 rest
  | [a, b] =>
      [sextet (a.toNat / 4), sextet (a.toNat % 4 * 16 + b.toNat / 16), sextet (b.toNat % 16 * 4),
        61]
  | [a] => [sextet (a.toNat / 4), sextet (a.toNat % 4 * 16), 61, 61]
  | [] => []

/-- `isspace`. -/
def isWhiteSpace (c : UInt8) : Bool := c = 32 ∨ 9 ≤ c ∧ c ≤ 13

/-- A text that is an encoding of some bytes up to white space, with its padding or without. -/
def Encodes (text bytes : Bytes) : Prop :=
  text.filter (! isWhiteSpace ·) = encodeBase64 bytes ∨
    text.filter (! isWhiteSpace ·) = (encodeBase64 bytes).filter (· ≠ 61)

instance (text bytes : Bytes) : Decidable (Encodes text bytes) :=
  inferInstanceAs (Decidable (_ ∨ _))

/-! ### Characters -/

/-- A character that stands for six bits. -/
def isSextet (c : UInt8) : Bool := 0 ≤ base64Value c

theorem decodeStep_other (st : Base64State) {c : UInt8} (other : isSextet c = false) :
    decodeStep st c = some st := by
  have negative : base64Value c < 0 := by simpa [isSextet] using other
  rw [decodeStep, if_pos negative]

theorem base64Value_sextet : ∀ v < 64, base64Value (sextet v) = v := by decide +kernel

theorem isSextet_sextet {v : ℕ} (small : v < 64) : isSextet (sextet v) = true := by
  simp [isSextet, base64Value_sextet v small]

theorem isSextet_padding : isSextet 61 = false := by decide

theorem not_isSextet_of_isWhiteSpace : ∀ c, isWhiteSpace c = true → isSextet c = false :=
  forall_byte (by decide +kernel)

/-- Other characters can be left out. -/
theorem foldlM_decodeStep_filter (st : Base64State) (text : Bytes) :
    (text.filter isSextet).foldlM decodeStep st = text.foldlM decodeStep st := by
  induction text generalizing st with
  | nil => rfl
  | cons c text ih =>
      cases known : isSextet c with
      | true =>
          rw [List.filter_cons_of_pos known, List.foldlM_cons, List.foldlM_cons]
          exact bind_congr fun st' => ih st'
      | false =>
          rw [List.filter_cons_of_neg (by simp [known]), List.foldlM_cons,
            decodeStep_other st known, ih]
          rfl

theorem filter_stripPadding (text : Bytes) :
    (stripPadding text).filter isSextet = text.filter isSextet := by
  unfold stripPadding
  induction text using List.reverseRecOn with
  | nil => rfl
  | append_singleton text c ih =>
      by_cases padding : c = 61
      · rw [List.rdropWhile_concat_pos _ _ _ (by simpa using padding), ih, List.filter_append,
          padding, List.filter_singleton, isSextet_padding]
        exact (List.append_nil _).symm
      · rw [List.rdropWhile_concat_neg _ _ _ (by simpa using padding)]

/-- Only the characters that the decoder knows matter. -/
theorem decodeBase64_eq (text output : Bytes) :
    decodeBase64 text output =
      ((text.filter isSextet).foldlM decodeStep ⟨output, 0, 0, 0⟩).map fun st =>
        (st.output, st.outLen) := by
  rw [decodeBase64, ← foldlM_decodeStep_filter, filter_stripPadding]

/-- White space and padding are not known to the decoder. -/
theorem Encodes.filter_isSextet {text bytes : Bytes} (encodes : Encodes text bytes) :
    text.filter isSextet = (encodeBase64 bytes).filter isSextet := by
  have noSpace : (text.filter (! isWhiteSpace ·)).filter isSextet = text.filter isSextet := by
    rw [List.filter_filter]
    refine List.filter_congr fun c _ => ?_
    cases space : isWhiteSpace c with
    | true => simp [not_isSextet_of_isWhiteSpace c space]
    | false => simp
  have noPadding : ((encodeBase64 bytes).filter (· ≠ 61)).filter isSextet =
      (encodeBase64 bytes).filter isSextet := by
    rw [List.filter_filter]
    refine List.filter_congr fun c _ => ?_
    by_cases padding : c = 61
    · simp [padding, isSextet_padding]
    · simp [padding]
  rcases encodes with padded | unpadded
  · rw [← noSpace, padded]
  · rw [← noSpace, unpadded, noPadding]

/-! ### Bits -/

/-- The decoder when it has written `done`, with `rest` behind, and holds `n` in `bits` bits. -/
def holding (done rest : Bytes) (n bits : ℕ) : Base64State :=
  ⟨done ++ rest, done.length, UInt32.ofNat n, bits⟩

/-- Six bits are shifted in. -/
theorem accum_push {n v : ℕ} (low : n < 64) (small : v < 64) :
    (UInt32.ofNat n <<< 6) ||| UInt32.ofNat v = UInt32.ofNat (n * 64 + v) := by
  have six : UInt32.toNat 6 % 32 = 6 := by decide
  refine UInt32.toNat.inj ?_
  rw [UInt32.toNat_or, UInt32.toNat_shiftLeft, six, UInt32.toNat_ofNat', UInt32.toNat_ofNat',
    UInt32.toNat_ofNat', Nat.mod_eq_of_lt (by omega : n < 2 ^ 32),
    Nat.mod_eq_of_lt (by omega : v < 2 ^ 32),
    Nat.mod_eq_of_lt (by omega : n * 64 + v < 2 ^ 32), Nat.shiftLeft_eq,
    Nat.mod_eq_of_lt (by omega : n * 2 ^ 6 < 2 ^ 32), ← Nat.shiftLeft_eq]
  exact (Nat.shiftLeft_add_eq_or_of_lt (by omega : v < 2 ^ 6) n).symm

theorem decodeStep_fill (done rest : Bytes) {v : ℕ} (small : v < 64) :
    decodeStep (holding done rest 0 0) (sextet v) = some (holding done rest v 6) := by
  have notNegative : ¬ (v : ℤ) < 0 := by omega
  simp only [decodeStep, holding, base64Value_sextet v small, if_neg notNegative, Int.toNat_natCast]
  rw [accum_push (by decide) small]
  simp

/-- The highest bits go out. -/
theorem accum_out {m left : ℕ} (low : m < 4096) (few : left ≤ 4) :
    (UInt32.ofNat m >>> UInt32.ofNat left).toUInt8 = UInt8.ofNat (m / 2 ^ left) := by
  refine UInt8.toNat.inj ?_
  rw [UInt32.toNat_toUInt8, UInt32.toNat_shiftRight, UInt32.toNat_ofNat', UInt32.toNat_ofNat',
    UInt8.toNat_ofNat', Nat.mod_eq_of_lt (by omega : m < 2 ^ 32),
    Nat.mod_eq_of_lt (by omega : left < 2 ^ 32), Nat.mod_eq_of_lt (by omega : left < 32),
    Nat.shiftRight_eq_div_pow]

/-- The others stay. -/
theorem accum_mask {m left : ℕ} (low : m < 4096) (few : left ≤ 4) :
    UInt32.ofNat m &&& ((1 <<< UInt32.ofNat left) - 1) = UInt32.ofNat (m % 2 ^ left) := by
  have mask : ∀ left ≤ 4, ((1 <<< UInt32.ofNat left) - 1 : UInt32).toNat = 2 ^ left - 1 := by
    decide
  have smaller := Nat.mod_le m (2 ^ left)
  refine UInt32.toNat.inj ?_
  rw [UInt32.toNat_and, mask left few, UInt32.toNat_ofNat', UInt32.toNat_ofNat',
    Nat.mod_eq_of_lt (by omega : m < 2 ^ 32), Nat.and_two_pow_sub_one_eq_mod,
    Nat.mod_eq_of_lt (by omega : m % 2 ^ left < 2 ^ 32)]

/-- A byte is written, and the bits that it leaves stay. -/
theorem decodeStep_emit (done rest : Bytes) (free : UInt8) {b : UInt8} {n v n' left : ℕ}
    (few : left ≤ 4) (low : n < 2 ^ (left + 2)) (small : v < 64)
    (byte : (n * 64 + v) / 2 ^ left = b.toNat) (kept : (n * 64 + v) % 2 ^ left = n') :
    decodeStep (holding done (free :: rest) n (left + 2)) (sextet v) =
      some (holding (done ++ [b]) rest n' left) := by
  have notNegative : ¬ (v : ℤ) < 0 := by omega
  have low' : n < 64 :=
    low.trans_le (Nat.pow_le_pow_right (by decide) (by omega : left + 2 ≤ 6))
  have enough : left + 2 + 6 ≥ 8 := by omega
  have left' : left + 2 + 6 - 8 = left := by omega
  have room : done.length < (done ++ free :: rest).length := by simp
  simp only [decodeStep, holding, base64Value_sextet v small, if_neg notNegative,
    Int.toNat_natCast, if_pos enough, if_pos room, left']
  rw [accum_push low' small, accum_out (by omega) few, accum_mask (by omega) few, byte, kept,
    UInt8.ofNat_toNat, List.set_append_right _ _ (Nat.le_refl _)]
  simp

section

variable (done rest : Bytes) (free b : UInt8) {v : ℕ}

theorem decodeStep_first (small : v < 16) :
    decodeStep (holding done (free :: rest) (b.toNat / 4) 6) (sextet (b.toNat % 4 * 16 + v)) =
      some (holding (done ++ [b]) rest v 4) := by
  have byte := b.toNat_lt
  exact decodeStep_emit done rest free (by decide) (by omega) (by omega) (by omega) (by omega)

theorem decodeStep_second (small : v < 4) :
    decodeStep (holding done (free :: rest) (b.toNat / 16) 4) (sextet (b.toNat % 16 * 4 + v)) =
      some (holding (done ++ [b]) rest v 2) := by
  have byte := b.toNat_lt
  exact decodeStep_emit done rest free (by decide) (by omega) (by omega) (by omega) (by omega)

theorem decodeStep_third :
    decodeStep (holding done (free :: rest) (b.toNat / 64) 2) (sextet (b.toNat % 64)) =
      some (holding (done ++ [b]) rest 0 0) := by
  have byte := b.toNat_lt
  exact decodeStep_emit done rest free (by decide) (by omega) (by omega) (by omega) (by omega)

end

/-! ### The round trip -/

/-- What the decoder reads back of an encoding. After every group of four characters it holds no
bits, and after the last one none that are not zero. -/
theorem foldlM_decodeStep (bytes done rest : Bytes) (fits : bytes.length ≤ rest.length) :
    ∃ bits, ((encodeBase64 bytes).filter isSextet).foldlM decodeStep (holding done rest 0 0) =
      some (holding (done ++ bytes) (rest.drop bytes.length) 0 bits) := by
  induction bytes using encodeBase64.induct generalizing done rest with
  | case1 a b c bytes ih =>
      have := a.toNat_lt
      have := b.toNat_lt
      have := c.toNat_lt
      rcases rest with _ | ⟨free, _ | ⟨free', _ | ⟨free'', rest⟩⟩⟩
      · simp at fits
      · simp at fits
      · simp at fits
      obtain ⟨bits, later⟩ := ih (done ++ [a] ++ [b] ++ [c]) rest (by simpa using fits)
      refine ⟨bits, ?_⟩
      rw [encodeBase64, List.filter_cons_of_pos (isSextet_sextet (by omega)),
        List.filter_cons_of_pos (isSextet_sextet (by omega)),
        List.filter_cons_of_pos (isSextet_sextet (by omega)),
        List.filter_cons_of_pos (isSextet_sextet (by omega))]
      simp only [List.foldlM_cons, Option.bind_eq_bind]
      rw [decodeStep_fill _ _ (by omega), Option.bind_some,
        decodeStep_first _ _ _ _ (by omega), Option.bind_some,
        decodeStep_second _ _ _ _ (by omega), Option.bind_some, decodeStep_third,
        Option.bind_some, later]
      simp
  | case2 a b =>
      have := a.toNat_lt
      have := b.toNat_lt
      rcases rest with _ | ⟨free, _ | ⟨free', rest⟩⟩
      · simp at fits
      · simp at fits
      refine ⟨2, ?_⟩
      have last := decodeStep_second (done ++ [a]) rest free' b (by decide : 0 < 4)
      rw [Nat.add_zero] at last
      rw [encodeBase64, List.filter_cons_of_pos (isSextet_sextet (by omega)),
        List.filter_cons_of_pos (isSextet_sextet (by omega)),
        List.filter_cons_of_pos (isSextet_sextet (by omega)), List.filter_singleton,
        isSextet_padding]
      simp only [List.foldlM_cons, Option.bind_eq_bind, cond_false, List.foldlM_nil]
      rw [decodeStep_fill _ _ (by omega), Option.bind_some,
        decodeStep_first _ _ _ _ (by omega), Option.bind_some, last, Option.bind_some]
      simp
  | case3 a =>
      have := a.toNat_lt
      rcases rest with _ | ⟨free, rest⟩
      · simp at fits
      refine ⟨4, ?_⟩
      have last := decodeStep_first done rest free a (by decide : 0 < 16)
      rw [Nat.add_zero] at last
      rw [encodeBase64, List.filter_cons_of_pos (isSextet_sextet (by omega)),
        List.filter_cons_of_pos (isSextet_sextet (by omega)),
        List.filter_cons_of_neg (by decide), List.filter_singleton, isSextet_padding]
      simp only [List.foldlM_cons, Option.bind_eq_bind, cond_false, List.foldlM_nil]
      rw [decodeStep_fill _ _ (by omega), Option.bind_some, last, Option.bind_some]
      simp
  | case4 => exact ⟨0, by simp [encodeBase64]⟩

/-- The decoder reads back what is encoded, with or without padding and with white space anywhere:
it returns the number of the bytes and writes them to the start of its buffer, if they fit. Nothing
behind them changes. -/
theorem decode_encodeBase64 {text bytes output : Bytes} (encodes : Encodes text bytes)
    (fits : bytes.length ≤ output.length) :
    decodeBase64 text output = some (bytes ++ output.drop bytes.length, bytes.length) := by
  obtain ⟨bits, decoded⟩ := foldlM_decodeStep bytes [] output fits
  have start : holding [] output 0 0 = ⟨output, 0, 0, 0⟩ := rfl
  rw [decodeBase64_eq, encodes.filter_isSextet, ← start, decoded, Option.map_some]
  rfl

/-- One byte, with white space between the padding and behind it. -/
theorem decode_encodeBase64_spaced :
    decodeBase64 (ascii "q w=\t=\r\n") [0] = some ([0xab], 1) := by
  have encodes : Encodes (ascii "q w=\t=\r\n") [0xab] := by decide +kernel
  have fits : [(0xab : UInt8)].length ≤ [(0 : UInt8)].length := by decide
  exact decode_encodeBase64 encodes fits

end MeshcoreSim
