import MeshcoreSim.Packet

/-!
The character strings of the node agent and its hex conversions (`bytes_to_hex` and
`hex_to_bytes` of `main.cpp`, `SimNode.cpp` and `SimRadio.cpp`).

A character is a byte here, and a C string the list of its bytes before the NUL.

* `hexToBytes_writeHex` — the decoder reads back what the encoders write, in either case.
* `hexToBytes_eq_nil_iff` — what it returns 0 for.
-/

namespace MeshcoreSim

/-- The bytes of a text of ASCII characters. -/
def ascii (s : String) : Bytes := s.toList.map fun c => UInt8.ofNat c.toNat

/-- A text of ASCII characters as the orchestrator reads it. -/
def points (s : String) : List ℕ := (ascii s).map UInt8.toNat

/-- `snprintf` into a buffer. -/
def snprintf (size : ℕ) (text : Bytes) : Bytes := text.take (size - 1)

/-- The keys of the lines that nodes read and print: lower-case letters and underscores. -/
def IsKey (key : Bytes) : Prop := ∀ c ∈ key, 97 ≤ c ∧ c ≤ 122 ∨ c = 95

instance (key : Bytes) : Decidable (IsKey key) := List.decidableBAll _ _

/-- Printable ASCII. -/
def Printable (s : Bytes) : Prop := ∀ c ∈ s, 32 ≤ c ∧ c ≤ 126

instance (s : Bytes) : Decidable (Printable s) := List.decidableBAll _ _

/-- `HEX_UC`. -/
def hexUc : Bytes := ascii "0123456789ABCDEF"

/-- `HEX` of the radio, which writes lower case. -/
def hexLc : Bytes := ascii "0123456789abcdef"

/-- `bytes_to_hex`, with the table of its digits. -/
def writeHex (digits bytes : Bytes) : Bytes :=
  bytes.flatMap fun (b : UInt8) =>
    [digits.getD (b >>> 4).toNat 0, digits.getD (b &&& 0x0F).toNat 0]

/-- The digit reader of `hex_to_bytes`: 0 for what is no digit. -/
def nib (c : UInt8) : UInt8 :=
  if 48 ≤ c ∧ c ≤ 57 then c - 48
  else if 97 ≤ c ∧ c ≤ 102 then c - 97 + 10
  else if 65 ≤ c ∧ c ≤ 70 then c - 65 + 10
  else 0

def hexPairs : Bytes → Bytes
  | high :: low :: rest => (nib high <<< 4 ||| nib low) :: hexPairs rest
  | _ => []

/-- `hex_to_bytes`; its return value is the length of the result. The output buffer is taken to
be large enough. -/
def hexToBytes (hex : Bytes) : Bytes := if hex.length % 2 ≠ 0 then [] else hexPairs hex

/-- A table of the sixteen digits, in either case. -/
def HexTable (digits : Bytes) : Prop := ∀ n < 16, nib (digits.getD n 0) = UInt8.ofNat n

instance (digits : Bytes) : Decidable (HexTable digits) :=
  inferInstanceAs (Decidable (∀ n < 16, _))

theorem snprintf_of_short {size : ℕ} {text : Bytes} (short : text.length < size) :
    snprintf size text = text :=
  List.take_of_length_le (by omega)

theorem Printable.append {s t : Bytes} (first : Printable s) (second : Printable t) :
    Printable (s ++ t) := by
  intro c mem
  rcases List.mem_append.mp mem with mem | mem
  · exact first c mem
  · exact second c mem

theorem Printable.noNul {s : Bytes} (printable : Printable s) : 0 ∉ s := fun mem =>
  absurd (printable 0 mem).1 (by decide)

theorem Printable.noNewline {s : Bytes} (printable : Printable s) : 10 ∉ s := fun mem =>
  absurd (printable 10 mem).1 (by decide)

theorem IsKey.printable {key : Bytes} (isKey : IsKey key) : Printable key := by
  intro c mem
  have range := isKey c mem
  grind

theorem hexTable_hexUc : HexTable hexUc := by decide

theorem hexTable_hexLc : HexTable hexLc := by decide

@[simp] theorem length_hexUc : hexUc.length = 16 := rfl

@[simp] theorem length_hexLc : hexLc.length = 16 := rfl

@[simp] theorem writeHex_nil (digits : Bytes) : writeHex digits [] = [] := rfl

theorem writeHex_cons (digits : Bytes) (b : UInt8) (bytes : Bytes) :
    writeHex digits (b :: bytes) =
      digits.getD (b >>> 4).toNat 0 :: digits.getD (b &&& 0x0F).toNat 0 ::
        writeHex digits bytes := rfl

@[simp] theorem length_writeHex (digits bytes : Bytes) :
    (writeHex digits bytes).length = 2 * bytes.length := by
  induction bytes with
  | nil => rfl
  | cons b bytes ih =>
      rw [writeHex_cons, List.length_cons, List.length_cons, ih, List.length_cons]
      omega

/-- What can be checked for the 256 bytes holds of every byte. -/
theorem forall_byte {p : UInt8 → Prop} (checked : ∀ n < 256, p (UInt8.ofNat n)) (b : UInt8) :
    p b := by
  have inRange := checked b.toNat b.toNat_lt
  rwa [UInt8.ofNat_toNat] at inRange

/-- A byte is put together from its halves, which are below 16. -/
theorem halves : ∀ b : UInt8, (b >>> 4) <<< 4 ||| (b &&& 0x0F) = b ∧
    (b >>> 4).toNat < 16 ∧ (b &&& 0x0F).toNat < 16 :=
  forall_byte (by decide +kernel)

/-- The encoders write nothing but digits. -/
theorem mem_of_mem_writeHex {digits bytes : Bytes} {c : UInt8} (size : digits.length = 16)
    (mem : c ∈ writeHex digits bytes) : c ∈ digits := by
  have digit : ∀ n : UInt8, n.toNat < 16 → digits.getD n.toNat 0 ∈ digits := by
    intro n small
    rw [← List.getElem_eq_getD (h := by omega)]
    exact List.getElem_mem _
  obtain ⟨b, -, inPair⟩ := List.mem_flatMap.mp mem
  obtain ⟨-, high, low⟩ := halves b
  rcases List.mem_cons.mp inPair with rfl | inPair
  · exact digit _ high
  · exact List.mem_singleton.mp inPair ▸ digit _ low

/-- What holds of all the digits holds of what is written with them. -/
theorem forall_mem_writeHex {digits : Bytes} {p : UInt8 → Prop} (size : digits.length = 16)
    (all : ∀ c ∈ digits, p c) (bytes : Bytes) : ∀ c ∈ writeHex digits bytes, p c :=
  fun c mem => all c (mem_of_mem_writeHex size mem)

theorem hexPairs_writeHex {digits : Bytes} (table : HexTable digits) (bytes : Bytes) :
    hexPairs (writeHex digits bytes) = bytes := by
  have digit : ∀ n : UInt8, n.toNat < 16 → nib (digits.getD n.toNat 0) = n := by
    intro n small
    rw [table _ small, UInt8.ofNat_toNat]
  induction bytes with
  | nil => rfl
  | cons b bytes ih =>
      obtain ⟨whole, high, low⟩ := halves b
      rw [writeHex_cons, hexPairs, ih, digit _ high, digit _ low, whole]

/-- What the encoders write, the decoder reads back. -/
theorem hexToBytes_writeHex {digits : Bytes} (table : HexTable digits) (bytes : Bytes) :
    hexToBytes (writeHex digits bytes) = bytes := by
  unfold hexToBytes
  rw [if_neg (by simp), hexPairs_writeHex table]

theorem length_hexPairs (hex : Bytes) : (hexPairs hex).length = hex.length / 2 := by
  induction hex using hexPairs.induct with
  | case1 high low rest ih =>
      rw [hexPairs, List.length_cons, ih, List.length_cons, List.length_cons]
      omega
  | case2 hex short =>
      match hex, short with
      | [], _ => rfl
      | [_], _ => simp [hexPairs]
      | high :: low :: rest, short => exact absurd rfl (short high low rest)

/-- `hex_to_bytes` returns 0 for the empty string and for an odd number of characters. -/
theorem hexToBytes_eq_nil_iff (hex : Bytes) :
    hexToBytes hex = [] ↔ hex = [] ∨ hex.length % 2 = 1 := by
  unfold hexToBytes
  by_cases odd : hex.length % 2 = 0
  · rw [if_neg (by simp [odd]), ← List.length_eq_zero_iff, length_hexPairs,
      ← List.length_eq_zero_iff]
    omega
  · rw [if_pos odd]
    exact ⟨fun _ => Or.inr (by omega), fun _ => rfl⟩

end MeshcoreSim
