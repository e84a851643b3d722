import MeshcoreSim.Packet.Wire
import MeshcoreSim.Tracer.Calls

/-!
The path lengths that `decode_packet` accepts, and those that MeshCore accepts.

`Packet::isValidPathLen` is MeshCore's and enters as a parameter; what the C++ tests of this
repository say of it is `ChecksPathLen`. It bounds the bytes of the path, which `decode_packet`
does not do.

* `agreesOnPathLen_iff` — the two agree on a packet exactly when it is not `Overlong`.
-/

namespace MeshcoreSim

/-- `getPathHashCount` of a `path_len` byte. -/
def pathHashCount (pathLen : UInt8) : ℕ := (pathLen &&& 0x3F).toNat

/-- `getPathHashSize` of a `path_len` byte. -/
def pathHashSize (pathLen : UInt8) : ℕ := (pathLen >>> 6).toNat + 1

/-- `MAX_PATH_SIZE` -/
def maxPathSize : ℕ := 64

/-- MeshCore accepts no hash size of 4, and no path of more than `maxPathSize` bytes. -/
def ChecksPathLen (isValidPathLen : UInt8 → Bool) : Prop :=
  ∀ pathLen, isValidPathLen pathLen = true ↔
    pathHashSize pathLen ≠ 4 ∧ pathHashCount pathLen * pathHashSize pathLen ≤ maxPathSize

/-- The part of a packet from the `path_len` byte on. -/
def fromPathLen : Bytes → Bytes
  | [] => []
  | header :: body => body.drop (codesLength (header &&& 0x03).toNat)

/-- The `path_len` byte of a packet. -/
def pathLenOf (raw : Bytes) : Option UInt8 := (fromPathLen raw).head?

/-- The path is there, in hashes of 1, 2 or 3 bytes, and longer than `maxPathSize`. -/
def Overlong (raw : Bytes) : Prop :=
  ∃ pathLen rest, fromPathLen raw = pathLen :: rest ∧ pathHashSize pathLen ≠ 4 ∧
    maxPathSize < pathHashCount pathLen * pathHashSize pathLen ∧
    pathHashCount pathLen * pathHashSize pathLen ≤ rest.length

/-- The packet has a `path_len` byte that is valid for MeshCore. -/
def HasValidPathLen (isValidPathLen : UInt8 → Bool) (raw : Bytes) : Prop :=
  ∃ pathLen, pathLenOf raw = some pathLen ∧ isValidPathLen pathLen = true

/-- If `decode_packet` returns anything for a packet, or the tracer takes note of it in any call,
MeshCore finds its path length valid. -/
structure AgreesOnPathLen (isValidPathLen : UInt8 → Bool) (hexData : String) : Prop where
  decoded : ∀ info, decodePacket hexData = some info →
    ∃ raw, fromHex hexData.toList = some raw ∧ HasValidPathLen isValidPathLen raw
  recorded : ∀ (tracer : PacketTracer) (call : TracerCall), call.hexData = hexData →
    tracer.call call ≠ tracer →
      ∃ raw, fromHex hexData.toList = some raw ∧ HasValidPathLen isValidPathLen raw

/-! ### The decoder -/

variable {isValidPathLen : UInt8 → Bool} {raw : Bytes}

/-- The transport codes are skipped, and cut short they leave no `path_len`. -/
theorem decodeRaw_cons (header : UInt8) (body : Bytes) :
    decodeRaw (header :: body) = decodePath header (fromPathLen (header :: body)) := by
  cases body with
  | nil =>
      rw [fromPathLen, List.drop_nil]
      rfl
  | cons next rest =>
      simp only [decodeRaw, fromPathLen, codesLength]
      split_ifs with transport short
      · rw [List.drop_eq_nil_of_le (by omega), decodePath]
      · rfl
      · rfl

/-- What is decoded: a path in hashes of 1, 2 or 3 bytes that is there. -/
theorem isSome_decodeRaw_iff : (decodeRaw raw).isSome = true ↔
    ∃ pathLen rest, fromPathLen raw = pathLen :: rest ∧ pathHashSize pathLen ≠ 4 ∧
      pathHashCount pathLen * pathHashSize pathLen ≤ rest.length := by
  cases raw with
  | nil => simp [decodeRaw, fromPathLen]
  | cons header body =>
      rw [decodeRaw_cons]
      cases from' : fromPathLen (header :: body) with
      | nil => simp [decodePath]
      | cons pathLen rest =>
          have short : ¬ rest.length < pathHashCount pathLen * pathHashSize pathLen ↔
              pathHashCount pathLen * pathHashSize pathLen ≤ rest.length := not_lt
          rw [decodePath, ← pathHashCount, ← pathHashSize]
          split_ifs with reserved cut
          · simp [reserved]
          · simp [reserved, cut]
          · simp [reserved, short.mp cut]

theorem decoded_valid_iff (checks : ChecksPathLen isValidPathLen) :
    ((decodeRaw raw).isSome = true → HasValidPathLen isValidPathLen raw) ↔ ¬ Overlong raw := by
  rw [isSome_decodeRaw_iff]
  constructor
  · rintro valid ⟨pathLen, rest, starts, size, long, present⟩
    obtain ⟨pathLen', first, accepted⟩ := valid ⟨pathLen, rest, starts, size, present⟩
    rw [pathLenOf, starts, List.head?_cons] at first
    cases first
    exact absurd ((checks pathLen).mp accepted).2 (not_le.mpr long)
  · rintro notLong ⟨pathLen, rest, starts, size, present⟩
    refine ⟨pathLen, by rw [pathLenOf, starts, List.head?_cons],
      (checks pathLen).mpr ⟨size, not_lt.mp fun long => ?_⟩⟩
    exact notLong ⟨pathLen, rest, starts, size, long, present⟩

/-- `decode_packet` and the tracer agree with MeshCore on the path length of a packet unless the
packet holds a path of more than `maxPathSize` bytes. -/
theorem agreesOnPathLen_iff (checks : ChecksPathLen isValidPathLen) (hexData : String) :
    AgreesOnPathLen isValidPathLen hexData ↔
      ∀ raw, fromHex hexData.toList = some raw → ¬ Overlong raw := by
  constructor
  · intro agrees raw read
    refine (decoded_valid_iff checks).mp fun some' => ?_
    obtain ⟨info, decoded⟩ := Option.isSome_iff_exists.mp some'
    obtain ⟨raw', read', valid⟩ :=
      agrees.decoded info (by rw [decodePacket, read, Option.bind_some, decoded])
    cases read.symm.trans read'
    exact valid
  · intro notLong
    have valid : ∀ info, decodePacket hexData = some info →
        ∃ raw, fromHex hexData.toList = some raw ∧ HasValidPathLen isValidPathLen raw := by
      intro info decoded
      obtain ⟨raw, read, fields⟩ := Option.bind_eq_some_iff.mp decoded
      exact ⟨raw, read, (decoded_valid_iff checks).mpr (notLong raw read)
        (Option.isSome_iff_exists.mpr ⟨info, fields⟩)⟩
    refine ⟨valid, ?_⟩
    rintro tracer call rfl changed
    obtain ⟨info, decoded⟩ := Option.ne_none_iff_exists'.mp
      fun bad => changed (tracer.call_of_decodePacket_none bad)
    exact valid info decoded

/-- What the tests say of `isValidPathLen`, as a check. -/
def boundedPathLen (pathLen : UInt8) : Bool :=
  pathHashSize pathLen ≠ 4 ∧ pathHashCount pathLen * pathHashSize pathLen ≤ maxPathSize

theorem checksPathLen_bounded : ChecksPathLen boundedPathLen := fun _ => decide_eq_true_iff

/-- A flood of two one-byte hashes. -/
theorem agreesOnPathLen_iff_flood :
    ChecksPathLen boundedPathLen ∧ AgreesOnPathLen boundedPathLen "0902a1b2ff" := by
  refine ⟨checksPathLen_bounded,
    (agreesOnPathLen_iff checksPathLen_bounded "0902a1b2ff").mpr ?_⟩
  rintro raw read ⟨pathLen, rest, starts, -, long, -⟩
  have hex : fromHex "0902a1b2ff".toList = some [0x09, 0x02, 0xa1, 0xb2, 0xff] := by decide
  cases hex.symm.trans read
  cases starts
  exact absurd long (by decide)

/-- `decode_packet` and the tracer agree with MeshCore on the path length of every packet. -/
def AlwaysAgreesOnPathLen : Prop :=
  ∀ isValidPathLen, ChecksPathLen isValidPathLen →
    ∀ hexData, AgreesOnPathLen isValidPathLen hexData

/-- A flood of 33 two-byte hashes, with one byte of payload. -/
def longFlood : Bytes := 0x09 :: 0x61 :: List.replicate 66 0 ++ [0xff]

theorem not_alwaysAgreesOnPathLen : ¬ AlwaysAgreesOnPathLen := by
  intro claim
  have agrees := claim boundedPathLen checksPathLen_bounded (bytesToHex longFlood)
  obtain ⟨info, fields⟩ := Option.isSome_iff_exists.mp
    (show (decodeRaw longFlood).isSome = true by decide +kernel)
  have read := fromHex_bytesToHex longFlood
  obtain ⟨raw, read', pathLen, first, accepted⟩ :=
    agrees.decoded info (by rw [decodePacket, read, Option.bind_some, fields])
  cases read.symm.trans read'
  cases first
  exact absurd accepted (by decide)

end MeshcoreSim
