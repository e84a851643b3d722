import Mathlib.Data.List.Basic

/-!
Wire-format decoder for MeshCore packets (`orchestrator/packet.py`), with the hex
conversions of the standard library that the orchestrator uses on packets.

`fromHex` is `bytes.fromhex`, which skips ASCII whitespace between bytes;
`unhexlify` is `binascii.unhexlify`, which does not. Both are `none` where the
original raises.
-/

namespace MeshcoreSim

abbrev Bytes := List UInt8

/-! ### Hex -/

def hexDigit? (c : Char) : Option ℕ :=
  if '0' ≤ c ∧ c ≤ '9' then some (c.toNat - '0'.toNat)
  else if 'a' ≤ c ∧ c ≤ 'f' then some (c.toNat - 'a'.toNat + 10)
  else if 'A' ≤ c ∧ c ≤ 'F' then some (c.toNat - 'A'.toNat + 10)
  else none

def hexByte? (high low : Char) : Option UInt8 :=
  (hexDigit? high).bind fun h => (hexDigit? low).map fun l => UInt8.ofNat (16 * h + l)

/-- ASCII whitespace, as `bytes.fromhex` skips it. -/
def isAsciiSpace (c : Char) : Bool :=
  c = ' ' ∨ c = '\t' ∨ c = '\n' ∨ c = '\r' ∨ c.toNat = 11 ∨ c.toNat = 12

/-- `bytes.fromhex`; `none` is its `ValueError`. -/
def fromHex : List Char → Option Bytes
  | [] => some []
  | [c] => if isAsciiSpace c then some [] else none
  | c :: d :: rest =>
      if isAsciiSpace c then fromHex (d :: rest)
      else match hexByte? c d with
        | none => none
        | some b => (fromHex rest).map (b :: ·)

/-- `binascii.unhexlify`; `none` is its `binascii.Error`. -/
def unhexlify : List Char → Option Bytes
  | [] => some []
  | [_] => none
  | c :: d :: rest =>
      match hexByte? c d with
      | none => none
      | some b => (unhexlify rest).map (b :: ·)

def hexDigits (b : UInt8) : List Char :=
  [Nat.digitChar (b.toNat / 16), Nat.digitChar (b.toNat % 16)]

/-- `bytes.hex()`: two lower-case digits a byte. -/
def bytesToHex (bytes : Bytes) : String := String.ofList (bytes.flatMap hexDigits)

theorem hexDigit?_digitChar : ∀ n < 16, hexDigit? (Nat.digitChar n) = some n := by
  decide

/-- The two digits of a byte read back as the byte. -/
theorem hexByte?_hexDigits (b : UInt8) :
    hexByte? (Nat.digitChar (b.toNat / 16)) (Nat.digitChar (b.toNat % 16)) = some b := by
  have bounded := b.toNat_lt
  unfold hexByte?
  rw [hexDigit?_digitChar _ (by omega), hexDigit?_digitChar _ (by omega)]
  simp only [Option.bind_some, Option.map_some, Option.some.injEq]
  rw [Nat.div_add_mod]
  exact UInt8.ofNat_toNat

theorem unhexlify_hexDigits (bytes : Bytes) :
    unhexlify (bytes.flatMap hexDigits) = some bytes := by
  induction bytes with
  | nil => rfl
  | cons b bytes ih =>
      rw [List.flatMap_cons]
      simp only [hexDigits, List.cons_append, List.nil_append, unhexlify, hexByte?_hexDigits]
      change (unhexlify (bytes.flatMap hexDigits)).map _ = _
      rw [ih, Option.map_some]

/-- What `bytes.hex()` prints, `unhexlify` reads back. -/
theorem unhexlify_bytesToHex (bytes : Bytes) :
    unhexlify (bytesToHex bytes).toList = some bytes := by
  unfold bytesToHex
  rw [String.toList_ofList]
  exact unhexlify_hexDigits bytes

/-! ### Packets -/

def routeTypeTransportFlood : ℕ := 0
def routeTypeFlood : ℕ := 1
def routeTypeDirect : ℕ := 2
def routeTypeTransportDirect : ℕ := 3

def payloadTypeName : ℕ → String
  | 0x00 => "REQ"
  | 0x01 => "RESPONSE"
  | 0x02 => "TXT_MSG"
  | 0x03 => "ACK"
  | 0x04 => "ADVERT"
  | 0x05 => "GRP_TXT"
  | 0x06 => "GRP_DATA"
  | 0x07 => "ANON_REQ"
  | 0x08 => "PATH"
  | 0x09 => "TRACE"
  | 0x0A => "MULTIPART"
  | 0x0B => "CONTROL"
  | 0x0F => "RAW_CUSTOM"
  | pt => "UNKNOWN(0x" ++ String.ofList (Nat.toDigits 16 pt) ++ ")"

/-- Decoded fields from the MeshCore wire format. -/
structure PacketInfo where
  routeType : ℕ
  payloadType : ℕ
  version : ℕ
  pathCount : ℕ
  pathSize : ℕ
  pathBytes : Bytes
  payload : Bytes
  deriving DecidableEq, Repr

/-- Whether the header is followed by two 16-bit transport codes. -/
def hasTransport (routeType : ℕ) : Bool :=
  routeType = routeTypeTransportFlood ∨ routeType = routeTypeTransportDirect

/-- The part of a packet from the `path_len` byte on. -/
def decodePath (header : UInt8) : Bytes → Option PacketInfo
  | [] => none
  | pathLenByte :: rest =>
      let pathCount := (pathLenByte &&& 0x3F).toNat
      let pathSize := (pathLenByte >>> 6).toNat + 1
      -- The reserved value 3 in the upper two bits would be a hash size of 4.
      if pathSize = 4 then none
      else if rest.length < pathCount * pathSize then none
      else some
        { routeType := (header &&& 0x03).toNat
          payloadType := ((header >>> 2) &&& 0x0F).toNat
          version := ((header >>> 6) &&& 0x03).toNat
          pathCount := pathCount
          pathSize := pathSize
          pathBytes := rest.take (pathCount * pathSize)
          payload := rest.drop (pathCount * pathSize) }

/-- The body of `decode_packet`, on the raw bytes. -/
def decodeRaw : Bytes → Option PacketInfo
  | [] => none
  | [_] => none
  | header :: body =>
      if hasTransport (header &&& 0x03).toNat then
        if body.length < 4 then none else decodePath header (body.drop 4)
      else decodePath header body

/-- Decode a hex-encoded packet; `none` if it is too short or structurally invalid. -/
def decodePacket (hexData : String) : Option PacketInfo :=
  (fromHex hexData.toList).bind decodeRaw

/-- A stable string that identifies the logical packet on every hop. -/
def packetFingerprint (info : PacketInfo) : String :=
  bytesToHex [UInt8.ofNat info.payloadType] ++ bytesToHex info.payload

end MeshcoreSim
