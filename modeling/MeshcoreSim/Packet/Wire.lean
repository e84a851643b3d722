import MeshcoreSim.Hex
import MeshcoreSim.Tracer

/-!
The wire format of packets, and what `decode_packet` makes of it.

The grammar and the encoder are those of the module docstring of `packet.py`; the transport codes
are no field of `PacketInfo`, so an encoder is given them.

* `decodePacket_grammar` — the decoder accepts the packets of the grammar, and inverts the encoder.
* `fingerprint_identifies` — two packets have one fingerprint exactly when they agree on payload
  type and payload.
-/

namespace MeshcoreSim

/-! ### The format -/

/-- Header bits: route type, payload type, version. -/
def headerByte (routeType payloadType version : ℕ) : UInt8 :=
  UInt8.ofNat routeType ||| UInt8.ofNat payloadType <<< 2 ||| UInt8.ofNat version <<< 6

/-- `hash_count | ((hash_size - 1) << 6)`. -/
def pathLenByte (pathCount pathSize : ℕ) : UInt8 :=
  UInt8.ofNat pathCount ||| UInt8.ofNat (pathSize - 1) <<< 6

/-- The number of bytes of the transport codes. -/
def codesLength (routeType : ℕ) : ℕ := if hasTransport routeType then 4 else 0

/-- A packet as it goes over the air: header, transport codes where the route type has them,
`path_len` with a hash size of 1, 2 or 3, the path, any payload. -/
inductive WireFormat : Bytes → Prop
  | packet (header pathLen : UInt8) (codes path payload : Bytes) :
      codes.length = codesLength (header &&& 0x03).toNat →
      (pathLen >>> 6).toNat + 1 ∈ [1, 2, 3] →
      path.length = (pathLen &&& 0x3F).toNat * ((pathLen >>> 6).toNat + 1) →
      WireFormat (header :: codes ++ pathLen :: path ++ payload)

/-- Fields that fit into a packet. -/
structure PacketInfo.InRange (info : PacketInfo) : Prop where
  routeType : info.routeType < 4
  payloadType : info.payloadType < 16
  version : info.version < 4
  pathCount : info.pathCount < 64
  pathSize : info.pathSize ∈ [1, 2, 3]
  pathBytes : info.pathBytes.length = info.pathCount * info.pathSize

/-- The packet with these fields. -/
def PacketInfo.encode (info : PacketInfo) (codes : Bytes) : Bytes :=
  headerByte info.routeType info.payloadType info.version :: codes ++
    pathLenByte info.pathCount info.pathSize :: info.pathBytes ++ info.payload

/-- A packet is put together from these fields and transport codes. -/
structure PacketInfo.Parses (info : PacketInfo) (codes raw : Bytes) : Prop where
  inRange : info.InRange
  length : codes.length = codesLength info.routeType
  encodes : info.encode codes = raw

/-! ### Bits -/

theorem headerByte_fields (b : UInt8) :
    headerByte (b &&& 0x03).toNat ((b >>> 2) &&& 0x0F).toNat ((b >>> 6) &&& 0x03).toNat = b ∧
      (b &&& 0x03).toNat < 4 ∧ ((b >>> 2) &&& 0x0F).toNat < 16 ∧
      ((b >>> 6) &&& 0x03).toNat < 4 := by
  revert b
  exact forall_byte (by decide +kernel)

theorem fields_headerByte {routeType payloadType version : ℕ} (route : routeType < 4)
    (type : payloadType < 16) (ver : version < 4) :
    (headerByte routeType payloadType version &&& 0x03).toNat = routeType ∧
      ((headerByte routeType payloadType version >>> 2) &&& 0x0F).toNat = payloadType ∧
      ((headerByte routeType payloadType version >>> 6) &&& 0x03).toNat = version := by
  have table : ∀ routeType < 4, ∀ payloadType < 16, ∀ version < 4,
      (headerByte routeType payloadType version &&& 0x03).toNat = routeType ∧
        ((headerByte routeType payloadType version >>> 2) &&& 0x0F).toNat = payloadType ∧
        ((headerByte routeType payloadType version >>> 6) &&& 0x03).toNat = version := by
    decide +kernel
  exact table _ route _ type _ ver

theorem pathLenByte_fields (b : UInt8) :
    pathLenByte (b &&& 0x3F).toNat ((b >>> 6).toNat + 1) = b ∧ (b &&& 0x3F).toNat < 64 ∧
      (b >>> 6).toNat < 4 := by
  revert b
  exact forall_byte (by decide +kernel)

theorem fields_pathLenByte {pathCount pathSize : ℕ} (count : pathCount < 64)
    (size : pathSize ∈ [1, 2, 3]) :
    (pathLenByte pathCount pathSize &&& 0x3F).toNat = pathCount ∧
      (pathLenByte pathCount pathSize >>> 6).toNat + 1 = pathSize := by
  have table : ∀ pathSize ∈ [1, 2, 3], ∀ pathCount < 64,
      (pathLenByte pathCount pathSize &&& 0x3F).toNat = pathCount ∧
        (pathLenByte pathCount pathSize >>> 6).toNat + 1 = pathSize := by
    decide +kernel
  exact table _ size _ count

/-! ### Decoding -/

variable {info info' : PacketInfo} {codes codes' raw : Bytes}

/-- The decoder inverts the encoder. -/
theorem decodeRaw_encode (inRange : info.InRange)
    (length : codes.length = codesLength info.routeType) :
    decodeRaw (info.encode codes) = some info := by
  obtain ⟨route, type, version⟩ :=
    fields_headerByte inRange.routeType inRange.payloadType inRange.version
  obtain ⟨count, size⟩ := fields_pathLenByte inRange.pathCount inRange.pathSize
  have sizes : info.pathSize ≠ 4 := by
    rintro four
    have three := inRange.pathSize
    simp [four] at three
  have path : decodePath (headerByte info.routeType info.payloadType info.version)
      (pathLenByte info.pathCount info.pathSize :: (info.pathBytes ++ info.payload)) =
        some info := by
    rw [decodePath]
    simp only [route, type, version, count, size]
    rw [if_neg sizes, ← inRange.pathBytes,
      if_neg (by rw [List.length_append]; omega), List.take_left, List.drop_left]
  cases codes with
  | nil =>
      have plain : hasTransport info.routeType = false := by
        by_contra transport
        simp [codesLength, transport] at length
      simpa [PacketInfo.encode, decodeRaw, route, plain] using path
  | cons c codes =>
      have transport : hasTransport info.routeType = true := by
        by_contra plain
        simp [codesLength, plain] at length
      have four : (c :: codes).length = 4 := by simpa [codesLength, transport] using length
      have rest : (c :: codes ++ pathLenByte info.pathCount info.pathSize ::
          (info.pathBytes ++ info.payload)).drop 4 =
            pathLenByte info.pathCount info.pathSize :: (info.pathBytes ++ info.payload) := by
        rw [← four, List.drop_left]
      simp only [List.length_cons] at four
      simp only [PacketInfo.encode, List.cons_append, List.append_assoc, decodeRaw, route,
        transport, if_true]
      rw [if_neg (by simp; omega)]
      exact (congrArg _ rest).trans path

/-- The part from `path_len` on is read as fields that encode it. -/
theorem parses_of_decodePath {header : UInt8} {body : Bytes}
    (length : codes.length = codesLength (header &&& 0x03).toNat)
    (decoded : decodePath header body = some info) :
    info.Parses codes (header :: codes ++ body) := by
  cases body with
  | nil => cases decoded
  | cons pathLen rest =>
      rw [decodePath] at decoded
      split_ifs at decoded with reserved short
      cases decoded
      obtain ⟨whole, route, type, version⟩ := headerByte_fields header
      obtain ⟨whole', count, size⟩ := pathLenByte_fields pathLen
      refine ⟨⟨route, type, version, count, ?_, ?_⟩, length, ?_⟩
      · have cases : ∀ size < 4, size + 1 ≠ 4 → size + 1 ∈ [1, 2, 3] := by decide
        exact cases _ size reserved
      · exact List.length_take_of_le (by omega)
      · simp only [PacketInfo.encode, whole, whole', List.cons_append, List.append_assoc,
          List.take_append_drop]

/-- Whatever the decoder accepts is the encoding of the fields it returns. -/
theorem parses_of_decodeRaw (decoded : decodeRaw raw = some info) :
    ∃ codes, info.Parses codes raw := by
  match raw, decoded with
  | header :: next :: rest, decoded =>
      rw [decodeRaw] at decoded
      split_ifs at decoded with transport short
      · have length : ((next :: rest).take 4).length = codesLength (header &&& 0x03).toNat := by
          rw [codesLength, if_pos transport]
          exact List.length_take_of_le (by omega)
        have parses := parses_of_decodePath length decoded
        rw [List.cons_append, List.take_append_drop] at parses
        exact ⟨_, parses⟩
      · exact ⟨[], parses_of_decodePath (by rw [codesLength, if_neg transport]; rfl) decoded⟩
      · simp

theorem decodeRaw_eq_some_iff : decodeRaw raw = some info ↔ ∃ codes, info.Parses codes raw := by
  constructor
  · exact parses_of_decodeRaw
  · rintro ⟨codes, inRange, length, rfl⟩
    exact decodeRaw_encode inRange length

/-- One packet has one parse. -/
theorem PacketInfo.Parses.unique (parses : info.Parses codes raw)
    (other : info'.Parses codes' raw) :
    info = info' ∧ codes = codes' := by
  have decoded := decodeRaw_eq_some_iff.mpr ⟨codes, parses⟩
  rw [decodeRaw_eq_some_iff.mpr ⟨codes', other⟩] at decoded
  cases decoded
  have same := parses.encodes.trans other.encodes.symm
  simp only [PacketInfo.encode, List.cons_append, List.append_assoc, List.cons.injEq,
    true_and] at same
  exact ⟨rfl, (List.append_inj same (parses.length.trans other.length.symm)).1⟩

/-- The grammar describes the encodings. -/
theorem wireFormat_iff : WireFormat raw ↔ ∃ info codes, PacketInfo.Parses info codes raw := by
  constructor
  · rintro ⟨header, pathLen, codes, path, payload, length, size, pathLength⟩
    obtain ⟨whole, route, type, version⟩ := headerByte_fields header
    obtain ⟨whole', count, -⟩ := pathLenByte_fields pathLen
    refine ⟨⟨(header &&& 0x03).toNat, ((header >>> 2) &&& 0x0F).toNat,
      ((header >>> 6) &&& 0x03).toNat, (pathLen &&& 0x3F).toNat, (pathLen >>> 6).toNat + 1,
      path, payload⟩, codes, ⟨route, type, version, count, size, pathLength⟩, length, ?_⟩
    simp only [PacketInfo.encode, whole, whole']
  · rintro ⟨info, codes, inRange, length, rfl⟩
    obtain ⟨route, -, -⟩ :=
      fields_headerByte inRange.routeType inRange.payloadType inRange.version
    obtain ⟨count, size⟩ := fields_pathLenByte inRange.pathCount inRange.pathSize
    refine .packet _ _ codes info.pathBytes info.payload ?_ ?_ ?_
    · rw [route, length]
    · rw [size]
      exact inRange.pathSize
    · rw [count, size, inRange.pathBytes]

/-! ### Hex digits -/

theorem isAsciiSpace_digitChar : ∀ n < 16, isAsciiSpace (Nat.digitChar n) = false := by
  decide

/-- What `bytes.hex()` prints, `bytes.fromhex` reads back. -/
theorem fromHex_bytesToHex (bytes : Bytes) : fromHex (bytesToHex bytes).toList = some bytes := by
  rw [bytesToHex, String.toList_ofList]
  induction bytes with
  | nil => rfl
  | cons b bytes ih =>
      have space := isAsciiSpace_digitChar (b.toNat / 16) (by have := b.toNat_lt; omega)
      rw [List.flatMap_cons]
      simp only [hexDigits, List.cons_append, List.nil_append, fromHex, space, hexByte?_hexDigits]
      change (fromHex (bytes.flatMap hexDigits)).map _ = _
      rw [ih, Option.map_some]

/-- The decoder accepts exactly the packets of the grammar, the fields it returns are those of the
one parse, and it inverts the encoder. -/
theorem decodePacket_grammar (hexData : String) (raw : Bytes)
    (hex : fromHex hexData.toList = some raw) :
    ((decodePacket hexData).isSome = true ↔ WireFormat raw) ∧
      (∀ info, decodePacket hexData = some info →
        ∃ codes, info.Parses codes raw ∧
          ∀ info' codes', info'.Parses codes' raw → info' = info ∧ codes' = codes) ∧
      ∀ info codes, info.InRange → codes.length = codesLength info.routeType →
        decodePacket (bytesToHex (info.encode codes)) = some info := by
  have decode : decodePacket hexData = decodeRaw raw := by rw [decodePacket, hex, Option.bind_some]
  refine ⟨?_, ?_, ?_⟩
  · rw [decode, Option.isSome_iff_exists, wireFormat_iff]
    exact exists_congr fun info => decodeRaw_eq_some_iff
  · intro info decoded
    obtain ⟨codes, parses⟩ := parses_of_decodeRaw (decode.symm.trans decoded)
    exact ⟨codes, parses, fun info' codes' other => other.unique parses⟩
  · intro info codes inRange length
    rw [decodePacket, fromHex_bytesToHex, Option.bind_some]
    exact decodeRaw_encode inRange length

theorem decodePacket_grammar_flood :
    fromHex "0902a1b2ff".toList = some [0x09, 0x02, 0xa1, 0xb2, 0xff] ∧
      WireFormat [0x09, 0x02, 0xa1, 0xb2, 0xff] := by
  have hex : fromHex "0902a1b2ff".toList = some [0x09, 0x02, 0xa1, 0xb2, 0xff] := by decide
  exact ⟨hex, (decodePacket_grammar _ _ hex).1.mp (by decide)⟩

/-! ### Fingerprints -/

theorem bytesToHex_inj {s t : Bytes} (same : bytesToHex s = bytesToHex t) : s = t := by
  have read := unhexlify_bytesToHex s
  rw [same, unhexlify_bytesToHex] at read
  exact (Option.some.inj read).symm

theorem packetFingerprint_eq (info : PacketInfo) :
    packetFingerprint info = bytesToHex (UInt8.ofNat info.payloadType :: info.payload) := by
  simp only [packetFingerprint, bytesToHex, ← String.ofList_append, ← List.flatMap_append,
    List.cons_append, List.nil_append]

theorem inRange_of_decodePacket {hexData : String} (decoded : decodePacket hexData = some info) :
    info.InRange := by
  obtain ⟨raw, -, fields⟩ := Option.bind_eq_some_iff.mp decoded
  obtain ⟨codes, parses⟩ := parses_of_decodeRaw fields
  exact parses.inRange

/-- The payload type is one digit pair, so that type and payload can be told apart. -/
theorem packetFingerprint_eq_iff (type : info.payloadType < 256) (type' : info'.payloadType < 256) :
    packetFingerprint info = packetFingerprint info' ↔
      info.payloadType = info'.payloadType ∧ info.payload = info'.payload := by
  rw [packetFingerprint_eq, packetFingerprint_eq]
  constructor
  · intro same
    obtain ⟨types, payloads⟩ := List.cons.inj (bytesToHex_inj same)
    have values := congrArg UInt8.toNat types
    rw [UInt8.toNat_ofNat_of_lt' type, UInt8.toNat_ofNat_of_lt' type'] at values
    exact ⟨values, payloads⟩
  · rintro ⟨types, payloads⟩
    rw [types, payloads]

namespace PacketTracer

theorem traceOf_onTrace (tracer : PacketTracer) {hexData : String} {sender sender' : NodeName}
    {t t' : ℚ} {append : PacketInfo → PacketTrace → PacketTrace}
    (decoded : decodePacket hexData = some info) :
    (tracer.onTrace sender hexData t append).traceOf info' sender' t' =
      if packetFingerprint info = packetFingerprint info' then
        append info (tracer.traceOf info sender t)
      else tracer.traceOf info' sender' t' := by
  simp only [onTrace, decoded]
  rw [traceOf]
  simp only [Lib.Dict.get?_set]
  split_ifs with same other other
  · rfl
  · exact absurd same.symm other
  · exact absurd other.symm same
  · rfl

end PacketTracer

/-- Two packets have one fingerprint exactly when they agree on payload type and payload. So a
transmission of the one opens the trace of the other, and a record of the one goes into the trace
of the other, exactly then. -/
theorem fingerprint_identifies {hexData hexData' : String}
    (first : decodePacket hexData = some info) (second : decodePacket hexData' = some info') :
    (packetFingerprint info = packetFingerprint info' ↔
        info.payloadType = info'.payloadType ∧ info.payload = info'.payload) ∧
      (∀ (tracer : PacketTracer) (sender : NodeName) (t airtimeMs : ℚ) (txEnd : Option ℚ),
        ((tracer.recordTx sender hexData t airtimeMs txEnd).1.traces.get?
            (packetFingerprint info')).isSome = true ↔
          (info.payloadType = info'.payloadType ∧ info.payload = info'.payload) ∨
            (tracer.traces.get? (packetFingerprint info')).isSome = true) ∧
      ∀ (tracer : PacketTracer) (sender sender' : NodeName) (t t' : ℚ)
        (append : PacketInfo → PacketTrace → PacketTrace),
        (tracer.onTrace sender hexData t append).traceOf info' sender' t' =
          if info.payloadType = info'.payloadType ∧ info.payload = info'.payload then
            append info (tracer.traceOf info sender t)
          else tracer.traceOf info' sender' t' := by
  have type := (inRange_of_decodePacket first).payloadType
  have type' := (inRange_of_decodePacket second).payloadType
  have same : packetFingerprint info = packetFingerprint info' ↔
      info.payloadType = info'.payloadType ∧ info.payload = info'.payload :=
    packetFingerprint_eq_iff (by omega) (by omega)
  refine ⟨same, ?_, ?_⟩
  · intro tracer sender t airtimeMs txEnd
    rw [PacketTracer.isSome_recordTx, first, Option.map_some, Option.some.injEq, same, or_comm]
  · intro tracer sender sender' t t' append
    rw [tracer.traceOf_onTrace first]
    exact if_congr same rfl rfl

/-- A flooded advert at its source, and after two relays with hashes of three bytes. -/
theorem fingerprint_identifies_relayed :
    decodePacket "110061" = some ⟨1, 4, 0, 0, 1, [], [0x61]⟩ ∧
      decodePacket "118201020304050661" =
        some ⟨1, 4, 0, 2, 3, [1, 2, 3, 4, 5, 6], [0x61]⟩ ∧
      packetFingerprint ⟨1, 4, 0, 0, 1, [], [0x61]⟩ =
        packetFingerprint ⟨1, 4, 0, 2, 3, [1, 2, 3, 4, 5, 6], [0x61]⟩ := by
  have first : decodePacket "110061" = some ⟨1, 4, 0, 0, 1, [], [0x61]⟩ := by decide
  have second : decodePacket "118201020304050661" =
      some ⟨1, 4, 0, 2, 3, [1, 2, 3, 4, 5, 6], [0x61]⟩ := by decide
  exact ⟨first, second, (fingerprint_identifies first second).1.mpr ⟨rfl, rfl⟩⟩

end MeshcoreSim
