import MeshcoreSim.Lib.Json
import MeshcoreSim.Lib.Utf8
import MeshcoreSim.SimNode

/-!
The lines that a node prints, and what the reader of the orchestrator makes of them.

Each event is formatted by hand into buffers of a fixed size (`emitLog`, `emitJson` and the
callbacks of `SimNode.cpp`, `main` for the ready line). `NodeAgent._reader_loop` reads lines of at
most 65536 bytes, decodes them with replacement, strips them and parses them.

* `wellFormed_iff` — the exact condition under which an event arrives as it is meant.
* `readerLoop_print` — the reader sees the events of a node, no more and no fewer, if each of
  them meets it.
* `not_wellFormed_quotedName` — a node name with quotes.
-/

namespace MeshcoreSim

open Lib Utf8 JsonText

/-! ### Printing -/

/-- The escaping loops: a backslash before each quote and each backslash, until the buffer is
filled up to `limit`. -/
def escapeLoop (limit : ℕ) : ℕ → Bytes → Bytes
  | _, [] => []
  | written, c :: rest =>
      if written < limit then
        if c = 34 ∨ c = 92 then 92 :: c :: escapeLoop limit (written + 2) rest
        else c :: escapeLoop limit (written + 1) rest
      else []

/-- The part of a text that an escaping loop gets to. -/
def kept (limit : ℕ) : ℕ → Bytes → Bytes
  | _, [] => []
  | written, c :: rest =>
      if written < limit then c :: kept limit (written + if c = 34 ∨ c = 92 then 2 else 1) rest
      else []

def roleName (isRelay isRoomSvr : Bool) : Bytes :=
  if isRoomSvr then ascii "room-server" else if isRelay then ascii "relay" else ascii "endpoint"

/-- The line of an event, without its newline. The numbers are the sizes of the buffers; the
escaping loops stop 2 or 3 bytes before the end of theirs. -/
def NodeEvent.json : NodeEvent → Bytes
  | .ready pubKey isRelay isRoomSvr nodeName =>
      ascii "\x7b\"type\":\"ready\",\"pub\":\"" ++ writeHex hexUc pubKey ++
        ascii "\",\"is_relay\":" ++ ascii (if isRelay then "true" else "false") ++
        ascii ",\"role\":\"" ++ roleName isRelay isRoomSvr ++ ascii "\",\"name\":\"" ++ nodeName ++
        ascii "\"\x7d"
  | .advert contact =>
      snprintf 256 (ascii "\x7b\"type\":\"advert\",\"pub\":\"" ++ writeHex hexUc contact.pubKey ++
        ascii "\",\"name\":\"" ++ contact.name ++ ascii "\"\x7d")
  | .recvText contact text =>
      snprintf 512 (ascii "\x7b\"type\":\"recv_text\",\"from\":\"" ++
        writeHex hexUc contact.pubKey ++ ascii "\",\"name\":\"" ++ contact.name ++
        ascii "\",\"text\":\"" ++ escapeLoop (256 - 2) 0 text ++ ascii "\"\x7d")
  | .recvChannel text =>
      snprintf 640 (ascii "\x7b\"type\":\"recv_channel\",\"channel\":\"Public\",\"text\":\"" ++
        escapeLoop (512 - 2) 0 text ++ ascii "\"\x7d")
  | .roomPost contact text =>
      snprintf 640 (ascii "\x7b\"type\":\"room_post\",\"from\":\"" ++
        writeHex hexUc contact.pubKey ++ ascii "\",\"name\":\"" ++
        escapeLoop (128 - 3) 0 contact.name ++ ascii "\",\"text\":\"" ++
        escapeLoop (256 - 3) 0 text ++ ascii "\"\x7d")
  | .log line =>
      ascii "\x7b\"type\":\"log\",\"msg\":\"" ++ snprintf 512 line.msg ++ ascii "\"\x7d"

def NodeEvent.print (e : NodeEvent) : Bytes := e.json ++ [10]

/-! ### Reading -/

/-- White space as `str.strip` knows it. -/
def isPySpace (c : ℕ) : Bool :=
  (9 ≤ c && c ≤ 13) || (28 ≤ c && c ≤ 32) || c = 0x85 || c = 0xA0 || c = 0x1680 ||
    (0x2000 ≤ c && c ≤ 0x200A) || c = 0x2028 || c = 0x2029 || c = 0x202F || c = 0x205F ||
    c = 0x3000

def strip (s : List ℕ) : List ℕ :=
  ((s.dropWhile isPySpace).reverse.dropWhile isPySpace).reverse

/-- The limit of the stream reader. -/
def lineLimit : ℕ := 65536

/-- What the reader makes of one line; `none` where it skips it. -/
def readEvent (line : Bytes) : Option JsonValue :=
  let text := strip (decode line)
  if text = [] then none else loads text

/-- `_reader_loop`, on the lines of its stream. A line that is too long ends it. -/
def readLines : List Bytes → List JsonValue
  | [] => []
  | line :: rest =>
      if line.length > lineLimit then [] else (readEvent line).toList ++ readLines rest

def readerLoop (stream : Bytes) : List JsonValue := readLines (stream.splitOn 10)

/-! ### What is meant -/

/-- A text as the reader has it. -/
def textValue (text : Bytes) : JsonValue := .string (decode text)

/-- The object that an event stands for. -/
def NodeEvent.meant : NodeEvent → JsonValue
  | .ready pubKey isRelay isRoomSvr nodeName => .object
      [(points "type", textValue (ascii "ready")),
        (points "pub", textValue (writeHex hexUc pubKey)),
        (points "is_relay", .bool isRelay),
        (points "role", textValue (roleName isRelay isRoomSvr)),
        (points "name", textValue nodeName)]
  | .advert contact => .object
      [(points "type", textValue (ascii "advert")),
        (points "pub", textValue (writeHex hexUc contact.pubKey)),
        (points "name", textValue contact.name)]
  | .recvText contact text => .object
      [(points "type", textValue (ascii "recv_text")),
        (points "from", textValue (writeHex hexUc contact.pubKey)),
        (points "name", textValue contact.name), (points "text", textValue text)]
  | .recvChannel text => .object
      [(points "type", textValue (ascii "recv_channel")),
        (points "channel", textValue (ascii "Public")), (points "text", textValue text)]
  | .roomPost contact text => .object
      [(points "type", textValue (ascii "room_post")),
        (points "from", textValue (writeHex hexUc contact.pubKey)),
        (points "name", textValue contact.name), (points "text", textValue text)]
  | .log line => .object
      [(points "type", textValue (ascii "log")), (points "msg", textValue (line.msg.take 511))]

/-- An event is printed as one line that the reader takes for what it stands for. -/
def NodeEvent.WellFormed (e : NodeEvent) : Prop :=
  ∃ line, e.print = line ++ [10] ∧ 10 ∉ line ∧ line.length ≤ lineLimit ∧
    readEvent line = some e.meant

/-- No control characters. -/
def NoControl (text : Bytes) : Prop := ∀ c ∈ text, 32 ≤ c

/-- Nothing in a text needs to be escaped. -/
def PlainBytes (text : Bytes) : Prop := ∀ c ∈ text, 32 ≤ c ∧ c ≠ 34 ∧ c ≠ 92

instance (text : Bytes) : Decidable (NoControl text) := List.decidableBAll _ _

instance (text : Bytes) : Decidable (PlainBytes text) := List.decidableBAll _ _

/-- A text survives an escaping loop: it has no control characters, and nothing that can be seen
of it is cut off. -/
def Fits (limit : ℕ) (text : Bytes) : Prop :=
  NoControl text ∧ decode (kept limit 0 text) = decode text

/-- What is printed without escaping is plain, and what is printed by an escaping loop
survives it. -/
def NodeEvent.Clean (e : NodeEvent) : Prop :=
  match e with
  | .ready _ _ _ nodeName => PlainBytes nodeName ∧ e.json.length ≤ lineLimit
  | .advert contact => PlainBytes contact.name
  | .recvText contact text => PlainBytes contact.name ∧ Fits 254 text
  | .recvChannel text => Fits 510 text
  | .roomPost contact text => NoControl contact.name ∧ Fits 253 text
  | .log line => PlainBytes (line.msg.take 511)

/-! ### The escaping loops -/

/-- A backslash before each quote and each backslash. -/
def escapeBytes (text : Bytes) : Bytes :=
  text.flatMap fun c => if c = 34 ∨ c = 92 then [92, c] else [c]

theorem escapeBytes_cons (c : UInt8) (text : Bytes) :
    escapeBytes (c :: text) = (if c = 34 ∨ c = 92 then [92, c] else [c]) ++ escapeBytes text := rfl

variable {limit : ℕ} {text : Bytes}

/-- An escaping loop escapes what it gets to. -/
theorem escapeLoop_eq (limit written : ℕ) (text : Bytes) :
    escapeLoop limit written text = escapeBytes (kept limit written text) := by
  induction text generalizing written with
  | nil => rfl
  | cons c text ih =>
      simp only [escapeLoop, kept]
      by_cases room : written < limit
      · by_cases special : c = 34 ∨ c = 92
        · simp only [if_pos room, if_pos special, escapeBytes_cons, ih]
          rfl
        · simp only [if_pos room, if_neg special, escapeBytes_cons, ih]
          rfl
      · rw [if_neg room, if_neg room]
        rfl

/-- And writes at most one byte more than its limit. -/
theorem length_escapeLoop_le (limit written : ℕ) (text : Bytes) :
    (escapeLoop limit written text).length ≤ limit + 1 - written := by
  induction text generalizing written with
  | nil => exact Nat.zero_le _
  | cons c text ih =>
      simp only [escapeLoop]
      split
      · split
        · have rest := ih (written + 2)
          simp only [List.length_cons]
          omega
        · have rest := ih (written + 1)
          simp only [List.length_cons]
          omega
      · exact Nat.zero_le _

theorem kept_isPrefix (limit written : ℕ) (text : Bytes) : kept limit written text <+: text := by
  induction text generalizing written with
  | nil => exact List.prefix_rfl
  | cons c text ih =>
      simp only [kept]
      split
      · exact List.prefix_cons_inj c |>.mpr (ih _)
      · exact List.nil_prefix

/-- A text that is escaped within the limit is kept whole. -/
theorem kept_eq_self {written : ℕ} (short : written + (escapeBytes text).length ≤ limit) :
    kept limit written text = text := by
  induction text generalizing written with
  | nil => rfl
  | cons c text ih =>
      rw [escapeBytes_cons, List.length_append] at short
      by_cases special : c = 34 ∨ c = 92
      · rw [if_pos special] at short
        simp only [List.length_cons, List.length_nil] at short
        rw [kept, if_pos (by omega), if_pos special, ih (by omega)]
      · rw [if_neg special] at short
        simp only [List.length_cons, List.length_nil] at short
        rw [kept, if_pos (by omega), if_neg special, ih (by omega)]

/-! ### Decoding what is printed -/

theorem decode_escapeBytes (text : Bytes) :
    decode (escapeBytes text) = escapeQuotes (decode text) := by
  refine decode_flatMap (g := fun c => if c = 34 ∨ c = 92 then [92, c] else [c])
    (forall_byte (by decide +kernel)) (forall_byte (by decide +kernel)) ?_ text
  intro c high
  exact if_neg (by omega)

theorem plain_decode_iff (text : Bytes) : Plain (decode text) ↔ PlainBytes text := by
  have same : ∀ b : UInt8, (32 ≤ b.toNat ∧ b.toNat ≠ 34 ∧ b.toNat ≠ 92) ↔
      (32 ≤ b ∧ b ≠ 34 ∧ b ≠ 92) := forall_byte (by decide +kernel)
  have bytes := forall_decode_iff (p := fun c => 32 ≤ c ∧ c ≠ 34 ∧ c ≠ 92)
    (fun c high => by omega) text
  exact bytes.trans (forall₂_congr fun b _ => same b)

theorem noControl_decode_iff (text : Bytes) : (∀ c ∈ decode text, 32 ≤ c) ↔ NoControl text := by
  have same : ∀ b : UInt8, 32 ≤ b.toNat ↔ 32 ≤ b := forall_byte (by decide +kernel)
  have bytes := forall_decode_iff (p := fun c => 32 ≤ c) (fun c high => by omega) text
  exact bytes.trans (forall₂_congr fun b _ => same b)

/-- What an escaping loop keeps has the control characters of the text, if it decodes to it. -/
theorem fits_iff (limit : ℕ) (text : Bytes) :
    ((∀ c ∈ decode (kept limit 0 text), 32 ≤ c) ∧ decode (kept limit 0 text) = decode text) ↔
      Fits limit text := by
  refine and_congr_left fun same => ?_
  rw [same]
  exact noControl_decode_iff text

/-- A text that is escaped within the limit survives, if it has no control characters. -/
theorem fits_of_short (short : (escapeBytes text).length ≤ limit) (clean : NoControl text) :
    Fits limit text :=
  ⟨clean, by rw [kept_eq_self (by omega)]⟩

/-! ### Fields -/

/-- A field as it is printed and as it is read. -/
structure Printed where
  bytes : Bytes
  piece : Piece
  splits : Splits bytes piece.print
  printable : piece.condition → ∀ c ∈ bytes, 32 ≤ c

theorem splits_printable {bytes : Bytes} (printable : Printable bytes) :
    Splits bytes (bytes.map UInt8.toNat) := by
  refine .ascii fun c mem => ?_
  have below := UInt8.le_iff_toNat_le.mp (printable c mem).2
  exact Nat.lt_of_le_of_lt below (by decide)

/-- A key between its quotes, with the colon. -/
theorem printable_key {key : Bytes} (isKey : IsKey key) : Printable (34 :: key ++ [34, 58]) := by
  have quote : Printable [34] := by decide
  have separator : Printable [34, 58] := by decide
  exact (quote.append isKey.printable).append separator

/-- A text behind the key of its field. -/
theorem splits_field {key text : Bytes} {cs : List ℕ} (isKey : IsKey key)
    (splits : Splits text cs) :
    Splits (34 :: key ++ 34 :: 58 :: text) (34 :: key.map UInt8.toNat ++ 34 :: 58 :: cs) := by
  have before := (splits_printable (printable_key isKey)).append splits
  simpa using before

/-- A text between quotes. -/
theorem splits_quoted (text : Bytes) :
    Splits (34 :: text ++ [34]) (34 :: decode text ++ [34]) := by
  have first : Splits [34] [34] := splits_printable (by decide)
  have last : Splits (text ++ [34]) (decode text ++ [34]) := .before text (by decide)
  exact first.append last

/-- The keys of the fields that nodes print. -/
inductive EventKey where
  | type
  | pub
  | isRelay
  | role
  | name
  | sender
  | text
  | channel
  | msg
  | hex

def EventKey.word : EventKey → String
  | .type => "type"
  | .pub => "pub"
  | .isRelay => "is_relay"
  | .role => "role"
  | .name => "name"
  | .sender => "from"
  | .text => "text"
  | .channel => "channel"
  | .msg => "msg"
  | .hex => "hex"

def EventKey.bytes (key : EventKey) : Bytes := ascii key.word

theorem EventKey.isKey (key : EventKey) : IsKey key.bytes := by cases key <;> decide

theorem IsKey.plainBytes {key : Bytes} (isKey : IsKey key) : PlainBytes key := by
  intro c mem
  have range := isKey c mem
  grind

theorem IsKey.plain {key : Bytes} (isKey : IsKey key) : Plain (key.map UInt8.toNat) := by
  rw [← (splits_printable isKey.printable).decode_eq]
  exact (plain_decode_iff key).mpr isKey.plainBytes

theorem Printable.noControl {s : Bytes} (printable : Printable s) : NoControl s := fun c mem =>
  (printable c mem).1

theorem NoControl.append {s t : Bytes} (first : NoControl s) (second : NoControl t) :
    NoControl (s ++ t) := by
  intro c mem
  rcases List.mem_append.mp mem with mem | mem
  · exact first c mem
  · exact second c mem

/-- The characters of a field, from those of its key and of its value. -/
theorem printable_field {key text : Bytes} (isKey : IsKey key) (clean : NoControl text) :
    NoControl (34 :: key ++ 34 :: 58 :: text) := by
  have whole := (printable_key isKey).noControl.append clean
  simpa using whole

theorem noControl_quoted (clean : NoControl text) : NoControl (34 :: text ++ [34]) := by
  have quote : NoControl [34] := by decide
  exact (quote.append clean).append quote

theorem noControl_escapeBytes (clean : NoControl text) : NoControl (escapeBytes text) := by
  intro c mem
  obtain ⟨b, mem, inEscape⟩ := List.mem_flatMap.mp mem
  have above := clean b mem
  split at inEscape
  · rcases List.mem_cons.mp inEscape with rfl | inEscape
    · decide
    · exact List.mem_singleton.mp inEscape ▸ above
  · exact List.mem_singleton.mp inEscape ▸ above

namespace Printed

/-- A text that is printed as it is. -/
def raw (key : EventKey) (text : Bytes) : Printed where
  bytes := 34 :: key.bytes ++ 34 :: 58 :: (34 :: text ++ [34])
  piece := .raw (points key.word) (decode text) key.isKey.plain
  splits := splits_field key.isKey (splits_quoted text)
  printable plain := printable_field key.isKey
    (noControl_quoted fun c mem => ((plain_decode_iff text).mp plain c mem).1)

/-- A text that is printed by an escaping loop. -/
def escaped (key : EventKey) (limit : ℕ) (text : Bytes) : Printed where
  bytes := 34 :: key.bytes ++ 34 :: 58 :: (34 :: escapeLoop limit 0 text ++ [34])
  piece := .escaped (points key.word) (decode (kept limit 0 text)) (decode text) key.isKey.plain
  splits := by
    rw [escapeLoop_eq]
    have value := splits_quoted (escapeBytes (kept limit 0 text))
    rw [decode_escapeBytes] at value
    exact splits_field key.isKey value
  printable := by
    rintro ⟨clean, -⟩
    rw [escapeLoop_eq]
    exact printable_field key.isKey (noControl_quoted (noControl_escapeBytes
      ((noControl_decode_iff _).mp clean)))

theorem printable_bool (b : Bool) : Printable (ascii (if b then "true" else "false")) := by
  cases b <;> decide

/-- `true` or `false`. -/
def flag (key : EventKey) (b : Bool) : Printed where
  bytes := 34 :: key.bytes ++ 34 :: 58 :: ascii (if b then "true" else "false")
  piece := .flag (points key.word) b key.isKey.plain
  splits := by
    have value := splits_field key.isKey (splits_printable (printable_bool b))
    cases b <;> exact value
  printable _ := printable_field key.isKey (printable_bool b).noControl

@[simp] theorem condition_raw (key : EventKey) (text : Bytes) :
    (raw key text).piece.condition ↔ PlainBytes text := plain_decode_iff text

@[simp] theorem condition_escaped (key : EventKey) (limit : ℕ) (text : Bytes) :
    (escaped key limit text).piece.condition ↔ Fits limit text := fits_iff limit text

@[simp] theorem condition_flag (key : EventKey) (b : Bool) :
    (flag key b).piece.condition := trivial

end Printed

/-- The bytes of an object from its first field on. -/
def fieldsBytes (p : Printed) : List Printed → Bytes
  | [] => p.bytes ++ [125]
  | q :: ps => p.bytes ++ 44 :: fieldsBytes q ps

def objectBytes (p : Printed) (ps : List Printed) : Bytes := 123 :: fieldsBytes p ps

theorem splits_fieldsBytes (p : Printed) (ps : List Printed) :
    Splits (fieldsBytes p ps) (printFields p.piece (ps.map Printed.piece)) := by
  induction ps generalizing p with
  | nil => exact p.splits.append (splits_printable (by decide))
  | cons q ps ih =>
      have comma : Splits [44] [44] := splits_printable (by decide)
      exact p.splits.append (comma.append (ih q))

theorem decode_objectBytes (p : Printed) (ps : List Printed) :
    decode (objectBytes p ps) = printObject p.piece (ps.map Printed.piece) := by
  have brace : Splits [123] [123] := splits_printable (by decide)
  exact (brace.append (splits_fieldsBytes p ps)).decode_eq

theorem noControl_objectBytes {p : Printed} {ps : List Printed}
    (conditions : ∀ q ∈ p :: ps, q.piece.condition) : NoControl (objectBytes p ps) := by
  have fields : NoControl (fieldsBytes p ps) := by
    induction ps generalizing p with
    | nil =>
        intro c mem
        rcases List.mem_append.mp mem with inField | last
        · exact p.printable (conditions p List.mem_cons_self) c inField
        · rw [List.mem_singleton.mp last]
          decide
    | cons q ps ih =>
        intro c mem
        rcases List.mem_append.mp mem with inField | rest
        · exact p.printable (conditions p List.mem_cons_self) c inField
        · rcases List.mem_cons.mp rest with rfl | rest
          · decide
          · exact ih (fun q' mem => conditions q' (List.mem_cons_of_mem _ mem)) c rest
  intro c mem
  rcases List.mem_cons.mp mem with rfl | mem
  · decide
  · exact fields c mem

/-! ### Lines -/

/-- What begins and ends with a brace is not stripped. -/
theorem strip_printObject (p : Piece) (ps : List Piece) :
    strip (printObject p ps) = printObject p ps := by
  have last : ∀ (p : Piece) ps, ∃ front, printFields p ps = front ++ [125] := by
    intro p ps
    induction ps generalizing p with
    | nil => exact ⟨p.print, rfl⟩
    | cons q ps ih =>
        obtain ⟨front, eq⟩ := ih q
        exact ⟨p.print ++ 44 :: front, by rw [printFields, eq]; simp⟩
  obtain ⟨front, eq⟩ := last p ps
  rw [strip, printObject, eq]
  simp [isPySpace]

theorem readEvent_objectBytes (p : Printed) (ps : List Printed) :
    readEvent (objectBytes p ps) = loads (printObject p.piece (ps.map Printed.piece)) := by
  rw [readEvent, decode_objectBytes, strip_printObject]
  exact if_neg (List.cons_ne_nil _ _)

/-- The reader takes a line of fields for what they stand for exactly when each of them is
read so. -/
theorem readEvent_objectBytes_iff (p : Printed) (ps : List Printed) :
    readEvent (objectBytes p ps) =
        some (.object ((p :: ps).map fun q => q.piece.field)) ↔
      ∀ q ∈ p :: ps, q.piece.condition := by
  have fields : (p :: ps).map (fun q => q.piece.field) =
      (p.piece :: ps.map Printed.piece).map Piece.field := by simp
  rw [readEvent_objectBytes, fields, loads_object_iff]
  simp

/-! ### Events -/

/-- The fields of an event, the first one apart. -/
def NodeEvent.printed : NodeEvent → Printed × List Printed
  | .ready pubKey isRelay isRoomSvr nodeName =>
      (.raw .type (ascii "ready"),
        [.raw .pub (writeHex hexUc pubKey), .flag .isRelay isRelay,
          .raw .role (roleName isRelay isRoomSvr), .raw .name nodeName])
  | .advert contact =>
      (.raw .type (ascii "advert"),
        [.raw .pub (writeHex hexUc contact.pubKey),
          .raw .name contact.name])
  | .recvText contact text =>
      (.raw .type (ascii "recv_text"),
        [.raw .sender (writeHex hexUc contact.pubKey),
          .raw .name contact.name, .escaped .text 254 text])
  | .recvChannel text =>
      (.raw .type (ascii "recv_channel"),
        [.raw .channel (ascii "Public"), .escaped .text 510 text])
  | .roomPost contact text =>
      (.raw .type (ascii "room_post"),
        [.raw .sender (writeHex hexUc contact.pubKey),
          .escaped .name 125 contact.name, .escaped .text 253 text])
  | .log line =>
      (.raw .type (ascii "log"), [.raw .msg (line.msg.take 511)])

/-- An event is printed field by field; no buffer of a whole line is too small. -/
theorem NodeEvent.json_eq (e : NodeEvent) : e.json = objectBytes e.printed.1 e.printed.2 := by
  cases e with
  | ready pubKey isRelay isRoomSvr nodeName =>
      simp [json, printed, objectBytes, fieldsBytes, Printed.raw, Printed.flag, EventKey.bytes,
        EventKey.word, ascii]
  | advert contact =>
      have name := contact.length_name
      rw [json, snprintf_of_short]
      · simp [printed, objectBytes, fieldsBytes, Printed.raw, EventKey.bytes, EventKey.word, ascii]
      · simp [ascii, contact.length_pubKey]
        omega
  | recvText contact text =>
      have name := contact.length_name
      have escaped := length_escapeLoop_le 254 0 text
      rw [json, snprintf_of_short]
      · simp [printed, objectBytes, fieldsBytes, Printed.raw, Printed.escaped, EventKey.bytes,
          EventKey.word, ascii]
      · simp [ascii, contact.length_pubKey]
        omega
  | recvChannel text =>
      have escaped := length_escapeLoop_le 510 0 text
      rw [json, snprintf_of_short]
      · simp [printed, objectBytes, fieldsBytes, Printed.raw, Printed.escaped, EventKey.bytes,
          EventKey.word, ascii]
      · simp [ascii]
        omega
  | roomPost contact text =>
      have name := length_escapeLoop_le 125 0 contact.name
      have escaped := length_escapeLoop_le 253 0 text
      rw [json, snprintf_of_short]
      · simp [printed, objectBytes, fieldsBytes, Printed.raw, Printed.escaped, EventKey.bytes,
          EventKey.word, ascii]
      · simp [ascii, contact.length_pubKey]
        omega
  | log line => simp [json, printed, objectBytes, fieldsBytes, Printed.raw, snprintf,
      EventKey.bytes, EventKey.word, ascii]

theorem NodeEvent.meant_eq (e : NodeEvent) :
    e.meant = .object ((e.printed.1 :: e.printed.2).map fun q => q.piece.field) := by
  cases e <;> rfl

theorem plainBytes_writeHex (bytes : Bytes) : PlainBytes (writeHex hexUc bytes) := by
  have digits : PlainBytes hexUc := by decide
  exact forall_mem_writeHex length_hexUc digits bytes

theorem length_escapeBytes_le (text : Bytes) : (escapeBytes text).length ≤ 2 * text.length := by
  induction text with
  | nil => exact Nat.le_refl 0
  | cons c text ih =>
      rw [escapeBytes_cons, List.length_append, List.length_cons]
      split
      · simp only [List.length_cons, List.length_nil]
        omega
      · simp only [List.length_cons, List.length_nil]
        omega

/-- The buffer of a name in a `room_post` is large enough. -/
theorem fits_name (contact : Contact) : Fits 125 contact.name ↔ NoControl contact.name := by
  refine ⟨And.left, fits_of_short ?_⟩
  have name := contact.length_name
  have escaped := length_escapeBytes_le contact.name
  omega

/-- Only a node name can make a line too long. -/
theorem NodeEvent.length_json_le (e : NodeEvent) :
    (∃ pubKey isRelay isRoomSvr nodeName, e = .ready pubKey isRelay isRoomSvr nodeName) ∨
      e.json.length ≤ lineLimit := by
  have cut : ∀ size text, size ≤ lineLimit → (snprintf size text).length ≤ lineLimit :=
    fun size text le => Nat.le_trans (List.length_take_le _ _) (by omega)
  cases e with
  | ready pubKey isRelay isRoomSvr nodeName => exact Or.inl ⟨_, _, _, _, rfl⟩
  | log line =>
      apply Or.inr
      have msg : (snprintf 512 line.msg).length ≤ 511 := List.length_take_le _ _
      simp only [json, List.length_append]
      have fixed : (ascii "\x7b\"type\":\"log\",\"msg\":\"").length = 21 ∧
          (ascii "\"\x7d").length = 2 := by decide
      rw [fixed.1, fixed.2, lineLimit]
      omega
  | advert contact => exact Or.inr (cut 256 _ (by decide))
  | recvText contact text => exact Or.inr (cut 512 _ (by decide))
  | recvChannel text => exact Or.inr (cut 640 _ (by decide))
  | roomPost contact text => exact Or.inr (cut 640 _ (by decide))

/-- The conditions of the fields are those of the event. -/
theorem NodeEvent.clean_iff (e : NodeEvent) :
    e.Clean ↔
      (∀ q ∈ e.printed.1 :: e.printed.2, q.piece.condition) ∧ e.json.length ≤ lineLimit := by
  have words : ∀ word ∈ ["ready", "advert", "recv_text", "recv_channel", "Public", "room_post",
      "log"], PlainBytes (ascii word) := by decide
  simp only [List.forall_mem_cons] at words
  have short := e.length_json_le
  cases e with
  | ready pubKey isRelay isRoomSvr nodeName =>
      have role : PlainBytes (roleName isRelay isRoomSvr) := by
        cases isRelay <;> cases isRoomSvr <;> decide
      simp [Clean, printed, words, plainBytes_writeHex, role]
  | advert contact =>
      have fits : (NodeEvent.advert contact).json.length ≤ lineLimit := by simpa using short
      simp [Clean, printed, words, plainBytes_writeHex, fits]
  | recvText contact text =>
      have fits : (NodeEvent.recvText contact text).json.length ≤ lineLimit := by simpa using short
      simp [Clean, printed, words, plainBytes_writeHex, fits]
  | recvChannel text =>
      have fits : (NodeEvent.recvChannel text).json.length ≤ lineLimit := by simpa using short
      simp [Clean, printed, words, fits]
  | roomPost contact text =>
      have fits : (NodeEvent.roomPost contact text).json.length ≤ lineLimit := by simpa using short
      simp [Clean, printed, words, plainBytes_writeHex, fits_name, fits]
  | log line =>
      have fits : (NodeEvent.log line).json.length ≤ lineLimit := by simpa using short
      simp [Clean, printed, words, fits]

theorem NodeEvent.wellFormed_of_clean {e : NodeEvent} (clean : e.Clean) : e.WellFormed := by
  obtain ⟨conditions, short⟩ := e.clean_iff.mp clean
  refine ⟨e.json, rfl, ?_, short, ?_⟩
  · intro newline
    rw [json_eq] at newline
    exact absurd (noControl_objectBytes conditions 10 newline) (by decide)
  · rw [json_eq, meant_eq, readEvent_objectBytes_iff]
    exact conditions

theorem NodeEvent.clean_of_wellFormed {e : NodeEvent} (wellFormed : e.WellFormed) : e.Clean := by
  obtain ⟨line, printed, -, short, read⟩ := wellFormed
  obtain rfl : e.json = line := List.append_cancel_right printed
  rw [json_eq, meant_eq, readEvent_objectBytes_iff] at read
  exact e.clean_iff.mpr ⟨read, short⟩

/-- An event arrives as it is meant exactly when what is printed without escaping is plain and
what an escaping loop prints survives it. -/
theorem NodeEvent.wellFormed_iff (e : NodeEvent) : e.WellFormed ↔ e.Clean :=
  ⟨clean_of_wellFormed, wellFormed_of_clean⟩

/-- The name of a node may have quotes, and the ready event prints it as it is. -/
theorem not_wellFormed_quotedName :
    ¬ (NodeEvent.ready (List.replicate 32 0) true false (ascii "base \"A\"")).WellFormed := by
  intro wellFormed
  obtain ⟨plain, -⟩ := NodeEvent.clean_of_wellFormed wellFormed
  exact absurd plain (by decide)

/-- The reader sees the events of a node, no more and no fewer, if each of them is clean. -/
theorem readerLoop_print (events : List NodeEvent) (clean : ∀ e ∈ events, e.Clean) :
    readerLoop (events.flatMap NodeEvent.print) = events.map NodeEvent.meant := by
  induction events with
  | nil => rfl
  | cons e events ih =>
      obtain ⟨line, printed, noNewline, short, read⟩ :=
        NodeEvent.wellFormed_of_clean (clean e List.mem_cons_self)
      have rest := ih fun e' mem => clean e' (List.mem_cons_of_mem _ mem)
      have split : ((e :: events).flatMap NodeEvent.print).splitOn 10 =
          line :: (events.flatMap NodeEvent.print).splitOn 10 := by
        rw [List.flatMap_cons, printed, List.append_assoc]
        exact List.splitOn_append_cons_self_of_not_mem noNewline _
      rw [readerLoop, split, readLines, if_neg (by omega), read, ← readerLoop, rest]
      rfl

end MeshcoreSim
