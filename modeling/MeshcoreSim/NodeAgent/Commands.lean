import MeshcoreSim.Hex
import MeshcoreSim.Lib.CString
import MeshcoreSim.Lib.Dict
import MeshcoreSim.SimRadio

/-!
The command lines that the orchestrator writes to a node, and what the node reads in them.

`NodeAgent.send_command` prints a dictionary with `json.dumps`. The main loop of the node
collects a line in a buffer of 4096 bytes, and `dispatch` searches it for the fields that it
needs (`json_str_field`, `json_num_field`). Numbers are finite; doubles are rational numbers.

* `jsonStrField_dumps`, `jsonNumField_dumps` — each field of a command is read with its own value.
* `jsonStrField_inBounds` — a line is never read beyond its NUL.
* `no_injection` — `dispatch` acts on the fields of the command alone.
-/

namespace MeshcoreSim

open Lib CString

/-! ### Writing -/

/-- `\uXXXX`. -/
def unicodeEscape (n : ℕ) : Bytes :=
  [92, 117] ++ writeHex hexLc [UInt8.ofNat (n / 256), UInt8.ofNat (n % 256)]

/-- A character of a string as `json.dumps` prints it, in ASCII. -/
def escapeChar (c : ℕ) : Bytes :=
  if c = 34 ∨ c = 92 then [92, UInt8.ofNat c]
  else if c = 8 then [92, 98]
  else if c = 9 then [92, 116]
  else if c = 10 then [92, 110]
  else if c = 12 then [92, 102]
  else if c = 13 then [92, 114]
  else if 32 ≤ c ∧ c ≤ 126 then [UInt8.ofNat c]
  else if c < 0x10000 then unicodeEscape c
  else
    unicodeEscape (0xD800 + (c - 0x10000) / 1024) ++ unicodeEscape (0xDC00 + (c - 0x10000) % 1024)

/-- The JSON-escaped form of a string. A Python string is the list of its code points. -/
def jsonEscaped (s : List ℕ) : Bytes := s.flatMap escapeChar

def isDigit (c : UInt8) : Bool := 48 ≤ c && c ≤ 57

/-- The characters of the numbers that `json.dumps` prints. -/
def isNumberChar (c : UInt8) : Bool := isDigit c || c = 43 || c = 45 || c = 46 || c = 69 || c = 101

/-- A number as `json.dumps` prints it. -/
structure NumberToken where
  bytes : Bytes
  nonempty : bytes ≠ []
  numeric : bytes.all isNumberChar

inductive CommandValue where
  | text (s : List ℕ)
  | number (token : NumberToken)

def CommandValue.print : CommandValue → Bytes
  | .text s => 34 :: jsonEscaped s ++ [34]
  | .number token => token.bytes

/-- A key that is found whole: it needs no escapes, and fits into the search buffer. -/
def IsCommandKey (key : Bytes) : Prop := IsKey key ∧ key.length ≤ 60

instance (key : Bytes) : Decidable (IsCommandKey key) := inferInstanceAs (Decidable (_ ∧ _))

/-- A dictionary that is sent as a command. -/
structure CommandDict where
  fields : Dict Bytes CommandValue
  isKey : ∀ key ∈ fields.keys, IsCommandKey key

/-- The code points of a string. -/
def pyString (s : String) : List ℕ := s.toList.map Char.toNat

/-- Distinct keys, each of which is found whole. -/
def CommandKeys (keys : List String) : Prop :=
  (keys.map ascii).Nodup ∧ ∀ key ∈ keys.map ascii, IsCommandKey key

instance (keys : List String) : Decidable (CommandKeys keys) :=
  inferInstanceAs (Decidable (_ ∧ _))

namespace CommandDict

/-- The dictionary with some fields. -/
def of (fields : List (String × CommandValue)) (keys : CommandKeys (fields.map Prod.fst)) :
    CommandDict where
  fields :=
    { entries := fields.map fun field => (ascii field.1, field.2)
      nodup := by simpa [List.map_map, Function.comp_def] using keys.1 }
  isKey := by simpa [Dict.keys, List.map_map, Function.comp_def] using keys.2

/-! The commands of `NodeAgent`. -/

def time (epoch : NumberToken) : CommandDict :=
  .of [("type", .text (pyString "time")), ("epoch", .number epoch)]
    (show CommandKeys ["type", "epoch"] by decide)

def deliverRx (hexData : List ℕ) (snr rssi : NumberToken) : CommandDict :=
  .of [("type", .text (pyString "rx")), ("hex", .text hexData), ("snr", .number snr),
      ("rssi", .number rssi)]
    (show CommandKeys ["type", "hex", "snr", "rssi"] by decide)

def sendText (destPubPrefix text : List ℕ) : CommandDict :=
  .of [("type", .text (pyString "send_text")), ("dest", .text destPubPrefix), ("text", .text text)]
    (show CommandKeys ["type", "dest", "text"] by decide)

/-- The name of the node stands in for an empty one. -/
def broadcastAdvert (nodeName name : List ℕ) : CommandDict :=
  .of [("type", .text (pyString "advert")), ("name", .text (if name = [] then nodeName else name))]
    (show CommandKeys ["type", "name"] by decide)

def sendChannel (text : List ℕ) : CommandDict :=
  .of [("type", .text (pyString "send_channel")), ("text", .text text)]
    (show CommandKeys ["type", "text"] by decide)

def notifyRxStart (durationMs : NumberToken) : CommandDict :=
  .of [("type", .text (pyString "rx_start")), ("duration_ms", .number durationMs)]
    (show CommandKeys ["type", "duration_ms"] by decide)

def quit : CommandDict :=
  .of [("type", .text (pyString "quit"))] (show CommandKeys ["type"] by decide)

end CommandDict

/-- One field of the line, without the comma. -/
def printField (field : Bytes × CommandValue) : Bytes :=
  34 :: field.1 ++ 34 :: 58 :: 32 :: field.2.print

/-- The fields of the line from the second one on. -/
def printMore (fields : List (Bytes × CommandValue)) : Bytes :=
  fields.flatMap fun field => 44 :: 32 :: printField field

/-- `json.dumps`. -/
def dumps (cmd : CommandDict) : Bytes :=
  match cmd.fields.entries with
  | [] => [123, 125]
  | field :: fields => 123 :: printField field ++ printMore fields ++ [125]

/-! ### The line buffer -/

/-- One byte of the inner loop of `main`: the line buffer after it, and the line that is passed
to `dispatch`, if any. What does not fit into the buffer is dropped. -/
def readByte (lineBuf : Bytes) (c : UInt8) : Bytes × Option Bytes :=
  if c = 10 then if lineBuf.length > 0 then ([], some lineBuf) else (lineBuf, none)
  else if lineBuf.length < 4096 - 1 then (lineBuf ++ [c], none)
  else (lineBuf, none)

/-- The lines that are passed on while some bytes are read. -/
def readBytes (lineBuf : Bytes) : Bytes → Bytes × List Bytes
  | [] => (lineBuf, [])
  | c :: stream =>
      let (lineBuf', line) := readByte lineBuf c
      let (lineBuf'', lines) := readBytes lineBuf' stream
      (lineBuf'', line.toList ++ lines)

/-! ### Reading -/

/-- What is searched for, in its buffer of 64 bytes. -/
def searchKey (key : Bytes) : Bytes := snprintf 64 (34 :: key ++ [34, 58])

/-- `while (*p == ' ') p++`. -/
def skipBlanks : Pointer → Option Pointer
  | [] => none
  | c :: p => if c = 32 then skipBlanks p else some (c :: p)

/-- The bytes that the loop of `json_str_field` passes. The first argument tells whether a
backslash has just been passed; the character after it is passed unless it is the NUL. -/
def valueBytes : Bool → Pointer → Option Bytes
  | _, [] => none
  | false, c :: p =>
      if c = 0 ∨ c = 34 then some [] else (valueBytes (c = 92) p).map (c :: ·)
  | true, c :: p => if c = 0 then some [] else (valueBytes false p).map (c :: ·)

/-- `json_str_field`: the value between the quotes, or the null pointer. The outer `none` is a
read out of bounds. -/
def jsonStrField (json : Pointer) (key : Bytes) : Option (Option Bytes) := do
  match ← strstr (searchKey key) json with
  | none => return none
  | some found =>
      match ← skipBlanks (found.drop (searchKey key).length) with
      | [] => none
      | c :: start => if c ≠ 34 then return none else (valueBytes false start).map some

/-- White space as `isspace` knows it. -/
def isCSpace (c : UInt8) : Bool := c = 32 || (9 ≤ c && c ≤ 13)

def naturalOf (digits : Bytes) : ℕ := digits.foldl (fun n d => 10 * n + (d.toNat - 48)) 0

/-- An optional sign, and what follows it. -/
def signOf : Bytes → ℤ × Bytes
  | [] => (1, [])
  | c :: s => if c = 45 then (-1, s) else if c = 43 then (1, s) else (1, c :: s)

/-- The exponent after the digits of a number, if there is one. -/
def exponentOf : Bytes → ℤ
  | [] => 0
  | e :: s =>
      if e = 101 ∨ e = 69 then
        let (sign, s) := signOf s
        sign * naturalOf (s.takeWhile isDigit)
      else 0

/-- The decimal number at the start of a string, 0 if there is none. -/
def decimal (s : Bytes) : ℚ :=
  let (sign, s) := signOf s
  let whole := s.takeWhile isDigit
  let rest := s.dropWhile isDigit
  let frac := if rest.head? = some 46 then rest.tail.takeWhile isDigit else []
  let rest := if rest.head? = some 46 then rest.tail.dropWhile isDigit else rest
  if whole ++ frac = [] then 0
  else sign * naturalOf (whole ++ frac) * 10 ^ (exponentOf rest - frac.length)

/-- `strtod`, on decimal numbers: nothing but the characters of a number decides its result. -/
def strtod (s : Pointer) : ℚ := decimal ((s.dropWhile isCSpace).takeWhile isNumberChar)

/-- `json_num_field`. -/
def jsonNumField (json : Pointer) (key : Bytes) (default : ℚ) : Option ℚ := do
  match ← strstr (searchKey key) json with
  | none => return default
  | some found =>
      let p ← skipBlanks (found.drop (searchKey key).length)
      return strtod p

/-! ### Dispatching -/

/-- What a command makes the radio, the clock and the node do. -/
inductive NodeCall where
  | enqueue (data : Bytes) (snr rssi : ℚ)
  | notifyRxStart (durationMs : ℕ)
  | setCurrentTime (epoch : ℕ)
  | sendTextTo (dest text : Bytes)
  | sendChannelText (text : Bytes)
  | broadcastAdvert (name : Bytes)
  | exit
  deriving DecidableEq

/-- A double as a `uint32_t`. Beyond 32 bits the conversion is undefined. -/
def toUint32 (x : ℚ) : ℕ := ⌊x⌋₊ % 2 ^ 32

/-- `dispatch`, in terms of its readers for the fields of the line. The outer `none` is an
access out of bounds: a packet is decoded into a buffer of 256 bytes. -/
def dispatchFields (str : Bytes → Option (Option Bytes)) (num : Bytes → ℚ → Option ℚ) :
    Option (Option NodeCall) := do
  match ← str (ascii "type") with
  | none => return none
  | some type =>
      if type = ascii "rx" then
        match ← str (ascii "hex") with
        | none => return none
        | some hex =>
            if hex = [] then return none
            else if (hexToBytes hex).length > 256 then none
            else if hexToBytes hex = [] then return none
            else
              let snr ← num (ascii "snr") 6
              let rssi ← num (ascii "rssi") (-90)
              return some (.enqueue (hexToBytes hex) snr rssi)
      else if type = ascii "rx_start" then
        let durationMs ← num (ascii "duration_ms") 0
        return some (.notifyRxStart (toUint32 durationMs))
      else if type = ascii "time" then
        let epoch ← num (ascii "epoch") 0
        return if toUint32 epoch > 0 then some (.setCurrentTime (toUint32 epoch)) else none
      else if type = ascii "send_text" then
        match ← str (ascii "dest"), ← str (ascii "text") with
        | some dest, some text => return some (.sendTextTo dest text)
        | _, _ => return none
      else if type = ascii "send_channel" then
        match ← str (ascii "text") with
        | none => return none
        | some text => return some (.sendChannelText text)
      else if type = ascii "advert" then
        let name ← str (ascii "name")
        return some (.broadcastAdvert (name.getD []))
      else if type = ascii "quit" then return some .exit
      else return none

def dispatch (line : Bytes) : Option (Option NodeCall) :=
  dispatchFields (jsonStrField (cstr line)) (jsonNumField (cstr line))

/-! ### What is printed -/

/-- The part of a JSON string between its quotes: a backslash protects the character after it. -/
inductive Body : Bytes → Prop
  | nil : Body []
  | plain {c : UInt8} {body : Bytes} : c ≠ 34 → c ≠ 92 → c ≠ 0 → Body body → Body (c :: body)
  | escaped {c : UInt8} {body : Bytes} : c ≠ 0 → Body body → Body (92 :: c :: body)

variable {s t body rest : Bytes} {key key' : Bytes}

theorem Body.append (first : Body s) (second : Body t) : Body (s ++ t) := by
  induction first with
  | nil => exact second
  | plain notQuote notBackslash nonzero _ ih => exact .plain notQuote notBackslash nonzero ih
  | escaped nonzero _ ih => exact .escaped nonzero ih

theorem Body.of_plain (plain : ∀ c ∈ s, c ≠ 34 ∧ c ≠ 92 ∧ c ≠ 0) : Body s := by
  induction s with
  | nil => exact .nil
  | cons c s ih =>
      obtain ⟨notQuote, notBackslash, nonzero⟩ := plain c List.mem_cons_self
      exact .plain notQuote notBackslash nonzero
        (ih fun c mem => plain c (List.mem_cons_of_mem _ mem))

/-- Printable characters other than the quote and the backslash. -/
def Unescaped (s : Bytes) : Prop := ∀ c ∈ s, 32 ≤ c ∧ c ≤ 126 ∧ c ≠ 34 ∧ c ≠ 92

instance (s : Bytes) : Decidable (Unescaped s) := List.decidableBAll _ _

theorem Unescaped.spec (unescaped : Unescaped s) : Printable s ∧ Body s := by
  refine ⟨fun c mem => ⟨(unescaped c mem).1, (unescaped c mem).2.1⟩, .of_plain fun c mem => ?_⟩
  obtain ⟨above, -, notQuote, notBackslash⟩ := unescaped c mem
  refine ⟨notQuote, notBackslash, ?_⟩
  rintro rfl
  exact absurd above (by decide)

theorem unicodeEscape_spec (n : ℕ) : Printable (unicodeEscape n) ∧ Body (unicodeEscape n) := by
  have table : Unescaped hexLc := by decide
  have digits : Unescaped (writeHex hexLc [UInt8.ofNat (n / 256), UInt8.ofNat (n % 256)]) :=
    forall_mem_writeHex length_hexLc table _
  have start : Printable [92, 117] := by decide
  exact ⟨start.append digits.spec.1, .escaped (by decide) digits.spec.2⟩

/-- An escape of two characters. -/
theorem escape_spec {c : UInt8} (letter : c ∈ [34, 92, 98, 102, 110, 114, 116]) :
    Printable [92, c] ∧ Body [92, c] := by
  have table : Printable [34, 92, 98, 102, 110, 114, 116] := by decide
  have printable : Printable [92, c] := by
    intro c' mem
    apply table c'
    rcases List.mem_cons.mp mem with rfl | mem
    · simp
    · rwa [List.mem_singleton.mp mem]
  refine ⟨printable, .escaped ?_ .nil⟩
  rintro rfl
  exact printable.noNul (by simp)

theorem escapeChar_spec (c : ℕ) : Printable (escapeChar c) ∧ Body (escapeChar c) := by
  unfold escapeChar
  split_ifs with special _ _ _ _ _ plain
  · rcases special with rfl | rfl <;> exact escape_spec (by simp)
  · exact escape_spec (by simp)
  · exact escape_spec (by simp)
  · exact escape_spec (by simp)
  · exact escape_spec (by simp)
  · exact escape_spec (by simp)
  · have whole : (UInt8.ofNat c).toNat = c := Nat.mod_eq_of_lt (by omega)
    have unescaped : Unescaped [UInt8.ofNat c] := by
      intro c' mem
      rw [List.mem_singleton.mp mem, UInt8.le_iff_toNat_le, UInt8.le_iff_toNat_le, whole]
      refine ⟨plain.1, plain.2, ?_, ?_⟩ <;> intro eq <;> rw [eq] at whole
      · exact special (Or.inl whole.symm)
      · exact special (Or.inr whole.symm)
    exact unescaped.spec
  · exact unicodeEscape_spec c
  · obtain ⟨printable, body⟩ := unicodeEscape_spec (0xD800 + (c - 0x10000) / 1024)
    obtain ⟨printable', body'⟩ := unicodeEscape_spec (0xDC00 + (c - 0x10000) % 1024)
    exact ⟨printable.append printable', body.append body'⟩

/-- A string is printed in ASCII, without a quote that is not escaped. -/
theorem jsonEscaped_spec (s : List ℕ) : Printable (jsonEscaped s) ∧ Body (jsonEscaped s) := by
  induction s with
  | nil => exact ⟨nofun, .nil⟩
  | cons c s ih =>
      obtain ⟨printable, body⟩ := escapeChar_spec c
      exact ⟨printable.append ih.1, body.append ih.2⟩

/-! ### Searching -/

theorem searchKey_eq (isKey : IsCommandKey key) : searchKey key = 34 :: (key ++ [34, 58]) := by
  apply snprintf_of_short
  have short := isKey.2
  simp only [List.length_append, List.length_cons, List.length_nil]
  omega

theorem IsKey.unescaped (isKey : IsKey key) : ∀ c ∈ key, c ≠ 34 ∧ c ≠ 92 ∧ c ≠ 0 := by
  intro c mem
  have range := isKey c mem
  refine ⟨?_, ?_, ?_⟩ <;> rintro rfl <;> simp at range

/-- A key ends where its quote is, so it is not the start of another. -/
theorem key_eq_of_found (plain : ∀ c ∈ key, c ≠ 34) (plain' : ∀ c ∈ key', c ≠ 34)
    (found : key ++ [34, 58] <+: key' ++ 34 :: rest) : key = key' := by
  induction key generalizing key' with
  | nil =>
      cases key' with
      | nil => rfl
      | cons d key' =>
          have quote := (List.cons_prefix_cons.mp found).1
          exact absurd quote.symm (plain' d List.mem_cons_self)
  | cons c key ih =>
      cases key' with
      | nil =>
          have quote := (List.cons_prefix_cons.mp found).1
          exact absurd quote (plain c List.mem_cons_self)
      | cons d key' =>
          obtain ⟨rfl, tail⟩ := List.cons_prefix_cons.mp found
          rw [ih (fun c mem => plain c (List.mem_cons_of_mem _ mem))
            (fun c mem => plain' c (List.mem_cons_of_mem _ mem)) tail]

/-- A key and its colon are not found in a string, nor across its end. -/
theorem not_prefix_body (plain : ∀ c ∈ key, c ≠ 34 ∧ c ≠ 92) (isBody : Body body)
    (next : rest.head? ≠ some 58) : ¬ key ++ [34, 58] <+: body ++ 34 :: rest := by
  intro found
  induction key generalizing body with
  | nil =>
      cases isBody with
      | nil =>
          have colon := (List.cons_prefix_cons.mp found).2
          cases rest with
          | nil => exact absurd colon (by simp)
          | cons d rest => exact next (congrArg some (List.cons_prefix_cons.mp colon).1.symm)
      | plain notQuote _ _ _ => exact notQuote (List.cons_prefix_cons.mp found).1.symm
      | escaped _ _ => exact absurd (List.cons_prefix_cons.mp found).1 (by decide)
  | cons c key ih =>
      have special := plain c List.mem_cons_self
      have plain := fun c mem => plain c (List.mem_cons_of_mem _ mem)
      cases isBody with
      | nil => exact special.1 (List.cons_prefix_cons.mp found).1
      | plain _ _ _ isBody => exact ih plain isBody (List.cons_prefix_cons.mp found).2
      | escaped _ _ => exact special.2 (List.cons_prefix_cons.mp found).1

/-- What follows a field. -/
def Follows (rest : Bytes) : Prop := rest.head? = some 44 ∨ rest.head? = some 125

theorem Follows.noColon (follows : Follows rest) : rest.head? ≠ some 58 := by
  rcases follows with head | head <;> simp [head]

/-- Neither a colon nor what follows a field begins a key. -/
theorem not_prefix_of_head {c : UInt8} (isKey : IsKey key) (other : c = 44 ∨ c = 125 ∨ c = 58)
    (rest : Bytes) : ¬ key ++ [34, 58] <+: c :: rest := by
  intro found
  cases key with
  | nil =>
      have quote := (List.cons_prefix_cons.mp found).1
      rcases other with rfl | rfl | rfl <;> exact absurd quote (by decide)
  | cons d key =>
      obtain rfl := (List.cons_prefix_cons.mp found).1
      have range := isKey d List.mem_cons_self
      rcases other with rfl | rfl | rfl <;> exact absurd range (by decide)

theorem not_prefix_follows (isKey : IsKey key) (follows : Follows rest) :
    ¬ key ++ [34, 58] <+: rest := by
  cases rest with
  | nil => exact absurd follows (by simp [Follows])
  | cons c rest =>
      have head : c = 44 ∨ c = 125 := by simpa [Follows] using follows
      exact not_prefix_of_head isKey (head.imp_right Or.inl) rest

/-- A search for a key passes over a quote where the key does not begin. -/
theorem strstr_quote (other : ¬ key ++ [34, 58] <+: rest) :
    strstr (34 :: (key ++ [34, 58])) (34 :: rest) = strstr (34 :: (key ++ [34, 58])) rest :=
  strstr_skip (fun found => other (List.cons_prefix_cons.mp found).2) (by decide)

/-- A search for a key passes over what stands around the fields. -/
theorem strstr_mark {c : UInt8} {p : Pointer} (isMark : c ∈ [32, 44, 58, 123, 125]) :
    strstr (34 :: (key ++ [34, 58])) (c :: p) = strstr (34 :: (key ++ [34, 58])) p := by
  have others : ∀ d : UInt8, d ∈ [32, 44, 58, 123, 125] → d ≠ 34 ∧ d ≠ 0 := by simp
  exact strstr_pass (others c isMark).1 (others c isMark).2

/-- A search for a key passes over a string. -/
theorem strstr_body (isKey : IsKey key) (isBody : Body body) (follows : Follows rest) :
    strstr (34 :: (key ++ [34, 58])) (body ++ 34 :: rest) =
      strstr (34 :: (key ++ [34, 58])) rest := by
  have unescaped := fun c mem => (isKey.unescaped c mem).imp_right And.left
  induction isBody with
  | nil => exact strstr_quote (not_prefix_follows isKey follows)
  | @plain c body notQuote _ nonzero _ ih =>
      rw [List.cons_append, strstr_pass notQuote nonzero, ih]
  | @escaped c body nonzero isBody ih =>
      rw [List.cons_append, List.cons_append, strstr_pass (by decide) (by decide)]
      by_cases quote : c = 34
      · rw [quote, strstr_quote (not_prefix_body unescaped isBody follows.noColon), ih]
      · rw [strstr_pass quote nonzero, ih]

theorem NumberToken.plain (token : NumberToken) :
    ∀ c ∈ token.bytes, (32 ≤ c ∧ c ≤ 126) ∧ c ≠ 34 ∧ c ≠ 32 ∧ c ≠ 0 := by
  intro c mem
  have numeric := List.all_eq_true.mp token.numeric c mem
  simp only [isNumberChar, isDigit, Bool.or_eq_true, Bool.and_eq_true, decide_eq_true_eq]
    at numeric
  grind

/-- A search for a key passes over a value. -/
theorem strstr_value (isKey : IsKey key) (value : CommandValue) (follows : Follows rest) :
    strstr (34 :: (key ++ [34, 58])) (value.print ++ rest) =
      strstr (34 :: (key ++ [34, 58])) rest := by
  cases value with
  | text s =>
      have unescaped := fun c mem => (isKey.unescaped c mem).imp_right And.left
      obtain ⟨-, isBody⟩ := jsonEscaped_spec s
      have printed : CommandValue.print (.text s) ++ rest =
          34 :: (jsonEscaped s ++ 34 :: rest) := by simp [CommandValue.print]
      rw [printed, strstr_quote (not_prefix_body unescaped isBody follows.noColon),
        strstr_body isKey isBody follows]
  | number token =>
      exact strstr_append fun c mem => ⟨(token.plain c mem).2.1, (token.plain c mem).2.2.2⟩

/-- A search for a key passes over the field of another. -/
theorem strstr_printField (isKey : IsKey key) (isKey' : IsKey key') (other : key' ≠ key)
    (value : CommandValue) (follows : Follows rest) :
    strstr (34 :: (key ++ [34, 58])) (printField (key', value) ++ rest) =
      strstr (34 :: (key ++ [34, 58])) rest := by
  have printed : printField (key', value) ++ rest =
      34 :: (key' ++ 34 :: 58 :: 32 :: (value.print ++ rest)) := by simp [printField]
  have different : ¬ key ++ [34, 58] <+: key' ++ 34 :: 58 :: 32 :: (value.print ++ rest) :=
    fun found => other (key_eq_of_found (fun c mem => (isKey.unescaped c mem).1)
      (fun c mem => (isKey'.unescaped c mem).1) found).symm
  rw [printed, strstr_quote different,
    strstr_append fun c mem => ⟨(isKey'.unescaped c mem).1, (isKey'.unescaped c mem).2.2⟩,
    strstr_quote (not_prefix_of_head isKey (by decide) _), strstr_mark (by simp),
    strstr_mark (by simp), strstr_value isKey value follows]

/-! ### Finding a field -/

/-- What a search for a key comes to: the value of the key, with what follows it in the line, or
the null pointer. -/
def Searched (key : Bytes) (p : Pointer) : Option CommandValue → Prop
  | none => strstr (34 :: (key ++ [34, 58])) p = some none
  | some value => ∃ rest, Follows rest ∧
      strstr (34 :: (key ++ [34, 58])) p =
        some (some (34 :: (key ++ [34, 58]) ++ 32 :: (value.print ++ rest)))

/-- The value of the first field with a key. -/
def fieldOf (key : Bytes) : List (Bytes × CommandValue) → Option CommandValue
  | [] => none
  | (key', value) :: fields => if key = key' then some value else fieldOf key fields

theorem get?_eq_fieldOf (fields : Dict Bytes CommandValue) (key : Bytes) :
    fields.get? key = fieldOf key fields.entries := by
  unfold Dict.get?
  induction fields.entries with
  | nil => rfl
  | cons field fields ih => rw [lookup_cons_ite, fieldOf, ih]

variable {fields : List (Bytes × CommandValue)} {field : Bytes × CommandValue}
  {value? : Option CommandValue}

theorem Searched.passing {p p' : Pointer} (searched : Searched key p' value?)
    (passed : strstr (34 :: (key ++ [34, 58])) p = strstr (34 :: (key ++ [34, 58])) p') :
    Searched key p value? := by
  cases value? with
  | none => exact passed.trans searched
  | some value =>
      obtain ⟨rest, follows, found⟩ := searched
      exact ⟨rest, follows, passed.trans found⟩

/-- A search stops at the field of its key, and passes over any other. -/
theorem searched_printField (isKey : IsKey key) (isKey' : IsKey field.1) (follows : Follows rest)
    (searched : Searched key rest (fieldOf key fields)) :
    Searched key (printField field ++ rest) (fieldOf key (field :: fields)) := by
  obtain ⟨key', value⟩ := field
  rw [fieldOf]
  by_cases same : key = key'
  · subst same
    rw [if_pos rfl]
    refine ⟨rest, follows, ?_⟩
    have found := strstr_found (34 :: (key ++ [34, 58])) (32 :: (value.print ++ rest))
      (List.cons_ne_nil _ _)
    simpa [printField] using found
  · rw [if_neg same]
    exact searched.passing (strstr_printField isKey isKey' (Ne.symm same) value follows)

theorem follows_printMore (fields : List (Bytes × CommandValue)) :
    Follows (printMore fields ++ [125, 0]) := by
  cases fields with
  | nil => exact Or.inr rfl
  | cons field fields => exact Or.inl rfl

theorem searched_printMore (isKey : IsKey key) (keys : ∀ f ∈ fields, IsKey f.1) :
    Searched key (printMore fields ++ [125, 0]) (fieldOf key fields) := by
  induction fields with
  | nil =>
      have passed : strstr (34 :: (key ++ [34, 58])) [125, 0] = some none := by
        rw [strstr_mark (by simp), strstr]
        simp
      exact passed
  | cons field fields ih =>
      have rest := ih fun f mem => keys f (List.mem_cons_of_mem _ mem)
      have searched := searched_printField isKey (keys field List.mem_cons_self)
        (follows_printMore fields) rest
      apply searched.passing
      have printed : printMore (field :: fields) ++ [125, 0] =
          44 :: 32 :: (printField field ++ (printMore fields ++ [125, 0])) := by
        simp [printMore]
      rw [printed, strstr_mark (by simp), strstr_mark (by simp)]

theorem CommandDict.isKey_entries (cmd : CommandDict) :
    ∀ f ∈ cmd.fields.entries, IsCommandKey f.1 :=
  fun _ mem => cmd.isKey _ (List.mem_map_of_mem mem)

/-- A search in the line of a command finds its field, wherever it is. -/
theorem searched_dumps (cmd : CommandDict) (isKey : IsKey key) :
    Searched key (dumps cmd ++ [0]) (cmd.fields.get? key) := by
  have keys := fun f mem => (cmd.isKey_entries f mem).1
  rw [get?_eq_fieldOf]
  unfold dumps
  cases entries : cmd.fields.entries with
  | nil =>
      have passed : strstr (34 :: (key ++ [34, 58])) [123, 125, 0] = some none := by
        rw [strstr_mark (by simp), strstr_mark (by simp), strstr]
        simp
      exact passed
  | cons field fields =>
      rw [entries] at keys
      have rest := searched_printMore isKey fun f mem => keys f (List.mem_cons_of_mem _ mem)
      have searched := searched_printField isKey (keys field List.mem_cons_self)
        (follows_printMore fields) rest
      apply searched.passing
      have printed : 123 :: printField field ++ printMore fields ++ [125] ++ [0] =
          123 :: (printField field ++ (printMore fields ++ [125, 0])) := by simp
      rw [printed, strstr_mark (by simp)]

/-! ### What the readers return -/

/-- The escaped text of a value; a number has none. -/
def CommandValue.escaped? : CommandValue → Option Bytes
  | .text s => some (jsonEscaped s)
  | .number _ => none

/-- A value as a number; a text is none, and is read as 0. -/
def CommandValue.toNumber : CommandValue → ℚ
  | .text _ => 0
  | .number token => decimal token.bytes

def CommandDict.str (cmd : CommandDict) (key : Bytes) : Option Bytes :=
  (cmd.fields.get? key).bind CommandValue.escaped?

def CommandDict.num (cmd : CommandDict) (key : Bytes) (default : ℚ) : ℚ :=
  ((cmd.fields.get? key).map CommandValue.toNumber).getD default

theorem valueBytes_body (isBody : Body body) (rest : Pointer) :
    valueBytes false (body ++ 34 :: rest) = some body := by
  induction isBody with
  | nil => rfl
  | plain notQuote notBackslash nonzero _ ih =>
      simp [valueBytes, notQuote, notBackslash, nonzero, ih]
  | escaped nonzero _ ih => simp [valueBytes, nonzero, ih]

theorem printable_printField {field : Bytes × CommandValue} (isKey : IsKey field.1) :
    Printable (printField field) := by
  obtain ⟨key, value⟩ := field
  have value : Printable value.print := by
    cases value with
    | text s =>
        exact (show Printable [34] by decide).append
          ((jsonEscaped_spec s).1.append (by decide))
    | number token => exact fun c mem => (token.plain c mem).1
  have quote : Printable [34] := by decide
  have separator : Printable [34, 58, 32] := by decide
  have whole := quote.append (isKey.printable.append (separator.append value))
  simpa [printField] using whole

/-- A command is one line of printable ASCII. -/
theorem printable_dumps (cmd : CommandDict) : Printable (dumps cmd) := by
  have keys := fun f mem => (cmd.isKey_entries f mem).1
  unfold dumps
  cases entries : cmd.fields.entries with
  | nil => decide
  | cons field fields =>
      rw [entries] at keys
      have first := printable_printField (keys field List.mem_cons_self)
      have more : Printable (printMore fields) := by
        intro c mem
        obtain ⟨f, inFields, mem⟩ := List.mem_flatMap.mp mem
        have printed := printable_printField (keys f (List.mem_cons_of_mem _ inFields))
        have comma : Printable [44, 32] := by decide
        exact comma.append printed c mem
      have brace : Printable [123] := by decide
      exact ((brace.append first).append more).append (by decide)

theorem cstr_dumps (cmd : CommandDict) : cstr (dumps cmd) = dumps cmd ++ [0] :=
  cstr_of_noNul (printable_dumps cmd).noNul

/-- A pointer that a search has found is moved on to the value. -/
theorem skipBlanks_value (key : Bytes) (value : CommandValue) (rest : Bytes) :
    skipBlanks ((34 :: (key ++ [34, 58]) ++ 32 :: (value.print ++ rest)).drop
      (34 :: (key ++ [34, 58])).length) = some (value.print ++ rest) := by
  rw [List.drop_left, skipBlanks, if_pos rfl]
  cases value with
  | text s => rfl
  | number token =>
      obtain ⟨c, digits, bytes⟩ := List.exists_cons_of_ne_nil token.nonempty
      have notBlank := (token.plain c (by rw [bytes]; exact List.mem_cons_self)).2.2.1
      simp only [CommandValue.print, bytes, List.cons_append, skipBlanks, if_neg notBlank]

/-- `json_str_field` returns the escaped text of its key, and nothing for a number or a key that
is not there. -/
theorem jsonStrField_dumps (cmd : CommandDict) (isKey : IsCommandKey key) :
    jsonStrField (cstr (dumps cmd)) key = some (cmd.str key) := by
  have searched := searched_dumps cmd isKey.1
  unfold jsonStrField CommandDict.str
  rw [cstr_dumps, searchKey_eq isKey]
  cases held : cmd.fields.get? key with
  | none =>
      rw [held] at searched
      rw [show strstr _ _ = _ from searched]
      rfl
  | some value =>
      rw [held] at searched
      obtain ⟨rest, follows, found⟩ := searched
      simp only [found, Option.bind_eq_bind, Option.bind_some, skipBlanks_value]
      cases value with
      | text s =>
          have read := valueBytes_body (jsonEscaped_spec s).2 rest
          simp [CommandValue.print, CommandValue.escaped?, read]
      | number token =>
          obtain ⟨c, digits, bytes⟩ := List.exists_cons_of_ne_nil token.nonempty
          have notQuote := (token.plain c (by rw [bytes]; exact List.mem_cons_self)).2.1
          simp [CommandValue.print, CommandValue.escaped?, bytes, notQuote]

/-- Nothing that follows a value belongs to its number. -/
theorem strtod_value (value : CommandValue) (follows : Follows rest) :
    strtod (value.print ++ rest) = value.toNumber := by
  cases value with
  | text s => rfl
  | number token =>
      have ends : rest.takeWhile isNumberChar = [] := by
        cases rest with
        | nil => rfl
        | cons c rest =>
            have head : c = 44 ∨ c = 125 := by simpa [Follows] using follows
            rcases head with rfl | rfl <;> rfl
      have noSpace : (token.bytes ++ rest).dropWhile isCSpace = token.bytes ++ rest := by
        obtain ⟨c, digits, bytes⟩ := List.exists_cons_of_ne_nil token.nonempty
        have plain := token.plain c (by rw [bytes]; exact List.mem_cons_self)
        have notSpace : isCSpace c = false := by
          simp only [isCSpace, Bool.or_eq_false_iff, Bool.and_eq_false_iff, decide_eq_false_iff_not]
          grind
        rw [bytes, List.cons_append, List.dropWhile_cons_of_neg (by simp [notSpace])]
      have whole : (token.bytes ++ rest).takeWhile isNumberChar = token.bytes := by
        rw [List.takeWhile_append_of_pos (List.all_eq_true.mp token.numeric), ends, List.append_nil]
      rw [CommandValue.print, strtod, noSpace, whole]
      rfl

/-- `json_num_field` returns the number of its key, or the default if the key is not there. -/
theorem jsonNumField_dumps (cmd : CommandDict) (isKey : IsCommandKey key) (default : ℚ) :
    jsonNumField (cstr (dumps cmd)) key default = some (cmd.num key default) := by
  have searched := searched_dumps cmd isKey.1
  unfold jsonNumField CommandDict.num
  rw [cstr_dumps, searchKey_eq isKey]
  cases held : cmd.fields.get? key with
  | none =>
      rw [held] at searched
      rw [show strstr _ _ = _ from searched]
      rfl
  | some value =>
      rw [held] at searched
      obtain ⟨rest, follows, found⟩ := searched
      simp only [found, Option.bind_eq_bind, Option.bind_some, skipBlanks_value,
        strtod_value value follows]
      rfl

/-! ### Staying inside the line -/

/-- The blanks end before the NUL. -/
theorem skipBlanks_inBounds {p : Pointer} (terminated : Terminated p) :
    ∃ c rest, skipBlanks p = some (c :: rest) ∧ Terminated (c :: rest) := by
  induction p with
  | nil => exact absurd rfl terminated.ne_nil
  | cons c p ih =>
      by_cases blank : c = 32
      · rw [skipBlanks, if_pos blank]
        exact ih (terminated.tail (by rw [blank]; decide))
      · exact ⟨c, p, if_neg blank, terminated⟩

/-- The loop over a value ends at a quote or at the NUL, even after a backslash. -/
theorem valueBytes_inBounds {p : Pointer} (terminated : Terminated p) (escaped : Bool) :
    (valueBytes escaped p).isSome := by
  induction p generalizing escaped with
  | nil => exact absurd rfl terminated.ne_nil
  | cons c p ih =>
      by_cases zero : c = 0
      · cases escaped <;> simp [valueBytes, zero]
      · have rest := ih (terminated.tail zero)
        cases escaped with
        | true => simp [valueBytes, zero, rest]
        | false =>
            by_cases quote : c = 34
            · simp [valueBytes, quote]
            · simp [valueBytes, zero, quote, rest]

theorem noNul_searchKey (noNul : 0 ∉ key) : 0 ∉ searchKey key := by
  intro mem
  have inWhole : 0 ∈ 34 :: key ++ [34, 58] := List.mem_of_mem_take mem
  have inKey : 0 ∈ key := by simpa using inWhole
  exact noNul inKey

/-- On any line whatsoever, `json_str_field` stops at the NUL. -/
theorem jsonStrField_inBounds (line : Bytes) (noNul : 0 ∉ key) :
    (jsonStrField (cstr line) key).isSome := by
  unfold jsonStrField
  rcases strstr_inBounds (noNul_searchKey noNul) (terminated_cstr line) with
    nothing | ⟨rest, found, terminated⟩
  · simp [nothing]
  · obtain ⟨c, start, blanks, terminated⟩ := skipBlanks_inBounds terminated
    simp only [found, Option.bind_eq_bind, Option.bind_some, List.drop_left, blanks]
    by_cases quote : c = 34
    · have value := valueBytes_inBounds (terminated.tail (by rw [quote]; decide)) false
      simp [quote, value]
    · simp [quote]

theorem jsonNumField_inBounds (line : Bytes) (noNul : 0 ∉ key) (default : ℚ) :
    (jsonNumField (cstr line) key default).isSome := by
  unfold jsonNumField
  rcases strstr_inBounds (noNul_searchKey noNul) (terminated_cstr line) with
    nothing | ⟨rest, found, terminated⟩
  · simp [nothing]
  · obtain ⟨c, start, blanks, -⟩ := skipBlanks_inBounds terminated
    simp [found, blanks]

/-! ### What dispatch sees -/

/-- A line that fits into the buffer is collected whole. -/
theorem readBytes_line {lineBuf line : Bytes} (noNewline : 10 ∉ line)
    (short : lineBuf.length + line.length < 4096) (stream : Bytes) :
    readBytes lineBuf (line ++ stream) = readBytes (lineBuf ++ line) stream := by
  induction line generalizing lineBuf with
  | nil => simp
  | cons c line ih =>
      have other : c ≠ 10 := fun newline => noNewline (newline ▸ List.mem_cons_self)
      have rest : 10 ∉ line := fun mem => noNewline (List.mem_cons_of_mem _ mem)
      simp only [List.length_cons] at short
      have collected : readByte lineBuf c = (lineBuf ++ [c], none) := by
        rw [readByte, if_neg other, if_pos (by omega)]
      have tail := @ih (lineBuf ++ [c]) rest (by simp; omega)
      simp [readBytes, collected, tail]

theorem readBytes_append (lineBuf stream stream' : Bytes) :
    readBytes lineBuf (stream ++ stream') =
      ((readBytes (readBytes lineBuf stream).1 stream').1,
        (readBytes lineBuf stream).2 ++ (readBytes (readBytes lineBuf stream).1 stream').2) := by
  induction stream generalizing lineBuf with
  | nil => simp [readBytes]
  | cons c stream ih => simp [readBytes, ih]

/-- No line is passed on before its newline. -/
theorem readBytes_noNewline {stream : Bytes} (noNewline : 10 ∉ stream) (lineBuf : Bytes) :
    (readBytes lineBuf stream).2 = [] := by
  induction stream generalizing lineBuf with
  | nil => rfl
  | cons c stream ih =>
      have other : c ≠ 10 := fun newline => noNewline (newline ▸ List.mem_cons_self)
      have rest := ih fun mem => noNewline (List.mem_cons_of_mem _ mem)
      have silent : (readByte lineBuf c).2 = none := by
        rw [readByte, if_neg other]
        split <;> rfl
      simp [readBytes, silent, rest]

/-- A line that fits into the buffer is passed on whole at its newline. -/
theorem readBytes_newline {line : Bytes} (noNewline : 10 ∉ line) (nonempty : line ≠ [])
    (short : line.length < 4096) (stream : Bytes) :
    readBytes [] (line ++ 10 :: stream) =
      ((readBytes [] stream).1, line :: (readBytes [] stream).2) := by
  have passed : readByte line 10 = ([], some line) := by
    rw [readByte, if_pos rfl, if_pos (List.length_pos_of_ne_nil nonempty)]
  rw [readBytes_line noNewline (by simpa using short), List.nil_append, readBytes, passed]
  rfl

theorem dumps_ne_nil (cmd : CommandDict) : dumps cmd ≠ [] := by
  unfold dumps
  split <;> simp

/-- What `dispatch` does depends only on what it reads under the keys that it knows. -/
theorem dispatchFields_congr {str str' : Bytes → Option (Option Bytes)}
    {num num' : Bytes → ℚ → Option ℚ} (sameStr : ∀ key, IsCommandKey key → str key = str' key)
    (sameNum : ∀ key default, IsCommandKey key → num key default = num' key default) :
    dispatchFields str num = dispatchFields str' num' := by
  have texts : ∀ key ∈ ["type", "hex", "dest", "text", "name"], IsCommandKey (ascii key) := by
    decide
  have numbers : ∀ key ∈ ["snr", "rssi", "duration_ms", "epoch"], IsCommandKey (ascii key) := by
    decide
  simp only [List.forall_mem_cons] at texts numbers
  obtain ⟨type, hex, dest, text, name, -⟩ := texts
  obtain ⟨snr, rssi, durationMs, epoch, -⟩ := numbers
  simp only [dispatchFields, sameStr _ type, sameStr _ hex, sameStr _ dest, sameStr _ text,
    sameStr _ name, sameNum _ 6 snr, sameNum _ (-90) rssi, sameNum _ 0 durationMs,
    sameNum _ 0 epoch]

theorem dispatch_dumps (cmd : CommandDict) :
    dispatch (dumps cmd) = dispatchFields (fun key => some (cmd.str key))
      (fun key default => some (cmd.num key default)) :=
  dispatchFields_congr (fun _ isKey => jsonStrField_dumps cmd isKey)
    (fun _ default isKey => jsonNumField_dumps cmd isKey default)

/-- Each field of a command is read back. -/
theorem CommandDict.get?_of {fields : List (String × CommandValue)}
    {keys : CommandKeys (fields.map Prod.fst)} {key : String} {value : CommandValue}
    (mem : (key, value) ∈ fields) :
    (CommandDict.of fields keys).fields.get? (ascii key) = some value :=
  (Dict.mem_entries_iff _).mp (List.mem_map.mpr ⟨(key, value), mem, rfl⟩)

theorem CommandDict.str_of {fields : List (String × CommandValue)}
    {keys : CommandKeys (fields.map Prod.fst)} {key : String} {s : List ℕ}
    (mem : (key, .text s) ∈ fields) :
    (CommandDict.of fields keys).str (ascii key) = some (jsonEscaped s) := by
  rw [CommandDict.str, CommandDict.get?_of mem]
  rfl

theorem CommandDict.num_of {fields : List (String × CommandValue)}
    {keys : CommandKeys (fields.map Prod.fst)} {key : String} {token : NumberToken}
    (mem : (key, .number token) ∈ fields) (default : ℚ) :
    (CommandDict.of fields keys).num (ascii key) default = decimal token.bytes := by
  rw [CommandDict.num, CommandDict.get?_of mem]
  rfl

theorem dispatch_sendText (destPubPrefix text : List ℕ) :
    dispatch (dumps (.sendText destPubPrefix text)) =
      some (some (.sendTextTo (jsonEscaped destPubPrefix) (jsonEscaped text))) := by
  have type : (CommandDict.sendText destPubPrefix text).str (ascii "type") =
      some (jsonEscaped (pyString "send_text")) := CommandDict.str_of (by simp)
  have dest : (CommandDict.sendText destPubPrefix text).str (ascii "dest") =
      some (jsonEscaped destPubPrefix) := CommandDict.str_of (by simp)
  have body : (CommandDict.sendText destPubPrefix text).str (ascii "text") =
      some (jsonEscaped text) := CommandDict.str_of (by simp)
  have word : jsonEscaped (pyString "send_text") = ascii "send_text" := by decide
  have notEarlier : ∀ other ∈ ["rx", "rx_start", "time"], ascii "send_text" ≠ ascii other := by
    decide
  simp only [List.forall_mem_cons] at notEarlier
  rw [dispatch_dumps]
  simp [dispatchFields, type, dest, body, word, notEarlier]

/-- A packet that fits into the buffer of `dispatch` is queued. -/
theorem dispatch_deliverRx {hexData : List ℕ} {data : Bytes} (snr rssi : NumberToken)
    (decoded : hexToBytes (jsonEscaped hexData) = data) (nonempty : data ≠ [])
    (fits : data.length ≤ 256) :
    dispatch (dumps (.deliverRx hexData snr rssi)) =
      some (some (.enqueue data (decimal snr.bytes) (decimal rssi.bytes))) := by
  have type : (CommandDict.deliverRx hexData snr rssi).str (ascii "type") =
      some (jsonEscaped (pyString "rx")) := CommandDict.str_of (by simp)
  have hex : (CommandDict.deliverRx hexData snr rssi).str (ascii "hex") =
      some (jsonEscaped hexData) := CommandDict.str_of (by simp)
  have snrField : (CommandDict.deliverRx hexData snr rssi).num (ascii "snr") 6 =
      decimal snr.bytes := CommandDict.num_of (by simp) 6
  have rssiField : (CommandDict.deliverRx hexData snr rssi).num (ascii "rssi") (-90) =
      decimal rssi.bytes := CommandDict.num_of (by simp) (-90)
  have word : jsonEscaped (pyString "rx") = ascii "rx" := by decide
  have someHex : jsonEscaped hexData ≠ [] := by
    intro empty
    rw [empty] at decoded
    exact nonempty decoded.symm
  rw [dispatch_dumps]
  simp [dispatchFields, type, hex, snrField, rssiField, word, someHex, decoded, nonempty,
    Nat.not_lt.mpr fits]

/-- Only a command of type `rx` queues a packet. -/
theorem type_of_enqueue {cmd : CommandDict} {data : Bytes} {snr rssi : ℚ}
    (called : dispatch (dumps cmd) = some (some (.enqueue data snr rssi))) :
    cmd.str (ascii "type") = some (ascii "rx") := by
  rw [dispatch_dumps] at called
  cases type : cmd.str (ascii "type") with
  | none => simp [dispatchFields, type] at called
  | some word =>
      by_cases rx : word = ascii "rx"
      · rw [rx]
      · simp only [dispatchFields, type, Option.bind_eq_bind, Option.bind_some, if_neg rx] at called
        split_ifs at called
        · cases called
        · cases called
        · cases called
        · split at called <;> cases called
        · split at called <;> cases called
        · cases called
        · cases called
        · cases called

/-- No text of a command changes what is read of it. The line is passed on whole, each of its keys
is read with its own value, and so `dispatch` acts on the fields of the command alone. No line at
all is read beyond its NUL. -/
theorem no_injection (cmd : CommandDict) (short : (dumps cmd).length < 4096) :
    readBytes [] (dumps cmd ++ [10]) = ([], [dumps cmd]) ∧
      (∀ key value, cmd.fields.get? key = some value →
        jsonStrField (cstr (dumps cmd)) key = some value.escaped?) ∧
      dispatch (dumps cmd) = dispatchFields (fun key => some (cmd.str key))
        (fun key default => some (cmd.num key default)) ∧
      ∀ line key, 0 ∉ key → (jsonStrField (cstr line) key).isSome := by
  refine ⟨?_, ?_, dispatch_dumps cmd, fun line key noNul => jsonStrField_inBounds line noNul⟩
  · rw [readBytes_newline (printable_dumps cmd).noNewline (dumps_ne_nil cmd) short]
    rfl
  · intro key value held
    have isKey := cmd.isKey key (List.mem_map_of_mem ((cmd.fields.mem_entries_iff).mpr held))
    rw [jsonStrField_dumps cmd isKey, CommandDict.str, held]
    rfl

/-- A text that would be another command, were its quotes not escaped. -/
theorem no_injection_quotedQuit :
    dispatch (dumps (.sendText (pyString "b0b") (pyString "\", \"type\": \"quit"))) =
      some (some (.sendTextTo (ascii "b0b") (ascii "\\\", \\\"type\\\": \\\"quit"))) :=
  (no_injection (.sendText (pyString "b0b") (pyString "\", \"type\": \"quit"))
    (by decide)).2.2.1

end MeshcoreSim
