import MeshcoreSim.Deliveries
import MeshcoreSim.Lib.JsonTail
import MeshcoreSim.NodeAgent.Commands
import MeshcoreSim.SimNode.EventLines

/-!
A text message, from the command that sends it to the event that reports it.

The sender's node takes the text out of the command line as it is escaped there, and the mesh is
taken to carry these bytes unchanged. The receiver's node prints them with a second escaping, into
a buffer of 256 bytes, and the orchestrator undoes one of the two.

* `survives_iff` — the texts that come back.
* `not_survives_accent` — one that does not.
-/

namespace MeshcoreSim

open Lib Utf8 JsonText CString

/-- The text that the sender's node hands to the mesh. -/
def sentText (destPubPrefix text : List ℕ) : Option Bytes :=
  match dispatch (dumps (.sendText destPubPrefix text)) with
  | some (some (.sendTextTo _ text)) => some text
  | _ => none

/-- What an effect of a node prints. -/
def Effect.print : Effect → Bytes
  | .emit e => e.print
  | .send _ _ _ _ => []

/-- A node that receives a text from a contact prints one line, which the orchestrator parses as a
text event. -/
def TextEvent (receiver : SimNode) (sender : Contact) (text : Bytes) (event : JsonValue) : Prop :=
  ∃ line, (receiver.onMessageRecv sender text).2.flatMap Effect.print = line ++ [10] ∧
    10 ∉ line ∧ readerLoop (line ++ [10]) = [event] ∧
    event.get? (points "type") = some (.string (points "recv_text"))

/-- Whoever sends the text, to whomever: every text event of it has the original text, and so the
collector looks up the message that was recorded when it was sent. There is an event unless the
name of the sender spoils the line. -/
def Survives (text : List ℕ) : Prop :=
  ∀ (destPubPrefix : List ℕ) (receiver : SimNode) (sender : Contact), ∃ bytes,
    sentText destPubPrefix text = some bytes ∧
    (PlainBytes sender.name → ∃ event, TextEvent receiver sender bytes event) ∧
    ∀ event, TextEvent receiver sender bytes event →
      event.get? (points "text") = some (.string text) ∧
      ∀ (m : DeliveryMetrics) now nodeName,
        m.onEvent now nodeName event = m.receiveText now nodeName text

/-- Printable ASCII that needs no escapes. -/
def PlainChar (c : ℕ) : Prop := 32 ≤ c ∧ c ≤ 126 ∧ c ≠ 34 ∧ c ≠ 92

/-- A text that fills the buffer of the second escaping with backslashes in just such a way that
half of them are cut off. -/
def HalvedBackslashes (text : List ℕ) : Prop :=
  ∃ front k, text = front ++ List.replicate k 92 ∧ (∀ c ∈ front, PlainChar c) ∧
    (front.length + 2 * k = 254 ∨ front.length + 2 * k = 255)

/-! ### The event -/

theorem sentText_eq (destPubPrefix text : List ℕ) :
    sentText destPubPrefix text = some (jsonEscaped text) := by
  rw [sentText, dispatch_sendText]

/-- What an escaping loop keeps, it keeps a second time. -/
theorem kept_kept (limit written : ℕ) (text : Bytes) :
    kept limit written (kept limit written text) = kept limit written text := by
  induction text generalizing written with
  | nil => rfl
  | cons c text ih =>
      by_cases room : written < limit
      · simp only [kept, if_pos room, ih]
      · simp only [kept, if_neg room]

/-- A line shows nothing of a text but what the escaping loop keeps. -/
theorem json_recvText_kept (contact : Contact) (text : Bytes) :
    (NodeEvent.recvText contact text).json =
      (NodeEvent.recvText contact (kept 254 0 text)).json := by
  have same : escapeLoop 254 0 text = escapeLoop 254 0 (kept 254 0 text) := by
    rw [escapeLoop_eq, escapeLoop_eq, kept_kept]
  simp only [NodeEvent.json]
  rw [same]

/-- There is an event of a printable text from a plain name. -/
theorem exists_textEvent {sender : Contact} {text : Bytes} (name : PlainBytes sender.name)
    (printable : Printable text) (receiver : SimNode) :
    ∃ event, TextEvent receiver sender text event := by
  have clean : (NodeEvent.recvText sender (kept 254 0 text)).Clean := by
    refine ⟨name, ?_, by rw [kept_kept]⟩
    exact fun c mem => (printable c ((kept_isPrefix _ _ _).subset mem)).1
  obtain ⟨line, printed, noNewline, -, -⟩ := NodeEvent.wellFormed_of_clean clean
  have read := readerLoop_print [.recvText sender (kept 254 0 text)]
    (fun e mem => List.mem_singleton.mp mem ▸ clean)
  rw [List.flatMap_singleton, printed] at read
  rw [NodeEvent.print, ← json_recvText_kept] at printed
  exact ⟨_, line, by simp [SimNode.onMessageRecv, Effect.print, NodeEvent.print, printed],
    noNewline, read, rfl⟩

theorem readEvent_of_readerLoop {line : Bytes} {event : JsonValue} (noNewline : 10 ∉ line)
    (read : readerLoop (line ++ [10]) = [event]) : readEvent line = some event := by
  have split : (line ++ [10]).splitOn 10 = [line, []] :=
    List.splitOn_append_cons_self_of_not_mem noNewline []
  have last : readLines [[]] = [] := rfl
  rw [readerLoop, split, readLines, last, List.append_nil] at read
  split at read
  · cases read
  · cases parsed : readEvent line with
    | none =>
        rw [parsed] at read
        cases read
    | some event' =>
        rw [parsed] at read
        exact congrArg some (List.singleton_inj.mp read)

/-- The text is the last field of its event, and no name that stands before it can change what it
is read as. -/
theorem text_of_readEvent {sender : Contact} {text : Bytes} {event : JsonValue}
    (read : readEvent (NodeEvent.recvText sender text).json = some event) :
    event.get? (points "text") = some (.string (decode (kept 254 0 text))) := by
  rw [NodeEvent.json_eq, readEvent_objectBytes] at read
  have last := lastField_escaped EventKey.text.isKey.plain ⟨116, _, rfl, by decide, by decide⟩
    (decode (kept 254 0 text)) (decode text)
  obtain ⟨fields, rfl, isLast⟩ := getLast?_of_loads last (before_printObject _ _ [_, _]) read
  exact get?_of_getLast? isLast

theorem TextEvent.text {receiver : SimNode} {sender : Contact} {text : Bytes} {event : JsonValue}
    (printable : Printable text) (isEvent : TextEvent receiver sender text event) :
    event.get? (points "text") = some (.string ((kept 254 0 text).map UInt8.toNat)) := by
  obtain ⟨line, printed, noNewline, read, -⟩ := isEvent
  have isJson : (NodeEvent.recvText sender text).json = line := by
    simpa [SimNode.onMessageRecv, Effect.print, NodeEvent.print] using printed
  have keptPrintable : Printable (kept 254 0 text) := fun c mem =>
    printable c ((kept_isPrefix _ _ _).subset mem)
  have body := text_of_readEvent (isJson ▸ readEvent_of_readerLoop noNewline read)
  rwa [(splits_printable keptPrintable).decode_eq] at body

/-- A text survives if what is kept of its escaped form is the text again. -/
theorem survives_iff_kept (text : List ℕ) :
    Survives text ↔ (kept 254 0 (jsonEscaped text)).map UInt8.toNat = text := by
  have printable := (jsonEscaped_spec text).1
  constructor
  · intro survives
    obtain ⟨bytes, sent, parsed, same⟩ := survives [] .init SimNode.alice
    obtain rfl := Option.some.inj ((sentText_eq [] text).symm.trans sent)
    obtain ⟨event, isEvent⟩ := parsed (by decide)
    have body := (isEvent.text printable).symm.trans (same event isEvent).1
    exact JsonValue.string.inj (Option.some.inj body)
  · intro same destPubPrefix receiver sender
    refine ⟨_, sentText_eq destPubPrefix text,
      fun name => exists_textEvent name printable receiver, ?_⟩
    intro event isEvent
    have body := isEvent.text printable
    rw [same] at body
    obtain ⟨_, _, _, _, type⟩ := isEvent
    exact ⟨body, fun m now _ => DeliveryMetrics.onEvent_of_carries ⟨type, by rw [body]; rfl⟩⟩

/-! ### Two escapings -/

/-- On printable text, the escaping of the orchestrator is that of the node. -/
theorem jsonEscaped_printable {s : Bytes} (printable : Printable s) :
    jsonEscaped (s.map UInt8.toNat) = escapeBytes s := by
  have char : ∀ b : UInt8, 32 ≤ b ∧ b ≤ 126 →
      escapeChar b.toNat = if b = 34 ∨ b = 92 then [92, b] else [b] :=
    forall_byte (by decide +kernel)
  induction s with
  | nil => rfl
  | cons c s ih =>
      have rest := ih fun c mem => printable c (List.mem_cons_of_mem _ mem)
      rw [escapeBytes_cons, ← rest, ← char c (printable c List.mem_cons_self)]
      rfl

theorem escapeBytes_plain {s : Bytes} (plain : PlainBytes s) : escapeBytes s = s := by
  induction s with
  | nil => rfl
  | cons c s ih =>
      obtain ⟨-, notQuote, notBackslash⟩ := plain c List.mem_cons_self
      have rest := ih fun c mem => plain c (List.mem_cons_of_mem _ mem)
      rw [escapeBytes_cons, if_neg (by simp [notQuote, notBackslash]), rest]
      rfl

theorem escapeBytes_append (s t : Bytes) :
    escapeBytes (s ++ t) = escapeBytes s ++ escapeBytes t := List.flatMap_append

theorem escapeBytes_backslashes (k : ℕ) :
    escapeBytes (List.replicate k 92) = List.replicate (2 * k) 92 := by
  induction k with
  | zero => rfl
  | succ k ih =>
      rw [List.replicate_succ, escapeBytes_cons, ih]
      rfl

/-- Plain characters are kept as long as there is room for them. -/
theorem kept_append {limit written : ℕ} {front : Bytes} (plain : PlainBytes front)
    (room : written + front.length ≤ limit) (rest : Bytes) :
    kept limit written (front ++ rest) = front ++ kept limit (written + front.length) rest := by
  induction front generalizing written with
  | nil => rfl
  | cons c front ih =>
      obtain ⟨-, notQuote, notBackslash⟩ := plain c List.mem_cons_self
      rw [List.length_cons] at room
      have tail := @ih (written + 1) (fun c mem => plain c (List.mem_cons_of_mem _ mem)) (by omega)
      simp only [List.cons_append, kept, List.length_cons, notQuote, notBackslash, or_self,
        if_false]
      rw [if_pos (by omega), tail, Nat.add_assoc, Nat.add_comm 1]

/-- Of backslashes as many are kept as there is room for, two bytes for each. -/
theorem kept_backslashes (limit written n : ℕ) :
    kept limit written (List.replicate n 92) =
      List.replicate (min n ((limit + 1 - written) / 2)) 92 := by
  induction n generalizing written with
  | zero => simp [kept]
  | succ n ih =>
      rw [List.replicate_succ, kept]
      by_cases room : written < limit
      · have count : min (n + 1) ((limit + 1 - written) / 2) =
            min n ((limit + 1 - (written + 2)) / 2) + 1 := by omega
        rw [if_pos room, if_pos (Or.inr rfl), ih, count, List.replicate_succ]
      · have none : min (n + 1) ((limit + 1 - written) / 2) = 0 := by omega
        rw [if_neg room, none]
        rfl

/-- What begins with a backslash and is the start of its own escaped form is nothing but
backslashes. -/
theorem backslashes_of_isPrefix {m : ℕ} {s : Bytes}
    (start : s <+: List.replicate (m + 1) 92 ++ escapeBytes s) :
    s = List.replicate s.length 92 := by
  induction s generalizing m with
  | nil => rfl
  | cons c s ih =>
      rw [List.replicate_succ, List.cons_append] at start
      obtain ⟨rfl, tail⟩ := List.cons_prefix_cons.mp start
      have moved : List.replicate m 92 ++ escapeBytes (92 :: s) =
          List.replicate (m + 2) 92 ++ escapeBytes s := by
        rw [escapeBytes_cons, if_pos (Or.inr rfl), ← List.append_assoc, List.replicate_add]
        rfl
      rw [moved] at tail
      rw [List.length_cons, List.replicate_succ, ← ih tail]

/-- A text that is the start of its own escaped form is plain up to some backslashes at its
end. -/
theorem plain_backslashes_of_isPrefix {s : Bytes} (clean : NoControl s)
    (start : s <+: escapeBytes s) :
    ∃ front k, s = front ++ List.replicate k 92 ∧ PlainBytes front := by
  induction s with
  | nil => exact ⟨[], 0, rfl, nofun⟩
  | cons c s ih =>
      rw [escapeBytes_cons] at start
      by_cases special : c = 34 ∨ c = 92
      · rw [if_pos special] at start
        obtain ⟨rfl, tail⟩ := List.cons_prefix_cons.mp start
        have backslashes := @backslashes_of_isPrefix 0 s tail
        exact ⟨[], s.length + 1, by rw [List.replicate_succ, ← backslashes]; rfl, nofun⟩
      · rw [if_neg special] at start
        obtain ⟨front, k, rfl, plain⟩ := ih (fun c mem => clean c (List.mem_cons_of_mem _ mem))
          (List.cons_prefix_cons.mp start).2
        refine ⟨c :: front, k, rfl, ?_⟩
        intro c' mem
        rcases List.mem_cons.mp mem with rfl | mem
        · exact ⟨clean _ List.mem_cons_self, fun quote => special (Or.inl quote),
            fun backslash => special (Or.inr backslash)⟩
        · exact plain c' mem

/-- The second escaping keeps as many backslashes as there were before the first one, or it cuts
half of them off. -/
theorem kept_escapeBytes_iff {front : Bytes} (plain : PlainBytes front)
    (short : front.length ≤ 160) (k : ℕ) :
    kept 254 0 (escapeBytes (front ++ List.replicate k 92)) = front ++ List.replicate k 92 ↔
      k = 0 ∨ front.length + 2 * k = 254 ∨ front.length + 2 * k = 255 := by
  rw [escapeBytes_append, escapeBytes_plain plain, escapeBytes_backslashes,
    kept_append plain (by omega), kept_backslashes, List.append_cancel_left_eq,
    List.replicate_left_inj]
  omega

/-! ### The texts that survive -/

theorem length_ofList_le (chars : List Char) :
    chars.length ≤ (String.ofList chars).utf8ByteSize := by
  induction chars with
  | nil => exact Nat.zero_le _
  | cons c chars ih =>
      have size := c.utf8Size_pos
      rw [String.ofList_cons, String.utf8ByteSize_append, String.utf8ByteSize_singleton,
        List.length_cons]
      omega

/-- A text has at most as many characters as bytes. -/
theorem length_pyString_le (text : String) : (pyString text).length ≤ text.utf8ByteSize := by
  have length := length_ofList_le text.toList
  rwa [String.ofList_toList, ← List.length_map (f := Char.toNat)] at length

theorem plainBytes_iff {s : Bytes} (printable : Printable s) :
    PlainBytes s ↔ ∀ c ∈ s.map UInt8.toNat, PlainChar c := by
  have same : ∀ b : UInt8, 32 ≤ b ∧ b ≤ 126 →
      ((32 ≤ b ∧ b ≠ 34 ∧ b ≠ 92) ↔ PlainChar b.toNat) :=
    forall_byte (by unfold PlainChar; decide +kernel)
  rw [List.forall_mem_map]
  exact forall₂_congr fun b mem => same b (printable b mem)

/-- Printable characters are those of some bytes. -/
theorem exists_printable {text : List ℕ} (range : ∀ c ∈ text, 32 ≤ c ∧ c ≤ 126) :
    ∃ s : Bytes, Printable s ∧ text = s.map UInt8.toNat := by
  have whole : ∀ c ∈ text, (UInt8.ofNat c).toNat = c := fun c mem =>
    Nat.mod_eq_of_lt (by have := range c mem; omega)
  refine ⟨text.map UInt8.ofNat, ?_, ?_⟩
  · intro b mem
    obtain ⟨c, inText, rfl⟩ := List.mem_map.mp mem
    rw [UInt8.le_iff_toNat_le, UInt8.le_iff_toNat_le, whole c inText]
    exact range c inText
  · rw [List.map_map]
    exact ((List.map_congr_left whole).trans (List.map_id text)).symm

theorem plain_or_halved_iff (text : List ℕ) :
    (∀ c ∈ text, PlainChar c) ∨ HalvedBackslashes text ↔
      ∃ front k, text = front ++ List.replicate k 92 ∧ (∀ c ∈ front, PlainChar c) ∧
        (k = 0 ∨ front.length + 2 * k = 254 ∨ front.length + 2 * k = 255) := by
  constructor
  · rintro (plain | ⟨front, k, eq, plain, size⟩)
    · exact ⟨text, 0, (List.append_nil _).symm, plain, Or.inl rfl⟩
    · exact ⟨front, k, eq, plain, Or.inr size⟩
  · rintro ⟨front, k, rfl, plain, rfl | size⟩
    · exact Or.inl (by simpa using plain)
    · exact Or.inr ⟨front, k, rfl, plain, size⟩

/-- A text comes through both escapings exactly when it is plain, or when the backslashes that the
first one has doubled are halved again by the end of the buffer. -/
theorem kept_jsonEscaped_iff {text : List ℕ} (short : text.length ≤ 160) :
    (kept 254 0 (jsonEscaped text)).map UInt8.toNat = text ↔
      (∀ c ∈ text, PlainChar c) ∨ HalvedBackslashes text := by
  rw [plain_or_halved_iff]
  constructor
  · intro same
    obtain ⟨s, printable, rfl⟩ : ∃ s : Bytes, Printable s ∧ text = s.map UInt8.toNat :=
      ⟨_, fun c mem => (jsonEscaped_spec text).1 c ((kept_isPrefix _ _ _).subset mem), same.symm⟩
    rw [jsonEscaped_printable printable] at same
    have fixed : kept 254 0 (escapeBytes s) = s :=
      List.map_injective_iff.mpr (fun a b => UInt8.toNat_inj.mp) same
    have start : s <+: escapeBytes s := by
      have whole := kept_isPrefix 254 0 (escapeBytes s)
      rwa [fixed] at whole
    obtain ⟨front, k, rfl, plain⟩ :=
      plain_backslashes_of_isPrefix (fun c mem => (printable c mem).1) start
    have inFront : Printable front := fun c mem => printable c (List.mem_append_left _ mem)
    rw [List.length_map, List.length_append] at short
    refine ⟨front.map UInt8.toNat, k, by simp, (plainBytes_iff inFront).mp plain, ?_⟩
    rw [List.length_map]
    exact (kept_escapeBytes_iff plain (by omega) k).mp fixed
  · rintro ⟨front, k, rfl, plain, size⟩
    obtain ⟨s, printable, rfl⟩ := exists_printable fun c mem =>
      ⟨(plain c mem).1, (plain c mem).2.1⟩
    have bytes : s.map UInt8.toNat ++ List.replicate k 92 =
        (s ++ List.replicate k 92).map UInt8.toNat := by simp
    have backslashes : Printable (List.replicate k 92) := fun c mem => by
      rw [List.eq_of_mem_replicate mem]
      decide
    rw [List.length_append, List.length_map] at short
    rw [List.length_map] at size
    rw [bytes, jsonEscaped_printable (printable.append backslashes),
      (kept_escapeBytes_iff ((plainBytes_iff printable).mpr plain) (by omega) k).mpr size]

/-- A text of at most 160 bytes survives exactly when it is printable ASCII without quotes and
backslashes, apart from texts whose backslashes are halved by the end of a buffer. -/
theorem survives_iff {text : String} (short : text.utf8ByteSize ≤ 160) :
    Survives (pyString text) ↔
      (∀ c ∈ pyString text, PlainChar c) ∨ HalvedBackslashes (pyString text) := by
  rw [survives_iff_kept]
  exact kept_jsonEscaped_iff (Nat.le_trans (length_pyString_le text) short)

/-- The texts of the traffic generator survive. -/
theorem survives_hello : Survives (pyString "hello from alice t=4711") :=
  (survives_iff (by decide)).mpr (Or.inl (by unfold PlainChar; decide))

/-- A letter with an accent comes back as the escape that stands for it. -/
theorem not_survives_accent : ¬ Survives (pyString "\u00e9") := by
  rw [survives_iff_kept]
  decide

end MeshcoreSim
