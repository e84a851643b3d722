import MeshcoreSim.NodeAgent.Buffers

/-!
How the main loop of the node agent cuts stdin into lines.

The loop reads a byte at a time, for as long as `select` says that there is one, and keeps its line
buffer from one round to the next. Bytes may arrive between any two of its steps. The buffer holds
4095 bytes of a line, and `dispatch` sees them as a C string.

* `readBytes_lines` — the lines that a stream passes on, of any length.
* `agentStep_line_iff` — after which lines the process goes on.
* `lines_framed` — however the stream arrives, the strings that reach `dispatch` are those of its
  lines, one for one, until the process ends.
-/

namespace MeshcoreSim

open Lib CString

/-! ### Lines -/

/-- What `dispatch` sees of a line buffer. -/
def cString (lineBuf : Bytes) : Bytes := lineBuf.takeWhile (· ≠ 0)

/-- The non-empty lines of a stream that have been ended by a newline. -/
def terminatedLines (stream : Bytes) : List Bytes :=
  (stream.splitOn 10).dropLast.filter (· ≠ [])

/-- `dispatch` comes back from a line: it neither ends the process nor overruns a buffer. -/
def Returns (line : Bytes) : Prop :=
  FitsBuffers line ∧ ¬ HasField line "type" (ascii "quit")

instance (line : Bytes) : Decidable (FitsBuffers line) :=
  let field := fun key => (jsonStrField (cstr line) (ascii key)).join
  have isField : ∀ {key value}, value ∈ field key ↔ HasField line key value :=
    fun {_ _} => Option.join_eq_some_iff
  decidable_of_iff
    ((HasField line "type" (ascii "rx") → ∀ hex ∈ field "hex",
        hex.length % 2 = 1 ∨ hex.length ≤ 2 * rxBufSize) ∧
      (HasField line "type" (ascii "send_text") → ∀ dest ∈ field "dest", ∀ text ∈ field "text",
        dest.length % 2 = 1 ∨ dest.length ≤ 2 * pubKeySize))
    ⟨fun ⟨rx, sendText⟩ => ⟨fun type hex read => rx type hex (isField.mpr read),
        fun type dest text read read' =>
          sendText type dest (isField.mpr read) text (isField.mpr read')⟩,
      fun ⟨rx, sendText⟩ => ⟨fun type hex read => rx type hex (isField.mp read),
        fun type dest read text read' =>
          sendText type dest text (isField.mp read) (isField.mp read')⟩⟩

instance (line : Bytes) : Decidable (Returns line) := inferInstanceAs (Decidable (_ ∧ _))

/-- Some strings up to the first one that `dispatch` does not come back from. -/
def untilEnd : List Bytes → List Bytes
  | [] => []
  | string :: strings => string :: if Returns string then untilEnd strings else []

/-- The strings that reach `dispatch` of a stream. -/
def dispatched (stream : Bytes) : List Bytes :=
  untilEnd ((terminatedLines stream).map fun line => cString (line.take (4096 - 1)))

/-! ### The loop -/

/-- Where the main loop is: at the `select` of its round, before a `read`, at the probe after one,
or past its end. -/
inductive Place where
  | select
  | read
  | probe
  | ended
  deriving DecidableEq, Repr

/-- The main loop, with what is readable on stdin and the strings that it has passed to
`dispatch`. -/
structure MainLoop where
  unread : Bytes
  lineBuf : Bytes
  place : Place
  passed : List Bytes
  deriving DecidableEq, Repr

inductive StdinEvent where
  /-- A chunk becomes readable. -/
  | arrive (chunk : Bytes)
  /-- The loop takes its next step. -/
  | proceed
  deriving DecidableEq, Repr

namespace MainLoop

def start : MainLoop := ⟨[], [], .select, []⟩

variable (loop : MainLoop)

/-- `read` of one byte, and what the loop does with it; it waits where there is none. -/
def readOne : MainLoop :=
  match loop.unread with
  | [] => loop
  | c :: unread =>
      match readByte loop.lineBuf c with
      | (lineBuf, none) => ⟨unread, lineBuf, .probe, loop.passed⟩
      | (lineBuf, some line) =>
          ⟨unread, lineBuf, if Returns (cString line) then .probe else .ended,
            loop.passed ++ [cString line]⟩

/-- A step of the loop. A `select` without bytes times out, and so does the probe. -/
def proceed : MainLoop :=
  match loop.place with
  | .select | .probe => { loop with place := if loop.unread = [] then .select else .read }
  | .read => loop.readOne
  | .ended => loop

def step : StdinEvent → MainLoop
  | .arrive chunk => { loop with unread := loop.unread ++ chunk }
  | .proceed => loop.proceed

/-- The loop after some events. -/
def after (events : List StdinEvent) : MainLoop := events.foldl step start

/-- All bytes have been read, or the process has ended. -/
def Finished : Prop := loop.unread = [] ∧ loop.place ≠ .read ∨ loop.place = .ended

end MainLoop

def StdinEvent.chunk : StdinEvent → Bytes
  | .arrive chunk => chunk
  | .proceed => []

/-- The bytes that have become readable. -/
def stream (events : List StdinEvent) : Bytes := events.flatMap StdinEvent.chunk

/-! ### Lines of any length -/

/-- The line buffer holds the start of a line that has begun, and a line is passed on as far as it
is held. -/
theorem readBytes_lines {begun : Bytes} (noNewline : 10 ∉ begun) (stream : Bytes) :
    (readBytes (begun.take (4096 - 1)) stream).2 =
      (terminatedLines (begun ++ stream)).map fun line => line.take (4096 - 1) := by
  induction stream generalizing begun with
  | nil =>
      rw [List.append_nil, terminatedLines, List.splitOn_eq_singleton noNewline]
      rfl
  | cons c stream ih =>
      by_cases newline : c = 10
      · subst newline
        have split : terminatedLines (begun ++ 10 :: stream) =
            (if begun = [] then [] else [begun]) ++ terminatedLines stream := by
          rw [terminatedLines, List.splitOn_append_cons_self_of_not_mem noNewline,
            List.dropLast_cons_of_ne_nil (List.splitOn_ne_nil _ _), List.filter_cons]
          split_ifs with nonempty empty empty
          · simp [empty] at nonempty
          · rfl
          · rfl
          · simp [empty] at nonempty
        have rest := ih (List.not_mem_nil (a := (10 : UInt8)))
        rw [List.take_nil, List.nil_append] at rest
        rw [split, List.map_append, ← rest, readBytes, readByte, if_pos rfl]
        by_cases empty : begun = []
        · simp [empty]
        · simp [List.length_pos_of_ne_nil empty, empty]
      · have longer : readByte (begun.take (4096 - 1)) c =
            ((begun ++ [c]).take (4096 - 1), none) := by
          rw [readByte, if_neg newline, List.length_take]
          by_cases room : begun.length < 4096 - 1
          · rw [if_pos (by omega), List.take_of_length_le room.le,
              List.take_of_length_le (by rw [List.length_append, List.length_singleton]; omega)]
          · rw [if_neg (by omega), List.take_append_of_le_length (Nat.not_lt.mp room)]
        have rest := @ih (begun ++ [c]) (by simp [noNewline, Ne.symm newline])
        rw [readBytes, longer]
        simpa using rest

/-- The strings of the lines that some bytes end. -/
def strings (bytes : Bytes) : List Bytes := (readBytes [] bytes).2.map cString

theorem dispatched_eq (bytes : Bytes) : dispatched bytes = untilEnd (strings bytes) := by
  have lines := readBytes_lines (List.not_mem_nil (a := (10 : UInt8))) bytes
  rw [List.take_nil, List.nil_append] at lines
  rw [dispatched, strings, lines, List.map_map]
  rfl

theorem strings_append (bytes more : Bytes) :
    ∃ later, strings (bytes ++ more) = strings bytes ++ later := by
  rw [strings, readBytes_append, List.map_append]
  exact ⟨_, rfl⟩

/-! ### The end of the process -/

/-- The node goes on after a line exactly if `dispatch` returns. -/
theorem agentStep_line_iff {node : SimNode} (decodable : node.Decodable) (mesh : ChatMesh)
    (line : Bytes) :
    (∃ node', agentStep node (.line line mesh) = some (some node')) ↔ Returns line := by
  by_cases fits : FitsBuffers line
  · obtain ⟨after, stepped, exits, -⟩ := agentStep_line decodable mesh fits
    rw [stepped, Returns, ← exits]
    simp [fits, Option.ne_none_iff_exists']
  · rw [agentStep_overrun fits]
    simp [Returns, fits]

theorem untilEnd_append {first : List Bytes} (returns : ∀ string ∈ first, Returns string)
    (rest : List Bytes) : untilEnd (first ++ rest) = first ++ untilEnd rest := by
  induction first with
  | nil => rfl
  | cons string first ih =>
      rw [List.cons_append, untilEnd, if_pos (returns string List.mem_cons_self),
        ih fun other mem => returns other (List.mem_cons_of_mem _ mem)]
      rfl

theorem untilEnd_of_returns {all : List Bytes} (returns : ∀ string ∈ all, Returns string) :
    untilEnd all = all := by
  have whole := untilEnd_append returns []
  rwa [untilEnd, List.append_nil] at whole

/-- Nothing is passed on after the end. -/
theorem untilEnd_ended {first : List Bytes} {last : Bytes}
    (returns : ∀ string ∈ first, Returns string) (ended : ¬ Returns last) (rest : List Bytes) :
    untilEnd (first ++ [last] ++ rest) = first ++ [last] := by
  rw [List.append_assoc, untilEnd_append returns, List.singleton_append, untilEnd, if_neg ended]

theorem isPrefix_untilEnd {first : List Bytes} (returns : ∀ string ∈ first, Returns string)
    (rest : List Bytes) : first <+: untilEnd (first ++ rest) := by
  rw [untilEnd_append returns]
  exact List.prefix_append _ _

namespace MainLoop

variable {loop : MainLoop} {bytes : Bytes}

/-- What the loop has made of the bytes that it has read. -/
structure Framed (loop : MainLoop) (bytes : Bytes) : Prop where
  passed : loop.passed = strings bytes
  lineBuf : loop.lineBuf = (readBytes [] bytes).1
  reading : loop.place = .read → loop.unread ≠ []
  running : loop.place ≠ .ended → ∀ string ∈ loop.passed, Returns string
  ended : loop.place = .ended → ∃ first last, loop.passed = first ++ [last] ∧
    (∀ string ∈ first, Returns string) ∧ ¬ Returns last

theorem framed_start : start.Framed [] := ⟨rfl, rfl, nofun, fun _ => nofun, nofun⟩

/-- A chunk that arrives is read later. -/
theorem Framed.arrive (framed : loop.Framed bytes) (chunk : Bytes) :
    (loop.step (.arrive chunk)).Framed bytes := by
  refine { framed with reading := fun reads => ?_ }
  exact List.append_ne_nil_of_left_ne_nil (framed.reading reads) _

theorem readOne_none {c : UInt8} {unread lineBuf : Bytes} (here : loop.unread = c :: unread)
    (read : readByte loop.lineBuf c = (lineBuf, none)) :
    loop.readOne = ⟨unread, lineBuf, .probe, loop.passed⟩ := by
  simp only [readOne, here, read]

theorem readOne_some {c : UInt8} {unread lineBuf line : Bytes} (here : loop.unread = c :: unread)
    (read : readByte loop.lineBuf c = (lineBuf, some line)) :
    loop.readOne = ⟨unread, lineBuf, if Returns (cString line) then .probe else .ended,
      loop.passed ++ [cString line]⟩ := by
  simp only [readOne, here, read]

/-- A byte that is read. -/
theorem Framed.readOne (framed : loop.Framed bytes) (reads : loop.place = .read) :
    ∃ c, loop.unread = c :: loop.readOne.unread ∧ loop.readOne.Framed (bytes ++ [c]) ∧
      loop.readOne.place ≠ .read := by
  obtain ⟨c, unread, here⟩ := List.exists_cons_of_ne_nil (framed.reading reads)
  have returns := framed.running (by rw [reads]; decide)
  have collected : readBytes [] (bytes ++ [c]) =
      ((readByte loop.lineBuf c).1,
        (readBytes [] bytes).2 ++ (readByte loop.lineBuf c).2.toList) := by
    rw [readBytes_append, ← framed.lineBuf]
    simp [readBytes]
  refine ⟨c, ?_⟩
  rcases read : readByte loop.lineBuf c with ⟨lineBuf, - | line⟩
  · rw [read] at collected
    rw [readOne_none here read]
    refine ⟨here, ⟨?_, ?_, by simp, fun _ => returns, by simp⟩, by simp⟩
    · rw [framed.passed, strings, strings, collected, Option.toList_none, List.append_nil]
    · rw [collected]
  · rw [read] at collected
    rw [readOne_some here read]
    have passed : loop.passed ++ [cString line] = strings (bytes ++ [c]) := by
      rw [framed.passed, strings, strings, collected, List.map_append]
      rfl
    by_cases goesOn : Returns (cString line)
    · rw [if_pos goesOn]
      refine ⟨here, ⟨passed, by rw [collected], by simp, fun _ string mem => ?_, by simp⟩, by simp⟩
      rcases List.mem_append.mp mem with old | new
      · exact returns string old
      · exact List.mem_singleton.mp new ▸ goesOn
    · rw [if_neg goesOn]
      exact ⟨here, ⟨passed, by rw [collected], by simp, fun running => absurd rfl running,
        fun _ => ⟨loop.passed, cString line, rfl, returns, goesOn⟩⟩, by simp⟩

/-- A `select` or a probe. -/
theorem Framed.poll (framed : loop.Framed bytes) (running : loop.place ≠ .ended) :
    MainLoop.Framed { loop with place := if loop.unread = [] then .select else .read } bytes := by
  refine ⟨framed.passed, framed.lineBuf, fun reads empty => ?_, fun _ => framed.running running,
    fun ended => ?_⟩
  · rw [if_pos empty] at reads
    cases reads
  · split_ifs at ended

/-- What has been read and what has not is what has arrived, after every step. -/
theorem Framed.step (framed : loop.Framed bytes) (event : StdinEvent) :
    ∃ bytes', bytes' ++ (loop.step event).unread = bytes ++ loop.unread ++ event.chunk ∧
      (loop.step event).Framed bytes' := by
  cases event with
  | arrive chunk => exact ⟨bytes, (List.append_assoc _ _ _).symm, framed.arrive chunk⟩
  | proceed =>
      simp only [StdinEvent.chunk, List.append_nil, MainLoop.step, proceed]
      cases place : loop.place with
      | select => exact ⟨bytes, rfl, framed.poll (by rw [place]; decide)⟩
      | probe => exact ⟨bytes, rfl, framed.poll (by rw [place]; decide)⟩
      | ended => exact ⟨bytes, rfl, framed⟩
      | read =>
          obtain ⟨c, here, framed', -⟩ := framed.readOne place
          refine ⟨bytes ++ [c], ?_, framed'⟩
          rw [here, List.append_assoc]
          rfl

theorem framed_after (events : List StdinEvent) :
    ∃ bytes, bytes ++ (after events).unread = stream events ∧ (after events).Framed bytes := by
  induction events using List.reverseRecOn with
  | nil => exact ⟨[], rfl, framed_start⟩
  | append_singleton events event ih =>
      obtain ⟨bytes, arrived, framed⟩ := ih
      obtain ⟨bytes', arrived', framed'⟩ := framed.step event
      have stepped : after (events ++ [event]) = (after events).step event := by
        simp [after]
      refine ⟨bytes', ?_, stepped ▸ framed'⟩
      rw [stepped, arrived', arrived]
      simp [stream]

/-- What has been passed on so far. -/
theorem Framed.isPrefix (framed : loop.Framed bytes) (unread : Bytes) :
    loop.passed <+: dispatched (bytes ++ unread) := by
  obtain ⟨later, strings⟩ := strings_append bytes unread
  rw [dispatched_eq, strings, ← framed.passed]
  by_cases isOver : loop.place = .ended
  · obtain ⟨first, last, passed, returns, ended⟩ := framed.ended isOver
    rw [passed, untilEnd_ended returns ended]
  · exact isPrefix_untilEnd (framed.running isOver) later

/-- What has been passed on in the end. -/
theorem Framed.passed_eq (framed : loop.Framed bytes) (finished : loop.Finished) :
    loop.passed = dispatched (bytes ++ loop.unread) := by
  obtain ⟨later, strings⟩ := strings_append bytes loop.unread
  by_cases isOver : loop.place = .ended
  · obtain ⟨first, last, passed, returns, ended⟩ := framed.ended isOver
    rw [dispatched_eq, strings, ← framed.passed, passed, untilEnd_ended returns ended]
  · have read : loop.unread = [] := by
      rcases finished with ⟨read, -⟩ | ended
      · exact read
      · exact absurd ended isOver
    rw [read, List.append_nil, dispatched_eq, ← framed.passed,
      untilEnd_of_returns (framed.running isOver)]

theorem after_proceed (events : List StdinEvent) (n : ℕ) :
    after (events ++ List.replicate n .proceed) = proceed^[n] (after events) := by
  rw [after, List.foldl_append]
  induction n generalizing events with
  | zero => rfl
  | succ n ih =>
      have rest := ih (events ++ [.proceed])
      rw [List.foldl_append] at rest
      rw [List.replicate_succ, List.foldl_cons, Function.iterate_succ_apply]
      simpa [after, step] using rest

/-- The steps that the loop still has to take, if nothing else arrives. -/
def remaining (loop : MainLoop) : ℕ :=
  2 * loop.unread.length + if loop.place = .read then 0 else 1

theorem Framed.proceed (framed : loop.Framed bytes) (goesOn : ¬ loop.Finished) :
    loop.proceed.remaining < loop.remaining := by
  have unread : loop.place ≠ .read → loop.unread ≠ [] := fun other read =>
    goesOn (Or.inl ⟨read, other⟩)
  cases place : loop.place with
  | ended => exact absurd (Or.inr place) goesOn
  | read =>
      obtain ⟨c, here, -, leaves⟩ := framed.readOne place
      have length : loop.unread.length = loop.readOne.unread.length + 1 := by
        rw [here, List.length_cons]
      simp only [MainLoop.proceed, place, remaining, if_true, if_neg leaves, length]
      omega
  | select | probe =>
      have available := unread (by rw [place]; decide)
      simp [MainLoop.proceed, place, remaining, available]

/-- The loop gets to the end of what has arrived. -/
theorem Framed.finishes (framed : loop.Framed bytes) :
    ∃ n, (MainLoop.proceed^[n] loop).Finished := by
  induction size : loop.remaining using Nat.strong_induction_on generalizing loop bytes with
  | _ size ih =>
      by_cases finished : loop.Finished
      · exact ⟨0, finished⟩
      · obtain ⟨bytes', -, framed'⟩ := framed.step .proceed
        obtain ⟨n, finishes⟩ := ih _ (size ▸ framed.proceed finished) framed' rfl
        exact ⟨n + 1, finishes⟩

end MainLoop

/-! ### Every stream -/

open MainLoop

theorem stream_proceed (events : List StdinEvent) (n : ℕ) :
    stream (events ++ List.replicate n .proceed) = stream events := by
  induction n with
  | zero => rw [List.replicate_zero, List.append_nil]
  | succ n ih =>
      rw [List.replicate_succ', ← List.append_assoc, stream, List.flatMap_append]
      exact (List.append_nil _).trans ih

theorem passed_isPrefix (events : List StdinEvent) :
    (after events).passed <+: dispatched (stream events) := by
  obtain ⟨bytes, arrived, framed⟩ := framed_after events
  rw [← arrived]
  exact framed.isPrefix _

theorem passed_of_finished {events : List StdinEvent} (finished : (after events).Finished) :
    (after events).passed = dispatched (stream events) := by
  obtain ⟨bytes, arrived, framed⟩ := framed_after events
  rw [← arrived]
  exact framed.passed_eq finished

theorem finishes (events : List StdinEvent) :
    ∃ n, (after (events ++ List.replicate n .proceed)).Finished := by
  obtain ⟨bytes, -, framed⟩ := framed_after events
  obtain ⟨n, finished⟩ := framed.finishes
  exact ⟨n, after_proceed events n ▸ finished⟩

theorem length_cString_le (lineBuf : Bytes) : (cString lineBuf).length ≤ lineBuf.length :=
  (List.takeWhile_prefix _).length_le

theorem cString_of_short {line : Bytes} (short : line.length < 4096) (noNul : 0 ∉ line) :
    cString (line.take (4096 - 1)) = line := by
  rw [List.take_of_length_le (by omega), cString, List.takeWhile_eq_self_iff]
  intro c mem
  simpa using ne_of_mem_of_not_mem mem noNul

/-- However the stream arrives, the strings that reach `dispatch` are those of its lines, one for
one and in order, until the process ends; the loop gets to all of them, and a line that fits into
the buffer is whole. -/
theorem lines_framed (events : List StdinEvent) :
    (after events).passed <+: dispatched (stream events) ∧
      ((after events).Finished → (after events).passed = dispatched (stream events)) ∧
      (∃ n, (after (events ++ List.replicate n .proceed)).Finished) ∧
      ∀ line ∈ terminatedLines (stream events), line.length < 4096 → 0 ∉ line →
        cString (line.take (4096 - 1)) = line :=
  ⟨passed_isPrefix events, passed_of_finished, finishes events,
    fun _ _ short noNul => cString_of_short short noNul⟩

/-- Every line is passed on as it is, whatever it is. -/
def AlwaysWhole : Prop :=
  ∀ events : List StdinEvent, (after events).Finished →
    (after events).passed = terminatedLines (stream events)

/-- A line of 4096 characters. -/
def longLine : Bytes := List.replicate 4096 97

theorem terminatedLines_longLine : terminatedLines (longLine ++ [10]) = [longLine] := by
  have noNewline : 10 ∉ longLine := by
    rw [longLine, List.mem_replicate]
    decide
  rw [terminatedLines, List.splitOn_append_cons_self_of_not_mem noNewline]
  rfl

theorem not_alwaysWhole : ¬ AlwaysWhole := by
  intro claim
  obtain ⟨n, finished⟩ := finishes [.arrive (longLine ++ [10])]
  have whole := claim _ finished
  have arrived : stream [.arrive (longLine ++ [10])] = longLine ++ [10] := List.append_nil _
  rw [passed_of_finished finished, stream_proceed, arrived, dispatched, terminatedLines_longLine,
    List.map_singleton, untilEnd, List.cons_eq_cons] at whole
  have length := length_cString_le (longLine.take (4096 - 1))
  rw [whole.1, longLine, List.length_take, List.length_replicate] at length
  omega

end MeshcoreSim
