import MeshcoreSim.SimNode.EventLines

/-!
The buffers of the escaping loops (`SimNode.cpp`).

`json_escape` and the loops in `onMessageRecv` and `onChannelMessageRecv` write into a buffer of
their caller. A write past its end is `none`, the one of the NUL at the end included.

* `escapeInto_eq` — a loop that stops in time writes the escaped form of a prefix.
* `escapers_inside` — the loops stop in time, whatever they escape and wherever they stop.
-/

namespace MeshcoreSim

/-- `out[i] = c`. -/
def store (out : Bytes) (i : ℕ) (c : UInt8) : Option Bytes :=
  if i < out.length then some (out.set i c) else none

/-- A loop that escapes a character a round, as long as it finds room for one: the buffer, and
whether it has got to the end. -/
def escapeInto (room : ℕ → Bool) (out : Bytes) (wi : ℕ) : Bytes → Option (Bytes × Bool)
  | [] => do return (← store out wi 0, true)
  | ch :: rest =>
      if room wi then do
        if ch = 34 ∨ ch = 92 then
          let out ← store out wi 92
          let out ← store out (wi + 1) ch
          escapeInto room out (wi + 2) rest
        else
          let out ← store out wi ch
          escapeInto room out (wi + 1) rest
      else do return (← store out wi 0, false)

/-- `json_escape`, into a buffer of the size that it is told. -/
def jsonEscape (out input : Bytes) : Option (Bytes × Bool) :=
  escapeInto (fun wi => ¬ wi + 3 ≥ out.length) out 0 input

/-- The loop of `onMessageRecv` and of `onChannelMessageRecv`, which stops at a NUL. -/
def escapeText (out text : Bytes) : Option Bytes :=
  (escapeInto (fun ei => ei < out.length - 2) out 0 (text.takeWhile (· ≠ 0))).map Prod.fst

/-- A backslash removes itself and protects the next byte. -/
def unescape : Bytes → Bytes
  | [] => []
  | [c] => if c = 92 then [] else [c]
  | c :: c' :: rest => if c = 92 then c' :: unescape rest else c :: unescape (c' :: rest)

/-- The escaped form of a part of a text from its start. -/
def EscapesPrefix (written text : Bytes) : Prop :=
  ∃ start, start <+: text ∧ written = escapeBytes start ∧ unescape written = start

/-! ### The loop -/

theorem unescape_cons {c : UInt8} (plain : c ≠ 92) (rest : Bytes) :
    unescape (c :: rest) = c :: unescape rest := by
  cases rest with
  | nil => simp [unescape, plain]
  | cons c' rest => rw [unescape, if_neg plain]

theorem unescape_escapeBytes (text : Bytes) : unescape (escapeBytes text) = text := by
  induction text with
  | nil => rfl
  | cons c text ih =>
      rw [escapeBytes_cons]
      by_cases special : c = 34 ∨ c = 92
      · rw [if_pos special, List.cons_append, List.singleton_append, unescape, if_pos rfl, ih]
      · have plain : c ≠ 92 := fun same => special (.inr same)
        rw [if_neg special, List.singleton_append, unescape_cons plain, ih]

theorem store_append (done rest : Bytes) (free c : UInt8) :
    store (done ++ free :: rest) done.length c = some (done ++ [c] ++ rest) := by
  rw [store, if_pos (by simp), List.set_append_right _ _ (Nat.le_refl _)]
  simp

/-- The loop writes the escaped form of what it keeps, and a NUL behind it. It needs room for two
characters and the NUL. -/
theorem escapeInto_eq {limit size : ℕ} (bound : limit + 2 ≤ size) (input done rest : Bytes)
    (length : done.length + rest.length = size) (nonempty : rest ≠ []) :
    escapeInto (fun wi => wi < limit) (done ++ rest) done.length input =
      some (done ++ escapeBytes (kept limit done.length input) ++
          0 :: rest.drop ((escapeBytes (kept limit done.length input)).length + 1),
        decide (kept limit done.length input = input)) := by
  induction input generalizing done rest with
  | nil =>
      obtain ⟨free, rest, rfl⟩ := List.exists_cons_of_ne_nil nonempty
      simp [escapeInto, store_append, kept, escapeBytes]
  | cons ch input ih =>
      obtain ⟨free, rest, rfl⟩ := List.exists_cons_of_ne_nil nonempty
      rw [List.length_cons] at length
      rw [escapeInto, kept]
      by_cases room : done.length < limit
      · obtain ⟨free', rest, rfl⟩ := List.exists_cons_of_length_pos (by omega : 0 < rest.length)
        rw [List.length_cons] at length
        simp only [room, decide_true, if_true, store_append, Option.bind_eq_bind, Option.bind_some]
        by_cases special : ch = 34 ∨ ch = 92
        · have second := store_append (done ++ [92]) rest free' ch
          have later := ih (done ++ [92] ++ [ch]) rest (by simp; omega)
            (List.ne_nil_of_length_pos (by omega))
          simp only [List.length_append, List.length_singleton] at second later
          rw [if_pos special, if_pos special, second, Option.bind_some]
          rw [later, escapeBytes_cons, if_pos special]
          simp
        · have later := ih (done ++ [ch]) (free' :: rest) (by simp; omega) (List.cons_ne_nil _ _)
          simp only [List.length_append, List.length_singleton] at later
          rw [if_neg special, if_neg special, later, escapeBytes_cons, if_neg special]
          simp
      · simp [room, store_append, escapeBytes]

/-- What it keeps is read back. -/
theorem escapesPrefix_kept (limit : ℕ) (text : Bytes) :
    EscapesPrefix (escapeBytes (kept limit 0 text)) text :=
  ⟨_, kept_isPrefix limit 0 text, rfl, unescape_escapeBytes _⟩

/-! ### The callers -/

variable {out : Bytes}

theorem jsonEscape_eq (size : 4 ≤ out.length) (input : Bytes) :
    jsonEscape out input =
      some (escapeLoop (out.length - 3) 0 input ++
          0 :: out.drop ((escapeLoop (out.length - 3) 0 input).length + 1),
        decide (kept (out.length - 3) 0 input = input)) := by
  have room : (fun wi : ℕ => decide (¬ wi + 3 ≥ out.length)) = fun wi => wi < out.length - 3 := by
    funext wi
    exact decide_eq_decide.mpr (by omega)
  have written := escapeInto_eq (by omega : out.length - 3 + 2 ≤ out.length) input [] out
    (Nat.zero_add _) (List.ne_nil_of_length_pos (by omega))
  rw [jsonEscape, room, escapeLoop_eq]
  exact written

theorem escapeText_eq (size : 4 ≤ out.length) (text : Bytes) :
    escapeText out text =
      some (escapeLoop (out.length - 2) 0 (text.takeWhile (· ≠ 0)) ++
        0 :: out.drop ((escapeLoop (out.length - 2) 0 (text.takeWhile (· ≠ 0))).length + 1)) := by
  have written := escapeInto_eq (by omega : out.length - 2 + 2 ≤ out.length)
    (text.takeWhile (· ≠ 0)) [] out (Nat.zero_add _) (List.ne_nil_of_length_pos (by omega))
  rw [escapeText, escapeLoop_eq]
  exact congrArg (Option.map Prod.fst) written

/-- The loops stay inside of a buffer of at least 4 bytes, with the NUL behind what they write.
What they write is unescaped to a prefix of the input; `json_escape` returns true exactly if this
is the whole input. -/
theorem escapers_inside (size : 4 ≤ out.length) (input : Bytes) :
    (∃ written whole, jsonEscape out input =
        some (written ++ 0 :: out.drop (written.length + 1), whole) ∧
      EscapesPrefix written input ∧ (whole = true ↔ unescape written = input)) ∧
    ∃ written, escapeText out input = some (written ++ 0 :: out.drop (written.length + 1)) ∧
      EscapesPrefix written input := by
  constructor
  · refine ⟨_, _, jsonEscape_eq size input, ?_, ?_⟩
    · rw [escapeLoop_eq]
      exact escapesPrefix_kept _ input
    · rw [escapeLoop_eq, unescape_escapeBytes, decide_eq_true_iff]
  · refine ⟨_, escapeText_eq size input, ?_⟩
    rw [escapeLoop_eq]
    obtain ⟨start, isPrefix, escaped⟩ := escapesPrefix_kept (out.length - 2)
      (input.takeWhile (· ≠ 0))
    exact ⟨start, isPrefix.trans (List.takeWhile_prefix _), escaped⟩

/-- A quote for which a buffer of 4 bytes has room, and the characters behind it, for which it has
none. -/
theorem escapers_inside_quote :
    jsonEscape [1, 1, 1, 1] [34, 97, 97] = some ([92, 34, 0, 1], false) ∧
      ∃ written, escapeText [1, 1, 1, 1] [34, 97, 97] =
          some (written ++ 0 :: [1, 1, 1, 1].drop (written.length + 1)) ∧
        EscapesPrefix written [34, 97, 97] := by
  have size : 4 ≤ ([1, 1, 1, 1] : Bytes).length := by decide
  exact ⟨by decide, (escapers_inside size [34, 97, 97]).2⟩

end MeshcoreSim
