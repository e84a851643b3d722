import Mathlib.Algebra.Group.Nat.Defs
import Mathlib.Data.List.TakeWhile

/-!
A strict JSON reader, over code points.

Strings are read as Python's `json` reads them: no control characters, the escapes of the
standard, and a surrogate pair that is escaped twice in a row is one character. Numbers keep their
text. Objects keep the order of their fields and all of them.

* `scanString_self` — a text between quotes that is read as itself has nothing to escape.
* `scanString_escaped` — a text with its quotes and backslashes escaped is read as the text,
  unless it has control characters; then it is not read at all.
* `loads_object_iff` — an object that is printed piece by piece is read as intended exactly when
  each of the pieces is.
-/

namespace MeshcoreSim.Lib

inductive JsonValue where
  | null
  | bool (b : Bool)
  | number (token : List ℕ)
  | string (s : List ℕ)
  | array (items : List JsonValue)
  | object (fields : List (List ℕ × JsonValue))

/-- The field of an object with a key, the last one if there are several. -/
def JsonValue.get? (v : JsonValue) (key : List ℕ) : Option JsonValue :=
  match v with
  | .object fields => fields.reverse.lookup key
  | _ => none

namespace JsonValue

def isString : JsonValue → Bool
  | .string _ => true
  | _ => false

/-- What can be sliced. -/
def isSequence : JsonValue → Bool
  | .string _ | .array _ => true
  | _ => false

/-- What can be searched with `in`. -/
def isContainer : JsonValue → Bool
  | .string _ | .array _ | .object _ => true
  | _ => false

end JsonValue

namespace JsonText

/-! ### Strings -/

/-- Where the reader is in a string: after a backslash, or in the digits of a `\u`. -/
inductive Mode where
  | plain
  | escape
  | unicode (later : ℕ) (value : ℕ)

def hexValue? (c : ℕ) : Option ℕ :=
  if 48 ≤ c ∧ c ≤ 57 then some (c - 48)
  else if 97 ≤ c ∧ c ≤ 102 then some (c - 87)
  else if 65 ≤ c ∧ c ≤ 70 then some (c - 55)
  else none

/-- The escapes of one character, without `\u`. -/
def simpleEscape? (c : ℕ) : Option ℕ :=
  if c = 34 ∨ c = 92 ∨ c = 47 then some c
  else if c = 98 then some 8
  else if c = 102 then some 12
  else if c = 110 then some 10
  else if c = 114 then some 13
  else if c = 116 then some 9
  else none

/-- A character of a string, and whether it was escaped. -/
abbrev Scanned := Bool × ℕ

def push (u : Scanned) (r : List Scanned × List ℕ) : List Scanned × List ℕ := (u :: r.1, r.2)

/-- The characters up to the closing quote, and what follows it. -/
def scan : Mode → List ℕ → Option (List Scanned × List ℕ)
  | _, [] => none
  | .plain, c :: rest =>
      if c = 34 then some ([], rest)
      else if c = 92 then scan .escape rest
      else if c < 32 then none
      else (scan .plain rest).map (push (false, c))
  | .escape, c :: rest =>
      if c = 117 then scan (.unicode 3 0) rest
      else match simpleEscape? c with
        | some u => (scan .plain rest).map (push (true, u))
        | none => none
  | .unicode later value, c :: rest =>
      match hexValue? c, later with
      | none, _ => none
      | some d, 0 => (scan .plain rest).map (push (true, value * 16 + d))
      | some d, n + 1 => scan (.unicode n (value * 16 + d)) rest

def isHighSurrogate (c : ℕ) : Bool := 0xD800 ≤ c ∧ c ≤ 0xDBFF

def isLowSurrogate (c : ℕ) : Bool := 0xDC00 ≤ c ∧ c ≤ 0xDFFF

/-- Two escaped surrogates in a row are one character. -/
def join : List Scanned → List ℕ
  | (true, high) :: (true, low) :: rest =>
      if isHighSurrogate high && isLowSurrogate low then
        (0x10000 + (high - 0xD800) * 1024 + (low - 0xDC00)) :: join rest
      else high :: join ((true, low) :: rest)
  | (_, c) :: rest => c :: join rest
  | [] => []

/-- A string, after its opening quote. -/
def scanString (s : List ℕ) : Option (List ℕ × List ℕ) :=
  (scan .plain s).map fun (scanned, rest) => (join scanned, rest)

/-! ### Values -/

def isSpace (c : ℕ) : Bool := c = 32 || c = 9 || c = 10 || c = 13

def skipSpace (s : List ℕ) : List ℕ := s.dropWhile isSpace

def expect (c : ℕ) : List ℕ → Option (List ℕ)
  | [] => none
  | d :: rest => if d = c then some rest else none

def isDigit (c : ℕ) : Bool := 48 ≤ c ∧ c ≤ 57

/-- Some digits, at least one. -/
def digits? (s : List ℕ) : Option (List ℕ × List ℕ) :=
  if s.takeWhile isDigit = [] then none else some (s.takeWhile isDigit, s.dropWhile isDigit)

/-- An optional part of a number. -/
def optional (part : List ℕ → Option (List ℕ × List ℕ)) (s : List ℕ) : List ℕ × List ℕ :=
  (part s).getD ([], s)

def sign (s : List ℕ) : List ℕ × List ℕ :=
  match s with
  | c :: rest => if c = 43 ∨ c = 45 then ([c], rest) else ([], s)
  | [] => ([], [])

/-- An integer without leading zeros. -/
def natural? : List ℕ → Option (List ℕ × List ℕ)
  | [] => none
  | c :: rest => if c = 48 then some ([48], rest) else digits? (c :: rest)

def fraction? (s : List ℕ) : Option (List ℕ × List ℕ) := do
  let rest ← expect 46 s
  let (ds, rest) ← digits? rest
  return (46 :: ds, rest)

def exponent? : List ℕ → Option (List ℕ × List ℕ)
  | [] => none
  | e :: rest =>
      if e = 101 ∨ e = 69 then
        let (sgn, rest) := sign rest
        (digits? rest).map fun (ds, rest) => (e :: sgn ++ ds, rest)
      else none

def number? (s : List ℕ) : Option (JsonValue × List ℕ) := do
  let (minus, rest) := optional (fun s => (expect 45 s).map fun rest => ([45], rest)) s
  let (whole, rest) ← natural? rest
  let (frac, rest) := optional fraction? rest
  let (exp, rest) := optional exponent? rest
  return (.number (minus ++ whole ++ frac ++ exp), rest)

/-- The number that the digits of a text make up. -/
def natOf (s : List ℕ) : ℕ := (s.filter isDigit).foldl (fun n c => 10 * n + (c - 48)) 0

/-- A number that is read as zero: it is at most half of the least positive `float`. -/
def isZero (token : List ℕ) : Bool :=
  let mantissa := token.takeWhile fun c => c ≠ 101 ∧ c ≠ 69
  let exponent := (token.dropWhile fun c => c ≠ 101 ∧ c ≠ 69).drop 1
  let places := ((mantissa.dropWhile (· ≠ 46)).drop 1).length
  if exponent.head? = some 45 then
    natOf mantissa * 2 ^ 1075 ≤ 10 ^ (places + natOf exponent)
  else natOf mantissa * 2 ^ 1075 * 10 ^ natOf exponent ≤ 10 ^ places

/-- The words that stand for a value; `NaN` and the infinities are read as numbers. -/
def words : List (String × JsonValue) :=
  [("null", .null), ("true", .bool true), ("false", .bool false),
    ("NaN", .number []), ("Infinity", .number []), ("-Infinity", .number [])]

def codePoints (s : String) : List ℕ := s.toList.map Char.toNat

def word? (s : List ℕ) : Option (JsonValue × List ℕ) :=
  words.findSome? fun (w, v) =>
    if codePoints w <+: s then some (v, s.drop (codePoints w).length) else none

/-- `bool(v)`; no other number has an empty text than `NaN` and the infinities. -/
def truthy : JsonValue → Bool
  | .null => false
  | .bool b => b
  | .number token => token = [] || !isZero token
  | .string s => s ≠ []
  | .array items => !items.isEmpty
  | .object fields => !fields.isEmpty

example : truthy (.number (codePoints "-0.0e5")) = false ∧
    truthy (.number (codePoints "1e-324")) = false ∧
    truthy (.number (codePoints "3e-324")) = true := by
  decide +kernel

mutual

/-- A value, and what follows it. The first argument bounds the nesting and the number of
fields. -/
def value : ℕ → List ℕ → Option (JsonValue × List ℕ)
  | 0, _ => none
  | _ + 1, [] => none
  | n + 1, c :: rest =>
      if c = 34 then (scanString rest).map fun (s, rest) => (.string s, rest)
      else if c = 123 then
        match expect 125 (skipSpace rest) with
        | some rest => some (.object [], rest)
        | none => (members n (skipSpace rest)).map fun (fields, rest) => (.object fields, rest)
      else if c = 91 then
        match expect 93 (skipSpace rest) with
        | some rest => some (.array [], rest)
        | none => (elements n (skipSpace rest)).map fun (items, rest) => (.array items, rest)
      else (word? (c :: rest)).or (number? (c :: rest))

/-- The fields of an object, up to its closing brace. -/
def members : ℕ → List ℕ → Option (List (List ℕ × JsonValue) × List ℕ)
  | 0, _ => none
  | n + 1, s => do
      let rest ← expect 34 s
      let (key, rest) ← scanString rest
      let rest ← expect 58 (skipSpace rest)
      let (v, rest) ← value n (skipSpace rest)
      match expect 125 (skipSpace rest) with
      | some rest => some ([(key, v)], rest)
      | none => do
          let rest ← expect 44 (skipSpace rest)
          let (more, rest) ← members n (skipSpace rest)
          some ((key, v) :: more, rest)

/-- The items of an array, up to its closing bracket. -/
def elements : ℕ → List ℕ → Option (List JsonValue × List ℕ)
  | 0, _ => none
  | n + 1, s => do
      let (v, rest) ← value n s
      match expect 93 (skipSpace rest) with
      | some rest => some ([v], rest)
      | none => do
          let rest ← expect 44 (skipSpace rest)
          let (more, rest) ← elements n (skipSpace rest)
          some (v :: more, rest)

end

/-- `json.loads`; `none` is its `JSONDecodeError`. -/
def loads (s : List ℕ) : Option JsonValue :=
  match value (s.length + 1) (skipSpace s) with
  | some (v, rest) => if skipSpace rest = [] then some v else none
  | none => none

/-! ### Texts that are read as themselves -/

/-- Nothing in a text has to be escaped. -/
def Plain (s : List ℕ) : Prop := ∀ c ∈ s, 32 ≤ c ∧ c ≠ 34 ∧ c ≠ 92

instance (s : List ℕ) : Decidable (Plain s) := inferInstanceAs (Decidable (∀ c ∈ s, _))

variable {s S rest V : List ℕ} {m : Mode} {scanned : List Scanned}

/-- Without escaped surrogates nothing is joined. -/
theorem join_of_no_pair (noPair : ∀ u ∈ scanned, u.1 = true → isHighSurrogate u.2 = false) :
    join scanned = scanned.map Prod.snd := by
  induction scanned using join.induct with
  | case1 high low rest isPair ih =>
      simp [noPair _ List.mem_cons_self rfl] at isPair
  | case2 high low rest noPair' ih =>
      simpa [join, noPair'] using ih fun u mem => noPair u (List.mem_cons_of_mem _ mem)
  | case3 first c rest noPair' ih =>
      simpa [join, noPair'] using ih fun u mem => noPair u (List.mem_cons_of_mem _ mem)
  | case4 => rfl

theorem length_join_le (scanned : List Scanned) : (join scanned).length ≤ scanned.length := by
  fun_induction join scanned with
  | case1 high low rest isPair ih => simpa using Nat.le_trans ih (Nat.le_succ _)
  | case2 high low rest noPair ih => simpa using ih
  | case3 first c rest noPair ih => simpa using ih
  | case4 => exact Nat.le_refl 0

/-- An escaped quote stays, and does not move back. -/
theorem mem_join_of_quote {i : ℕ} (quote : scanned[i]? = some (true, 34)) :
    ∃ j ≤ i, (join scanned)[j]? = some 34 := by
  induction scanned using join.induct generalizing i with
  | case1 high low rest isPair ih =>
      obtain ⟨isHigh, isLow⟩ := Bool.and_eq_true_iff.mp isPair
      match i with
      | 0 =>
          obtain rfl : high = 34 := by simpa using quote
          cases isHigh
      | 1 =>
          obtain rfl : low = 34 := by simpa using quote
          cases isLow
      | i + 2 =>
          obtain ⟨j, le, there⟩ := ih (by simpa using quote)
          exact ⟨j + 1, by omega, by simpa [join, isPair] using there⟩
  | case2 high low rest noPair ih =>
      match i with
      | 0 => exact ⟨0, Nat.le_refl 0, by simpa [join, noPair] using quote⟩
      | i + 1 =>
          obtain ⟨j, le, there⟩ := ih (by simpa using quote)
          exact ⟨j + 1, by omega, by simpa [join, noPair] using there⟩
  | case3 first c rest noPair ih =>
      match i with
      | 0 =>
          obtain ⟨rfl, rfl⟩ : first = true ∧ c = 34 := by simpa using quote
          exact ⟨0, Nat.le_refl 0, by simp [join]⟩
      | i + 1 =>
          obtain ⟨j, le, there⟩ := ih (by simpa using quote)
          exact ⟨j + 1, by omega, by simpa [join, noPair] using there⟩
  | case4 => simp at quote

theorem scan_plain (plain : Plain s) (rest : List ℕ) :
    scan .plain (s ++ 34 :: rest) = some (s.map (false, ·), rest) := by
  induction s with
  | nil => rfl
  | cons c s ih =>
      obtain ⟨printable, noQuote, noBackslash⟩ := plain c List.mem_cons_self
      rw [List.cons_append, scan, if_neg noQuote, if_neg noBackslash,
        if_neg (Nat.not_lt.mpr printable), ih fun c' mem => plain c' (List.mem_cons_of_mem _ mem)]
      rfl

theorem scanString_plain (plain : Plain s) (rest : List ℕ) :
    scanString (s ++ 34 :: rest) = some (s, rest) := by
  rw [scanString, scan_plain plain]
  have joined : join (s.map (false, ·)) = s := by
    rw [join_of_no_pair (by simp), List.map_map]
    exact List.map_id s
  exact congrArg (fun t => some (t, rest)) joined

/-- How many escaped characters are pending. -/
def Mode.pending : Mode → ℕ
  | .escape => 1
  | .plain | .unicode _ _ => 0

theorem push_eq_some {r : Option (List Scanned × List ℕ)} {u : Scanned}
    (read : r.map (push u) = some (scanned, rest)) :
    ∃ tail, r = some (tail, rest) ∧ scanned = u :: tail := by
  obtain ⟨⟨tail, rest'⟩, eq, pushed⟩ := Option.map_eq_some_iff.mp read
  obtain ⟨rfl, rfl⟩ := Prod.mk.inj pushed
  exact ⟨tail, eq, rfl⟩

/-- Up to the first quote, either the text ends there, with no more characters than it has
and with as many only if nothing is escaped, or that quote is an escaped character of it. -/
theorem scan_before_quote (noQuote : 34 ∉ s)
    (read : scan m (s ++ 34 :: S) = some (scanned, rest)) :
    (scanned.length ≤ s.length ∧ (m = .plain → scanned.length = s.length → Plain s)) ∨
      ∃ i < s.length + m.pending, scanned[i]? = some (true, 34) := by
  induction s generalizing m scanned with
  | nil =>
      cases m with
      | plain =>
          obtain ⟨rfl, rfl⟩ : [] = scanned ∧ S = rest := by simpa [scan] using read
          exact Or.inl ⟨Nat.le_refl 0, fun _ _ => nofun⟩
      | escape =>
          obtain ⟨tail, -, rfl⟩ := push_eq_some read
          exact Or.inr ⟨0, Nat.one_pos, rfl⟩
      | unicode later value => cases read
  | cons c s ih =>
      obtain ⟨first, noQuote⟩ : 34 ≠ c ∧ 34 ∉ s := by simpa using noQuote
      -- A character that is finished here, before the rest of the text.
      have finished : ∀ {u tail}, scan .plain (s ++ 34 :: S) = some (tail, rest) →
          ((u :: tail).length ≤ (c :: s).length ∧
            ((u :: tail).length = (c :: s).length → Plain s)) ∨
          ∃ i < (c :: s).length, (u :: tail)[i]? = some (true, 34) := by
        intro u tail after
        rcases ih noQuote after with ⟨fewer, plain⟩ | ⟨i, early, quote⟩
        · exact Or.inl ⟨Nat.succ_le_succ fewer, fun same => plain rfl (Nat.succ.inj same)⟩
        · exact Or.inr ⟨i + 1, Nat.succ_lt_succ early, quote⟩
      -- A character that is not finished yet.
      have unfinished : ∀ {m' : Mode}, scan m' (s ++ 34 :: S) = some (scanned, rest) →
          (scanned.length < (c :: s).length) ∨
          ∃ i < (c :: s).length, scanned[i]? = some (true, 34) := by
        intro m' after
        rcases ih noQuote after with ⟨fewer, -⟩ | ⟨i, early, quote⟩
        · exact Or.inl (Nat.lt_succ_of_le fewer)
        · have pending : m'.pending ≤ 1 := by cases m' <;> simp [Mode.pending]
          exact Or.inr ⟨i, by rw [List.length_cons]; omega, quote⟩
      have within : ∀ {i : ℕ}, i < (c :: s).length → i < (c :: s).length + m.pending :=
        fun early => Nat.lt_add_right _ early
      cases m with
      | plain =>
          rw [List.cons_append, scan, if_neg first.symm] at read
          split at read
          · rcases unfinished read with fewer | ⟨i, early, quote⟩
            · exact Or.inl ⟨Nat.le_of_lt fewer, fun _ same => absurd same (Nat.ne_of_lt fewer)⟩
            · exact Or.inr ⟨i, within early, quote⟩
          · rename_i noBackslash
            split at read
            · cases read
            · rename_i printable
              obtain ⟨tail, after, rfl⟩ := push_eq_some read
              rcases finished after with ⟨fewer, plain⟩ | ⟨i, early, quote⟩
              · refine Or.inl ⟨fewer, fun _ same => List.forall_mem_cons.mpr ⟨?_, plain same⟩⟩
                exact ⟨Nat.not_lt.mp printable, first.symm, noBackslash⟩
              · exact Or.inr ⟨i, within early, quote⟩
      | escape =>
          rw [List.cons_append, scan] at read
          split at read
          · rcases unfinished read with fewer | ⟨i, early, quote⟩
            · exact Or.inl ⟨Nat.le_of_lt fewer, nofun⟩
            · exact Or.inr ⟨i, within early, quote⟩
          · split at read
            · obtain ⟨tail, after, rfl⟩ := push_eq_some read
              rcases finished after with ⟨fewer, -⟩ | ⟨i, early, quote⟩
              · exact Or.inl ⟨fewer, nofun⟩
              · exact Or.inr ⟨i, within early, quote⟩
            · cases read
      | unicode later value =>
          simp only [List.cons_append, scan] at read
          cases digit : hexValue? c with
          | none => simp [digit] at read
          | some d =>
              cases later with
              | zero =>
                  simp only [digit] at read
                  obtain ⟨tail, after, rfl⟩ := push_eq_some read
                  rcases finished after with ⟨fewer, -⟩ | ⟨i, early, quote⟩
                  · exact Or.inl ⟨fewer, nofun⟩
                  · exact Or.inr ⟨i, within early, quote⟩
              | succ n =>
                  simp only [digit] at read
                  rcases unfinished read with fewer | ⟨i, early, quote⟩
                  · exact Or.inl ⟨Nat.le_of_lt fewer, nofun⟩
                  · exact Or.inr ⟨i, within early, quote⟩

/-- A text that is read as itself, up to any quote, is plain. -/
theorem scanString_self (read : scanString (s ++ 34 :: S) = some (s, rest)) : Plain s := by
  obtain ⟨⟨scanned, rest'⟩, before, same⟩ := Option.map_eq_some_iff.mp read
  obtain ⟨joined, rfl⟩ := Prod.mk.inj same
  -- Its part before the first quote.
  obtain ⟨first, tail, split, noQuote, whole⟩ : ∃ first tail, s ++ 34 :: S = first ++ 34 :: tail ∧
      34 ∉ first ∧ (s = first ∨ ∃ more, s = first ++ 34 :: more) := by
    by_cases quote : 34 ∈ s
    · obtain ⟨first, more, rfl, noQuote⟩ := List.eq_append_cons_of_mem quote
      exact ⟨first, more ++ 34 :: S, by simp, noQuote, Or.inr ⟨more, rfl⟩⟩
    · exact ⟨s, S, rfl, quote, Or.inl rfl⟩
  rw [split] at before
  have short : s.length ≤ scanned.length := by
    rw [← joined]
    exact length_join_le scanned
  rcases scan_before_quote noQuote before with ⟨fewer, plain⟩ | ⟨i, early, quote⟩
  · rcases whole with rfl | ⟨more, rfl⟩
    · exact plain rfl (Nat.le_antisymm fewer short)
    · simp at short
      omega
  · obtain ⟨j, le, there⟩ := mem_join_of_quote quote
    have inFirst : j < first.length := by
      simp only [Mode.pending] at early
      omega
    have here : s[j]? = first[j]? := by
      rcases whole with rfl | ⟨more, rfl⟩
      · rfl
      · exact List.getElem?_append_left inFirst
    rw [joined, here] at there
    exact absurd (List.mem_of_getElem? there) noQuote

/-! ### Texts that are escaped -/

/-- A backslash before each quote and each backslash. -/
def escapeQuotes (s : List ℕ) : List ℕ :=
  s.flatMap fun c => if c = 34 ∨ c = 92 then [92, c] else [c]

theorem escapeQuotes_cons (c : ℕ) (s : List ℕ) :
    escapeQuotes (c :: s) = (if c = 34 ∨ c = 92 then [92, c] else [c]) ++ escapeQuotes s := rfl

theorem scan_escaped (printable : ∀ c ∈ s, 32 ≤ c) (S : List ℕ) :
    scan .plain (escapeQuotes s ++ 34 :: S) =
      some (s.map fun c => (decide (c = 34 ∨ c = 92), c), S) := by
  induction s with
  | nil => rfl
  | cons c s ih =>
      have rest := ih fun c' mem => printable c' (List.mem_cons_of_mem _ mem)
      rw [escapeQuotes_cons]
      by_cases special : c = 34 ∨ c = 92
      · have noU : c ≠ 117 := by omega
        have itself : simpleEscape? c = some c := if_pos (by omega)
        simp [special, scan, noU, itself, rest, push]
      · have above := printable c List.mem_cons_self
        obtain ⟨noQuote, noBackslash⟩ := not_or.mp special
        simp [scan, noQuote, noBackslash, Nat.not_lt.mpr above, rest, push]

/-- An escaped text is read as the text. -/
theorem scanString_escaped (printable : ∀ c ∈ s, 32 ≤ c) (S : List ℕ) :
    scanString (escapeQuotes s ++ 34 :: S) = some (s, S) := by
  rw [scanString, scan_escaped printable]
  have joined : join (s.map fun c => (decide (c = 34 ∨ c = 92), c)) = s := by
    rw [join_of_no_pair, List.map_map]
    · exact List.map_id s
    · intro u mem special
      obtain ⟨c, -, rfl⟩ := List.mem_map.mp mem
      obtain rfl | rfl : c = 34 ∨ c = 92 := of_decide_eq_true special
      · rfl
      · rfl
  exact congrArg (fun t => some (t, S)) joined

/-- An escaped text with a control character is not read. -/
theorem printable_of_scan_escaped
    (read : scan .plain (escapeQuotes s ++ S) = some (scanned, rest)) : ∀ c ∈ s, 32 ≤ c := by
  induction s generalizing scanned with
  | nil => exact nofun
  | cons c s ih =>
      rw [escapeQuotes_cons] at read
      by_cases special : c = 34 ∨ c = 92
      · have noU : c ≠ 117 := by omega
        have itself : simpleEscape? c = some c := if_pos (by omega)
        have first : scan .plain (92 :: c :: (escapeQuotes s ++ S)) =
            (scan .plain (escapeQuotes s ++ S)).map (push (true, c)) := by
          simp [scan, noU, itself]
        rw [if_pos special] at read
        change scan .plain (92 :: c :: (escapeQuotes s ++ S)) = _ at read
        rw [first] at read
        obtain ⟨tail, after, -⟩ := push_eq_some read
        exact List.forall_mem_cons.mpr ⟨by omega, ih after⟩
      · obtain ⟨noQuote, noBackslash⟩ := not_or.mp special
        rw [if_neg special] at read
        change scan .plain (c :: (escapeQuotes s ++ S)) = _ at read
        rw [scan, if_neg noQuote, if_neg noBackslash] at read
        split at read
        · cases read
        · rename_i above
          obtain ⟨tail, after, -⟩ := push_eq_some read
          exact List.forall_mem_cons.mpr ⟨Nat.not_lt.mp above, ih after⟩

/-- What an escaped text is read as, if it is read. -/
theorem scanString_escaped_eq (read : scanString (escapeQuotes s ++ 34 :: S) = some (V, rest)) :
    (∀ c ∈ s, 32 ≤ c) ∧ V = s := by
  obtain ⟨⟨scanned, rest'⟩, before, -⟩ := Option.map_eq_some_iff.mp read
  have printable := printable_of_scan_escaped before
  rw [scanString_escaped printable] at read
  cases read
  exact ⟨printable, rfl⟩

/-! ### Objects, piece by piece -/

/-- A field of a printed object: the text of its value, the value that is meant, and the
condition under which the one is read as the other. -/
structure Piece where
  key : List ℕ
  text : List ℕ
  meant : JsonValue
  condition : Prop
  plain_key : Plain key
  tight : ∀ S, skipSpace (text ++ S) = text ++ S
  reads : condition → ∀ n S, value (n + 1) (text ++ S) = some (meant, S)
  faithful : ∀ n S rest, value n (text ++ S) = some (meant, rest) → condition

namespace Piece

/-- A text between quotes. -/
theorem value_quoted (n : ℕ) (s S : List ℕ) :
    value (n + 1) ((34 :: s ++ [34]) ++ S) =
      (scanString (s ++ 34 :: S)).map fun (s, rest) => (.string s, rest) := by
  simp [value]

theorem tight_quoted (s S : List ℕ) :
    skipSpace ((34 :: s ++ [34]) ++ S) = (34 :: s ++ [34]) ++ S := by
  simp [skipSpace, isSpace]

theorem string_inj {r : Option (List ℕ × List ℕ)} {v rest : List ℕ}
    (read : (r.map fun (s, rest) => (JsonValue.string s, rest)) = some (.string v, rest)) :
    r = some (v, rest) := by
  cases r with
  | none => cases read
  | some r =>
      obtain ⟨v', rest'⟩ := r
      cases read
      rfl

/-- A text that is printed as it is. -/
def raw (key s : List ℕ) (plain_key : Plain key) : Piece where
  key := key
  text := 34 :: s ++ [34]
  meant := .string s
  condition := Plain s
  plain_key := plain_key
  tight := tight_quoted s
  reads plain n S := by
    rw [value_quoted, scanString_plain plain]
    rfl
  faithful n S rest read := by
    cases n with
    | zero => cases read
    | succ n =>
        rw [value_quoted] at read
        exact scanString_self (string_inj read)

/-- A text that is printed with its quotes and backslashes escaped, where `v` is meant. -/
def escaped (key s v : List ℕ) (plain_key : Plain key) : Piece where
  key := key
  text := 34 :: escapeQuotes s ++ [34]
  meant := .string v
  condition := (∀ c ∈ s, 32 ≤ c) ∧ s = v
  plain_key := plain_key
  tight := tight_quoted _
  reads := by
    rintro ⟨printable, rfl⟩ n S
    rw [value_quoted, scanString_escaped printable]
    rfl
  faithful n S rest read := by
    cases n with
    | zero => cases read
    | succ n =>
        rw [value_quoted] at read
        obtain ⟨printable, same⟩ := scanString_escaped_eq (string_inj read)
        exact ⟨printable, same.symm⟩

/-- `true` or `false`. -/
def flag (key : List ℕ) (b : Bool) (plain_key : Plain key) : Piece where
  key := key
  text := codePoints (if b then "true" else "false")
  meant := .bool b
  condition := True
  plain_key := plain_key
  tight S := by cases b <;> rfl
  reads _ n S := by cases b <;> rfl
  faithful _ _ _ _ := trivial

/-- The text of a field. -/
def print (p : Piece) : List ℕ := 34 :: p.key ++ 34 :: 58 :: p.text

end Piece

/-- The text of an object from its first field on. -/
def printFields (p : Piece) : List Piece → List ℕ
  | [] => p.print ++ [125]
  | q :: ps => p.print ++ 44 :: printFields q ps

def printObject (p : Piece) (ps : List Piece) : List ℕ := 123 :: printFields p ps

def Piece.field (p : Piece) : List ℕ × JsonValue := (p.key, p.meant)

variable {n : ℕ} {p : Piece} {ps : List Piece} {fields : List (List ℕ × JsonValue)}

/-- What the reader does after the value of a field: the object ends, or goes on. -/
def afterValue (n : ℕ) (key : List ℕ) (v : JsonValue) (rest : List ℕ) :
    Option (List (List ℕ × JsonValue) × List ℕ) :=
  match expect 125 (skipSpace rest) with
  | some rest => some ([(key, v)], rest)
  | none => (expect 44 (skipSpace rest)).bind fun rest =>
      (members n (skipSpace rest)).map fun r => ((key, v) :: r.1, r.2)

/-- The reader at a field: its key is read, then its value. -/
theorem members_print (n : ℕ) (p : Piece) (S : List ℕ) :
    members (n + 1) (p.print ++ S) =
      (value n (p.text ++ S)).bind fun r => afterValue n p.key r.1 r.2 := by
  have key : scanString (p.key ++ 34 :: 58 :: (p.text ++ S)) = some (p.key, 58 :: (p.text ++ S)) :=
    scanString_plain p.plain_key _
  have colon : expect 58 (skipSpace (58 :: (p.text ++ S))) = some (p.text ++ S) := rfl
  have split : p.print ++ S = 34 :: (p.key ++ 34 :: 58 :: (p.text ++ S)) := by
    simp [Piece.print]
  rw [split, members]
  change (scanString (p.key ++ 34 :: 58 :: (p.text ++ S))).bind _ = _
  rw [key, Option.bind_some]
  change (expect 58 (skipSpace (58 :: (p.text ++ S)))).bind _ = _
  rw [colon, Option.bind_some, p.tight]
  refine congrArg _ (funext ?_)
  rintro ⟨v, rest⟩
  unfold afterValue
  cases last : expect 125 (skipSpace rest) with
  | some rest' => simp only [last]
  | none =>
      simp only [last, Option.bind_eq_bind]
      cases expect 44 (skipSpace rest) with
      | none => rfl
      | some rest' =>
          rw [Option.bind_some, Option.bind_some]
          cases members n (skipSpace rest') with
          | none => rfl
          | some r => rfl

theorem head_of_afterValue {key out : List ℕ} {v : JsonValue}
    (read : afterValue n key v rest = some (fields, out)) : fields.head? = some (key, v) := by
  unfold afterValue at read
  split at read
  · cases read
    rfl
  · obtain ⟨rest', -, read⟩ := Option.bind_eq_some_iff.mp read
    obtain ⟨r, -, read⟩ := Option.map_eq_some_iff.mp read
    cases read
    rfl

theorem tight_printFields (p : Piece) (ps : List Piece) :
    skipSpace (printFields p ps) = printFields p ps ∧ expect 125 (printFields p ps) = none := by
  cases ps with
  | nil => exact ⟨rfl, rfl⟩
  | cons q ps => exact ⟨rfl, rfl⟩

/-- A field that is read as it is meant, and what the reader does then. -/
theorem condition_of_field {S : List ℕ} {fs : List (List ℕ × JsonValue)}
    (read : members n (p.print ++ S) = some (p.field :: fs, rest)) :
    p.condition ∧ ∃ k, n = k + 1 ∧ afterValue k p.key p.meant S = some (p.field :: fs, rest) := by
  cases n with
  | zero => cases read
  | succ k =>
      rw [members_print] at read
      obtain ⟨⟨v, rest'⟩, first, after⟩ := Option.bind_eq_some_iff.mp read
      obtain rfl : p.meant = v := by simpa [Piece.field] using head_of_afterValue after
      have condition := p.faithful k S rest' first
      cases k with
      | zero => cases first
      | succ k =>
          rw [p.reads condition] at first
          cases first
          exact ⟨condition, k + 1, rfl, after⟩

/-- Fields that are read as they are meant are each read so. -/
theorem condition_of_members (read : members n (printFields p ps) =
    some ((p :: ps).map Piece.field, rest)) : ∀ q ∈ p :: ps, q.condition := by
  induction ps generalizing n p rest with
  | nil =>
      obtain ⟨condition, -⟩ := condition_of_field read
      simpa using condition
  | cons q ps ih =>
      obtain ⟨condition, k, -, after⟩ := condition_of_field read
      change (members k (skipSpace (printFields q ps))).map _ = _ at after
      rw [(tight_printFields q ps).1] at after
      obtain ⟨⟨fs, rest'⟩, more, same⟩ := Option.map_eq_some_iff.mp after
      obtain rfl : fs = (q :: ps).map Piece.field := (List.cons.inj (Prod.mk.inj same).1).2
      exact List.forall_mem_cons.mpr ⟨condition, ih more⟩

/-- And fields that are each read as they are meant are read so together. -/
theorem members_of_condition (conditions : ∀ q ∈ p :: ps, q.condition)
    (enough : ps.length + 2 ≤ n) :
    members n (printFields p ps) = some ((p :: ps).map Piece.field, []) := by
  induction ps generalizing n p with
  | nil =>
      obtain ⟨n, rfl⟩ : ∃ k, n = k + 2 := ⟨n - 2, by simp at enough; omega⟩
      rw [printFields, members_print, p.reads (conditions p List.mem_cons_self)]
      rfl
  | cons q ps ih =>
      obtain ⟨n, rfl⟩ : ∃ k, n = k + 2 := ⟨n - 2, by omega⟩
      have rest := ih (p := q) (n := n + 1)
        (fun q' mem => conditions q' (List.mem_cons_of_mem _ mem))
        (by rw [List.length_cons] at enough; omega)
      rw [printFields, members_print, p.reads (conditions p List.mem_cons_self), Option.bind_some]
      change ((members (n + 1) (skipSpace (printFields q ps))).map _) = _
      rw [(tight_printFields q ps).1, rest]
      rfl

theorem length_lt_printObject (p : Piece) (ps : List Piece) :
    ps.length + 2 ≤ (printObject p ps).length := by
  have fields : ps.length + 1 ≤ (printFields p ps).length := by
    induction ps generalizing p with
    | nil => simp [printFields]
    | cons q ps ih =>
        have rest := ih q
        simp only [printFields, List.length_append, List.length_cons]
        omega
  simpa [printObject] using Nat.succ_le_succ fields

/-- An object that is printed piece by piece is read as it is meant exactly when each of its
pieces is. -/
theorem loads_object_iff (p : Piece) (ps : List Piece) :
    loads (printObject p ps) = some (.object ((p :: ps).map Piece.field)) ↔
      ∀ q ∈ p :: ps, q.condition := by
  have start : ∀ n, value (n + 1) (skipSpace (printObject p ps)) =
      (members n (printFields p ps)).map fun (fields, rest) => (.object fields, rest) := by
    intro n
    obtain ⟨tight, open'⟩ := tight_printFields p ps
    change value (n + 1) (123 :: printFields p ps) = _
    simp [value, tight, open']
  unfold loads
  rw [start]
  constructor
  · intro read
    cases result : members (printObject p ps).length (printFields p ps) with
    | none => simp [result] at read
    | some r =>
        obtain ⟨fields, rest⟩ := r
        simp only [result, Option.map_some] at read
        split at read
        · obtain rfl : fields = (p :: ps).map Piece.field := by simpa using read
          exact condition_of_members result
        · cases read
  · intro conditions
    rw [members_of_condition conditions (length_lt_printObject p ps)]
    rfl

end JsonText

end MeshcoreSim.Lib
