import MeshcoreSim.Lib.Json

/-!
The last field of a text that is read as an object, whatever stands before it.

A reader that stands before the last comma stays before it, or steps on the field behind it. From
within the field there is no way on but to the end of the text, and only as a field.

* `getLast?_of_loads` — a text that ends with a comma and such a field has it as its last one.
* `lastField_escaped` — a field with an escaped text is such a field.
-/

namespace MeshcoreSim.Lib.JsonText

/-- A position before the comma that a field follows. -/
def Before (t s : List ℕ) : Prop := 44 :: t <:+ s

/-- Neither a comma nor a closing bracket comes next. -/
def Stuck (s : List ℕ) : Prop := ∀ c ∈ [44, 93, 125], expect c (skipSpace s) = none

/-- A text that can only be read as the last field of an object. -/
structure LastField (t : List ℕ) (field : List ℕ × JsonValue) : Prop where
  quoted : ∃ u, t = 34 :: u ∧ Stuck u ∧ skipSpace u ≠ [] ∧ expect 58 (skipSpace u) = none
  notValue : ∀ n v rest, value n t = some (v, rest) → Stuck rest ∧ skipSpace rest ≠ []
  isField : ∀ n fields rest, members n t = some (fields, rest) →
    fields.getLast? = some field ∧ Stuck rest

variable {n c : ℕ} {t u s rest : List ℕ} {field : List ℕ × JsonValue} {v : JsonValue}

/-! ### Before the comma -/

theorem Before.tail (before : Before t (c :: s)) (other : c ≠ 44) : Before t s := by
  rcases List.suffix_cons_iff.mp before with here | later
  · exact absurd (List.cons.inj here).1.symm other
  · exact later

theorem Before.append {used : List ℕ} (before : Before t (used ++ rest)) (noComma : 44 ∉ used) :
    Before t rest := by
  induction used with
  | nil => exact before
  | cons c used ih =>
      obtain ⟨other, noComma⟩ : 44 ≠ c ∧ 44 ∉ used := by simpa using noComma
      exact ih (before.tail other.symm) noComma

theorem Before.dropWhile {p : ℕ → Bool} (before : Before t s) (noComma : p 44 = false) :
    Before t (s.dropWhile p) := by
  have whole : Before t (s.takeWhile p ++ s.dropWhile p) := by
    rwa [List.takeWhile_append_dropWhile]
  refine whole.append fun mem => ?_
  exact absurd (List.mem_takeWhile_imp mem) (by simp [noComma])

theorem Before.skipSpace (before : Before t s) : Before t (skipSpace s) :=
  before.dropWhile rfl

theorem Before.ne_nil (before : Before t s) : s ≠ [] := by
  rintro rfl
  exact absurd (List.suffix_nil.mp before) (List.cons_ne_nil _ _)

theorem eq_cons_of_expect (found : expect c s = some rest) : s = c :: rest := by
  cases s with
  | nil => cases found
  | cons d s =>
      rw [expect] at found
      split at found
      · rename_i same
        cases found
        rw [same]
      · cases found

theorem Before.expect (before : Before t s) (found : expect c s = some rest) (other : c ≠ 44) :
    Before t rest := by
  rw [eq_cons_of_expect found] at before
  exact before.tail other

/-- The comma may be the one before the field. -/
theorem Before.comma (before : Before t s) (found : JsonText.expect 44 s = some rest) :
    Before t rest ∨ rest = t := by
  rw [eq_cons_of_expect found] at before
  rcases List.suffix_cons_iff.mp before with here | later
  · exact Or.inr (List.cons.inj here).2.symm
  · exact Or.inl later

/-! ### Numbers and words -/

theorem Before.digits {ds : List ℕ} (before : Before t s) (read : digits? s = some (ds, rest)) :
    Before t rest := by
  unfold digits? at read
  split at read
  · cases read
  · cases read
    exact before.dropWhile rfl

theorem Before.optional (before : Before t s) (part : List ℕ → Option (List ℕ × List ℕ))
    (keeps : ∀ ds rest, part s = some (ds, rest) → Before t rest) :
    Before t (optional part s).2 := by
  unfold JsonText.optional
  cases read : part s with
  | none => exact before
  | some r => exact keeps r.1 r.2 read

theorem Before.natural {ds : List ℕ} (before : Before t s)
    (read : natural? s = some (ds, rest)) : Before t rest := by
  cases s with
  | nil => cases read
  | cons c s =>
      rw [natural?] at read
      split at read
      · rename_i zero
        cases read
        exact before.tail (by rw [zero]; decide)
      · exact before.digits read

theorem Before.fraction {ds : List ℕ} (before : Before t s)
    (read : fraction? s = some (ds, rest)) : Before t rest := by
  obtain ⟨behind, point, read⟩ := Option.bind_eq_some_iff.mp read
  obtain ⟨⟨ds', rest'⟩, digits, same⟩ := Option.bind_eq_some_iff.mp read
  cases same
  exact (before.expect point (by decide)).digits digits

theorem Before.sign (before : Before t s) : Before t (sign s).2 := by
  cases s with
  | nil => exact before
  | cons c s =>
      unfold JsonText.sign
      dsimp only
      split
      · rename_i isSign
        exact before.tail (by omega)
      · exact before

theorem Before.exponent {ds : List ℕ} (before : Before t s)
    (read : exponent? s = some (ds, rest)) : Before t rest := by
  cases s with
  | nil => cases read
  | cons e s =>
      rw [exponent?] at read
      split at read
      · rename_i isE
        obtain ⟨r, digits, same⟩ := Option.map_eq_some_iff.mp read
        cases same
        exact (before.tail (by omega)).sign.digits digits
      · cases read

theorem Before.number (before : Before t s) (read : number? s = some (v, rest)) :
    Before t rest := by
  unfold number? at read
  obtain ⟨⟨whole, behind⟩, natural, read⟩ := Option.bind_eq_some_iff.mp read
  cases read
  have minus := before.optional
    (fun s => (JsonText.expect 45 s).map fun rest => ([45], rest)) (by
      intro ds rest read
      obtain ⟨behind, found, same⟩ := Option.map_eq_some_iff.mp read
      cases same
      exact before.expect found (by decide))
  have whole := minus.natural natural
  have frac := whole.optional fraction? fun ds rest => whole.fraction
  exact frac.optional exponent? fun ds rest => frac.exponent

theorem Before.word (before : Before t s) (read : word? s = some (v, rest)) : Before t rest := by
  have noComma : ∀ word ∈ words, 44 ∉ codePoints word.1 := by decide
  obtain ⟨⟨w, v'⟩, mem, read⟩ := List.exists_of_findSome?_eq_some read
  dsimp only at read
  split at read
  · rename_i isPrefix
    cases read
    obtain ⟨behind, rfl⟩ := isPrefix
    rw [List.drop_left]
    exact before.append (noComma _ mem)
  · cases read

/-! ### Strings -/

/-- A string that begins before the comma ends before it, or at the quote behind it. -/
theorem Before.scan {m : Mode} {scanned : List Scanned} (before : Before (34 :: u) s)
    (read : scan m s = some (scanned, rest)) : Before (34 :: u) rest ∨ rest = u := by
  induction s generalizing m scanned with
  | nil => exact absurd rfl before.ne_nil
  | cons c s ih =>
      rcases List.suffix_cons_iff.mp before with here | later
      · -- The comma ends no escape, so that the quote is not escaped.
        obtain ⟨rfl, rfl⟩ := List.cons.inj here
        cases m with
        | plain =>
            have closed : JsonText.scan .plain (44 :: 34 :: u) = some ([(false, 44)], u) := rfl
            cases closed.symm.trans read
            exact Or.inr rfl
        | escape => cases read
        | unicode more value => cases read
      · cases m with
        | plain =>
            rw [JsonText.scan] at read
            split_ifs at read
            · cases read
              exact Or.inl later
            · exact ih later read
            · obtain ⟨tail, read, -⟩ := push_eq_some read
              exact ih later read
        | escape =>
            rw [JsonText.scan] at read
            split at read
            · exact ih later read
            · split at read
              · obtain ⟨tail, read, -⟩ := push_eq_some read
                exact ih later read
              · cases read
        | unicode more value =>
            cases digit : hexValue? c with
            | none => simp [JsonText.scan, digit] at read
            | some d =>
                cases more with
                | zero =>
                    simp only [JsonText.scan, digit] at read
                    obtain ⟨tail, read, -⟩ := push_eq_some read
                    exact ih later read
                | succ more =>
                    simp only [JsonText.scan, digit] at read
                    exact ih later read

theorem Before.scanString {text : List ℕ} (before : Before (34 :: u) s)
    (read : scanString s = some (text, rest)) : Before (34 :: u) rest ∨ rest = u := by
  obtain ⟨⟨scanned, rest'⟩, read, same⟩ := Option.map_eq_some_iff.mp read
  cases same
  exact before.scan read

/-! ### Values -/

theorem Stuck.expect (stuck : Stuck s) (end' : c ∈ [44, 93, 125]) :
    JsonText.expect c (skipSpace s) = none := stuck c end'

/-- What the readers come to. An array cannot go on beyond the comma, a value and the fields of an
object only to the end. -/
structure Ends (t : List ℕ) (field : List ℕ × JsonValue) (n : ℕ) : Prop where
  value : ∀ {s v rest}, Before t s → value n s = some (v, rest) →
    Before t rest ∨ (Stuck rest ∧
      (skipSpace rest = [] → ∃ fields, v = .object fields ∧ fields.getLast? = some field))
  members : ∀ {s fields rest}, Before t s ∨ s = t → members n s = some (fields, rest) →
    Before t rest ∨ (Stuck rest ∧ fields.getLast? = some field)
  elements : ∀ {s items rest}, Before t s ∨ s = t → elements n s = some (items, rest) →
    Before t rest

theorem tight_of_lastField (last : LastField t field) : skipSpace t = t := by
  obtain ⟨u, rfl, -⟩ := last.quoted
  rfl

/-- Behind a comma, white space is skipped as well. -/
theorem LastField.comma (last : LastField t field) (before : Before t s)
    (found : expect 44 s = some rest) : Before t (skipSpace rest) ∨ skipSpace rest = t := by
  rcases before.comma found with before | rfl
  · exact Or.inl before.skipSpace
  · exact Or.inr (tight_of_lastField last)

theorem ends_zero (t : List ℕ) (field : List ℕ × JsonValue) : Ends t field 0 where
  value _ read := by cases read
  members _ read := by cases read
  elements _ read := by cases read

/-- The items of an array. -/
theorem LastField.elements_succ (last : LastField t field) (ends : Ends t field n)
    {items : List JsonValue} (here : Before t s ∨ s = t)
    (read : elements (n + 1) s = some (items, rest)) : Before t rest := by
  rw [elements] at read
  obtain ⟨⟨v, behind⟩, first, read⟩ := Option.bind_eq_some_iff.mp read
  have next : Before t behind ∨ Stuck behind := by
    rcases here with before | rfl
    · exact (ends.value before first).imp_right And.left
    · exact Or.inr (last.notValue n v behind first).1
  rcases next with before | stuck
  · cases closed : expect 93 (skipSpace behind) with
    | some rest' =>
        simp only [closed] at read
        cases read
        exact before.skipSpace.expect closed (by decide)
    | none =>
        simp only [closed] at read
        obtain ⟨later, comma, read⟩ := Option.bind_eq_some_iff.mp read
        obtain ⟨⟨more, rest'⟩, moreRead, same⟩ := Option.bind_eq_some_iff.mp read
        cases same
        exact ends.elements (last.comma before.skipSpace comma) moreRead
  · simp [stuck.expect] at read

/-- The fields of an object. -/
theorem LastField.members_succ (last : LastField t field) (ends : Ends t field n)
    {fields : List (List ℕ × JsonValue)} (before : Before t s)
    (read : members (n + 1) s = some (fields, rest)) :
    Before t rest ∨ (Stuck rest ∧ fields.getLast? = some field) := by
  obtain ⟨u, rfl, -, -, noColon⟩ := last.quoted
  rw [members] at read
  obtain ⟨afterQuote, quote, read⟩ := Option.bind_eq_some_iff.mp read
  obtain ⟨⟨key, afterKey⟩, keyRead, read⟩ := Option.bind_eq_some_iff.mp read
  obtain ⟨afterColon, colon, read⟩ := Option.bind_eq_some_iff.mp read
  obtain ⟨⟨v, behind⟩, valueRead, read⟩ := Option.bind_eq_some_iff.mp read
  -- A key that reaches beyond the comma has no colon behind it.
  have before : Before (34 :: u) afterKey := by
    rcases (before.expect quote (by decide)).scanString keyRead with before | rfl
    · exact before
    · exact absurd (noColon.symm.trans colon) (by simp)
  have before := (before.skipSpace.expect colon (by decide)).skipSpace
  rcases ends.value before valueRead with before | ⟨stuck, -⟩
  · cases closed : expect 125 (skipSpace behind) with
    | some rest' =>
        simp only [closed] at read
        cases read
        exact Or.inl (before.skipSpace.expect closed (by decide))
    | none =>
        simp only [closed] at read
        obtain ⟨later, comma, read⟩ := Option.bind_eq_some_iff.mp read
        obtain ⟨⟨more, rest'⟩, moreRead, same⟩ := Option.bind_eq_some_iff.mp read
        cases same
        apply (ends.members (last.comma before.skipSpace comma) moreRead).imp_right
        rintro ⟨stuck, isLast⟩
        exact ⟨stuck, by simp [List.getLast?_cons, isLast]⟩
  · simp [stuck.expect] at read

/-- A value. -/
theorem LastField.value_succ (last : LastField t field) (ends : Ends t field n)
    (before : Before t s) (read : value (n + 1) s = some (v, rest)) :
    Before t rest ∨ (Stuck rest ∧
      (skipSpace rest = [] → ∃ fields, v = .object fields ∧ fields.getLast? = some field)) := by
  cases s with
  | nil => cases read
  | cons c s =>
      rw [value] at read
      split_ifs at read with quote brace bracket
      · obtain ⟨⟨text, rest'⟩, textRead, same⟩ := Option.map_eq_some_iff.mp read
        cases same
        obtain ⟨u, rfl, stuck, nonempty, -⟩ := last.quoted
        apply ((before.tail (by omega)).scanString textRead).imp_right
        rintro rfl
        exact ⟨stuck, fun empty => absurd empty nonempty⟩
      · have before := (before.tail (by omega)).skipSpace
        cases closed : expect 125 (skipSpace s) with
        | some rest' =>
            simp only [closed] at read
            cases read
            exact Or.inl (before.expect closed (by decide))
        | none =>
            simp only [closed] at read
            obtain ⟨⟨fields, rest'⟩, fieldsRead, same⟩ := Option.map_eq_some_iff.mp read
            cases same
            apply (ends.members (Or.inl before) fieldsRead).imp_right
            rintro ⟨stuck, isLast⟩
            exact ⟨stuck, fun _ => ⟨fields, rfl, isLast⟩⟩
      · have before := (before.tail (by omega)).skipSpace
        cases closed : expect 93 (skipSpace s) with
        | some rest' =>
            simp only [closed] at read
            cases read
            exact Or.inl (before.expect closed (by decide))
        | none =>
            simp only [closed] at read
            obtain ⟨⟨items, rest'⟩, itemsRead, same⟩ := Option.map_eq_some_iff.mp read
            cases same
            exact Or.inl (ends.elements (Or.inl before) itemsRead)
      · rcases Option.or_eq_some_iff.mp read with word | ⟨-, number⟩
        · exact Or.inl (before.word word)
        · exact Or.inl (before.number number)

theorem LastField.ends (last : LastField t field) (n : ℕ) : Ends t field n := by
  induction n with
  | zero => exact ends_zero t field
  | succ n ih =>
      refine ⟨last.value_succ ih, ?_, last.elements_succ ih⟩
      intro s fields rest here read
      rcases here with before | rfl
      · exact last.members_succ ih before read
      · exact Or.inr (last.isField (n + 1) fields rest read).symm

/-- A text that ends with such a field is read as an object with this field at its end, if it is
read at all. -/
theorem getLast?_of_loads (last : LastField t field) (before : Before t s)
    (read : loads s = some v) :
    ∃ fields, v = .object fields ∧ fields.getLast? = some field := by
  unfold loads at read
  split at read
  · rename_i v' rest first
    split at read
    · rename_i ended
      cases read
      rcases (last.ends (s.length + 1)).value before.skipSpace first with before | ⟨-, isLast⟩
      · exact absurd ended before.skipSpace.ne_nil
      · exact isLast ended
    · cases read
  · cases read

/-! ### Escaped texts -/

theorem stuck_of_head (space : isSpace c = false) (other : c ∉ [44, 93, 125]) :
    Stuck (c :: s) := by
  intro d mem
  have different : c ≠ d := fun same => other (same ▸ mem)
  simp [skipSpace, space, expect, different]

theorem printFields_escaped {key text v : List ℕ} (plain_key : Plain key) :
    printFields (.escaped key text v plain_key) [] =
      34 :: (key ++ 34 :: 58 :: 34 :: (escapeQuotes text ++ [34, 125])) := by
  simp [printFields, Piece.print, Piece.escaped]

/-- A field with an escaped text can only be read as the last one, with the text. -/
theorem lastField_escaped {key : List ℕ} (plain_key : Plain key)
    (letter : ∃ k ks, key = k :: ks ∧ 97 ≤ k ∧ k ≤ 122) (text v : List ℕ) :
    LastField (printFields (.escaped key text v plain_key) []) (key, .string text) where
  quoted := by
    obtain ⟨k, ks, rfl, low, high⟩ := letter
    have space : isSpace k = false := by simp [isSpace]; omega
    have colon : k ≠ 58 := by omega
    refine ⟨k :: (ks ++ _), printFields_escaped plain_key, stuck_of_head space ?_, ?_, ?_⟩
    · simp
      omega
    · simp [skipSpace, space]
    · simp [skipSpace, space, expect, colon]
  notValue n w rest read := by
    cases n with
    | zero => cases read
    | succ n =>
        rw [printFields_escaped, value, if_pos rfl, scanString_plain plain_key] at read
        cases read
        exact ⟨stuck_of_head rfl (by decide), List.cons_ne_nil _ _⟩
  isField n fields rest read := by
    cases n with
    | zero => cases read
    | succ n =>
        rw [printFields, members_print] at read
        obtain ⟨⟨w, behind⟩, valueRead, after⟩ := Option.bind_eq_some_iff.mp read
        cases n with
        | zero => cases valueRead
        | succ n =>
            obtain ⟨⟨text', behind'⟩, scanned, same⟩ := Option.map_eq_some_iff.mp
              ((Piece.value_quoted n (escapeQuotes text) [125]).symm.trans valueRead)
            cases same
            obtain ⟨printable, rfl⟩ := scanString_escaped_eq scanned
            cases (scanString_escaped printable [125]).symm.trans scanned
            cases after
            exact ⟨rfl, fun c _ => rfl⟩

/-- The last piece of an object stands behind a comma. -/
theorem before_printObject (p q : Piece) (ps : List Piece) :
    Before (printFields q []) (printObject p (ps ++ [q])) := by
  refine (?_ : _ <:+ printFields p (ps ++ [q])).trans (List.suffix_cons _ _)
  induction ps generalizing p with
  | nil => exact List.suffix_append p.print _
  | cons p' ps ih =>
      have rest := (ih p').trans (List.suffix_cons 44 _)
      exact rest.trans (List.suffix_append p.print _)

/-- The last field of an object is the one that counts. -/
theorem get?_of_getLast? {key : List ℕ} {fields : List (List ℕ × JsonValue)}
    (last : fields.getLast? = some (key, v)) :
    (JsonValue.object fields).get? key = some v := by
  obtain ⟨front, rfl⟩ := List.getLast?_eq_some_iff.mp last
  simp [JsonValue.get?]

end MeshcoreSim.Lib.JsonText
