import MeshcoreSim.SimNode

/-!
Whom a text goes to.

The destination of `sendTextTo` is decoded by `hex_to_bytes`, which reads every other character
as the digit 0, and the contact is looked up by the bytes.

* `hexPairs_isPrefix_iff` — the bytes are a prefix of a key exactly when the destination, with 0
  for every other character, is a prefix of the key in hexadecimal, in either case.
* `addressedOnly_iff` — when a text only goes to the contact that the destination addresses.
-/

namespace MeshcoreSim

def IsHexDigit (c : UInt8) : Prop := 48 ≤ c ∧ c ≤ 57 ∨ 97 ≤ c ∧ c ≤ 102 ∨ 65 ≤ c ∧ c ≤ 70

instance (c : UInt8) : Decidable (IsHexDigit c) := inferInstanceAs (Decidable (_ ∨ _))

/-- A character without its case. -/
def toLower (c : UInt8) : UInt8 := if 65 ≤ c ∧ c ≤ 90 then c + 32 else c

/-- A destination with `'0'` in the place of every character that is no hex digit. -/
def zeroed (destPubHex : Bytes) : Bytes := destPubHex.map fun c => if IsHexDigit c then c else 48

/-- The destination is a prefix of the contact's key in hexadecimal, whatever the case. -/
def Addresses (destPubHex : Bytes) (contact : Contact) : Prop :=
  destPubHex.map toLower <+: (writeHex hexUc contact.pubKey).map toLower

instance (destPubHex : Bytes) (contact : Contact) : Decidable (Addresses destPubHex contact) :=
  inferInstanceAs (Decidable (_ <+: _))

/-- A destination that some key may have as a prefix. -/
def IsAddress (destPubHex : Bytes) : Prop :=
  destPubHex.length % 2 = 0 ∧ destPubHex.length ≤ 64 ∧ ∀ c ∈ destPubHex, IsHexDigit c

/-! ### Digits and bytes -/

/-- The digit that a character is read as is the only one that it is written as. -/
theorem nib_eq_iff : ∀ c : UInt8, ∀ n < 16, nib c = UInt8.ofNat n ↔
    toLower (if IsHexDigit c then c else 48) = toLower (hexUc.getD n 0) :=
  forall_byte (by decide +kernel)

theorem nib_lt : ∀ c : UInt8, (nib c).toNat < 16 := forall_byte (by decide +kernel)

theorem halves_of_nibbles : ∀ a < 16, ∀ b < 16,
    (UInt8.ofNat a <<< 4 ||| UInt8.ofNat b) >>> 4 = UInt8.ofNat a ∧
      (UInt8.ofNat a <<< 4 ||| UInt8.ofNat b) &&& 0x0F = UInt8.ofNat b := by
  decide +kernel

/-- Two digits make a byte exactly when they are its halves. -/
theorem nibbles_eq_iff (high low k : UInt8) :
    nib high <<< 4 ||| nib low = k ↔ nib high = k >>> 4 ∧ nib low = k &&& 0x0F := by
  constructor
  · rintro rfl
    obtain ⟨left, right⟩ := halves_of_nibbles _ (nib_lt high) _ (nib_lt low)
    simp only [UInt8.ofNat_toNat] at left right
    exact ⟨left.symm, right.symm⟩
  · rintro ⟨left, right⟩
    rw [left, right]
    exact (halves k).1

/-- Two digits make a byte exactly when the byte is written with them, in either case. -/
theorem pair_eq_iff (high low k : UInt8) :
    nib high <<< 4 ||| nib low = k ↔
      toLower (if IsHexDigit high then high else 48) = toLower (hexUc.getD (k >>> 4).toNat 0) ∧
      toLower (if IsHexDigit low then low else 48) = toLower (hexUc.getD (k &&& 0x0F).toNat 0) := by
  obtain ⟨-, left, right⟩ := halves k
  rw [nibbles_eq_iff, ← nib_eq_iff high _ left, ← nib_eq_iff low _ right, UInt8.ofNat_toNat,
    UInt8.ofNat_toNat]

/-- What is decoded is a prefix of a key exactly when the digits are, in either case. -/
theorem hexPairs_isPrefix_iff {hex : Bytes} (even : hex.length % 2 = 0) (key : Bytes) :
    hexPairs hex <+: key ↔ (zeroed hex).map toLower <+: (writeHex hexUc key).map toLower := by
  induction hex using hexPairs.induct generalizing key with
  | case1 high low rest ih =>
      have evenRest : rest.length % 2 = 0 := by
        simp only [List.length_cons] at even
        omega
      cases key with
      | nil => simp [hexPairs, zeroed]
      | cons k key =>
          rw [hexPairs, List.cons_prefix_cons, pair_eq_iff, ih evenRest key, writeHex_cons]
          unfold zeroed
          simp only [List.map_cons, List.cons_prefix_cons, and_assoc]
  | case2 hex short =>
      rcases hex with _ | ⟨high, _ | ⟨low, rest⟩⟩
      · simp [hexPairs, zeroed]
      · simp at even
      · exact absurd rfl (short high low rest)

theorem zeroed_of_digits {destPubHex : Bytes} (digits : ∀ c ∈ destPubHex, IsHexDigit c) :
    zeroed destPubHex = destPubHex := by
  unfold zeroed
  rw [List.map_congr_left fun c mem => if_pos (digits c mem), List.map_id']

/-- The bytes of a destination start the key of a contact exactly when the destination, read with
zeros, addresses it. -/
theorem hexToBytes_isPrefix_iff {destPubHex : Bytes} (even : destPubHex.length % 2 = 0)
    (contact : Contact) :
    hexToBytes destPubHex <+: contact.pubKey ↔ Addresses (zeroed destPubHex) contact := by
  have decoded : hexToBytes destPubHex = hexPairs destPubHex := if_neg (by omega)
  rw [decoded, hexPairs_isPrefix_iff even]
  rfl

/-! ### Sending -/

/-- The lookup returns the first contact whose key starts with the given bytes. -/
def ChatMesh.FindsFirst (mesh : ChatMesh) (contacts : List Contact) : Prop :=
  ∀ pub, mesh.lookupContactByPubKey pub = contacts.find? fun contact => pub <+: contact.pubKey

namespace SimNode

/-- `sendTextTo` with its buffer of `PUB_KEY_SIZE` bytes: `none` where `hex_to_bytes` writes past
the end, which C++ leaves undefined. -/
def sendTextTo? (node : SimNode) (mesh : ChatMesh) (destPubHex text : Bytes) :
    Option (SimNode × List Effect × Bool) :=
  if (hexToBytes destPubHex).length > 32 then none
  else some (node.sendTextTo mesh destPubHex text)

/-- A text for `destPubHex` only goes to a contact that the destination addresses, and a
destination that is none is rejected: nothing is sent and nothing is pending for it. -/
def AddressedOnly (contacts : List Contact) (destPubHex : Bytes) : Prop :=
  ∀ (node : SimNode) (mesh : ChatMesh) (text : Bytes), mesh.FindsFirst contacts →
    ∃ node' effects returned,
      node.sendTextTo? mesh destPubHex text = some (node', effects, returned) ∧
      (∀ target attempt sent expectedAck, .send target attempt sent expectedAck ∈ effects →
        target ∈ contacts ∧ Addresses destPubHex target) ∧
      (¬ IsAddress destPubHex → node' = node ∧ returned = false ∧
        ∀ target attempt sent expectedAck, .send target attempt sent expectedAck ∉ effects)

variable {contacts : List Contact} {mesh : ChatMesh} {destPubHex text : Bytes}

/-- What is sent goes to a contact whose key starts with the bytes of the destination. -/
theorem sendTextTo_cases (finds : mesh.FindsFirst contacts) (node : SimNode)
    (destPubHex text : Bytes) :
    (∃ target expectedAck, target ∈ contacts ∧ hexToBytes destPubHex ≠ [] ∧
      hexToBytes destPubHex <+: target.pubKey ∧
      node.sendTextTo mesh destPubHex text =
        ({ node with pendingMsg := some ⟨expectedAck, destPubHex, text, 0⟩ },
          [.send target 0 text expectedAck], true)) ∨
    ∃ line, node.sendTextTo mesh destPubHex text = (node, [.emit (.log line)], false) := by
  rcases sendTextTo_eq node mesh destPubHex text with
    ⟨expectedAck, target, known, sent, eq⟩ | ⟨-, line, -, eq⟩
  · rw [finds] at known
    have valid : hexToBytes destPubHex ≠ [] := by
      intro invalid
      simp [ChatMesh.attempt, invalid] at sent
    exact .inl ⟨target, expectedAck, List.mem_of_find?_eq_some known, valid,
      by simpa using List.find?_some known, eq⟩
  · exact .inr ⟨line, eq⟩

/-- A destination of digits, or one that addresses nobody when it is read with zeros, is safe. -/
theorem addressedOnly_of_safe (short : destPubHex.length ≤ 64)
    (safe : (∀ c ∈ destPubHex, IsHexDigit c) ∨
      ∀ contact ∈ contacts, ¬ Addresses (zeroed destPubHex) contact)
    (even : destPubHex.length % 2 = 0) : AddressedOnly contacts destPubHex := by
  intro node mesh text finds
  have decoded : hexToBytes destPubHex = hexPairs destPubHex := if_neg (by omega)
  have fits : ¬ (hexToBytes destPubHex).length > 32 := by
    rw [decoded, length_hexPairs]
    omega
  rcases sendTextTo_cases finds node destPubHex text with
    ⟨target, expectedAck, known, -, starts, eq⟩ | ⟨line, eq⟩
  · rw [hexToBytes_isPrefix_iff even] at starts
    have digits : ∀ c ∈ destPubHex, IsHexDigit c :=
      safe.resolve_right fun nobody => nobody target known starts
    rw [zeroed_of_digits digits] at starts
    refine ⟨_, _, _, by rw [sendTextTo?, if_neg fits, eq], ?_, ?_⟩
    · intro target' attempt sent expectedAck' mem
      cases List.mem_singleton.mp mem
      exact ⟨known, starts⟩
    · intro other
      exact absurd ⟨even, short, digits⟩ other
  · refine ⟨_, _, _, by rw [sendTextTo?, if_neg fits, eq], ?_, fun _ => ⟨rfl, rfl, ?_⟩⟩
    · intro target attempt sent expectedAck mem
      simp at mem
    · intro target attempt sent expectedAck mem
      simp at mem

/-- An odd number of characters is rejected. -/
theorem addressedOnly_of_odd (odd : destPubHex.length % 2 = 1) :
    AddressedOnly contacts destPubHex := by
  intro node mesh text finds
  have invalid : hexToBytes destPubHex = [] := (hexToBytes_eq_nil_iff destPubHex).mpr (.inr odd)
  have eq : node.sendTextTo mesh destPubHex text = (node, [.emit (.log .invalidPubKey)], false) :=
    if_pos invalid
  refine ⟨_, _, _, by rw [sendTextTo?, invalid, if_neg (by simp), eq], ?_, fun _ => ⟨rfl, rfl, ?_⟩⟩
  · intro target attempt sent expectedAck mem
    simp at mem
  · intro target attempt sent expectedAck mem
    simp at mem

/-- The stack of a node that knows `contacts` and sends every text. -/
def sendingMesh (contacts : List Contact) : ChatMesh where
  lookupContactByPubKey pub := contacts.find? fun contact => pub <+: contact.pubKey
  sendMessage _ _ _ := some 0

/-- A destination that is no address, but addresses a contact when it is read with zeros, is
sent to. -/
theorem not_addressedOnly_of_zeroed {contact : Contact} (even : destPubHex.length % 2 = 0)
    (other : ∃ c ∈ destPubHex, ¬ IsHexDigit c) (known : contact ∈ contacts)
    (starts : Addresses (zeroed destPubHex) contact) : ¬ AddressedOnly contacts destPubHex := by
  intro claim
  obtain ⟨c, mem, noDigit⟩ := other
  rw [← hexToBytes_isPrefix_iff even] at starts
  have valid : hexToBytes destPubHex ≠ [] := by
    intro invalid
    rcases (hexToBytes_eq_nil_iff destPubHex).mp invalid with rfl | odd
    · cases mem
    · omega
  obtain ⟨node', effects, returned, called, -, rejected⟩ :=
    claim init (sendingMesh contacts) [] fun _ => rfl
  obtain ⟨-, refused, -⟩ := rejected fun address => noDigit (address.2.2 c mem)
  unfold sendTextTo? at called
  split at called
  · cases called
  · obtain ⟨target, found⟩ : ∃ target, (sendingMesh contacts).lookupContactByPubKey
        (hexToBytes destPubHex) = some target := by
      refine Option.isSome_iff_exists.mp (List.find?_isSome.mpr ⟨contact, known, ?_⟩)
      simpa using starts
    have sends : (sendingMesh contacts).sendMessage target 0 [] = some 0 := rfl
    simp only [sendTextTo, if_neg valid, found, sends, Option.some.injEq, Prod.mk.injEq] at called
    cases called.2.2.trans refused

/-- A text only goes to the contact that its destination addresses exactly when the destination
has an odd number of characters, or when it has at most as many as a key and either all of them
are hex digits or no contact is addressed by it when it is read with `'0'` for the others. -/
theorem addressedOnly_iff (contacts : List Contact) (destPubHex : Bytes) :
    AddressedOnly contacts destPubHex ↔ destPubHex.length % 2 = 1 ∨
      destPubHex.length ≤ 64 ∧ ((∀ c ∈ destPubHex, IsHexDigit c) ∨
        ∀ contact ∈ contacts, ¬ Addresses (zeroed destPubHex) contact) := by
  constructor
  · intro claim
    by_contra unsafeDest
    push Not at unsafeDest
    obtain ⟨notOdd, unsafeEven⟩ := unsafeDest
    have even : destPubHex.length % 2 = 0 := by omega
    by_cases short : destPubHex.length ≤ 64
    · obtain ⟨other, contact, known, starts⟩ := unsafeEven short
      exact not_addressedOnly_of_zeroed even other known starts claim
    · -- The decoder writes past the end of its buffer.
      obtain ⟨node', effects, returned, called, -⟩ :=
        claim init (sendingMesh contacts) [] fun _ => rfl
      have decoded : hexToBytes destPubHex = hexPairs destPubHex := if_neg (by omega)
      have overrun : (hexToBytes destPubHex).length > 32 := by
        rw [decoded, length_hexPairs]
        omega
      rw [sendTextTo?, if_pos overrun] at called
      cases called
  · rintro (odd | ⟨short, safe⟩)
    · exact addressedOnly_of_odd odd
    · by_cases even : destPubHex.length % 2 = 0
      · exact addressedOnly_of_safe short safe even
      · exact addressedOnly_of_odd (by omega)

/-- A contact whose key starts with a zero byte. -/
def dave : Contact := ⟨0 :: .replicate 31 0xDA, ascii "dave", rfl, by decide, by decide⟩

/-- The destination "zz" is no hex string, and a text for it goes to `dave`. -/
theorem not_addressedOnly_zz : ¬ AddressedOnly [alice, dave] (ascii "zz") := by
  intro claim
  obtain ⟨node', effects, returned, called, addressed, -⟩ :=
    claim init (sendingMesh [alice, dave]) (ascii "hi") fun _ => rfl
  have sent : init.sendTextTo? (sendingMesh [alice, dave]) (ascii "zz") (ascii "hi") =
      some (⟨some ⟨0, ascii "zz", ascii "hi", 0⟩⟩, [.send dave 0 (ascii "hi") 0], true) := by
    decide +kernel
  obtain ⟨rfl, rfl, rfl⟩ : ⟨some ⟨0, ascii "zz", ascii "hi", 0⟩⟩ = node' ∧
      [.send dave 0 (ascii "hi") 0] = effects ∧ true = returned := by
    simpa using sent.symm.trans called
  obtain ⟨-, starts⟩ := addressed dave 0 (ascii "hi") 0 List.mem_cons_self
  exact absurd starts (by decide +kernel)

end SimNode

end MeshcoreSim
