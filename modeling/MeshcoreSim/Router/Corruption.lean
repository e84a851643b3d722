import Mathlib.Algebra.Ring.Parity
import Mathlib.Data.Nat.Bitwise
import MeshcoreSim.Router.Slices

/-!
What a corruption does to the bytes of a packet.

The loop of `_corrupt` flips one bit a round, and each round draws its bit anew. A bit that is
drawn twice is as it was.

* `flips_eq_iff` — flips change nothing exactly when each bit is flipped an even number of times.
* `corruptsReally_iff` — when a packet that `_deliver_to` counts as corrupted is another packet.
-/

namespace MeshcoreSim

/-! ### Flips -/

/-- A bit of a byte, counted from the lowest one; false outside of the bytes. -/
def bitAt (data : Bytes) (idx bit : ℕ) : Bool := (data.getD idx 0).toNat.testBit bit

/-- Flip some bits, one after the other. -/
def flips (data : Bytes) (places : List (ℕ × ℕ)) : Bytes :=
  places.foldl (fun data place => flipBit data place.1 place.2) data

/-- The bits that the rounds of `_corrupt` draw for a packet of `n` bytes. -/
def drawnFlips (rng : RandomStream) (n : ℕ) : ℕ → ℕ → List (ℕ × ℕ)
  | 0, _ => []
  | rounds + 1, pos =>
      (rng.randrange pos n, rng.randrange (pos + 1) 8) :: drawnFlips rng n rounds (pos + 2)

@[simp] theorem length_flipBit (data : Bytes) (idx bit : ℕ) :
    (flipBit data idx bit).length = data.length := List.length_modify _ _ _

@[simp] theorem length_flips (data : Bytes) (places : List (ℕ × ℕ)) :
    (flips data places).length = data.length := by
  induction places generalizing data with
  | nil => rfl
  | cons place places ih => exact (ih _).trans (length_flipBit _ _ _)

theorem toNat_flip (b : UInt8) {bit : ℕ} (small : bit < 8) :
    (b ^^^ (1 : UInt8) <<< UInt8.ofNat bit).toNat = b.toNat ^^^ 2 ^ bit := by
  have power : ∀ bit < 8, ((1 : UInt8) <<< UInt8.ofNat bit).toNat = 2 ^ bit := by decide
  rw [UInt8.toNat_xor, power bit small]

/-- A flip changes its own bit and no other. -/
theorem bitAt_flipBit {data : Bytes} {idx bit : ℕ} (inside : idx < data.length) (small : bit < 8)
    (idx' bit' : ℕ) : bitAt (flipBit data idx bit) idx' bit' =
      (bitAt data idx' bit' ^^ decide ((idx, bit) = (idx', bit'))) := by
  unfold bitAt flipBit
  by_cases same : idx = idx'
  · subst same
    rw [List.getD_eq_getElem _ _ (by simpa using inside), List.getElem_modify_eq,
      List.getD_eq_getElem _ _ inside, toNat_flip _ small, Nat.testBit_xor, Nat.testBit_two_pow]
    simp
  · rw [List.getD_eq_getElem?_getD, List.getElem?_modify_ne _ _ same, ← List.getD_eq_getElem?_getD]
    simp [same]

/-- A bit is changed if it is flipped an odd number of times. -/
theorem bitAt_flips {data : Bytes} {places : List (ℕ × ℕ)}
    (inside : ∀ place ∈ places, place.1 < data.length ∧ place.2 < 8) (idx bit : ℕ) :
    bitAt (flips data places) idx bit =
      (bitAt data idx bit ^^ decide (Odd (places.count (idx, bit)))) := by
  induction places generalizing data with
  | nil => simp [flips]
  | cons place places ih =>
      obtain ⟨within, small⟩ := inside place List.mem_cons_self
      have rest : ∀ place' ∈ places,
          place'.1 < (flipBit data place.1 place.2).length ∧ place'.2 < 8 := by
        intro place' mem
        rw [length_flipBit]
        exact inside place' (List.mem_cons_of_mem _ mem)
      have step : flips data (place :: places) = flips (flipBit data place.1 place.2) places := rfl
      rw [step, ih rest, bitAt_flipBit within small, List.count_cons]
      by_cases same : place = (idx, bit)
      · have parity : decide (Odd (places.count (idx, bit) + 1)) =
            !decide (Odd (places.count (idx, bit))) := by
          rw [decide_eq_decide.mpr Nat.odd_add_one, decide_not]
        have found : (place == (idx, bit)) = true := by simpa using same
        rw [found, if_pos rfl, parity, decide_eq_true same, Bool.xor_true, Bool.xor_not,
          Bool.not_xor]
      · simp [same]

/-- Bytes are determined by their bits. -/
theorem eq_of_bitAt {data data' : Bytes} (length : data.length = data'.length)
    (bits : ∀ idx bit, bit < 8 → bitAt data idx bit = bitAt data' idx bit) : data = data' := by
  refine List.ext_getElem length fun idx inside inside' => UInt8.toNat.inj ?_
  refine Nat.eq_of_testBit_eq fun bit => ?_
  by_cases small : bit < 8
  · have same := bits idx bit small
    unfold bitAt at same
    rwa [List.getD_eq_getElem _ _ inside, List.getD_eq_getElem _ _ inside'] at same
  · have large : 2 ^ 8 ≤ 2 ^ bit := Nat.pow_le_pow_right two_pos (not_lt.mp small)
    rw [Nat.testBit_lt_two_pow ((UInt8.toNat_lt _).trans_le large),
      Nat.testBit_lt_two_pow ((UInt8.toNat_lt _).trans_le large)]

/-- Flips change nothing exactly when each bit is flipped an even number of times. -/
theorem flips_eq_iff {data : Bytes} {places : List (ℕ × ℕ)}
    (inside : ∀ place ∈ places, place.1 < data.length ∧ place.2 < 8) :
    flips data places = data ↔ ∀ place, Even (places.count place) := by
  constructor
  · rintro same ⟨idx, bit⟩
    have bits := bitAt_flips inside idx bit
    rw [same] at bits
    by_contra odd
    rw [Nat.not_even_iff_odd] at odd
    simp [odd] at bits
  · intro even
    refine eq_of_bitAt (length_flips _ _) fun idx bit _ => ?_
    have notOdd : ¬ Odd (places.count (idx, bit)) := Nat.not_odd_iff_even.mpr (even _)
    rw [bitAt_flips inside, decide_eq_false notOdd, Bool.xor_false]

theorem corruptLoop_eq (rng : RandomStream) (rounds pos : ℕ) (data : Bytes) :
    (corruptLoop rng rounds pos data).1 = flips data (drawnFlips rng data.length rounds pos) := by
  induction rounds generalizing pos data with
  | zero => rfl
  | succ rounds ih =>
      rw [corruptLoop, ih, length_flipBit]
      rfl

theorem drawnFlips_inside (rng : RandomStream) {n : ℕ} (nonempty : 0 < n) (rounds pos : ℕ) :
    ∀ place ∈ drawnFlips rng n rounds pos, place.1 < n ∧ place.2 < 8 := by
  induction rounds generalizing pos with
  | zero => simp [drawnFlips]
  | succ rounds ih =>
      intro place mem
      rcases List.mem_cons.mp mem with rfl | later
      · exact ⟨rng.randrange_lt _ nonempty, rng.randrange_lt _ (by decide)⟩
      · exact ih _ place later

/-! ### A delivery -/

namespace PacketRouter

variable (R : PacketRouter) (w : World) (d : Delivery)

/-- The adversarial filter that `_deliver_to` applies to a packet, if any, and the position of the
random stream from which it draws. -/
def tampering : Option (AdversarialFilter × ℕ) :=
  if R.belowThreshold d.link then none
  else if (R.linkLoss d.link w.rngPos).1 then none
  else (w.filters.get? d.link.other).bind fun filter =>
    if filter.shouldApply R.rng (R.linkLoss d.link w.rngPos).2 then
      some (filter, (R.linkLoss d.link w.rngPos).2 + 1)
    else none

/-- If an adversarial corruption is counted, the bytes that continue to the receiver are as many as
those of the packet, and others. -/
def CorruptsReally : Prop :=
  (R.gates w d).1.metrics.advCorruptCount > w.metrics.advCorruptCount →
    ∃ hexData corrupted sent received, (R.gates w d).2 = .passed hexData corrupted ∧
      unhexlify d.hexData.toList = some sent ∧ unhexlify hexData.toList = some received ∧
      received.length = sent.length ∧ received ≠ sent

/-- The filter drops or captures the packet, or some bit is drawn an odd number of times. -/
def RealFlips (rng : RandomStream) (length : ℕ) (filter : AdversarialFilter) (pos : ℕ) : Prop :=
  match filter.cfg.mode with
  | .drop | .replay => True
  | .corrupt =>
      ∃ place, Odd ((drawnFlips rng length filter.cfg.corruptByteCount.toNat pos).count place)
  | .other _ => False

variable {R w d}

theorem tampering_eq_some_iff {filter : AdversarialFilter} {pos : ℕ} :
    R.tampering w d = some (filter, pos) ↔
      R.belowThreshold d.link = false ∧ (R.linkLoss d.link w.rngPos).1 = false ∧
        w.filters.get? d.link.other = some filter ∧
        filter.shouldApply R.rng (R.linkLoss d.link w.rngPos).2 = true ∧
        pos = (R.linkLoss d.link w.rngPos).2 + 1 := by
  unfold tampering
  cases R.belowThreshold d.link with
  | true => simp
  | false =>
      cases (R.linkLoss d.link w.rngPos).1 with
      | true => simp
      | false =>
          cases w.filters.get? d.link.other with
          | none => simp
          | some filter' =>
              simp only [Bool.false_eq_true, if_false, Option.bind_some,
                Option.ite_none_right_eq_some, Option.some.injEq, Prod.mk.injEq, true_and]
              constructor
              · rintro ⟨applies, rfl, rfl⟩
                exact ⟨rfl, applies, rfl⟩
              · rintro ⟨rfl, applies, rfl⟩
                exact ⟨applies, rfl, rfl⟩

/-- A packet that the filter lets through is counted and goes on as the filter leaves it. -/
theorem gates_of_tampering {filter : AdversarialFilter} {pos : ℕ} {hexData : String}
    (tampers : R.tampering w d = some (filter, pos))
    (delivers : (filter.filterPacket R.rng d.hexData w.time pos).1 = .deliver hexData) :
    (R.gates w d).1.metrics = w.metrics.recordAdversarialCorrupt ∧
      (R.gates w d).2 = .passed hexData true := by
  obtain ⟨loud, kept, known, applies, rfl⟩ := tampering_eq_some_iff.mp tampers
  unfold gates adversary
  simp [loud, kept, known, applies, delivers]

/-- Nothing else is counted as a corruption. -/
theorem tampering_of_counted
    (counted : (R.gates w d).1.metrics.advCorruptCount > w.metrics.advCorruptCount) :
    ∃ filter pos hexData, R.tampering w d = some (filter, pos) ∧
      (filter.filterPacket R.rng d.hexData w.time pos).1 = .deliver hexData := by
  unfold gates at counted
  split at counted
  · exact absurd counted (lt_irrefl _)
  · rename_i loud
    simp only at counted
    split at counted
    · exact absurd counted (lt_irrefl _)
    · rename_i kept
      unfold adversary at counted
      cases known : w.filters.get? d.link.other with
      | none =>
          simp only [known] at counted
          exact absurd counted (lt_irrefl _)
      | some filter =>
          simp only [known] at counted
          split at counted
          · rename_i applies
            have tampers := tampering_eq_some_iff.mpr ⟨Bool.eq_false_iff.mpr loud,
              Bool.eq_false_iff.mpr kept, known, applies, rfl⟩
            cases result : (filter.filterPacket R.rng d.hexData w.time
              ((R.linkLoss d.link w.rngPos).2 + 1)).1 with
            | deliver hexData => exact ⟨filter, _, hexData, tampers, result⟩
            | raised =>
                simp only [result] at counted
                exact absurd counted (lt_irrefl _)
            | suppressed =>
                simp only [result] at counted
                split at counted <;> exact absurd counted (lt_irrefl _)
          · exact absurd counted (lt_irrefl _)

/-- What a filter does with a packet that is not empty. -/
theorem filterPacket_eq {hexData : String} {data : Bytes}
    (packet : unhexlify hexData.toList = some data) (nonempty : data ≠ []) (rng : RandomStream)
    (filter : AdversarialFilter) (now : ℚ) (pos : ℕ) :
    (filter.filterPacket rng hexData now pos).1 =
      match filter.cfg.mode with
      | .drop | .replay => .suppressed
      | .corrupt => .deliver (bytesToHex (flips data
          (drawnFlips rng data.length filter.cfg.corruptByteCount.toNat pos)))
      | .other _ => .deliver hexData := by
  unfold AdversarialFilter.filterPacket
  cases filter.cfg.mode with
  | drop => rfl
  | replay => rfl
  | other mode => rfl
  | corrupt =>
      obtain ⟨b, rest, rfl⟩ := List.exists_cons_of_ne_nil nonempty
      simp only [AdversarialFilter.corrupt, packet, corruptLoop_eq]

/-- A packet that is counted as corrupted goes on as other bytes if all that are counted do. -/
theorem CorruptsReally.ne {filter : AdversarialFilter} {pos : ℕ} {hexData : String}
    {data received : Bytes} (really : CorruptsReally R w d)
    (tampers : R.tampering w d = some (filter, pos))
    (delivers : (filter.filterPacket R.rng d.hexData w.time pos).1 = .deliver hexData)
    (packet : unhexlify d.hexData.toList = some data)
    (bytes : unhexlify hexData.toList = some received) : received ≠ data := by
  obtain ⟨counted, goesOn⟩ := gates_of_tampering tampers delivers
  obtain ⟨hexData', corrupted, sent, received', passed, sentBytes, receivedBytes, -, other⟩ :=
    really (by rw [counted]; exact Nat.lt_succ_self _)
  rw [goesOn] at passed
  cases passed
  obtain rfl : data = sent := by simpa using packet.symm.trans sentBytes
  obtain rfl : received = received' := by simpa using bytes.symm.trans receivedBytes
  exact other

/-- A packet that is counted as corrupted is another one exactly when the filter that is applied
to it is not in an unknown mode, and in mode `corrupt` draws some bit an odd number of times. -/
theorem corruptsReally_iff {data : Bytes} (packet : unhexlify d.hexData.toList = some data)
    (nonempty : data ≠ []) :
    CorruptsReally R w d ↔ ∀ filter pos, R.tampering w d = some (filter, pos) →
      RealFlips R.rng data.length filter pos := by
  have flips_iff := fun (filter : AdversarialFilter) pos => flips_eq_iff
    (drawnFlips_inside R.rng (List.length_pos_of_ne_nil nonempty)
      filter.cfg.corruptByteCount.toNat pos)
  constructor
  · intro really filter pos tampers
    have result := filterPacket_eq packet nonempty R.rng filter w.time pos
    unfold RealFlips
    cases mode : filter.cfg.mode with
    | drop => trivial
    | replay => trivial
    | other name =>
        rw [mode] at result
        exact really.ne tampers result packet packet rfl
    | corrupt =>
        rw [mode] at result
        have other := really.ne tampers result packet (unhexlify_bytesToHex _)
        rw [Ne, flips_iff] at other
        push Not at other
        simpa using other
  · intro real counted
    obtain ⟨filter, pos, hexData, tampers, delivers⟩ := tampering_of_counted counted
    obtain ⟨-, goesOn⟩ := gates_of_tampering tampers delivers
    have result := filterPacket_eq packet nonempty R.rng filter w.time pos
    have flipped := real filter pos tampers
    unfold RealFlips at flipped
    rw [delivers] at result
    cases mode : filter.cfg.mode with
    | drop => simp [mode] at result
    | replay => simp [mode] at result
    | other name => simp [mode] at flipped
    | corrupt =>
        simp only [mode, FilterResult.deliver.injEq] at result flipped
        refine ⟨hexData, true, data, flips data (drawnFlips R.rng data.length
          filter.cfg.corruptByteCount.toNat pos), goesOn, packet, ?_, ?_, ?_⟩
        · rw [result]
          exact unhexlify_bytesToHex _
        · exact length_flips _ _
        · rw [Ne, flips_iff]
          obtain ⟨place, odd⟩ := flipped
          exact fun even => Nat.not_even_iff_odd.mpr odd (even place)

/-- A network whose node `mallory` corrupts every packet with some flips. The random stream is
constant. -/
def corruptingNetwork (corruptByteCount : ℤ) : PacketRouter where
  topology := ⟨.empty, .empty⟩
  agents := .ofList [("mallory",
    { NodeConfig.named "mallory" with adversarial := some ⟨.corrupt, 1, 0, corruptByteCount⟩ })]
  radio := none
  rng := .zero

/-- A packet of two bytes for `mallory`. -/
def forMallory : Delivery := ⟨"alice", ⟨"mallory", 0, 0, 0⟩, "00ff", none, none⟩

/-- One flip is real. -/
theorem corruptsReally_iff_oneFlip :
    CorruptsReally (corruptingNetwork 1) ((corruptingNetwork 1).init 0 none none) forMallory := by
  have packet : unhexlify forMallory.hexData.toList = some [0, 255] := by decide +kernel
  refine (corruptsReally_iff packet (by decide)).mpr fun filter pos tampers => ?_
  have applied : (corruptingNetwork 1).tampering ((corruptingNetwork 1).init 0 none none)
      forMallory = some (⟨⟨.corrupt, 1, 0, 1⟩, []⟩, 1) := by decide +kernel
  cases applied.symm.trans tampers
  exact ⟨(0, 0), by decide +kernel⟩

/-- All packets that are counted as corrupted are other packets, for every number of flips. -/
def AlwaysCorruptsReally : Prop :=
  ∀ (R : PacketRouter) (w : World) (d : Delivery) (data : Bytes),
    unhexlify d.hexData.toList = some data → data ≠ [] →
      (∀ filter, w.filters.get? d.link.other = some filter → 1 ≤ filter.cfg.corruptByteCount) →
        CorruptsReally R w d

/-- Two flips of the same bit give the packet back. -/
theorem not_alwaysCorruptsReally : ¬ AlwaysCorruptsReally := by
  intro claim
  have packet : unhexlify forMallory.hexData.toList = some [0, 255] := by decide +kernel
  have filter : ((corruptingNetwork 2).init 0 none none).filters.get? "mallory" =
      some ⟨⟨.corrupt, 1, 0, 2⟩, []⟩ := by decide +kernel
  have really := claim (corruptingNetwork 2) ((corruptingNetwork 2).init 0 none none) forMallory
    [0, 255] packet (by decide) (by
      intro filter' known
      cases filter.symm.trans known
      decide)
  have applied : (corruptingNetwork 2).tampering ((corruptingNetwork 2).init 0 none none)
      forMallory = some (⟨⟨.corrupt, 1, 0, 2⟩, []⟩, 1) := by decide +kernel
  have unchanged :
      ((⟨⟨.corrupt, 1, 0, 2⟩, []⟩ : AdversarialFilter).filterPacket .zero "00ff" 0 1).1 =
        .deliver "00ff" := by
    decide +kernel
  exact really.ne applied unchanged packet packet rfl

end PacketRouter

end MeshcoreSim
