import Mathlib.Tactic.Positivity
import MeshcoreSim.Airtime
import MeshcoreSim.Channel

/-!
What survives a collision.

`Spared` is the disjunction of the overlap-aware stages (2, 3A and 3B) for two
arrival windows, and `lossFrom_eq_none_iff` says that one record causes no loss
exactly when one of the preconditions fails, the primary captures, or the overlap
is spared. Everything else here is about these two predicates:

* `overlap_le_of_spared` — a spared overlap is no longer than the preamble grace
  period or the FEC tolerance, whichever is larger.
* `mutual_exclusion` — two packets that both survive each other overlap by at most
  that much: capture can save one of them, never both.
* `spared_iff` — for windows as long as real packets, the three stages collapse to
  two endpoint conditions: the interferer is gone before the critical preamble, or
  it only reaches the tail that FEC corrects.
* `survival_rule` — the closed form of a verdict on such windows.
-/

namespace MeshcoreSim

open Lib

namespace ChannelModel

variable {m : ChannelModel} {primary other : TxRecord} {txId otherId : ℕ} {receiver : NodeName}
  {rx intRx : Window ℚ}

/-- Stages 2, 3A and 3B: the overlap does not destroy the packet arriving in `rx`. -/
def Spared (m : ChannelModel) (rx intRx : Window ℚ) : Prop :=
  intRx.stop ≤ rx.start + m.graceS ∨
    (max rx.start intRx.start ≥ rx.start + m.tPreamble ∧ rx.overlap intRx ≤ m.fecToleranceS) ∨
    (max rx.start intRx.start > rx.start + m.graceS ∧ rx.overlap intRx ≤ m.fecToleranceS)

/-- The primary is heard at least `capDb` above the interferer. -/
def Captured (m : ChannelModel) (primary : TxRecord) (interfererSnr : ℚ) (receiver : NodeName) :
    Prop :=
  ∃ primarySnr, m.snr? primary.sender receiver = some primarySnr ∧
    primarySnr - interfererSnr ≥ m.capDb

theorem captures_iff {interfererSnr : ℚ} :
    m.captures (m.snr? primary.sender receiver) interfererSnr = true ↔
      m.Captured primary interfererSnr receiver := by
  unfold captures Captured
  cases m.snr? primary.sender receiver <;> simp

/-! ### One record -/

/-- A record that reaches the receiver during the packet causes no loss exactly when
the packet captures or the overlap is spared. -/
theorem lossFrom_eq_none_iff {interfererSnr : ℚ} (otherPacket : otherId ≠ txId)
    (otherNode : other.sender ≠ primary.sender)
    (reaches : m.snr? other.sender receiver = some interfererSnr)
    (overlaps : (m.arrival primary receiver).Overlaps (m.arrival other receiver)) :
    m.lossFrom primary txId receiver (otherId, other) = none ↔
      m.Captured primary interfererSnr receiver ∨
        m.Spared (m.arrival primary receiver) (m.arrival other receiver) := by
  have inTime : ¬ ((m.arrival other receiver).start ≥ (m.arrival primary receiver).stop ∨
      (m.arrival other receiver).stop ≤ (m.arrival primary receiver).start) := by
    rintro (late | early)
    · exact absurd overlaps.2 (not_lt.mpr late)
    · exact absurd overlaps.1 (not_lt.mpr early)
  rw [← captures_iff]
  unfold lossFrom Spared Window.overlap
  simp only [if_neg otherPacket, if_neg otherNode, reaches, if_neg inTime]
  split
  · rename_i captured
    simp [captured]
  · rename_i weak
    simp only [weak, Bool.false_eq_true, false_or]
    split
    · rename_i grace
      simp [grace]
    · rename_i critical
      simp only [critical, false_or]
      split
      · rename_i caseA
        simp [caseA]
      · rename_i notA
        simp only [notA, false_or]
        split <;> simp_all

/-- What a loss says about the record that causes it. -/
theorem lossFrom_eq_some {name : NodeName} {id : ℕ} {overlapS : ℚ} {e : ℕ × TxRecord}
    (lost : m.lossFrom primary txId receiver e = some (name, id, overlapS)) :
    e.1 ≠ txId ∧ e.2.sender ≠ primary.sender ∧ (m.snr? e.2.sender receiver).isSome ∧
      (m.arrival primary receiver).Overlaps (m.arrival e.2 receiver) ∧
      name = e.2.sender ∧ id = e.1 ∧
      overlapS = (m.arrival primary receiver).overlap (m.arrival e.2 receiver) := by
  obtain ⟨otherId, record⟩ := e
  unfold lossFrom at lost
  simp only at lost
  split at lost
  · cases lost
  rename_i otherPacket
  split at lost
  · cases lost
  rename_i otherNode
  cases reaches : m.snr? record.sender receiver with
  | none => simp [reaches] at lost
  | some interfererSnr =>
    simp only [reaches] at lost
    split at lost
    · cases lost
    rename_i inTime
    obtain ⟨starts, stops⟩ := not_or.mp inTime
    have emitted : (record.sender, otherId, (m.arrival primary receiver).overlap
        (m.arrival record receiver)) = (name, id, overlapS) := by
      split at lost
      · cases lost
      split at lost
      · cases lost
      split at lost
      · cases lost
      split at lost
      · cases lost
      exact Option.some.inj lost
    cases emitted
    exact ⟨otherPacket, otherNode, rfl, ⟨not_le.mp stops, not_le.mp starts⟩, rfl, rfl, rfl⟩

/-! ### The whole table -/

/-- A packet survives exactly when no record of the table causes a loss. -/
theorem isLost_eq_none_iff :
    m.isLost primary txId receiver = none ↔
      ∀ e ∈ m.active.entries, m.lossFrom primary txId receiver e = none :=
  List.findSome?_eq_none_iff

/-- A loss names a record of the table and is the loss that this record causes. -/
theorem isLost_eq_some {name : NodeName} {id : ℕ} {overlapS : ℚ}
    (lost : m.isLost primary txId receiver = some (name, id, overlapS)) :
    ∃ e ∈ m.active.entries, m.lossFrom primary txId receiver e = some (name, id, overlapS) :=
  List.exists_of_findSome?_eq_some lost

/-- Two records of one table with different senders have different ids. -/
theorem id_ne_of_sender_ne {idA idB : ℕ} {a b : TxRecord} (inA : (idA, a) ∈ m.active.entries)
    (inB : (idB, b) ∈ m.active.entries) (differ : a.sender ≠ b.sender) : idA ≠ idB := by
  rintro rfl
  have same := (m.active.mem_entries_iff.mp inA).symm.trans (m.active.mem_entries_iff.mp inB)
  exact differ (congrArg TxRecord.sender (Option.some.inj same))

/-! ### Mutual exclusion -/

theorem tSym_nonneg : 0 ≤ m.tSym := by
  unfold tSym
  positivity

theorem graceS_nonneg : 0 ≤ m.graceS := le_max_left _ _

theorem graceS_eq : m.graceS = max 0 ((m.preambleSymbols : ℚ) - 5) * m.tSym := by
  rw [max_mul_of_nonneg _ _ m.tSym_nonneg, zero_mul, graceS]

/-- A spared overlap is at most the grace period or the FEC tolerance. -/
theorem overlap_le_of_spared (spared : m.Spared rx intRx) :
    rx.overlap intRx ≤ max m.graceS m.fecToleranceS := by
  rcases spared with gone | ⟨_, short⟩ | ⟨_, short⟩
  · have := Window.overlap_le_of_stop_le gone (a := rx)
    exact le_max_of_le_left (by linarith)
  · exact le_max_of_le_right short
  · exact le_max_of_le_right short

/-- With a positive threshold, two packets cannot each be heard above the other. -/
theorem not_captured_both {a b : TxRecord} {snrA snrB : ℚ} (threshold : 0 < m.capDb)
    (hearsA : m.snr? a.sender receiver = some snrA) (hearsB : m.snr? b.sender receiver = some snrB)
    (captureA : m.Captured a snrB receiver) : ¬ m.Captured b snrA receiver := by
  rintro ⟨strengthB, eqB, above⟩
  obtain ⟨strengthA, eqA, above'⟩ := captureA
  rw [hearsA] at eqA
  rw [hearsB] at eqB
  cases eqA
  cases eqB
  linarith

/-- Mutual exclusion at a receiver: two packets of different senders that both reach
the receiver, overlap there and are both received overlap by at most
`max (max 0 (preamble - 5)) fec` symbol durations. -/
theorem mutual_exclusion (m : ChannelModel) (receiver : NodeName) (idA idB : ℕ) (a b : TxRecord)
    (threshold : 0 < m.capDb) (inA : (idA, a) ∈ m.active.entries)
    (inB : (idB, b) ∈ m.active.entries) (differ : a.sender ≠ b.sender)
    (reachA : (m.snr? a.sender receiver).isSome) (reachB : (m.snr? b.sender receiver).isSome)
    (overlaps : (m.arrival a receiver).Overlaps (m.arrival b receiver))
    (receivedA : m.isLost a idA receiver = none) (receivedB : m.isLost b idB receiver = none) :
    (m.arrival a receiver).overlap (m.arrival b receiver) ≤
      max (max 0 ((m.preambleSymbols : ℚ) - 5)) m.fecSymbols * m.tSym := by
  obtain ⟨snrA, hearsA⟩ := Option.isSome_iff_exists.mp reachA
  obtain ⟨snrB, hearsB⟩ := Option.isSome_iff_exists.mp reachB
  have ids := id_ne_of_sender_ne inA inB differ
  have verdictA := (lossFrom_eq_none_iff ids.symm differ.symm hearsB overlaps).mp
    (isLost_eq_none_iff.mp receivedA _ inB)
  have verdictB := (lossFrom_eq_none_iff ids differ hearsA overlaps.symm).mp
    (isLost_eq_none_iff.mp receivedB _ inA)
  rw [max_mul_of_nonneg _ _ m.tSym_nonneg, ← graceS_eq]
  rcases verdictA with captureA | sparedA
  · -- `a` captures, so `b` must have been spared.
    rcases verdictB with captureB | sparedB
    · exact absurd captureB (not_captured_both threshold hearsA hearsB captureA)
    · rw [Window.overlap_comm]
      exact overlap_le_of_spared sparedB
  · exact overlap_le_of_spared sparedA

/-- A two-sender cell: `alice` and `bob` are heard at `relay` equally well. -/
def cell (cr : ℕ) (transmissions : List (ℕ × TxRecord)) : ChannelModel where
  linkSnr := .ofList [("alice", .ofList [("relay", 6)]), ("bob", .ofList [("relay", 6)])]
  linkLatencyMs := .empty
  capDb := 6
  sf := 10
  bwHz := 250000
  cr := cr
  preambleSymbols := 8
  active := .ofList transmissions

/-- At CR 4/8 both packets survive an overlap of 5 ms: for the first one it is the
tail that FEC corrects, for the second one the start of the preamble. -/
theorem mutual_exclusion_tail :
    let a : TxRecord := ⟨"alice", 0, 1⟩
    let b : TxRecord := ⟨"bob", 199 / 200, 2⟩
    let m := cell 4 [(1, a), (2, b)]
    (m.arrival a "relay").overlap (m.arrival b "relay") ≤
      max (max 0 ((m.preambleSymbols : ℚ) - 5)) m.fecSymbols * m.tSym := by
  intro a b m
  have threshold : 0 < m.capDb := by decide +kernel
  have registered : (1, a) ∈ m.active.entries ∧ (2, b) ∈ m.active.entries := by decide +kernel
  have reach : (m.snr? a.sender "relay").isSome ∧ (m.snr? b.sender "relay").isSome := by
    decide +kernel
  have overlaps : (m.arrival a "relay").Overlaps (m.arrival b "relay") := by decide +kernel
  have received : m.isLost a 1 "relay" = none ∧ m.isLost b 2 "relay" = none := by decide +kernel
  exact mutual_exclusion m "relay" 1 2 a b threshold registered.1 registered.2 (by decide)
    reach.1 reach.2 overlaps received.1 received.2

/-! ### The survival rule for real packets -/

theorem fecSymbols_le_two : m.fecSymbols ≤ 2 := by
  unfold fecSymbols fecSymbolsOf
  split <;> simp

/-- The shortest window a LoRa packet can have: its preamble and eight symbols. -/
def shortestPacket (m : ChannelModel) : ℚ := ((m.preambleSymbols : ℚ) + 17 / 4 + 8) * m.tSym

section RealWindows

variable (symbol : 0 < m.tSym)
include symbol

theorem tPreamble_pos : 0 < m.tPreamble := by
  unfold tPreamble
  positivity

/-- The critical preamble begins well before the tail that FEC can correct. -/
theorem graceS_lt_tail (long : m.shortestPacket ≤ rx.length) :
    rx.start + m.graceS < rx.stop - m.fecToleranceS := by
  have grace : m.graceS ≤ m.preambleSymbols * m.tSym := by
    rw [graceS_eq]
    refine mul_le_mul_of_nonneg_right (max_le ?_ ?_) symbol.le
    · positivity
    · linarith
  have tolerance : m.fecToleranceS ≤ 2 * m.tSym :=
    mul_le_mul_of_nonneg_right (by exact_mod_cast m.fecSymbols_le_two) symbol.le
  unfold shortestPacket Window.length at long
  linarith

theorem fecToleranceS_lt (long : m.shortestPacket ≤ rx.length) : m.fecToleranceS < rx.length := by
  have := graceS_lt_tail symbol long
  have := m.graceS_nonneg
  unfold Window.length
  linarith

/-- For windows as long as real packets, an overlap is spared exactly when the
interferer is gone before the critical preamble or only reaches the tail. -/
theorem spared_iff (longRx : m.shortestPacket ≤ rx.length)
    (longInt : m.shortestPacket ≤ intRx.length) :
    m.Spared rx intRx ↔
      intRx.stop ≤ rx.start + m.graceS ∨ rx.stop - m.fecToleranceS ≤ intRx.start := by
  have short := fecToleranceS_lt symbol longInt
  have grace := m.graceS_nonneg
  constructor
  · -- In both FEC cases the overlap begins strictly inside the packet.
    have tail : rx.start < max rx.start intRx.start → rx.overlap intRx ≤ m.fecToleranceS →
        rx.stop - m.fecToleranceS ≤ intRx.start := by
      intro inside small
      have starts : rx.start < intRx.start := by
        rcases lt_max_iff.mp inside with h | h
        · exact absurd h (lt_irrefl _)
        · exact h
      exact (Window.overlap_le_iff_tail short starts).mp small
    rintro (gone | ⟨payload, small⟩ | ⟨critical, small⟩)
    · exact .inl gone
    · have := tPreamble_pos symbol
      exact .inr (tail (by linarith) small)
    · exact .inr (tail (by linarith) small)
  · rintro (gone | late)
    · exact .inl gone
    · have after : rx.start + m.graceS < intRx.start := (graceS_lt_tail symbol longRx).trans_le late
      have starts : rx.start < intRx.start := by linarith
      exact .inr (.inr ⟨after.trans_le (le_max_right _ _),
        (Window.overlap_le_iff_tail short starts).mpr late⟩)

/-- A hit on the critical preamble is always fatal without capture. -/
theorem not_spared_of_critical (longRx : m.shortestPacket ≤ rx.length)
    (longInt : m.shortestPacket ≤ intRx.length) (hits : rx.start + m.graceS < intRx.stop)
    (critical : intRx.start < rx.start + m.tPreamble) : ¬ m.Spared rx intRx := by
  rw [spared_iff symbol longRx longInt, not_or, not_le, not_le]
  refine ⟨hits, critical.trans_le ?_⟩
  have tolerance : m.fecToleranceS ≤ 2 * m.tSym :=
    mul_le_mul_of_nonneg_right (by exact_mod_cast m.fecSymbols_le_two) symbol.le
  unfold shortestPacket Window.length at longRx
  unfold tPreamble
  linarith

end RealWindows

/-- The exact survival rule: for windows that last at least a preamble and eight
payload symbols, a record of another sender that reaches the receiver during the
packet causes no loss exactly when the packet captures, or the interferer's arrival
ends within the grace period, or it starts within the tail that FEC corrects. So
`isLost` never names a record that meets the rule, and it names one that does not as
soon as no earlier record of the table causes a loss. Without capture a hit on the
critical part of the preamble is fatal. -/
theorem survival_rule (m : ChannelModel) (primary other : TxRecord) (txId otherId : ℕ)
    (receiver : NodeName) (interfererSnr : ℚ) (symbol : 0 < m.tSym)
    (longPrimary : ((m.preambleSymbols : ℚ) + 17 / 4 + 8) * m.tSym ≤ primary.window.length)
    (longOther : ((m.preambleSymbols : ℚ) + 17 / 4 + 8) * m.tSym ≤ other.window.length)
    (registered : (otherId, other) ∈ m.active.entries) (otherPacket : otherId ≠ txId)
    (otherNode : other.sender ≠ primary.sender)
    (reaches : m.snr? other.sender receiver = some interfererSnr)
    (overlaps : (m.arrival primary receiver).Overlaps (m.arrival other receiver)) :
    let rx := m.arrival primary receiver
    let intRx := m.arrival other receiver
    let survives := (∃ primarySnr, m.snr? primary.sender receiver = some primarySnr ∧
        primarySnr - interfererSnr ≥ m.capDb) ∨
      intRx.stop ≤ rx.start + max 0 ((m.preambleSymbols : ℚ) - 5) * m.tSym ∨
      intRx.start ≥ rx.stop - m.fecSymbols * m.tSym
    (m.lossFrom primary txId receiver (otherId, other) = none ↔ survives) ∧
      (survives → ∀ name overlapS,
        m.isLost primary txId receiver ≠ some (name, otherId, overlapS)) ∧
      (¬ survives → ∀ before after, m.active.entries = before ++ (otherId, other) :: after →
        (∀ e ∈ before, m.lossFrom primary txId receiver e = none) →
        m.isLost primary txId receiver = some (other.sender, otherId, rx.overlap intRx)) ∧
      (¬ m.Captured primary interfererSnr receiver →
        rx.start + max 0 ((m.preambleSymbols : ℚ) - 5) * m.tSym < intRx.stop →
        intRx.start < rx.start + m.tPreamble →
        m.lossFrom primary txId receiver (otherId, other) ≠ none) := by
  intro rx intRx survives
  have longRx : m.shortestPacket ≤ rx.length := by
    simp only [rx, arrival, Window.length_shift]
    exact longPrimary
  have longInt : m.shortestPacket ≤ intRx.length := by
    simp only [intRx, arrival, Window.length_shift]
    exact longOther
  have rule : m.lossFrom primary txId receiver (otherId, other) = none ↔ survives := by
    rw [lossFrom_eq_none_iff otherPacket otherNode reaches overlaps,
      spared_iff symbol longRx longInt, graceS_eq]
    rfl
  refine ⟨rule, ?_, ?_, ?_⟩
  · intro holds name overlapS named
    obtain ⟨⟨id, record⟩, inTable, lost⟩ := isLost_eq_some named
    obtain ⟨-, -, -, -, -, sameId, -⟩ := lossFrom_eq_some lost
    obtain rfl : otherId = id := sameId
    have sameRecord := (m.active.mem_entries_iff.mp inTable).symm.trans
      (m.active.mem_entries_iff.mp registered)
    cases sameRecord
    exact absurd (rule.mpr holds) (by simp [lost])
  · intro fails before after table harmless
    obtain ⟨⟨name, id, overlapS⟩, lost⟩ :=
      Option.ne_none_iff_exists'.mp fun spared => fails (rule.mp spared)
    obtain ⟨-, -, -, -, rfl, rfl, rfl⟩ := lossFrom_eq_some lost
    unfold isLost
    rw [table, List.findSome?_append, List.findSome?_eq_none_iff.mpr harmless]
    simp [lost, rx, intRx]
  · intro notCaptured hits critical
    rw [← graceS_eq] at hits
    rw [Ne, lossFrom_eq_none_iff otherPacket otherNode reaches overlaps, not_or]
    exact ⟨notCaptured, not_spared_of_critical symbol longRx longInt hits critical⟩

/-- At CR 4/8 the rule saves `alice` from `bob`, who only reaches her last 5 ms. -/
theorem survival_rule_tail :
    (cell 4 [(1, ⟨"alice", 0, 1⟩), (2, ⟨"bob", 199 / 200, 2⟩)]).lossFrom ⟨"alice", 0, 1⟩ 1
      "relay" (2, ⟨"bob", 199 / 200, 2⟩) = none := by
  let a : TxRecord := ⟨"alice", 0, 1⟩
  let b : TxRecord := ⟨"bob", 199 / 200, 2⟩
  let m := cell 4 [(1, a), (2, b)]
  have symbol : 0 < m.tSym := by decide +kernel
  have long : m.shortestPacket ≤ a.window.length ∧ m.shortestPacket ≤ b.window.length := by
    decide +kernel
  have registered : (2, b) ∈ m.active.entries := by decide +kernel
  have reaches : m.snr? b.sender "relay" = some 6 := by decide +kernel
  have overlaps : (m.arrival a "relay").Overlaps (m.arrival b "relay") := by decide +kernel
  have tail : (m.arrival b "relay").start ≥
      (m.arrival a "relay").stop - m.fecSymbols * m.tSym := by decide +kernel
  exact (survival_rule m a b 1 2 "relay" 6 symbol long.1 long.2 registered (by decide) (by decide)
    reaches overlaps).1.mpr (.inr (.inr tail))

end ChannelModel

end MeshcoreSim
