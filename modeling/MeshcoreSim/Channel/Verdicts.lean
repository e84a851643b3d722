import MeshcoreSim.Channel.Survival

/-!
Collision verdicts as a whole.

A packet survives when no registered transmission causes a loss (`noLoss_iff`), so the
verdict depends on what the table of active transmissions holds, not on its order.

* `lossFrom_eq_none_of_within` — a transmission that causes no loss still causes none when
  its window shrinks: every exit of the loop is monotone in both endpoints.
* `verdicts_monotone` — the verdict is free of the order of registration, monotone in the
  transmissions and in the windows of the interferers, and a loss names a registered
  interferer with a positive overlap.
-/

namespace MeshcoreSim

open Lib

namespace ChannelModel

variable {m : ChannelModel} {primary record smaller : TxRecord} {txId id : ℕ}
  {receiver : NodeName} {rx intRx intRx' : Window ℚ}

/-- Register transmissions, one after the other. -/
def registerAll (m : ChannelModel) (transmissions : List (ℕ × TxRecord)) : ChannelModel :=
  transmissions.foldl (fun m e => m.registerTx e.2 e.1) m

/-! ### The table decides -/

/-- A packet survives exactly when no record of the table causes a loss, whatever the order
of the table is. -/
theorem noLoss_iff :
    m.isLost primary txId receiver = none ↔
      ∀ id record, m.active.get? id = some record →
        m.lossFrom primary txId receiver (id, record) = none := by
  rw [isLost_eq_none_iff]
  constructor
  · intro harmless id record registered
    exact harmless _ (m.active.mem_entries_iff.mpr registered)
  · rintro harmless ⟨id, record⟩ registered
    exact harmless id record (m.active.mem_entries_iff.mp registered)

/-- The loss that a record causes does not depend on the other records. -/
@[simp] theorem lossFrom_registerTx (other : TxRecord) (otherId : ℕ) :
    (m.registerTx other otherId).lossFrom primary txId receiver =
      m.lossFrom primary txId receiver := rfl

theorem lossFrom_registerAll (l : List (ℕ × TxRecord)) :
    (m.registerAll l).lossFrom primary txId receiver = m.lossFrom primary txId receiver := by
  induction l generalizing m with
  | nil => rfl
  | cons e rest ih => exact ih.trans (lossFrom_registerTx e.2 e.1)

theorem registerAll_active (l : List (ℕ × TxRecord)) :
    (m.registerAll l).active = l.foldl (fun d e => d.set e.1 e.2) m.active := by
  induction l generalizing m with
  | nil => rfl
  | cons e rest ih => exact ih

/-! ### Smaller windows -/

/-- Each of the overlap-aware stages spares a smaller window too. -/
theorem Spared.of_within (spared : m.Spared rx intRx) (within : intRx'.Within intRx) :
    m.Spared rx intRx' := by
  have starts : max rx.start intRx.start ≤ max rx.start intRx'.start :=
    max_le_max_left _ within.1
  have shorter : rx.overlap intRx' ≤ rx.overlap intRx := Window.overlap_le_of_within within
  rcases spared with gone | ⟨payload, small⟩ | ⟨critical, small⟩
  · exact .inl (within.2.trans gone)
  · exact .inr (.inl ⟨payload.le.trans starts, shorter.trans small⟩)
  · exact .inr (.inr ⟨critical.trans_le starts, shorter.trans small⟩)

/-- A record causes no loss exactly when one of the tests of the loop spares the packet. -/
theorem lossFrom_eq_none_iff_cases :
    m.lossFrom primary txId receiver (id, record) = none ↔
      id = txId ∨ record.sender = primary.sender ∨ m.snr? record.sender receiver = none ∨
      ¬ (m.arrival primary receiver).Overlaps (m.arrival record receiver) ∨
      ∃ interfererSnr, m.snr? record.sender receiver = some interfererSnr ∧
        (m.Captured primary interfererSnr receiver ∨
          m.Spared (m.arrival primary receiver) (m.arrival record receiver)) := by
  constructor
  · intro harmless
    by_contra tests
    simp only [not_or, not_not] at tests
    obtain ⟨otherPacket, otherNode, reaches, overlaps, lost⟩ := tests
    obtain ⟨interfererSnr, heard⟩ := Option.ne_none_iff_exists'.mp reaches
    exact lost ⟨interfererSnr, heard,
      (lossFrom_eq_none_iff otherPacket otherNode heard overlaps).mp harmless⟩
  · intro spared
    by_contra lost
    obtain ⟨⟨name, lostTo, overlapS⟩, loses⟩ := Option.ne_none_iff_exists'.mp lost
    obtain ⟨otherPacket, otherNode, reaches, overlaps, -⟩ := lossFrom_eq_some loses
    rcases spared with same | same | silent | apart | ⟨interfererSnr, heard, spared⟩
    · exact otherPacket same
    · exact otherNode same
    · rw [silent] at reaches
      cases reaches
    · exact apart overlaps
    · exact lost ((lossFrom_eq_none_iff otherPacket otherNode heard overlaps).mpr spared)

/-- A transmission that causes no loss causes none when its window shrinks. -/
theorem lossFrom_eq_none_of_within (sameSender : smaller.sender = record.sender)
    (within : smaller.window.Within record.window)
    (harmless : m.lossFrom primary txId receiver (id, record) = none) :
    m.lossFrom primary txId receiver (id, smaller) = none := by
  have arrives : (m.arrival smaller receiver).Within (m.arrival record receiver) := by
    unfold arrival
    rw [sameSender]
    exact within.shift _
  rw [lossFrom_eq_none_iff_cases] at harmless ⊢
  rw [sameSender]
  refine harmless.imp_right (Or.imp_right (Or.imp_right (Or.imp ?_ ?_)))
  · intro apart overlaps
    exact apart ⟨overlaps.1.trans_le arrives.2, arrives.1.trans_lt overlaps.2⟩
  · rintro ⟨interfererSnr, heard, captured | spared⟩
    · exact ⟨interfererSnr, heard, .inl captured⟩
    · exact ⟨interfererSnr, heard, .inr (spared.of_within arrives)⟩

/-! ### Verdicts -/

/-- Registering transmissions with ids of their own keeps a loss. -/
theorem isLost_registerAll_ne_none {l : List (ℕ × TxRecord)}
    (fresh : ∀ e ∈ l, m.active.get? e.1 = none) (lost : m.isLost primary txId receiver ≠ none) :
    (m.registerAll l).isLost primary txId receiver ≠ none := by
  intro survives
  refine lost (noLoss_iff.mpr fun id record registered => ?_)
  have absent : id ∉ l.map Prod.fst := by
    intro written
    obtain ⟨e, mem, rfl⟩ := List.mem_map.mp written
    rw [fresh e mem] at registered
    cases registered
  have kept : (m.registerAll l).active.get? id = some record := by
    rw [registerAll_active, Dict.get?_foldl_set_of_notMem absent, registered]
  rw [← lossFrom_registerAll l]
  exact noLoss_iff.mp survives id record kept

/-- The order in which transmissions are registered does not matter. -/
theorem isLost_registerAll_perm {l l' : List (ℕ × TxRecord)}
    (distinct : (l.map Prod.fst).Nodup) (perm : l.Perm l') :
    (m.registerAll l).isLost primary txId receiver = none ↔
      (m.registerAll l').isLost primary txId receiver = none := by
  simp only [noLoss_iff, lossFrom_registerAll, registerAll_active,
    Dict.get?_foldl_set_perm distinct perm]

/-- A survivor survives a smaller window of one of its interferers. -/
theorem isLost_registerTx_of_within (registered : m.active.get? id = some record)
    (sameSender : smaller.sender = record.sender) (within : smaller.window.Within record.window)
    (survives : m.isLost primary txId receiver = none) :
    (m.registerTx smaller id).isLost primary txId receiver = none := by
  rw [noLoss_iff] at survives ⊢
  intro otherId other found
  rw [lossFrom_registerTx]
  unfold registerTx at found
  rw [Dict.get?_set] at found
  split at found
  · rename_i replaced
    cases found
    rw [replaced]
    exact lossFrom_eq_none_of_within sameSender within (survives id record registered)
  · exact survives otherId other found

/-- Collision verdicts, for every channel model, receiver and primary transmission. Whether
the packet survives does not depend on the order in which transmissions are registered, each
under its own id; registering more of them never saves a lost packet; a smaller window of an
interferer never loses a survivor; and a loss names a registered transmission of another
sender that reaches the receiver. Its overlap is at most the primary's duration, and it is
positive when the two transmissions last at all, as all that the router registers do. -/
theorem verdicts_monotone (m : ChannelModel) (primary : TxRecord) (txId : ℕ)
    (receiver : NodeName) :
    (∀ l l' : List (ℕ × TxRecord), (l.map Prod.fst).Nodup → l.Perm l' →
      ((m.registerAll l).isLost primary txId receiver = none ↔
        (m.registerAll l').isLost primary txId receiver = none)) ∧
    (∀ l : List (ℕ × TxRecord), (∀ e ∈ l, m.active.get? e.1 = none) →
      m.isLost primary txId receiver ≠ none →
        (m.registerAll l).isLost primary txId receiver ≠ none) ∧
    (∀ id record smaller, m.active.get? id = some record → smaller.sender = record.sender →
      smaller.window.Within record.window → m.isLost primary txId receiver = none →
        (m.registerTx smaller id).isLost primary txId receiver = none) ∧
    ∀ name id overlapS, m.isLost primary txId receiver = some (name, id, overlapS) →
      ∃ record, m.active.get? id = some record ∧ record.sender = name ∧ id ≠ txId ∧
        name ≠ primary.sender ∧ (m.snr? name receiver).isSome ∧
        overlapS ≤ primary.window.length ∧
        (0 < primary.window.length → 0 < record.window.length → 0 < overlapS) := by
  refine ⟨fun l l' distinct perm => isLost_registerAll_perm distinct perm,
    fun l fresh lost => isLost_registerAll_ne_none fresh lost,
    fun id record smaller registered sameSender within survives =>
      isLost_registerTx_of_within registered sameSender within survives, ?_⟩
  intro name id overlapS lost
  obtain ⟨⟨otherId, record⟩, inTable, loses⟩ := isLost_eq_some lost
  obtain ⟨otherPacket, otherNode, reaches, overlaps, rfl, rfl, rfl⟩ := lossFrom_eq_some loses
  refine ⟨record, m.active.mem_entries_iff.mp inTable, rfl, otherPacket, otherNode, reaches, ?_, ?_⟩
  · have atMost := Window.overlap_le_length (m.arrival primary receiver) (m.arrival record receiver)
    rwa [show (m.arrival primary receiver).length = primary.window.length from
      Window.length_shift _ _] at atMost
  · intro lastsPrimary lastsOther
    refine Window.overlap_pos overlaps ?_ ?_
    · rwa [arrival, Window.length_shift]
    · rwa [arrival, Window.length_shift]

/-- `alice` loses her packet to `bob`, who is on the air all the time, in either order of
registration, also when another transmission of `bob` follows, and not to her own packet;
once `bob` is only on the air for the last 5 ms, she survives. -/
theorem verdicts_monotone_twoSenders :
    let m := cell 4 []
    let alice : TxRecord := ⟨"alice", 0, 1⟩
    let bob : TxRecord := ⟨"bob", 0, 2⟩
    let late : TxRecord := ⟨"bob", 199 / 200, 2⟩
    let later : TxRecord := ⟨"bob", 399 / 400, 2⟩
    ((m.registerAll [(1, alice), (2, bob)]).isLost alice 1 "relay" = none ↔
      (m.registerAll [(2, bob), (1, alice)]).isLost alice 1 "relay" = none) ∧
    ((m.registerAll [(1, alice), (2, bob)]).registerAll [(3, late)]).isLost alice 1 "relay" ≠ none ∧
    ((m.registerAll [(1, alice), (2, late)]).registerTx later 2).isLost alice 1 "relay" = none ∧
    ∃ overlapS, (m.registerAll [(1, alice), (2, bob)]).isLost alice 1 "relay" =
      some ("bob", 2, overlapS) ∧ 0 < overlapS := by
  intro m alice bob late later
  have lost : (m.registerAll [(1, alice), (2, bob)]).isLost alice 1 "relay" =
      some ("bob", 2, 1) := by decide +kernel
  have survives : (m.registerAll [(1, alice), (2, late)]).isLost alice 1 "relay" = none := by
    decide +kernel
  have fresh : ∀ e ∈ [(3, late)],
      (m.registerAll [(1, alice), (2, bob)]).active.get? e.1 = none := by decide +kernel
  have registered : (m.registerAll [(1, alice), (2, late)]).active.get? 2 = some late := by
    decide +kernel
  have within : later.window.Within late.window := by
    constructor <;> simp only [later, late, TxRecord.window] <;> norm_num
  obtain ⟨order, -, -, -⟩ := verdicts_monotone m alice 1 "relay"
  obtain ⟨-, more, -, named⟩ :=
    verdicts_monotone (m.registerAll [(1, alice), (2, bob)]) alice 1 "relay"
  obtain ⟨-, -, shrinks, -⟩ :=
    verdicts_monotone (m.registerAll [(1, alice), (2, late)]) alice 1 "relay"
  obtain ⟨record, known, -, -, -, -, -, positive⟩ := named _ _ _ lost
  have bobs : (m.registerAll [(1, alice), (2, bob)]).active.get? 2 = some bob := by decide +kernel
  obtain rfl : record = bob := Option.some.inj (known.symm.trans bobs)
  exact ⟨order _ _ (by decide) (.swap _ _ _), more _ fresh (by rw [lost]; simp),
    shrinks 2 late later registered rfl within survives, 1, lost,
    positive (by decide +kernel) (by decide +kernel)⟩

end ChannelModel

end MeshcoreSim
