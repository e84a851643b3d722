import Mathlib.Data.Rat.Defs
import MeshcoreSim.Config
import MeshcoreSim.Packet

/-!
Path tracer (`orchestrator/tracer.py`), the recording half of `PacketTracer`.

Every packet is identified by its fingerprint. `recordTx` registers a transmission
and hands out its `tx_id`; `recordRx`, `recordCollision` and `recordHalfduplex`
append one record to the trace of the packet, creating the trace when it is missing.
The three share their shape, so each is `onTrace` with its own record, and one
accounting lemma (`sumBy_onTrace`) covers them.
-/

namespace MeshcoreSim

open Lib

/-- One observed radio transmission (sender → receiver) of a given packet. -/
structure HopRecord where
  t : ℚ
  sender : NodeName
  receiver : NodeName
  routeType : ℕ
  pathCount : ℕ
  txId : Option ℕ
  airtimeMs : ℚ
  sizeBytes : ℕ
  deriving DecidableEq, Repr

/-- A delivery blocked by simultaneous interference. -/
structure CollisionRecord where
  t : ℚ
  sender : NodeName
  receiver : NodeName
  txId : Option ℕ
  interferer : Option NodeName
  interfererTxId : Option ℕ
  overlapS : ℚ
  deriving DecidableEq, Repr

/-- A delivery blocked because the receiver was transmitting. -/
structure HalfduplexRecord where
  t : ℚ
  sender : NodeName
  receiver : NodeName
  txId : Option ℕ
  blockerTxId : Option ℕ
  deriving DecidableEq, Repr

/-- Everything known about one logical packet. -/
structure PacketTrace where
  fingerprint : String
  payloadType : ℕ
  firstSeenAt : ℚ
  firstSender : NodeName
  hops : List HopRecord
  collisions : List CollisionRecord
  halfduplex : List HalfduplexRecord
  deriving DecidableEq, Repr

/-- A transmission that `recordTx` has registered. -/
structure TxEvent where
  sender : NodeName
  t : ℚ
  txEnd : Option ℚ
  deriving DecidableEq, Repr

structure PacketTracer where
  traces : Dict String PacketTrace
  txCounter : ℕ
  txAirtime : Dict ℕ ℚ
  txEvents : Dict ℕ TxEvent

namespace PacketTracer

/-- `PacketTracer.__init__`. -/
def init : PacketTracer := ⟨.empty, 0, .empty, .empty⟩

/-- A trace without records, as it is first created. -/
def newTrace (info : PacketInfo) (sender : NodeName) (t : ℚ) : PacketTrace :=
  ⟨packetFingerprint info, info.payloadType, t, sender, [], [], []⟩

variable (tracer : PacketTracer)

/-- The trace of a packet, or a new one. -/
def traceOf (info : PacketInfo) (sender : NodeName) (t : ℚ) : PacketTrace :=
  (tracer.traces.get? (packetFingerprint info)).getD (newTrace info sender t)

/-- Register a TX event; the `tx_id` is `none` if the packet cannot be decoded. -/
def recordTx (sender : NodeName) (hexData : String) (t airtimeMs : ℚ) (txEnd : Option ℚ) :
    PacketTracer × Option ℕ :=
  match decodePacket hexData with
  | none => (tracer, none)
  | some info =>
      let fp := packetFingerprint info
      let traces :=
        if (tracer.traces.get? fp).isNone then tracer.traces.set fp (newTrace info sender t)
        else tracer.traces
      let txId := tracer.txCounter + 1
      ({ traces := traces
         txCounter := txId
         txAirtime := tracer.txAirtime.set txId airtimeMs
         txEvents := tracer.txEvents.set txId ⟨sender, t, txEnd⟩ }, some txId)

/-- Append to the trace of a decodable packet, creating it defensively. -/
def onTrace (sender : NodeName) (hexData : String) (t : ℚ)
    (append : PacketInfo → PacketTrace → PacketTrace) : PacketTracer :=
  match decodePacket hexData with
  | none => tracer
  | some info =>
      { tracer with
        traces := tracer.traces.set (packetFingerprint info)
          (append info (tracer.traceOf info sender t)) }

/-- Register an RF collision. -/
def recordCollision (sender receiver : NodeName) (hexData : String) (t : ℚ) (txId : Option ℕ)
    (interferer : Option NodeName) (interfererTxId : Option ℕ) (overlapS : ℚ) : PacketTracer :=
  tracer.onTrace sender hexData t fun _ trace =>
    { trace with
      collisions := trace.collisions ++
        [⟨t, sender, receiver, txId, interferer, interfererTxId, overlapS⟩] }

/-- Register a half-duplex drop. -/
def recordHalfduplex (sender receiver : NodeName) (hexData : String) (t : ℚ) (txId : Option ℕ)
    (blockerTxId : Option ℕ) : PacketTracer :=
  tracer.onTrace sender hexData t fun _ trace =>
    { trace with halfduplex := trace.halfduplex ++ [⟨t, sender, receiver, txId, blockerTxId⟩] }

/-- Register a successful delivery. -/
def recordRx (sender receiver : NodeName) (hexData : String) (t : ℚ) (txId : Option ℕ) :
    PacketTracer :=
  let airtimeMs := (txId.bind tracer.txAirtime.get?).getD 0
  tracer.onTrace sender hexData t fun info trace =>
    { trace with
      hops := trace.hops ++
        [⟨t, sender, receiver, info.routeType, info.pathCount, txId, airtimeMs,
          hexData.length / 2⟩] }

theorem onTrace_txEvents (sender : NodeName) (hexData : String) (t : ℚ)
    (append : PacketInfo → PacketTrace → PacketTrace) :
    (tracer.onTrace sender hexData t append).txEvents = tracer.txEvents ∧
      (tracer.onTrace sender hexData t append).txCounter = tracer.txCounter := by
  unfold onTrace
  cases decodePacket hexData <;> exact ⟨rfl, rfl⟩

/-- What holds of new traces and is kept by `append` holds of all traces after a record. -/
theorem forall_onTrace {Q : String × PacketTrace → Prop} {sender : NodeName} {hexData : String}
    {t : ℚ} {append : PacketInfo → PacketTrace → PacketTrace}
    (fresh : ∀ info sender t, Q (packetFingerprint info, newTrace info sender t))
    (adds : ∀ {fp} info trace, Q (fp, trace) → Q (fp, append info trace))
    (all : ∀ entry ∈ tracer.traces.entries, Q entry) :
    ∀ entry ∈ (tracer.onTrace sender hexData t append).traces.entries, Q entry := by
  intro entry mem
  unfold onTrace at mem
  cases decoded : decodePacket hexData with
  | none =>
      simp only [decoded] at mem
      exact all entry mem
  | some info =>
      simp only [decoded] at mem
      rcases (Dict.mem_entries_set _).mp mem with rfl | ⟨old, -⟩
      · apply adds info _
        unfold traceOf
        cases known : tracer.traces.get? (packetFingerprint info) with
        | none => exact fresh info sender t
        | some trace => exact all _ (tracer.traces.mem_entries_iff.mpr known)
      · exact all entry old

/-- A registration leaves the traces, or adds a new one. -/
theorem traces_recordTx {sender : NodeName} {hexData : String} {t airtimeMs : ℚ}
    {txEnd : Option ℚ} :
    (tracer.recordTx sender hexData t airtimeMs txEnd).1.traces = tracer.traces ∨
      ∃ info, tracer.traces.get? (packetFingerprint info) = none ∧
        (tracer.recordTx sender hexData t airtimeMs txEnd).1.traces =
          tracer.traces.set (packetFingerprint info) (newTrace info sender t) := by
  unfold recordTx
  cases decodePacket hexData with
  | none => exact .inl rfl
  | some info =>
      cases known : tracer.traces.get? (packetFingerprint info) with
      | none => exact .inr ⟨info, known, by simp [known]⟩
      | some trace => exact .inl (by simp [known])

/-- What holds of new traces and of all old ones holds of all traces after a registration. -/
theorem forall_recordTx {Q : String × PacketTrace → Prop} {sender : NodeName} {hexData : String}
    {t airtimeMs : ℚ} {txEnd : Option ℚ}
    (fresh : ∀ info sender t, Q (packetFingerprint info, newTrace info sender t))
    (all : ∀ entry ∈ tracer.traces.entries, Q entry) :
    ∀ entry ∈ (tracer.recordTx sender hexData t airtimeMs txEnd).1.traces.entries, Q entry := by
  intro entry mem
  rcases tracer.traces_recordTx with same | ⟨info, -, added⟩
  · rw [same] at mem
    exact all entry mem
  · rw [added] at mem
    rcases (Dict.mem_entries_set _).mp mem with rfl | ⟨old, -⟩
    · exact fresh info sender t
    · exact all entry old

/-- When something holds of all traces after a record, where `append` keeps it on a condition. -/
theorem forall_onTrace_iff {P : PacketTrace → Prop} {C : PacketInfo → PacketTrace → Prop}
    {sender : NodeName} {hexData : String} {t : ℚ}
    {append : PacketInfo → PacketTrace → PacketTrace}
    (fresh : ∀ info sender t, P (newTrace info sender t))
    (adds : ∀ info trace, P (append info trace) ↔ P trace ∧ C info trace) :
    (∀ entry ∈ (tracer.onTrace sender hexData t append).traces.entries, P entry.2) ↔
      (∀ entry ∈ tracer.traces.entries, P entry.2) ∧
        ∀ info ∈ decodePacket hexData, C info (tracer.traceOf info sender t) := by
  unfold onTrace
  cases decodePacket hexData with
  | none => simp
  | some info =>
      have before := tracer.traces.forall_getD (packetFingerprint info) (fresh info sender t)
      simp only [Dict.forall_set, adds, Option.mem_some_iff, forall_eq']
      rw [before, ← traceOf]
      exact and_right_comm

/-- What holds of new traces holds of all traces after a registration when it held before. -/
theorem forall_recordTx_iff {P : PacketTrace → Prop} {sender : NodeName} {hexData : String}
    {t airtimeMs : ℚ} {txEnd : Option ℚ} (fresh : ∀ info sender t, P (newTrace info sender t)) :
    (∀ entry ∈ (tracer.recordTx sender hexData t airtimeMs txEnd).1.traces.entries, P entry.2) ↔
      ∀ entry ∈ tracer.traces.entries, P entry.2 := by
  rcases tracer.traces_recordTx with same | ⟨info, new, added⟩
  · rw [same]
  · rw [added, Dict.forall_set,
      tracer.traces.forall_getD (packetFingerprint info) (fresh info sender t), new]
    rfl

/-- A registration adds the trace of its packet. -/
theorem isSome_recordTx {sender : NodeName} {hexData : String} {t airtimeMs : ℚ}
    {txEnd : Option ℚ} (fp : String) :
    ((tracer.recordTx sender hexData t airtimeMs txEnd).1.traces.get? fp).isSome ↔
      (tracer.traces.get? fp).isSome ∨
        (decodePacket hexData).map packetFingerprint = some fp := by
  unfold recordTx
  cases decodePacket hexData with
  | none => simp
  | some info =>
      simp only [Option.map_some, Option.some.injEq]
      split
      · rename_i new
        rw [Dict.get?_set]
        split
        · rename_i same
          simp [same]
        · rename_i other
          have different : ¬ packetFingerprint info = fp := fun eq => other eq.symm
          simp [different]
      · rename_i old
        constructor
        · exact .inl
        · rintro (known | rfl)
          · exact known
          · exact Option.isSome_iff_ne_none.mpr fun missing => old (by simp [missing])

/-! ### Accounting -/

variable {tracer} {sender receiver : NodeName} {hexData : String} {t : ℚ}
  {f : PacketTrace → ℕ} (fresh : ∀ info sender t, f (newTrace info sender t) = 0)
include fresh

/-- A measure that is zero on new traces and that `append` raises by `n` grows by `n`
over all traces with every record of a decodable packet. -/
theorem sumBy_onTrace {append : PacketInfo → PacketTrace → PacketTrace} {n : ℕ}
    (decodable : (decodePacket hexData).isSome)
    (adds : ∀ info trace, f (append info trace) = f trace + n) :
    (tracer.onTrace sender hexData t append).traces.sumBy f = tracer.traces.sumBy f + n := by
  obtain ⟨info, decoded⟩ := Option.isSome_iff_exists.mp decodable
  simp only [onTrace, decoded]
  exact tracer.traces.sumBy_set_getD _ (fresh info sender t) (adds info)

/-- Registering a transmission adds no record to any trace. -/
theorem sumBy_recordTx {airtimeMs : ℚ} {txEnd : Option ℚ} :
    (tracer.recordTx sender hexData t airtimeMs txEnd).1.traces.sumBy f =
      tracer.traces.sumBy f := by
  rcases tracer.traces_recordTx with same | ⟨info, new, added⟩
  · rw [same]
  · rw [added, Dict.sumBy_set_of_none _ _ _ new, fresh, add_zero]

end PacketTracer

end MeshcoreSim
