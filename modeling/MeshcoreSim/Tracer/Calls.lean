import Mathlib.Algebra.Order.Ring.Rat
import MeshcoreSim.Tracer

/-!
Sequences of recording calls, and the records that they leave.

`recordAll` runs any sequence of the four recording methods on a new tracer. A call makes
at most one record, under the fingerprint of its packet (`recordOf`), and
`shown_recordAll` says that the traces hold exactly these records, each as often as it was
made. The transmissions of a sequence are numbered from 1 on (`transmissions`), and
`registered_recordAll` says that the tracer has registered exactly these. Two facts are kept
by every call: a trace is filed under its own fingerprint (`Keyed`), and a positive airtime
on a hop is the airtime of the transmission that the hop names (`AirtimesKnown`).
-/

namespace MeshcoreSim

open Lib
open scoped List

/-- One call of a recording method, with its arguments. -/
inductive TracerCall where
  | recordTx (sender : NodeName) (hexData : String) (t airtimeMs : ℚ) (txEnd : Option ℚ)
  | recordRx (sender receiver : NodeName) (hexData : String) (t : ℚ) (txId : Option ℕ)
  | recordCollision (sender receiver : NodeName) (hexData : String) (t : ℚ) (txId : Option ℕ)
      (interferer : Option NodeName) (interfererTxId : Option ℕ) (overlapS : ℚ)
  | recordHalfduplex (sender receiver : NodeName) (hexData : String) (t : ℚ)
      (txId blockerTxId : Option ℕ)
  deriving DecidableEq, Repr

/-- The packet of a call. -/
def TracerCall.hexData : TracerCall → String
  | .recordTx _ hexData .. => hexData
  | .recordRx _ _ hexData .. => hexData
  | .recordCollision _ _ hexData .. => hexData
  | .recordHalfduplex _ _ hexData .. => hexData

/-- What a record says beside its time, its nodes and its transmission. -/
inductive EventKind where
  | hop (airtimeMs : ℚ)
  | collision (interferer : Option NodeName) (interfererTxId : Option ℕ) (overlapS : ℚ)
  | halfduplex (blockerTxId : Option ℕ)
  deriving DecidableEq, Repr

/-- A hop, collision or half-duplex record, as the viewer shows it. -/
structure TraceRecord where
  kind : EventKind
  t : ℚ
  sender : NodeName
  receiver : NodeName
  txId : Option ℕ
  deriving DecidableEq, Repr

def HopRecord.shown (hop : HopRecord) : TraceRecord :=
  ⟨.hop hop.airtimeMs, hop.t, hop.sender, hop.receiver, hop.txId⟩

def CollisionRecord.shown (col : CollisionRecord) : TraceRecord :=
  ⟨.collision col.interferer col.interfererTxId col.overlapS, col.t, col.sender, col.receiver,
    col.txId⟩

def HalfduplexRecord.shown (hd : HalfduplexRecord) : TraceRecord :=
  ⟨.halfduplex hd.blockerTxId, hd.t, hd.sender, hd.receiver, hd.txId⟩

def PacketTrace.shown (trace : PacketTrace) : List TraceRecord :=
  trace.hops.map HopRecord.shown ++ trace.collisions.map CollisionRecord.shown ++
    trace.halfduplex.map HalfduplexRecord.shown

/-- A positive airtime on a hop is that of the transmission that the hop names. -/
def PacketTrace.AirtimesIn (airtimes : Dict ℕ ℚ) (trace : PacketTrace) : Prop :=
  ∀ hop ∈ trace.hops, 0 < hop.airtimeMs →
    ∃ txId, hop.txId = some txId ∧ airtimes.get? txId = some hop.airtimeMs

namespace PacketTracer

variable (tracer : PacketTracer)

def call : TracerCall → PacketTracer
  | .recordTx sender hexData t airtimeMs txEnd =>
      (tracer.recordTx sender hexData t airtimeMs txEnd).1
  | .recordRx sender receiver hexData t txId => tracer.recordRx sender receiver hexData t txId
  | .recordCollision sender receiver hexData t txId interferer interfererTxId overlapS =>
      tracer.recordCollision sender receiver hexData t txId interferer interfererTxId overlapS
  | .recordHalfduplex sender receiver hexData t txId blockerTxId =>
      tracer.recordHalfduplex sender receiver hexData t txId blockerTxId

/-- A packet that cannot be decoded leaves no mark. -/
theorem call_of_decodePacket_none {call : TracerCall} (bad : decodePacket call.hexData = none) :
    tracer.call call = tracer := by
  cases call with
  | recordTx =>
      simp only [TracerCall.hexData] at bad
      simp only [PacketTracer.call, PacketTracer.recordTx, bad]
  | recordRx =>
      simp only [TracerCall.hexData] at bad
      simp only [PacketTracer.call, PacketTracer.recordRx, onTrace, bad]
  | recordCollision =>
      simp only [TracerCall.hexData] at bad
      simp only [PacketTracer.call, PacketTracer.recordCollision, onTrace, bad]
  | recordHalfduplex =>
      simp only [TracerCall.hexData] at bad
      simp only [PacketTracer.call, PacketTracer.recordHalfduplex, onTrace, bad]

/-- The tracer after a sequence of calls. -/
def recordAll (calls : List TracerCall) : PacketTracer := calls.foldl call init

theorem recordAll_concat (calls : List TracerCall) (last : TracerCall) :
    recordAll (calls ++ [last]) = (recordAll calls).call last := by
  simp [recordAll]

/-- What holds of a new tracer and is kept by every call holds after all of them. -/
theorem recordAll_induction {P : PacketTracer → Prop} (start : P init)
    (keeps : ∀ tracer call, P tracer → P (tracer.call call)) (calls : List TracerCall) :
    P (recordAll calls) :=
  List.foldlRecOn calls call start fun tracer holds call _ => keeps tracer call holds

/-- All records of all traces, each with the fingerprint that its trace is filed under. -/
def shown : List (String × TraceRecord) :=
  tracer.traces.entries.flatMap fun entry => entry.2.shown.map fun record => (entry.1, record)

/-- The record that a call makes, with the fingerprint of the packet of the call. -/
def recordOf : TracerCall → Option (String × TraceRecord)
  | .recordTx .. => none
  | .recordRx sender receiver hexData t txId =>
      (decodePacket hexData).map fun info => (packetFingerprint info,
        ⟨.hop ((txId.bind tracer.txAirtime.get?).getD 0), t, sender, receiver, txId⟩)
  | .recordCollision sender receiver hexData t txId interferer interfererTxId overlapS =>
      (decodePacket hexData).map fun info => (packetFingerprint info,
        ⟨.collision interferer interfererTxId overlapS, t, sender, receiver, txId⟩)
  | .recordHalfduplex sender receiver hexData t txId blockerTxId =>
      (decodePacket hexData).map fun info => (packetFingerprint info,
        ⟨.halfduplex blockerTxId, t, sender, receiver, txId⟩)

/-- The records that a sequence of calls makes, in the order of the calls. -/
def recordsOf : PacketTracer → List TracerCall → List (String × TraceRecord)
  | _, [] => []
  | tracer, call :: rest => (tracer.recordOf call).toList ++ recordsOf (tracer.call call) rest

/-! ### Every record is kept, once -/

theorem shown_onTrace {sender : NodeName} {hexData : String} {t : ℚ}
    {append : PacketInfo → PacketTrace → PacketTrace} (record : TraceRecord)
    (adds : ∀ info trace, (append info trace).shown.Perm (record :: trace.shown)) :
    (tracer.onTrace sender hexData t append).shown.Perm
      (((decodePacket hexData).map fun info => (packetFingerprint info, record)).toList ++
        tracer.shown) := by
  unfold onTrace
  cases decodePacket hexData with
  | none => exact .refl _
  | some info =>
      apply tracer.traces.flatMap_set_getD (packetFingerprint info)
      · rfl
      · intro trace
        exact (adds info trace).map _

theorem shown_recordTx {sender : NodeName} {hexData : String} {t airtimeMs : ℚ}
    {txEnd : Option ℚ} : (tracer.recordTx sender hexData t airtimeMs txEnd).1.shown =
      tracer.shown := by
  unfold shown
  rcases tracer.traces_recordTx with same | ⟨info, new, added⟩
  · rw [same]
  · rw [added, Dict.entries_set_of_none _ _ new, List.flatMap_append]
    simp [PacketTrace.shown, newTrace]

/-- A call adds its record and loses none. -/
theorem shown_call (call : TracerCall) :
    (tracer.call call).shown.Perm ((tracer.recordOf call).toList ++ tracer.shown) := by
  cases call with
  | recordTx => exact .of_eq (tracer.shown_recordTx)
  | recordRx =>
      apply tracer.shown_onTrace
      intro info trace
      simp only [PacketTrace.shown, List.map_append, List.append_assoc, List.map_cons, List.map_nil]
      exact List.perm_middle
  | recordCollision =>
      apply tracer.shown_onTrace
      intro info trace
      simp only [PacketTrace.shown, List.map_append, List.append_assoc, List.map_cons, List.map_nil]
      exact (List.perm_middle.append_left _).trans List.perm_middle
  | recordHalfduplex =>
      apply tracer.shown_onTrace
      intro info trace
      simp only [PacketTrace.shown, List.map_append, ← List.append_assoc, List.map_cons,
        List.map_nil]
      exact List.perm_append_singleton _ _

theorem shown_foldl_call (calls : List TracerCall) :
    (calls.foldl call tracer).shown.Perm (recordsOf tracer calls ++ tracer.shown) := by
  induction calls generalizing tracer with
  | nil => exact .refl _
  | cons call rest ih =>
      calc ((call :: rest).foldl PacketTracer.call tracer).shown
        _ ~ recordsOf (tracer.call call) rest ++ (tracer.call call).shown := ih _
        _ ~ recordsOf (tracer.call call) rest ++
              ((tracer.recordOf call).toList ++ tracer.shown) :=
            (tracer.shown_call call).append_left _
        _ = recordsOf (tracer.call call) rest ++ (tracer.recordOf call).toList ++ tracer.shown :=
            (List.append_assoc ..).symm
        _ ~ recordsOf tracer (call :: rest) ++ tracer.shown :=
            List.perm_append_comm.append_right _

/-- The traces hold exactly the records that the calls have made. -/
theorem shown_recordAll (calls : List TracerCall) :
    (recordAll calls).shown.Perm (recordsOf init calls) := by
  have all := shown_foldl_call init calls
  rwa [show init.shown = [] from rfl, List.append_nil] at all

/-! ### What every call keeps -/

/-- Every trace is filed under its fingerprint. -/
def Keyed : Prop := ∀ entry ∈ tracer.traces.entries, entry.2.fingerprint = entry.1

variable {tracer}

theorem Keyed.call (keyed : tracer.Keyed) (call : TracerCall) : (tracer.call call).Keyed := by
  cases call with
  | recordTx => exact tracer.forall_recordTx (fun _ _ _ => rfl) keyed
  | recordRx => exact tracer.forall_onTrace (fun _ _ _ => rfl) (fun _ _ same => same) keyed
  | recordCollision =>
      exact tracer.forall_onTrace (fun _ _ _ => rfl) (fun _ _ same => same) keyed
  | recordHalfduplex =>
      exact tracer.forall_onTrace (fun _ _ _ => rfl) (fun _ _ same => same) keyed

theorem keyed_recordAll (calls : List TracerCall) : (recordAll calls).Keyed :=
  recordAll_induction (P := Keyed) (fun _ mem => nomatch mem) (fun _ call keyed => keyed.call call)
    calls

/-- Of all traces. -/
def AirtimesKnown (tracer : PacketTracer) : Prop :=
  ∀ entry ∈ tracer.traces.entries, entry.2.AirtimesIn tracer.txAirtime

end PacketTracer

/-! ### Transmissions -/

/-- What `recordTx` is told about a transmission, with the fingerprint of its packet. -/
structure Transmission where
  fingerprint : String
  sender : NodeName
  t : ℚ
  airtimeMs : ℚ
  txEnd : Option ℚ
  deriving DecidableEq, Repr

/-- The transmission that a call registers. -/
def TracerCall.transmission? : TracerCall → Option Transmission
  | .recordTx sender hexData t airtimeMs txEnd =>
      (decodePacket hexData).map fun info =>
        ⟨packetFingerprint info, sender, t, airtimeMs, txEnd⟩
  | _ => none

/-- All TX events of a sequence of calls, with their `tx_id`s. -/
def transmissions (calls : List TracerCall) : List (ℕ × Transmission) :=
  (calls.filterMap TracerCall.transmission?).mapIdx fun i tx => (i + 1, tx)

theorem transmissions_concat (calls : List TracerCall) (last : TracerCall) :
    transmissions (calls ++ [last]) = transmissions calls ++
      (last.transmission?.map fun tx => ((transmissions calls).length + 1, tx)).toList := by
  unfold transmissions
  rw [List.filterMap_append, List.mapIdx_append, List.length_mapIdx]
  cases known : last.transmission? <;> simp [known]

theorem keys_transmissions (calls : List TracerCall) :
    (transmissions calls).map Prod.fst =
      (List.range (transmissions calls).length).map (· + 1) := by
  unfold transmissions
  apply List.ext_getElem
  · simp
  · intro i _ _
    simp

namespace PacketTracer

/-- The tracer has registered the transmissions `txs`. -/
structure Registered (txs : List (ℕ × Transmission)) (tracer : PacketTracer) : Prop where
  counter : tracer.txCounter = txs.length
  airtimes : tracer.txAirtime.entries = txs.map fun (txId, tx) => (txId, tx.airtimeMs)
  events : tracer.txEvents.entries =
    txs.map fun (txId, tx) => (txId, ⟨tx.sender, tx.t, tx.txEnd⟩)

variable {tracer : PacketTracer} {txs : List (ℕ × Transmission)}

theorem Registered.onTrace (registered : tracer.Registered txs) {sender : NodeName}
    {hexData : String} {t : ℚ} {append : PacketInfo → PacketTrace → PacketTrace} :
    (tracer.onTrace sender hexData t append).Registered txs := by
  unfold PacketTracer.onTrace
  cases decodePacket hexData with
  | none => exact registered
  | some info => exact ⟨registered.counter, registered.airtimes, registered.events⟩

/-- An id that has not been handed out yet is in neither table. -/
theorem Registered.fresh (registered : tracer.Registered txs)
    (numbered : txs.map Prod.fst = (List.range txs.length).map (· + 1)) {txId : ℕ}
    (later : tracer.txCounter < txId) :
    tracer.txAirtime.get? txId = none ∧ tracer.txEvents.get? txId = none := by
  have notYet : ∀ entry ∈ txs, entry.1 ≠ txId := by
    rintro entry mem rfl
    have known : entry.1 ∈ txs.map Prod.fst := List.mem_map_of_mem mem
    rw [numbered] at known
    obtain ⟨i, below, same⟩ := List.mem_map.mp known
    have := List.mem_range.mp below
    have := registered.counter
    omega
  constructor
  · rw [Dict.get?_eq_none_iff, registered.airtimes]
    exact List.forall_mem_map.mpr notYet
  · rw [Dict.get?_eq_none_iff, registered.events]
    exact List.forall_mem_map.mpr notYet

theorem registered_recordAll (calls : List TracerCall) :
    (recordAll calls).Registered (transmissions calls) := by
  induction calls using List.reverseRecOn with
  | nil => exact ⟨rfl, rfl, rfl⟩
  | append_singleton calls last ih =>
      rw [recordAll_concat, transmissions_concat]
      cases last with
      | recordTx sender hexData t airtimeMs txEnd =>
          obtain ⟨newAirtime, newEvent⟩ := ih.fresh (keys_transmissions calls) (Nat.lt_succ_self _)
          simp only [call, recordTx, TracerCall.transmission?]
          cases decodePacket hexData with
          | none => simpa using ih
          | some info =>
              refine ⟨?_, ?_, ?_⟩
              · simp [ih.counter]
              · rw [Dict.entries_set_of_none _ _ newAirtime, ih.airtimes, ih.counter]
                simp
              · rw [Dict.entries_set_of_none _ _ newEvent, ih.events, ih.counter]
                simp
      | recordRx =>
          simp only [call, recordRx, TracerCall.transmission?, Option.map_none,
            Option.toList_none, List.append_nil]
          exact ih.onTrace
      | recordCollision =>
          simp only [call, recordCollision, TracerCall.transmission?, Option.map_none,
            Option.toList_none, List.append_nil]
          exact ih.onTrace
      | recordHalfduplex =>
          simp only [call, recordHalfduplex, TracerCall.transmission?, Option.map_none,
            Option.toList_none, List.append_nil]
          exact ih.onTrace

theorem airtimesIn_newTrace (airtimes : Dict ℕ ℚ) (info : PacketInfo) (sender : NodeName)
    (t : ℚ) : (newTrace info sender t).AirtimesIn airtimes := by
  intro hop mem
  cases mem

theorem AirtimesKnown.onTrace (known : tracer.AirtimesKnown) {sender : NodeName}
    {hexData : String} {t : ℚ} {append : PacketInfo → PacketTrace → PacketTrace}
    (keeps : ∀ info trace, trace.AirtimesIn tracer.txAirtime →
      (append info trace).AirtimesIn tracer.txAirtime) :
    (tracer.onTrace sender hexData t append).AirtimesKnown := by
  have sameTable : (tracer.onTrace sender hexData t append).txAirtime = tracer.txAirtime := by
    unfold PacketTracer.onTrace
    cases decodePacket hexData <;> rfl
  unfold AirtimesKnown
  rw [sameTable]
  exact tracer.forall_onTrace (airtimesIn_newTrace _) keeps known

theorem airtimesKnown_recordAll (calls : List TracerCall) : (recordAll calls).AirtimesKnown := by
  induction calls using List.reverseRecOn with
  | nil =>
      intro entry mem
      cases mem
  | append_singleton calls last ih =>
      rw [recordAll_concat]
      cases last with
      | recordTx sender hexData t airtimeMs txEnd =>
          have registered := registered_recordAll calls
          have fresh := (registered.fresh (keys_transmissions calls) (Nat.lt_succ_self _)).1
          refine forall_recordTx (recordAll calls) (airtimesIn_newTrace _) ?_
          intro entry mem hop inTrace positive
          obtain ⟨txId, named, known⟩ := ih entry mem hop inTrace positive
          refine ⟨txId, named, ?_⟩
          simp only [call, recordTx]
          cases decodePacket hexData with
          | none => exact known
          | some info =>
              have older : txId ≠ (recordAll calls).txCounter + 1 := by
                rintro rfl
                rw [fresh] at known
                cases known
              exact (Dict.get?_set_of_ne _ _ older).trans known
      | recordRx sender receiver hexData t txId =>
          apply ih.onTrace
          intro info trace before hop mem positive
          rcases List.mem_append.mp mem with old | new
          · exact before hop old positive
          · obtain rfl := List.mem_singleton.mp new
            cases txId with
            | none => exact absurd positive (lt_irrefl _)
            | some txId =>
                refine ⟨txId, rfl, ?_⟩
                cases known : (recordAll calls).txAirtime.get? txId with
                | none => simp [known] at positive
                | some airtimeMs => simp [known]
      | recordCollision => exact ih.onTrace fun _ _ before => before
      | recordHalfduplex => exact ih.onTrace fun _ _ before => before

end PacketTracer

end MeshcoreSim
