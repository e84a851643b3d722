import MeshcoreSim.Tracer.ToDict

/-!
The broadcast steps of a packet (`workbench/trace_loader.py`, `broadcast_steps`).

* `partitions` — the steps are the hops of the packet: one group for each `tx_id` and one hop
  alone for each that has none.
* `byTxId_concat` — the groups come in the order in which their ids are first seen, so a further
  hop leaves them in the order of the ids when its own is there already or is the largest.
* `stepsByTxId_toDict` — what the viewer shows of a tracer; registrations, collisions and
  half-duplex drops do not change it, and `PacketTracer.stepsByTxId_recordRx` says when a
  reception keeps the order.
-/

namespace MeshcoreSim

open Lib
open scoped List

/-- A key of `seen`: the `tx_id` of a hop, or the identity of one that has none. Two hops are
the same object where they have the same place. -/
inductive StepKey where
  | tx (txId : ℕ)
  | object (place : ℕ)
  deriving DecidableEq, Repr

def StepKey.txId? : StepKey → Option ℕ
  | .tx txId => some txId
  | .object _ => none

/-- The key of a hop, with its place. -/
def stepKey (h : HopRecord × ℕ) : StepKey :=
  match h.1.txId with
  | some txId => .tx txId
  | none => .object h.2

/-- The groups of the loop over the hops. -/
def stepsOf (hops : List HopRecord) : List (List HopRecord) :=
  (Dict.groupBy stepKey hops.zipIdx).values.map (·.map Prod.fst)

/-- Group the hops of a packet into broadcast steps. -/
def broadcastSteps (pkt : PacketEntry) : List (List HopRecord) := stepsOf pkt.hops

/-- The `tx_id` of a step, which is that of its hops. -/
def stepTxId? (step : List HopRecord) : Option ℕ := step.head?.bind HopRecord.txId

/-- The steps are the hops, one group for each `tx_id` and one hop alone for each that has
none. -/
structure Partitions (hops : List HopRecord) (steps : List (List HopRecord)) : Prop where
  /-- no hop is lost or duplicated -/
  whole : steps.flatten ~ hops
  broadcasts : ∀ txId, steps.filter (stepTxId? · = some txId) =
    if txId ∈ hops.filterMap HopRecord.txId then [hops.filter (·.txId = some txId)] else []
  singletons : steps.filter (stepTxId? · = none) = (hops.filter (·.txId = none)).map ([·])

/-- The groups with `tx_id`s are listed in increasing order. -/
def ByTxId (steps : List (List HopRecord)) : Prop := (steps.filterMap stepTxId?).Pairwise (· < ·)

/-- A `tx_id` that is among those of the hops, or larger than all of them. -/
def Continues (hops : List HopRecord) (txId : Option ℕ) : Prop :=
  ∀ t ∈ txId, t ∈ hops.filterMap HopRecord.txId ∨ ∀ t' ∈ hops.filterMap HopRecord.txId, t' < t

instance (steps : List (List HopRecord)) : Decidable (ByTxId steps) :=
  inferInstanceAs (Decidable (List.Pairwise _ _))

instance (hops : List HopRecord) (txId : Option ℕ) : Decidable (Continues hops txId) :=
  inferInstanceAs (Decidable (∀ t ∈ txId, _))

/-! ### The groups -/

section Groups

variable {hops : List HopRecord} {hop : HopRecord} {k : StepKey} {place txId : ℕ}

/-- The keys of the groups, in their order. -/
def stepKeys (hops : List HopRecord) : List StepKey := (Dict.groupBy stepKey hops.zipIdx).keys

/-- The hops with a key. -/
def stepOf (hops : List HopRecord) (k : StepKey) : List HopRecord :=
  (hops.zipIdx.filter (stepKey · = k)).map Prod.fst

theorem stepsOf_eq (hops : List HopRecord) : stepsOf hops = (stepKeys hops).map (stepOf hops) := by
  rw [stepsOf, Dict.values_groupBy, List.map_map]
  rfl

theorem stepKey_eq_tx {h : HopRecord × ℕ} : stepKey h = .tx txId ↔ h.1.txId = some txId := by
  unfold stepKey
  split <;> simp_all

theorem stepKey_eq_object {h : HopRecord × ℕ} :
    stepKey h = .object place ↔ h.1.txId = none ∧ h.2 = place := by
  unfold stepKey
  split <;> simp_all

theorem mem_stepKeys : k ∈ stepKeys hops ↔ ∃ h ∈ hops.zipIdx, stepKey h = k :=
  Dict.mem_keys_groupBy

theorem nodup_stepKeys (hops : List HopRecord) : (stepKeys hops).Nodup :=
  (Dict.groupBy stepKey hops.zipIdx).nodup

theorem tx_mem_stepKeys : .tx txId ∈ stepKeys hops ↔ txId ∈ hops.filterMap HopRecord.txId := by
  rw [mem_stepKeys, List.mem_filterMap]
  constructor
  · rintro ⟨⟨hop, place⟩, mem, key⟩
    exact ⟨hop, List.fst_mem_of_mem_zipIdx mem, stepKey_eq_tx.mp key⟩
  · rintro ⟨hop, mem, has⟩
    obtain ⟨place, lt, rfl⟩ := List.getElem_of_mem mem
    exact ⟨(hops[place], place), List.mem_zipIdx_iff_getElem?.mpr (List.getElem?_eq_getElem lt),
      stepKey_eq_tx.mpr has⟩

/-- The group of a `tx_id` holds all hops with it. -/
theorem stepOf_tx (hops : List HopRecord) (txId : ℕ) :
    stepOf hops (.tx txId) = hops.filter (·.txId = some txId) := by
  conv_rhs => rw [← List.zipIdx_map_fst 0 hops, List.filter_map]
  simp only [stepOf, stepKey_eq_tx]
  rfl

/-- The group of a hop without `tx_id` is the hop alone. -/
theorem stepOf_object (mem : (hop, place) ∈ hops.zipIdx) (bare : hop.txId = none) :
    stepOf hops (.object place) = [hop] := by
  have only : ∀ h ∈ hops.zipIdx,
      decide (stepKey h = .object place) = decide (h = (hop, place)) := by
    rintro ⟨hop', place'⟩ mem'
    rw [decide_eq_decide, stepKey_eq_object, Prod.mk.injEq]
    constructor
    · rintro ⟨-, here⟩
      have there := List.mem_zipIdx_iff_getElem?.mp mem'
      rw [here] at there
      exact ⟨Option.some.inj (there.symm.trans (List.mem_zipIdx_iff_getElem?.mp mem)), here⟩
    · rintro ⟨rfl, rfl⟩
      exact ⟨bare, rfl⟩
  have nodup : hops.zipIdx.Nodup := by
    refine .of_map Prod.snd ?_
    rw [List.zipIdx_map_snd]
    exact List.nodup_range'
  rw [stepOf, List.filter_congr only, List.filter_eq, List.count_eq_one_of_mem nodup mem]
  rfl

/-- A step has the `tx_id` of its key. -/
theorem stepTxId?_stepOf (mem : k ∈ stepKeys hops) : stepTxId? (stepOf hops k) = k.txId? := by
  obtain ⟨⟨hop, place⟩, inHops, rfl⟩ := mem_stepKeys.mp mem
  cases id : hop.txId with
  | some txId =>
      rw [stepKey_eq_tx.mpr id, stepOf_tx]
      have here : hop ∈ hops.filter (·.txId = some txId) :=
        List.mem_filter.mpr ⟨List.fst_mem_of_mem_zipIdx inHops, by simp [id]⟩
      cases group : hops.filter (·.txId = some txId) with
      | nil => simp [group] at here
      | cons first rest =>
          have inGroup : first ∈ hops.filter (·.txId = some txId) := by simp [group]
          simpa [stepTxId?, StepKey.txId?] using (List.mem_filter.mp inGroup).2
  | none =>
      rw [stepKey_eq_object.mpr ⟨id, rfl⟩, stepOf_object inHops id]
      simp [stepTxId?, StepKey.txId?, id]

/-- The ids of the steps, in their order. -/
theorem filterMap_stepsOf (hops : List HopRecord) :
    (stepsOf hops).filterMap stepTxId? = (stepKeys hops).filterMap StepKey.txId? := by
  rw [stepsOf_eq, List.filterMap_map]
  exact List.filterMap_congr fun k mem => stepTxId?_stepOf mem

/-- The steps with an id are those of the keys with it. -/
theorem filter_stepsOf (hops : List HopRecord) (id : Option ℕ) :
    (stepsOf hops).filter (stepTxId? · = id) =
      ((stepKeys hops).filter (StepKey.txId? · = id)).map (stepOf hops) := by
  rw [stepsOf_eq, List.filter_map]
  refine congrArg _ (List.filter_congr fun k mem => ?_)
  simp only [Function.comp_def, stepTxId?_stepOf mem]

/-! ### One more hop -/

theorem zipIdx_concat (hops : List HopRecord) (hop : HopRecord) :
    (hops ++ [hop]).zipIdx = hops.zipIdx ++ [(hop, hops.length)] := by
  rw [List.zipIdx_append, List.zipIdx_singleton, Nat.zero_add]

theorem stepKeys_concat (hops : List HopRecord) (hop : HopRecord) :
    stepKeys (hops ++ [hop]) =
      if stepKey (hop, hops.length) ∈ stepKeys hops then stepKeys hops
      else stepKeys hops ++ [stepKey (hop, hops.length)] := by
  rw [stepKeys, zipIdx_concat, Dict.keys_groupBy_concat]
  rfl

/-- The identity of a further hop is a new key. -/
theorem object_notMem_stepKeys (hops : List HopRecord) :
    .object hops.length ∉ stepKeys hops := by
  intro mem
  obtain ⟨⟨hop, place⟩, inHops, key⟩ := mem_stepKeys.mp mem
  have here := List.mem_zipIdx_iff_getElem?.mp inHops
  rw [(stepKey_eq_object.mp key).2, List.getElem?_eq_none le_rfl] at here
  cases here

/-- The keys of the hops without `tx_id`, in the order of the hops. -/
theorem stepKeys_objects (hops : List HopRecord) :
    (stepKeys hops).filter (StepKey.txId? · = none) =
      (hops.zipIdx.filter (·.1.txId = none)).map (.object ·.2) := by
  induction hops using List.reverseRecOn with
  | nil => rfl
  | append_singleton hops hop ih =>
      rw [stepKeys_concat, zipIdx_concat, List.filter_append, List.map_append, ← ih]
      cases id : hop.txId with
      | some txId =>
          rw [stepKey_eq_tx.mpr id]
          split <;> simp [StepKey.txId?, id]
      | none =>
          rw [stepKey_eq_object.mpr ⟨id, rfl⟩, if_neg (object_notMem_stepKeys hops)]
          simp [StepKey.txId?, id]

/-- The steps are the hops of the packet, grouped by `tx_id`. -/
theorem partitions (hops : List HopRecord) : Partitions hops (stepsOf hops) where
  whole := by
    rw [stepsOf, ← List.map_flatten]
    refine ((Dict.flatten_values_groupBy stepKey hops.zipIdx).map Prod.fst).trans (.of_eq ?_)
    exact List.zipIdx_map_fst 0 hops
  broadcasts txId := by
    have only : ∀ k ∈ stepKeys hops, decide (k.txId? = some txId) = decide (k = .tx txId) := by
      intro k _
      cases k <;> simp [StepKey.txId?]
    rw [filter_stepsOf, List.filter_congr only, List.filter_eq, (nodup_stepKeys hops).count]
    simp only [tx_mem_stepKeys]
    split
    · rw [List.replicate_one, List.map_singleton, stepOf_tx]
    · rfl
  singletons := by
    rw [filter_stepsOf, stepKeys_objects, List.map_map]
    conv_rhs => rw [← List.zipIdx_map_fst 0 hops, List.filter_map, List.map_map]
    refine List.map_congr_left fun ⟨hop, place⟩ mem => ?_
    obtain ⟨inHops, bare⟩ := List.mem_filter.mp mem
    exact stepOf_object inHops (of_decide_eq_true bare)

theorem txId_mem_stepKeys :
    txId ∈ (stepKeys hops).filterMap StepKey.txId? ↔ txId ∈ hops.filterMap HopRecord.txId := by
  rw [← tx_mem_stepKeys, List.mem_filterMap]
  constructor
  · rintro ⟨k, mem, id⟩
    cases k with
    | tx txId' =>
        obtain rfl : txId' = txId := Option.some.inj id
        exact mem
    | object place => cases id
  · exact fun mem => ⟨.tx txId, mem, rfl⟩

/-- One more hop leaves the steps in the order of their ids when its id is there already or is
larger than all others. -/
theorem byTxId_concat (hops : List HopRecord) (hop : HopRecord) :
    ByTxId (stepsOf (hops ++ [hop])) ↔ ByTxId (stepsOf hops) ∧ Continues hops hop.txId := by
  unfold ByTxId Continues
  rw [filterMap_stepsOf, filterMap_stepsOf, stepKeys_concat]
  cases id : hop.txId with
  | none =>
      have silent : [StepKey.object hops.length].filterMap StepKey.txId? = [] := rfl
      rw [stepKey_eq_object.mpr ⟨id, rfl⟩, if_neg (object_notMem_stepKeys hops),
        List.filterMap_append, silent]
      simp
  | some txId =>
      have named : [StepKey.tx txId].filterMap StepKey.txId? = [txId] := rfl
      rw [stepKey_eq_tx.mpr id]
      simp only [tx_mem_stepKeys, Option.mem_some_iff, forall_eq']
      by_cases old : txId ∈ hops.filterMap HopRecord.txId
      · rw [if_pos old]
        exact ⟨fun sorted => ⟨sorted, .inl old⟩, And.left⟩
      · rw [if_neg old, List.filterMap_append, named, List.pairwise_append]
        simp only [List.pairwise_singleton, List.mem_singleton, forall_eq, txId_mem_stepKeys,
          true_and]
        exact and_congr_right fun _ => (or_iff_right old).symm

end Groups

/-! ### The traces -/

/-- The steps of a trace are in the order of their ids. -/
def PacketTrace.StepsByTxId (trace : PacketTrace) : Prop := ByTxId (stepsOf trace.hops)

namespace PacketTracer

variable {tracer : PacketTracer} {sender receiver : NodeName} {hexData : String} {t : ℚ}

def StepsByTxId (tracer : PacketTracer) : Prop :=
  ∀ entry ∈ tracer.traces.entries, entry.2.StepsByTxId

/-- The hops of a packet have this `tx_id`, or smaller ones only. -/
def Expects (tracer : PacketTracer) (hexData : String) (txId : Option ℕ) : Prop :=
  ∀ info ∈ decodePacket hexData, ∀ trace ∈ tracer.traces.get? (packetFingerprint info),
    Continues trace.hops txId

instance (tracer : PacketTracer) (hexData : String) (txId : Option ℕ) :
    Decidable (tracer.Expects hexData txId) :=
  inferInstanceAs (Decidable (∀ info ∈ decodePacket hexData, ∀ trace ∈ _, _))

/-- A new trace has no steps. -/
theorem stepsByTxId_newTrace (info : PacketInfo) (sender : NodeName) (t : ℚ) :
    (newTrace info sender t).StepsByTxId := .nil

/-- Registrations add no hops. -/
theorem stepsByTxId_recordTx {airtimeMs : ℚ} {txEnd : Option ℚ} :
    (tracer.recordTx sender hexData t airtimeMs txEnd).1.StepsByTxId ↔ tracer.StepsByTxId :=
  tracer.forall_recordTx_iff stepsByTxId_newTrace

/-- A record that is no hop changes no steps. -/
theorem stepsByTxId_onTrace {append : PacketInfo → PacketTrace → PacketTrace}
    (same : ∀ info trace, (append info trace).hops = trace.hops) :
    (tracer.onTrace sender hexData t append).StepsByTxId ↔ tracer.StepsByTxId := by
  have kept : ∀ info trace, (append info trace).StepsByTxId ↔ trace.StepsByTxId ∧ True := by
    simp [PacketTrace.StepsByTxId, same]
  exact (tracer.forall_onTrace_iff stepsByTxId_newTrace kept).trans
    (and_iff_left fun _ _ => trivial)

theorem stepsByTxId_recordCollision {txId interfererTxId : Option ℕ}
    {interferer : Option NodeName} {overlapS : ℚ} :
    (tracer.recordCollision sender receiver hexData t txId interferer interfererTxId
      overlapS).StepsByTxId ↔ tracer.StepsByTxId :=
  stepsByTxId_onTrace fun _ _ => rfl

theorem stepsByTxId_recordHalfduplex {txId blockerTxId : Option ℕ} :
    (tracer.recordHalfduplex sender receiver hexData t txId blockerTxId).StepsByTxId ↔
      tracer.StepsByTxId :=
  stepsByTxId_onTrace fun _ _ => rfl

/-- A reception keeps the order when its packet expects it. -/
theorem stepsByTxId_recordRx {txId : Option ℕ} :
    (tracer.recordRx sender receiver hexData t txId).StepsByTxId ↔
      tracer.StepsByTxId ∧ tracer.Expects hexData txId := by
  have recorded : (tracer.recordRx sender receiver hexData t txId).StepsByTxId ↔
      tracer.StepsByTxId ∧
        ∀ info ∈ decodePacket hexData, Continues (tracer.traceOf info sender t).hops txId :=
    tracer.forall_onTrace_iff (C := fun _ trace => Continues trace.hops txId)
      stepsByTxId_newTrace fun info trace => byTxId_concat trace.hops _
  refine recorded.trans (and_congr_right fun _ => forall₂_congr fun info _ => ?_)
  unfold traceOf
  cases tracer.traces.get? (packetFingerprint info) with
  | none => simp [Continues, newTrace]
  | some trace => simp

end PacketTracer

/-- The steps that the viewer shows are the hops of every packet, grouped by `tx_id` and in the
order of the ids. -/
def TraceDict.StepsByTxId (trace : TraceDict) : Prop :=
  ∀ pkt ∈ trace.packets, Partitions pkt.hops (broadcastSteps pkt) ∧ ByTxId (broadcastSteps pkt)

/-- They are always the hops; their order is that of the traces. -/
theorem stepsByTxId_toDict (tracer : PacketTracer) (totalSimSecs : ℚ) :
    (tracer.toDict totalSimSecs).StepsByTxId ↔ tracer.StepsByTxId := by
  unfold TraceDict.StepsByTxId PacketTracer.StepsByTxId PacketTrace.StepsByTxId broadcastSteps
  simp only [partitions, true_and, PacketTracer.toDict, List.mem_mergeSort, Dict.values,
    List.map_map, List.forall_mem_map]
  rfl

end MeshcoreSim
