import MeshcoreSim.Packet.Wire
import MeshcoreSim.Tracer.ToDict

/-!
Flood- and direct-routed packets in the summary of `report` and in `to_dict`.

Both call a packet flood-routed if one of its hops was, and everything else is direct-routed. A hop
is a delivery, so the class is that of the deliveries and not that of the transmissions.

* `hopRoutes_recordAll` — the hops of a packet have the route types of its `record_rx` calls.
* `classifiesFloods_iff` — when all packets that were only ever flooded are classified as floods.
-/

namespace MeshcoreSim

open Lib

/-- The summary section of `report`. -/
structure RouteSummary where
  uniquePackets : ℕ
  totalDeliveries : ℕ
  floodRouted : ℕ
  directRouted : ℕ
  floodAmplification : ℚ
  deriving DecidableEq, Repr

def routeSummary (traces : List PacketTrace) : RouteSummary :=
  let totalPkts := traces.length
  let totalHops := (traces.map PacketTrace.witnessCount).sum
  let floodPkts := traces.countP PacketTrace.isFlood
  { uniquePackets := totalPkts
    totalDeliveries := totalHops
    floodRouted := floodPkts
    directRouted := totalPkts - floodPkts
    floodAmplification := totalHops / totalPkts }

/-- `none` is "(no packets recorded)". -/
def PacketTracer.reportSummary (tracer : PacketTracer) : Option RouteSummary :=
  if tracer.traces.values.isEmpty then none else some (routeSummary tracer.traces.values)

/-! ### The routes of a packet -/

def IsFloodRoute (routeType : ℕ) : Prop :=
  routeType = routeTypeFlood ∨ routeType = routeTypeTransportFlood

instance (routeType : ℕ) : Decidable (IsFloodRoute routeType) :=
  inferInstanceAs (Decidable (_ ∨ _))

/-- The route type of a packet, if it is the packet `fp`. -/
def routeOf? (fp hexData : String) : Option ℕ :=
  (decodePacket hexData).bind fun info =>
    if packetFingerprint info = fp then some info.routeType else none

def TracerCall.sentRoute? (fp : String) : TracerCall → Option ℕ
  | .recordTx _ hexData .. => routeOf? fp hexData
  | _ => none

def TracerCall.heardRoute? (fp : String) : TracerCall → Option ℕ
  | .recordRx _ _ hexData .. => routeOf? fp hexData
  | _ => none

/-- The route types of the transmissions of a packet. -/
def sentRoutes (calls : List TracerCall) (fp : String) : List ℕ :=
  calls.filterMap (TracerCall.sentRoute? fp)

/-- The route types of the deliveries of a packet. -/
def heardRoutes (calls : List TracerCall) (fp : String) : List ℕ :=
  calls.filterMap (TracerCall.heardRoute? fp)

/-- The fingerprints of the packets that a sequence of calls is about. -/
def packetsOf (calls : List TracerCall) : List String :=
  calls.filterMap fun call => (decodePacket call.hexData).map packetFingerprint

/-- No transmission of the packet was direct-routed. -/
def OnlyFlooded (calls : List TracerCall) (fp : String) : Prop :=
  ∀ routeType ∈ sentRoutes calls fp, IsFloodRoute routeType

instance (calls : List TracerCall) (fp : String) : Decidable (OnlyFlooded calls fp) :=
  inferInstanceAs (Decidable (∀ routeType ∈ sentRoutes calls fp, IsFloodRoute routeType))

/-- The packet was delivered by a flood-routed transmission. -/
def FloodHeard (calls : List TracerCall) (fp : String) : Prop :=
  ∃ routeType ∈ heardRoutes calls fp, IsFloodRoute routeType

namespace PacketTracer

/-- The packet `fp` adds one to the flood-routed packets of the report and nothing to the
direct-routed ones, and is a flood in the trace file. -/
structure ClassifiedAsFlood (tracer : PacketTracer) (totalSimSecs : ℚ) (fp : String) : Prop where
  counted : ∃ summary, tracer.reportSummary = some summary ∧
    summary.floodRouted = (routeSummary (tracer.traces.erase fp).values).floodRouted + 1 ∧
    summary.directRouted = (routeSummary (tracer.traces.erase fp).values).directRouted
  shown : ∃ pkt ∈ (tracer.toDict totalSimSecs).packets, pkt.fingerprint = fp
  isFlood : ∀ pkt ∈ (tracer.toDict totalSimSecs).packets, pkt.fingerprint = fp →
    pkt.isFlood = true

/-- Every packet whose transmissions were all flood-routed is classified as a flood. -/
def ClassifiesFloods (calls : List TracerCall) : Prop :=
  ∀ fp ∈ packetsOf calls, OnlyFlooded calls fp →
    ∀ totalSimSecs, (recordAll calls).ClassifiedAsFlood totalSimSecs fp

/-! ### Hops are deliveries -/

/-- The route types of the hops of a packet. -/
def hopRoutes (tracer : PacketTracer) (fp : String) : List ℕ :=
  ((tracer.traces.get? fp).map fun trace => trace.hops.map HopRecord.routeType).getD []

variable {tracer : PacketTracer} {fp : String}

theorem hopRoutes_onTrace {sender : NodeName} {hexData : String} {t : ℚ}
    {append : PacketInfo → PacketTrace → PacketTrace} (route? : PacketInfo → Option ℕ)
    (adds : ∀ info trace, (append info trace).hops.map HopRecord.routeType =
      trace.hops.map HopRecord.routeType ++ (route? info).toList) :
    (tracer.onTrace sender hexData t append).hopRoutes fp = tracer.hopRoutes fp ++
      ((decodePacket hexData).bind fun info =>
        if packetFingerprint info = fp then route? info else none).toList := by
  unfold onTrace
  cases decodePacket hexData with
  | none => simp
  | some info =>
      simp only [hopRoutes, Dict.get?_set, Option.bind_some]
      by_cases same : fp = packetFingerprint info
      · subst same
        simp only [if_true, Option.map_some, Option.getD_some, adds, traceOf]
        cases tracer.traces.get? (packetFingerprint info) <;> rfl
      · rw [if_neg same, if_neg (Ne.symm same), Option.toList_none, List.append_nil]

theorem hopRoutes_onTrace_of_keeps {sender : NodeName} {hexData : String} {t : ℚ}
    {append : PacketInfo → PacketTrace → PacketTrace}
    (keeps : ∀ info trace, (append info trace).hops = trace.hops) :
    (tracer.onTrace sender hexData t append).hopRoutes fp = tracer.hopRoutes fp := by
  have adds : ∀ info trace, (append info trace).hops.map HopRecord.routeType =
      trace.hops.map HopRecord.routeType ++ (none : Option ℕ).toList := by
    intro info trace
    rw [keeps, Option.toList_none, List.append_nil]
  rw [hopRoutes_onTrace (fun _ => none) adds]
  cases decodePacket hexData <;> simp

theorem hopRoutes_recordTx {sender : NodeName} {hexData : String} {t airtimeMs : ℚ}
    {txEnd : Option ℚ} :
    (tracer.recordTx sender hexData t airtimeMs txEnd).1.hopRoutes fp = tracer.hopRoutes fp := by
  unfold hopRoutes
  rcases tracer.traces_recordTx with same | ⟨info, new, added⟩
  · rw [same]
  · rw [added, Dict.get?_set]
    split_ifs with same
    · rw [same, new]
      rfl
    · rfl

/-- Only a delivery adds a hop, and the hop has its route type. -/
theorem hopRoutes_call (call : TracerCall) :
    (tracer.call call).hopRoutes fp = tracer.hopRoutes fp ++ (call.heardRoute? fp).toList := by
  cases call with
  | recordTx => exact hopRoutes_recordTx.trans (List.append_nil _).symm
  | recordRx =>
      apply hopRoutes_onTrace fun info => some info.routeType
      intro info trace
      exact List.map_append
  | recordCollision =>
      simp only [call, recordCollision, TracerCall.heardRoute?, Option.toList_none, List.append_nil]
      exact hopRoutes_onTrace_of_keeps fun _ _ => rfl
  | recordHalfduplex =>
      simp only [call, recordHalfduplex, TracerCall.heardRoute?, Option.toList_none,
        List.append_nil]
      exact hopRoutes_onTrace_of_keeps fun _ _ => rfl

/-- The hops of a packet have the route types of its deliveries. -/
theorem hopRoutes_recordAll (calls : List TracerCall) (fp : String) :
    (recordAll calls).hopRoutes fp = heardRoutes calls fp := by
  induction calls using List.reverseRecOn with
  | nil => rfl
  | append_singleton calls last ih =>
      rw [recordAll_concat, hopRoutes_call, ih, heardRoutes, heardRoutes, List.filterMap_append]
      simp only [List.filterMap_cons, List.filterMap_nil]
      cases last.heardRoute? fp <;> rfl

theorem isFlood_iff {trace : PacketTrace} (known : tracer.traces.get? fp = some trace) :
    trace.isFlood = true ↔ ∃ routeType ∈ tracer.hopRoutes fp, IsFloodRoute routeType := by
  rw [hopRoutes, known, Option.map_some, Option.getD_some, PacketTrace.isFlood]
  simp [IsFloodRoute]

/-! ### Packets have traces -/

theorem isSome_get?_onTrace {sender : NodeName} {hexData : String} {t : ℚ}
    {append : PacketInfo → PacketTrace → PacketTrace} :
    ((tracer.onTrace sender hexData t append).traces.get? fp).isSome = true ↔
      (tracer.traces.get? fp).isSome = true ∨
        (decodePacket hexData).map packetFingerprint = some fp := by
  unfold onTrace
  cases decodePacket hexData with
  | none => simp
  | some info =>
      rw [Dict.get?_set, Option.map_some, Option.some.injEq]
      split_ifs with same
      · simp [same]
      · simp [Ne.symm same]

theorem isSome_call (call : TracerCall) :
    ((tracer.call call).traces.get? fp).isSome = true ↔
      (tracer.traces.get? fp).isSome = true ∨
        (decodePacket call.hexData).map packetFingerprint = some fp := by
  cases call with
  | recordTx => exact tracer.isSome_recordTx fp
  | recordRx => exact isSome_get?_onTrace
  | recordCollision => exact isSome_get?_onTrace
  | recordHalfduplex => exact isSome_get?_onTrace

/-- The packets that can be decoded are the ones that have a trace. -/
theorem isSome_recordAll_iff (calls : List TracerCall) (fp : String) :
    ((recordAll calls).traces.get? fp).isSome = true ↔ fp ∈ packetsOf calls := by
  induction calls using List.reverseRecOn with
  | nil => simp [recordAll, init, packetsOf, Dict.get?, Dict.empty]
  | append_singleton calls last ih =>
      rw [recordAll_concat, isSome_call, ih]
      simp [packetsOf, List.filterMap_append]

/-! ### Counting -/

/-- A trace adds one to the count of its class. -/
theorem counted_iff {traces : Dict String PacketTrace} {trace : PacketTrace}
    (known : traces.get? fp = some trace) :
    ((routeSummary traces.values).floodRouted =
        (routeSummary (traces.erase fp).values).floodRouted + 1 ∧
      (routeSummary traces.values).directRouted =
        (routeSummary (traces.erase fp).values).directRouted) ↔
      trace.isFlood = true := by
  have perm := traces.values_perm_erase known
  have total := perm.length_eq
  have floods := perm.countP_eq PacketTrace.isFlood
  rw [List.countP_cons] at floods
  rw [List.length_cons] at total
  simp only [routeSummary, total, floods]
  cases trace.isFlood with
  | false => simp
  | true => simp

theorem reportSummary_of_known {trace : PacketTrace}
    (known : tracer.traces.get? fp = some trace) :
    tracer.reportSummary = some (routeSummary tracer.traces.values) := by
  have nonempty : tracer.traces.values.isEmpty = false := by
    rw [List.isEmpty_eq_false_iff]
    intro empty
    have length := (tracer.traces.values_perm_erase known).length_eq
    simp [empty] at length
  rw [reportSummary, if_neg (by simp [nonempty])]

/-- The entry of a packet in the trace file is that of its trace. -/
theorem mem_packets_toDict (keyed : tracer.Keyed) {totalSimSecs : ℚ} {trace : PacketTrace}
    (known : tracer.traces.get? fp = some trace) {pkt : PacketEntry} :
    pkt ∈ (tracer.toDict totalSimSecs).packets ∧ pkt.fingerprint = fp ↔ pkt = trace.entry := by
  have here := tracer.traces.mem_entries_iff.mpr known
  have named : trace.fingerprint = fp := keyed _ here
  rw [toDict, List.mem_mergeSort, List.mem_map]
  constructor
  · rintro ⟨⟨other, mem, rfl⟩, same⟩
    obtain ⟨⟨fp', other'⟩, mem', rfl⟩ := List.mem_map.mp mem
    have named' : other'.fingerprint = fp' := keyed _ mem'
    have sameKey : fp' = fp := named'.symm.trans same
    subst sameKey
    rw [Option.some.inj ((tracer.traces.mem_entries_iff.mp mem').symm.trans known)]
  · rintro rfl
    exact ⟨⟨trace, List.mem_map.mpr ⟨_, here, rfl⟩, rfl⟩, named⟩

theorem classifiedAsFlood_iff (keyed : tracer.Keyed) {totalSimSecs : ℚ} {trace : PacketTrace}
    (known : tracer.traces.get? fp = some trace) :
    tracer.ClassifiedAsFlood totalSimSecs fp ↔ trace.isFlood = true := by
  constructor
  · rintro ⟨⟨summary, shown, counts⟩, -, -⟩
    cases (reportSummary_of_known known).symm.trans shown
    exact (counted_iff known).mp counts
  · intro flood
    refine ⟨⟨_, reportSummary_of_known known, (counted_iff known).mpr flood⟩, ?_, ?_⟩
    · exact ⟨trace.entry, (mem_packets_toDict keyed known).mpr rfl⟩
    · intro pkt mem named
      rw [(mem_packets_toDict keyed known).mp ⟨mem, named⟩]
      exact flood

/-- A packet is classified as a flood exactly when a flood-routed transmission delivered it. -/
theorem classified_recordAll_iff {calls : List TracerCall} (packet : fp ∈ packetsOf calls)
    {totalSimSecs : ℚ} :
    (recordAll calls).ClassifiedAsFlood totalSimSecs fp ↔ FloodHeard calls fp := by
  obtain ⟨trace, known⟩ :=
    Option.isSome_iff_exists.mp ((isSome_recordAll_iff calls fp).mpr packet)
  rw [classifiedAsFlood_iff (keyed_recordAll calls) known, isFlood_iff known, hopRoutes_recordAll,
    FloodHeard]

/-- The packets that were only ever flooded are all classified as floods exactly when each of
them was delivered by a flood-routed transmission. -/
theorem classifiesFloods_iff (calls : List TracerCall) :
    ClassifiesFloods calls ↔
      ∀ fp ∈ packetsOf calls, OnlyFlooded calls fp → FloodHeard calls fp := by
  constructor
  · intro classifies fp packet flooded
    exact (classified_recordAll_iff packet).mp (classifies fp packet flooded 0)
  · intro heard fp packet flooded totalSimSecs
    exact (classified_recordAll_iff packet).mpr (heard fp packet flooded)

/-- `alice` floods a packet, and a collision takes the only delivery. -/
def lostFlood : List TracerCall :=
  [.recordTx "alice" "0900aa" 0 100 (some (1 / 10)),
   .recordCollision "alice" "bob" "0900aa" (1 / 10) (some 1) (some "carol") (some 2) (1 / 20)]

/-- The report counts the packet under Direct-routed. -/
theorem not_classifiesFloods : ¬ ∀ calls, ClassifiesFloods calls := by
  intro claim
  obtain ⟨summary, shown, floods, -⟩ :=
    (claim lostFlood "02aa" (by decide +kernel) (by decide +kernel) 0).counted
  have direct : (recordAll lostFlood).reportSummary = some ⟨1, 0, 0, 1, 0⟩ := by decide +kernel
  cases direct.symm.trans shown
  exact absurd floods.symm (Nat.succ_ne_zero _)

end PacketTracer

end MeshcoreSim
