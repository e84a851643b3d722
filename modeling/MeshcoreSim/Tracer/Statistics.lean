import Mathlib.Tactic.Linarith
import MeshcoreSim.Lib.Tally
import MeshcoreSim.Tracer.ToDict

/-!
What the transmission statistics count.

The figures are meant for every transmission, and they are read off the hop records, which are
written for deliveries. `statistics_exact_iff` says what that comes to: the airtime is exact when
a delivery of every transmission with a positive airtime was recorded, and the relay delays are
exact when the relays that no delivery of their packet names have the same delays as the
deliveries that name a transmission of another packet. Where every delivery names a transmission
of its own packet, the relay delays are exact when every relay was heard (`relays_exact_iff_heard`).
-/

namespace MeshcoreSim

open Lib

namespace PacketTrace

variable (trace : PacketTrace)

/-- The times at which a node received the packet. -/
def receptions (node : NodeName) : List ℚ :=
  (trace.hops.filter fun hop => hop.receiver = node).map HopRecord.t

/-- The time between receiving the packet and retransmitting it, for a transmission by a node
that is not its first sender and had received it. -/
def relayGap? (sender : NodeName) (txTime : ℚ) : Option ℚ :=
  (trace.receptions sender).min?.bind fun rx =>
    if sender ≠ trace.firstSender ∧ rx ≤ txTime then some ((txTime - rx) * 1000) else none

end PacketTrace

/-- The airtimes of all TX events with positive airtime. -/
def positiveAirtimes (calls : List TracerCall) : List ℚ :=
  ((transmissions calls).map fun (_, tx) => tx.airtimeMs).filter (0 < ·)

/-- Figures that count the airtimes, all of them and nothing else. -/
def CountsAirtimes (airtimes : List ℚ) : Option Utilization → Prop
  | none => airtimes = []
  | some figures =>
      figures.totalAirtimeS = airtimes.sum / 1000 ∧ figures.nUniqueTx = airtimes.length

namespace PacketTracer

/-- The gap of a transmission, given by its `tx_id`, as a relay of the packet `fp`. -/
def gapOf (tracer : PacketTracer) : String × ℕ → Option ℚ
  | (fp, txId) => (tracer.traces.get? fp).bind fun trace =>
      (tracer.txEvents.get? txId).bind fun ev => trace.relayGap? ev.sender ev.t

/-- The transmissions that the deliveries of each packet name. -/
def heard (tracer : PacketTracer) : List (String × ℕ) :=
  tracer.traces.entries.flatMap fun (fp, trace) => trace.txIds.map fun txId => (fp, txId)

/-- The gaps of all relays among the TX events. -/
def relayGaps (calls : List TracerCall) : List ℚ :=
  (transmissions calls).filterMap fun (_, tx) =>
    ((recordAll calls).traces.get? tx.fingerprint).bind fun trace => trace.relayGap? tx.sender tx.t

/-- Transmissions with the packet that they are of. -/
def sent (calls : List TracerCall) : List (String × ℕ) :=
  (transmissions calls).map fun (txId, tx) => (tx.fingerprint, txId)

/-- The statistics of `to_dict` and of `report` count every transmission. -/
structure CountsTransmissions (calls : List TracerCall) : Prop where
  toDict : ∀ totalSimSecs > 0, CountsAirtimes (positiveAirtimes calls)
    (((recordAll calls).toDict totalSimSecs).timing.bind Timing.utilization)
  report : ∀ totalSimSecs > 0, CountsAirtimes (positiveAirtimes calls)
    (((recordAll calls).reportTiming totalSimSecs).bind Timing.utilization)
  relayDelays : (recordAll calls).computeRelayDelays.Perm (relayGaps calls)

/-- Every transmission with a positive airtime is named by a delivery that was recorded after it. -/
def AirtimesHeard (calls : List TracerCall) : Prop :=
  ∀ entry ∈ transmissions calls, 0 < entry.2.airtimeMs →
    ∃ hop ∈ (recordAll calls).allHops, hop.txId = some entry.1 ∧ 0 < hop.airtimeMs

/-- The transmissions that no delivery of their packet names. -/
def unheard (calls : List TracerCall) : List (String × ℕ) :=
  (sent calls).filter (· ∉ (recordAll calls).heard)

/-- The deliveries that name a transmission of another packet, or none. -/
def strays (calls : List TracerCall) : List (String × ℕ) :=
  (recordAll calls).heard.filter (· ∉ sent calls)

/-- The relays that were not heard have the delays of the deliveries that name no transmission of
their packet. -/
def RelaysBalanced (calls : List TracerCall) : Prop :=
  ((strays calls).filterMap (recordAll calls).gapOf).Perm
    ((unheard calls).filterMap (recordAll calls).gapOf)

end PacketTracer

/-! ### Receptions -/

theorem min?_concat (l : List ℚ) (x : ℚ) :
    (l ++ [x]).min? = some ((l.min?.map fun m => min m x).getD x) := by
  cases l with
  | nil => rfl
  | cons y rest =>
      rw [List.cons_append, List.min?_cons', List.min?_cons', List.foldl_append]
      rfl

namespace PacketTrace

theorem get?_noteRx (first : Dict NodeName ℚ) (hop : HopRecord) (node : NodeName) :
    (noteRx first hop).get? node =
      if hop.receiver = node then some (((first.get? node).map fun t => min t hop.t).getD hop.t)
      else first.get? node := by
  unfold noteRx
  by_cases here : hop.receiver = node
  · subst here
    rw [if_pos rfl]
    cases known : first.get? hop.receiver with
    | none => simp
    | some t =>
        by_cases earlier : hop.t < t
        · simp [earlier, min_eq_right earlier.le]
        · simp [earlier, known, min_eq_left (not_lt.mp earlier)]
  · rw [if_neg here]
    have other : node ≠ hop.receiver := fun same => here same.symm
    cases first.get? hop.receiver with
    | none => exact Dict.get?_set_of_ne _ _ other
    | some t =>
        simp only
        split
        · exact Dict.get?_set_of_ne _ _ other
        · rfl

/-- The loop finds the earliest reception of every node. -/
theorem get?_firstRx (trace : PacketTrace) (node : NodeName) :
    trace.firstRx.get? node = (trace.receptions node).min? := by
  unfold firstRx receptions
  induction trace.hops using List.reverseRecOn with
  | nil => rfl
  | append_singleton hops hop ih =>
      rw [List.foldl_concat, get?_noteRx, ih, List.filter_append, List.map_append]
      by_cases here : hop.receiver = node
      · rw [if_pos here]
        simp [here, min?_concat]
      · rw [if_neg here]
        simp [here]

theorem relayDelay?_eq (trace : PacketTrace) (sender : NodeName) (txTime : ℚ) :
    trace.relayDelay? sender txTime = trace.relayGap? sender txTime := by
  unfold relayDelay? relayGap?
  rw [get?_firstRx]
  congr 1
  funext rx
  have later : 0 ≤ (txTime - rx) * 1000 ↔ rx ≤ txTime := by
    rw [mul_nonneg_iff_of_pos_right (by norm_num), sub_nonneg]
  simp only [later, ite_and]

end PacketTrace

namespace PacketTracer

/-! ### Airtimes -/

/-- The airtime that a hop puts into the table of the unique transmissions. -/
def airtimeNamed? (hop : HopRecord) : Option (ℕ × ℚ) :=
  hop.txId.bind fun txId => if 0 < hop.airtimeMs then some (txId, hop.airtimeMs) else none

theorem airtimeNamed?_eq_some {hop : HopRecord} {txId : ℕ} {airtimeMs : ℚ} :
    airtimeNamed? hop = some (txId, airtimeMs) ↔
      hop.txId = some txId ∧ hop.airtimeMs = airtimeMs ∧ 0 < hop.airtimeMs := by
  unfold airtimeNamed?
  cases hop.txId with
  | none => simp
  | some named =>
      simp only [Option.bind_some, Option.ite_none_right_eq_some, Option.some.injEq,
        Prod.mk.injEq]
      tauto

theorem AirtimesKnown.airtime_of_hop {tracer : PacketTracer} (known : tracer.AirtimesKnown)
    {hop : HopRecord} (mem : hop ∈ tracer.allHops) {txId : ℕ} (named : hop.txId = some txId)
    (positive : 0 < hop.airtimeMs) : tracer.txAirtime.get? txId = some hop.airtimeMs := by
  obtain ⟨trace, inValues, inTrace⟩ := List.mem_flatMap.mp mem
  obtain ⟨entry, inEntries, rfl⟩ := List.mem_map.mp inValues
  obtain ⟨txId', named', airtime⟩ := known entry inEntries hop inTrace positive
  rw [named] at named'
  cases named'
  exact airtime

theorem uniqueTxAirtime_eq (tracer : PacketTracer) :
    tracer.uniqueTxAirtime = .ofList (tracer.allHops.filterMap airtimeNamed?) := by
  unfold uniqueTxAirtime Dict.ofList
  rw [List.foldl_filterMap]
  congr 1
  funext airtimes hop
  unfold airtimeNamed?
  cases hop.txId with
  | none => rfl
  | some txId =>
      simp only [Option.bind_some]
      split <;> rfl

theorem mem_uniqueTxAirtime {tracer : PacketTracer} (known : tracer.AirtimesKnown) {txId : ℕ}
    {airtimeMs : ℚ} : (txId, airtimeMs) ∈ tracer.uniqueTxAirtime.entries ↔
      ∃ hop ∈ tracer.allHops, hop.txId = some txId ∧ hop.airtimeMs = airtimeMs ∧
        0 < hop.airtimeMs := by
  rw [uniqueTxAirtime_eq]
  constructor
  · intro mem
    obtain ⟨hop, inHops, named⟩ := List.mem_filterMap.mp (Dict.mem_of_mem_ofList mem)
    exact ⟨hop, inHops, airtimeNamed?_eq_some.mp named⟩
  · rintro ⟨hop, inHops, named⟩
    have mem := List.mem_filterMap.mpr ⟨hop, inHops, airtimeNamed?_eq_some.mpr named⟩
    refine (Dict.mem_entries_iff _).mpr (Dict.get?_ofList_of_agree mem ?_)
    rintro ⟨txId', airtimeMs'⟩ mem' rfl
    obtain ⟨hop', inHops', named'⟩ := List.mem_filterMap.mp mem'
    obtain ⟨sameId, rfl, positive'⟩ := airtimeNamed?_eq_some.mp named'
    obtain ⟨name, rfl, positive⟩ := named
    have registered := known.airtime_of_hop inHops name positive
    rw [known.airtime_of_hop inHops' sameId positive'] at registered
    exact Option.some.inj registered

/-- The TX events with positive airtime. -/
def positiveTx (calls : List TracerCall) : List (ℕ × ℚ) :=
  ((transmissions calls).map fun (txId, tx) => (txId, tx.airtimeMs)).filter (0 < ·.2)

theorem positiveAirtimes_eq (calls : List TracerCall) :
    positiveAirtimes calls = (positiveTx calls).map Prod.snd := by
  unfold positiveAirtimes positiveTx
  rw [List.filter_map, List.filter_map, List.map_map]
  rfl

theorem nodup_keys_transmissions (calls : List TracerCall) :
    ((transmissions calls).map Prod.fst).Nodup := by
  rw [keys_transmissions]
  exact List.nodup_range.map fun _ _ => Nat.succ.inj

theorem nodup_positiveTx (calls : List TracerCall) : (positiveTx calls).Nodup := by
  apply List.Nodup.filter
  apply List.Nodup.of_map Prod.fst
  rw [List.map_map]
  exact nodup_keys_transmissions calls

theorem mem_positiveTx {calls : List TracerCall} {txId : ℕ} {airtimeMs : ℚ} :
    (txId, airtimeMs) ∈ positiveTx calls ↔
      (recordAll calls).txAirtime.get? txId = some airtimeMs ∧ 0 < airtimeMs := by
  unfold positiveTx
  rw [List.mem_filter, ← Dict.mem_entries_iff, (registered_recordAll calls).airtimes,
    decide_eq_true_eq]

theorem uniqueTxAirtime_subset (calls : List TracerCall) :
    (recordAll calls).uniqueTxAirtime.entries ⊆ positiveTx calls := by
  have known := airtimesKnown_recordAll calls
  rintro ⟨txId, airtimeMs⟩ mem
  obtain ⟨hop, inHops, named, rfl, positive⟩ := (mem_uniqueTxAirtime known).mp mem
  exact mem_positiveTx.mpr ⟨known.airtime_of_hop inHops named positive, positive⟩

/-- The table of the unique transmissions is complete when every one was heard. -/
theorem uniqueTxAirtime_perm_iff (calls : List TracerCall) :
    (recordAll calls).uniqueTxAirtime.entries.Perm (positiveTx calls) ↔ AirtimesHeard calls := by
  have known := airtimesKnown_recordAll calls
  constructor
  · rintro perm ⟨txId, tx⟩ mem positive
    have event : (txId, tx.airtimeMs) ∈ positiveTx calls :=
      List.mem_filter.mpr ⟨List.mem_map.mpr ⟨_, mem, rfl⟩, by simpa using positive⟩
    obtain ⟨hop, inHops, named, -, airtime⟩ :=
      (mem_uniqueTxAirtime known).mp (perm.mem_iff.mpr event)
    exact ⟨hop, inHops, named, airtime⟩
  · intro heard
    apply (List.perm_ext_iff_of_nodup (Dict.nodup_entries _) (nodup_positiveTx calls)).mpr
    rintro ⟨txId, airtimeMs⟩
    constructor
    · exact fun mem => uniqueTxAirtime_subset calls mem
    · intro event
      obtain ⟨inTable, positive⟩ := List.mem_filter.mp event
      obtain ⟨⟨txId, tx⟩, mem, same⟩ := List.mem_map.mp inTable
      cases same
      obtain ⟨hop, inHops, named, airtime⟩ := heard _ mem (by simpa using positive)
      refine (mem_uniqueTxAirtime known).mpr ⟨hop, inHops, named, ?_, airtime⟩
      have registered := known.airtime_of_hop inHops named airtime
      rw [(mem_positiveTx.mp event).1] at registered
      exact (Option.some.inj registered).symm

/-- The figures count what the table of the unique transmissions holds. -/
theorem countsAirtimes_utilization (tracer : PacketTracer) {totalSimSecs : ℚ}
    (lasts : 0 < totalSimSecs) (airtimes : List ℚ) :
    CountsAirtimes airtimes (tracer.utilization totalSimSecs) ↔
      tracer.uniqueTxAirtime.values.sum = airtimes.sum ∧
        tracer.uniqueTxAirtime.values.length = airtimes.length := by
  unfold utilization
  rw [if_pos lasts]
  cases tracer.uniqueTxAirtime.values with
  | nil =>
      simp only [List.isEmpty_nil, if_true, CountsAirtimes, List.sum_nil, List.length_nil]
      constructor
      · rintro rfl
        exact ⟨rfl, rfl⟩
      · exact fun same => List.length_eq_zero_iff.mp same.2.symm
  | cons first rest =>
      simp only [List.isEmpty_cons, Bool.false_eq_true, if_false, CountsAirtimes]
      rw [div_left_inj' (by norm_num)]

/-- The figures are exact when every transmission was heard. -/
theorem countsAirtimes_iff (calls : List TracerCall) {totalSimSecs : ℚ}
    (lasts : 0 < totalSimSecs) :
    CountsAirtimes (positiveAirtimes calls) ((recordAll calls).utilization totalSimSecs) ↔
      AirtimesHeard calls := by
  rw [countsAirtimes_utilization _ lasts, ← uniqueTxAirtime_perm_iff, positiveAirtimes_eq]
  have positive : ∀ entry ∈ positiveTx calls, 0 < entry.2 := fun entry mem =>
    of_decide_eq_true (List.mem_filter.mp mem).2
  have total := perm_iff_sum_eq (Dict.nodup_entries _) (uniqueTxAirtime_subset calls) positive
  constructor
  · exact fun same => total.mpr same.1
  · exact fun perm => ⟨total.mp perm, (perm.map Prod.snd).length_eq⟩

theorem timing_toDict (tracer : PacketTracer) (totalSimSecs : ℚ) :
    (tracer.toDict totalSimSecs).timing.bind Timing.utilization =
      tracer.utilization totalSimSecs := by
  simp only [toDict]
  split
  · rename_i nothing
    exact (congrArg Timing.utilization nothing).symm
  · rfl

theorem utilization_of_no_airtime {tracer : PacketTracer} (silent : tracer.allAirtimes = [])
    (totalSimSecs : ℚ) : tracer.utilization totalSimSecs = none := by
  have empty : tracer.allHops.filterMap airtimeNamed? = [] := by
    apply List.filterMap_eq_nil_iff.mpr
    intro hop mem
    unfold airtimeNamed?
    cases hop.txId with
    | none => rfl
    | some txId =>
        apply if_neg
        have none := List.filter_eq_nil_iff.mp silent _ (List.mem_map_of_mem mem)
        simpa using none
  unfold utilization
  rw [uniqueTxAirtime_eq, empty]
  simp [Dict.ofList, Dict.empty, Dict.values]

theorem timing_report (tracer : PacketTracer) (totalSimSecs : ℚ) :
    (tracer.reportTiming totalSimSecs).bind Timing.utilization =
      tracer.utilization totalSimSecs := by
  unfold reportTiming
  split
  · rename_i empty
    have none : tracer.allAirtimes = [] := by
      simp [allAirtimes, allHops, List.isEmpty_iff.mp empty]
    exact (utilization_of_no_airtime none totalSimSecs).symm
  · split
    · rename_i silent
      exact (utilization_of_no_airtime (List.isEmpty_iff.mp silent.1) totalSimSecs).symm
    · rfl

/-! ### Relay delays -/

theorem computeRelayDelays_eq (tracer : PacketTracer) :
    tracer.computeRelayDelays = tracer.heard.filterMap tracer.gapOf := by
  unfold computeRelayDelays heard
  rw [Dict.values, List.flatMap_map, List.filterMap_flatMap]
  apply List.flatMap_congr
  rintro ⟨fp, trace⟩ mem
  rw [List.filterMap_map]
  congr 1
  funext txId
  simp [gapOf, tracer.traces.mem_entries_iff.mp mem, PacketTrace.relayDelay?_eq]

theorem relayGaps_eq (calls : List TracerCall) :
    relayGaps calls = (sent calls).filterMap (recordAll calls).gapOf := by
  unfold relayGaps sent
  rw [List.filterMap_map]
  apply List.filterMap_congr
  rintro ⟨txId, tx⟩ mem
  have event : (recordAll calls).txEvents.get? txId = some ⟨tx.sender, tx.t, tx.txEnd⟩ := by
    rw [← Dict.mem_entries_iff, (registered_recordAll calls).events]
    exact List.mem_map.mpr ⟨_, mem, rfl⟩
  simp [gapOf, event]

theorem nodup_sent (calls : List TracerCall) : (sent calls).Nodup := by
  apply List.Nodup.of_map Prod.snd
  unfold sent
  rw [List.map_map]
  exact nodup_keys_transmissions calls

theorem nodup_heard (tracer : PacketTracer) : tracer.heard.Nodup := by
  refine List.nodup_flatMap.mpr ⟨?_, ?_⟩
  · rintro ⟨fp, trace⟩ -
    exact (List.nodup_dedup _).map fun _ _ same => (Prod.mk.inj same).2
  · have distinct := List.pairwise_map.mp tracer.traces.nodup
    refine distinct.imp fun {a b} other x mem mem' => other ?_
    obtain ⟨_, -, rfl⟩ := List.mem_map.mp mem
    obtain ⟨_, -, same⟩ := List.mem_map.mp mem'
    exact (Prod.mk.inj same).1.symm

/-- The relay delays are exact when what was not heard and what is named wrongly balance. -/
theorem relays_exact_iff (calls : List TracerCall) :
    (recordAll calls).computeRelayDelays.Perm (relayGaps calls) ↔ RelaysBalanced calls := by
  rw [computeRelayDelays_eq, relayGaps_eq]
  unfold RelaysBalanced strays unheard
  exact filterMap_perm_iff (nodup_heard _) (nodup_sent calls)

/-- Where every delivery names a transmission of its own packet, as the router's do, the relay
delays are exact when every relay was heard. -/
theorem relays_exact_iff_heard (calls : List TracerCall) (own : strays calls = []) :
    (recordAll calls).computeRelayDelays.Perm (relayGaps calls) ↔
      ∀ label ∈ sent calls, ((recordAll calls).gapOf label).isSome →
        label ∈ (recordAll calls).heard := by
  rw [relays_exact_iff, RelaysBalanced, own, List.filterMap_nil, List.nil_perm,
    List.filterMap_eq_nil_iff]
  unfold unheard
  apply forall_congr'
  intro label
  rw [List.mem_filter, and_imp]
  apply imp_congr_right
  intro _
  cases (recordAll calls).gapOf label <;> simp

/-! ### Both -/

/-- The statistics count every transmission exactly when every transmission with a positive
airtime was heard and the relays balance. -/
theorem statistics_exact_iff (calls : List TracerCall) :
    CountsTransmissions calls ↔ AirtimesHeard calls ∧ RelaysBalanced calls := by
  constructor
  · intro exact_
    have airtimes := exact_.toDict 1 one_pos
    rw [timing_toDict, countsAirtimes_iff calls one_pos] at airtimes
    exact ⟨airtimes, (relays_exact_iff calls).mp exact_.relayDelays⟩
  · rintro ⟨heard, balanced⟩
    have airtimes := fun totalSimSecs (lasts : totalSimSecs > 0) =>
      (countsAirtimes_iff calls lasts).mpr heard
    refine ⟨fun secs lasts => ?_, fun secs lasts => ?_, (relays_exact_iff calls).mpr balanced⟩
    · rw [timing_toDict]
      exact airtimes secs lasts
    · rw [timing_report]
      exact airtimes secs lasts

/-- `bob` relays a packet of `alice`, and nobody hears it. -/
def unheardRelay : List TracerCall :=
  [.recordTx "alice" "0900aa" 0 100 (some (1 / 10)),
   .recordRx "alice" "bob" "0900aa" (1 / 10) (some 1),
   .recordTx "bob" "0901bbaa" (1 / 5) 120 (some (8 / 25))]

/-- The relay is missing from all figures. -/
theorem not_countsTransmissions : ¬ ∀ calls, CountsTransmissions calls := by
  intro claim
  have delays := (claim unheardRelay).relayDelays.length_eq
  exact absurd delays (by decide +kernel)

end PacketTracer

end MeshcoreSim
