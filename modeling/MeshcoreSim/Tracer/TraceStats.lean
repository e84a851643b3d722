import Mathlib.Algebra.BigOperators.Group.List.Basic
import Mathlib.Algebra.Order.Field.Rat
import Mathlib.Order.Bounds.Basic
import Mathlib.Tactic.Linarith
import Mathlib.Tactic.Positivity
import MeshcoreSim.Tracer.ToDict

/-!
The statistics of the trace viewer for a whole trace (`workbench/trace_loader.py`):
`compute_trace_stats`, on the dictionary that `to_dict` returns.

The metrics that the file may hold are passed through unread, and left out.

* `traceStats_exact` — the figures of every trace, and of each payload type in it.
-/

namespace MeshcoreSim

open Lib
open scoped List

/-- An entry of `by_type`. -/
structure TypeTally where
  count : ℕ
  witnesses : List ℕ
  collisions : ℕ
  deriving DecidableEq, Repr

def TypeTally.new : TypeTally := ⟨0, [], 0⟩

/-- An entry of `type_breakdown`. -/
structure TypeStats where
  count : ℕ
  avgWitnesses : ℚ
  maxWitnesses : ℕ
  collisions : ℕ
  deriving DecidableEq, Repr

/-- The figures of a trace with packets, beside those that an empty one has too. -/
structure Breakdown where
  nHalfduplex : ℕ
  totalHops : ℕ
  nFlood : ℕ
  nDirect : ℕ
  floodAmplification : ℚ
  byType : List (String × TypeStats)
  timing : Option Timing
  deriving DecidableEq, Repr

structure TraceStats where
  nPackets : ℕ
  floodPct : ℚ
  avgWitnesses : ℚ
  nCollisions : ℕ
  breakdown : Option Breakdown
  deriving DecidableEq, Repr

/-- `sum(ws) / len(ws) if ws else 0.0`. -/
def mean (ws : List ℕ) : ℚ := if ws = [] then 0 else (ws.sum : ℚ) / ws.length

def TypeTally.add (p : PacketEntry) (info : TypeTally) : TypeTally where
  count := info.count + 1
  witnesses := info.witnesses ++ [p.witnessCount]
  collisions := info.collisions + p.collisions.length

/-- Count the packets by the names of their payload types. -/
def tallyByType (packets : List PacketEntry) : Dict String TypeTally :=
  packets.foldl (fun byType p =>
    byType.set p.payloadTypeName (((byType.get? p.payloadTypeName).getD .new).add p)) .empty

def TypeTally.stats (info : TypeTally) : TypeStats where
  count := info.count
  avgWitnesses := mean info.witnesses
  maxWitnesses := info.witnesses.foldl max 0
  collisions := info.collisions

/-- `type_breakdown`, in the order of the names. -/
def typeBreakdown (packets : List PacketEntry) : List (String × TypeStats) :=
  ((tallyByType packets).entries.mergeSort (·.1 ≤ ·.1)).map fun (tname, info) =>
    (tname, info.stats)

def computeTraceStats (trace : TraceDict) : TraceStats :=
  let packets := trace.packets
  let n := packets.length
  if n = 0 then ⟨0, 0, 0, 0, none⟩
  else
    let nFlood := packets.countP PacketEntry.isFlood
    let totalHops := (packets.map PacketEntry.witnessCount).sum
    { nPackets := n
      floodPct := 100 * nFlood / n
      avgWitnesses := totalHops / n
      nCollisions := (packets.map (·.collisions.length)).sum
      breakdown := some
        { nHalfduplex := (packets.map (·.halfduplex.length)).sum
          totalHops := totalHops
          nFlood := nFlood
          nDirect := n - nFlood
          floodAmplification := totalHops / n
          byType := typeBreakdown packets
          timing := trace.timing } }

/-! ### Types -/

/-- What the entry of a type should be, from its packets. -/
def tallyOf (group : List PacketEntry) : TypeTally where
  count := group.length
  witnesses := group.map PacketEntry.witnessCount
  collisions := (group.map (·.collisions.length)).sum

theorem tallyByType_eq (packets : List PacketEntry) :
    tallyByType packets = (Dict.groupBy PacketEntry.payloadTypeName packets).mapValues tallyOf := by
  have concat (group : List PacketEntry) (p : PacketEntry) :
      tallyOf (group ++ [p]) = TypeTally.add p (tallyOf group) := by
    simp [tallyOf, TypeTally.add]
  exact Dict.foldl_set_getD concat packets

theorem typeBreakdown_perm (packets : List PacketEntry) :
    typeBreakdown packets ~ (Dict.groupBy PacketEntry.payloadTypeName packets).entries.map
      fun e => (e.1, (tallyOf e.2).stats) := by
  unfold typeBreakdown
  refine ((List.mergeSort_perm _ _).map _).trans (.of_eq ?_)
  rw [tallyByType_eq, Dict.mapValues, List.map_map]
  rfl

/-- The packets of a type. -/
def ofType (packets : List PacketEntry) (tname : String) : List PacketEntry :=
  packets.filter (·.payloadTypeName = tname)

theorem mem_typeBreakdown {packets : List PacketEntry} {tname : String} {stats : TypeStats} :
    (tname, stats) ∈ typeBreakdown packets ↔
      ofType packets tname ≠ [] ∧ stats = (tallyOf (ofType packets tname)).stats := by
  rw [(typeBreakdown_perm packets).mem_iff, List.mem_map]
  constructor
  · rintro ⟨⟨t, group⟩, mem, same⟩
    obtain ⟨rfl, rfl⟩ := Prod.mk.inj same
    have read := (Dict.mem_entries_iff _).mp mem
    rw [Dict.get?_groupBy] at read
    split_ifs at read with nothing
    obtain rfl : packets.filter (·.payloadTypeName = t) = group := Option.some.inj read
    exact ⟨nothing, rfl⟩
  · rintro ⟨some, rfl⟩
    refine ⟨(tname, ofType packets tname), (Dict.mem_entries_iff _).mpr ?_, rfl⟩
    rw [Dict.get?_groupBy]
    exact if_neg some

theorem pairwise_typeBreakdown (packets : List PacketEntry) :
    ((typeBreakdown packets).map Prod.fst).Pairwise (· < ·) := by
  have trans : ∀ a b c : String × TypeTally, decide (a.1 ≤ b.1) → decide (b.1 ≤ c.1) →
      decide (a.1 ≤ c.1) := by
    intro a b c ab bc
    simp only [decide_eq_true_eq] at ab bc ⊢
    exact Std.le_trans ab bc
  have total : ∀ a b : String × TypeTally, decide (a.1 ≤ b.1) || decide (b.1 ≤ a.1) := by
    intro a b
    simpa using Std.le_total (a := a.1) (b := b.1)
  have ordered := (List.pairwise_mergeSort trans total (tallyByType packets).entries).imp
    of_decide_eq_true
  have distinct : (((tallyByType packets).entries.mergeSort (·.1 ≤ ·.1)).map Prod.fst).Nodup :=
    ((List.mergeSort_perm _ _).map Prod.fst).nodup_iff.mpr (tallyByType packets).nodup
  have names : (typeBreakdown packets).map Prod.fst =
      ((tallyByType packets).entries.mergeSort (·.1 ≤ ·.1)).map Prod.fst := by
    rw [typeBreakdown, List.map_map]
    rfl
  rw [names]
  exact ((List.pairwise_map.mpr ordered).and distinct).imp fun both =>
    Std.lt_of_le_of_ne both.1 both.2

/-- A total over the types is the total over the packets. -/
theorem sum_typeBreakdown {M : Type} [AddCommMonoid M] {f : TypeStats → M} {g : PacketEntry → M}
    (packets : List PacketEntry)
    (adds : ∀ group, f (tallyOf group).stats = (group.map g).sum) :
    ((typeBreakdown packets).map fun e => f e.2).sum = (packets.map g).sum := by
  calc ((typeBreakdown packets).map fun e => f e.2).sum
      = (((Dict.groupBy PacketEntry.payloadTypeName packets).values).map fun group =>
          (group.map g).sum).sum := by
        rw [((typeBreakdown_perm packets).map _).sum_eq, List.map_map, Dict.values, List.map_map]
        congr 1
        exact List.map_congr_left fun e _ => adds e.2
    _ = (((Dict.groupBy PacketEntry.payloadTypeName packets).values.flatten).map g).sum := by
        rw [List.map_flatten, List.sum_flatten, List.map_map]
        rfl
    _ = (packets.map g).sum := ((Dict.flatten_values_groupBy _ packets).map g).sum_eq

/-! ### Figures -/

theorem le_foldl_max {ws : List ℕ} {w : ℕ} (mem : w ∈ ws) : w ≤ ws.foldl max 0 := by
  induction ws using List.reverseRecOn with
  | nil => cases mem
  | append_singleton ws x ih =>
      rw [List.foldl_concat]
      rcases List.mem_append.mp mem with old | new
      · exact (ih old).trans (le_max_left _ _)
      · rw [List.mem_singleton.mp new]
        exact le_max_right _ _

theorem foldl_max_mem {ws : List ℕ} (some : ws ≠ []) : ws.foldl max 0 ∈ ws := by
  induction ws using List.reverseRecOn with
  | nil => exact absurd rfl some
  | append_singleton ws x ih =>
      rw [List.foldl_concat]
      rcases max_choice (ws.foldl max 0) x with old | new
      · rw [old]
        by_cases first : ws = []
        · simp_all
        · exact List.mem_append_left _ (ih first)
      · rw [new]
        exact List.mem_append_right _ List.mem_cons_self

theorem mean_mul_length (ws : List ℕ) : mean ws * ws.length = ws.sum := by
  unfold mean
  split_ifs with none
  · simp [none]
  · have positive : (ws.length : ℚ) ≠ 0 := by simpa using none
    rw [div_mul_cancel₀ _ positive]

theorem mean_le {ws : List ℕ} {bound : ℕ} (below : ∀ w ∈ ws, w ≤ bound) : mean ws ≤ bound := by
  unfold mean
  split_ifs with none
  · positivity
  · have positive : (0 : ℚ) < ws.length := by
      exact_mod_cast List.length_pos_iff.mpr none
    rw [div_le_iff₀ positive]
    exact_mod_cast (List.sum_le_card_nsmul ws bound below).trans_eq (Nat.mul_comm _ _)

theorem cast_witnesses (group : List PacketEntry) :
    ((group.map PacketEntry.witnessCount).sum : ℚ) =
      (group.map fun p => (p.witnessCount : ℚ)).sum := by
  induction group with
  | nil => rfl
  | cons p group ih => simp [ih]

/-! ### Totals of the types -/

theorem sum_count (packets : List PacketEntry) :
    ((typeBreakdown packets).map (·.2.count)).sum = packets.length := by
  refine (sum_typeBreakdown (g := fun _ => 1) packets fun group => ?_).trans (by simp)
  simp [tallyOf, TypeTally.stats]

theorem sum_collisions (packets : List PacketEntry) :
    ((typeBreakdown packets).map (·.2.collisions)).sum =
      (packets.map (·.collisions.length)).sum :=
  sum_typeBreakdown packets fun _ => rfl

/-- The mean of a type, taken as often as there are packets of it. -/
theorem sum_witnesses (packets : List PacketEntry) :
    ((typeBreakdown packets).map fun e => e.2.avgWitnesses * (e.2.count : ℚ)).sum =
      ((packets.map PacketEntry.witnessCount).sum : ℕ) := by
  have total := sum_typeBreakdown (f := fun stats => stats.avgWitnesses * (stats.count : ℚ))
    (g := fun p => (p.witnessCount : ℚ)) packets fun group => by
      have mean := mean_mul_length (group.map PacketEntry.witnessCount)
      rw [List.length_map, cast_witnesses] at mean
      exact mean
  exact total.trans (cast_witnesses _).symm

/-- The figures of a trace and of its types. -/
structure TraceStatsExact (trace : TraceDict) (stats : TraceStats) (b : Breakdown) : Prop where
  packets : stats.nPackets = trace.packets.length
  flood : b.nFlood = trace.packets.countP PacketEntry.isFlood
  direct : b.nDirect = trace.packets.countP fun p => !p.isFlood
  routes : b.nFlood + b.nDirect = stats.nPackets
  percentage : stats.floodPct * stats.nPackets = 100 * b.nFlood ∧
    0 ≤ stats.floodPct ∧ stats.floodPct ≤ 100
  drops : stats.nCollisions = (trace.packets.map (·.collisions.length)).sum ∧
    b.nHalfduplex = (trace.packets.map (·.halfduplex.length)).sum
  names : (b.byType.map Prod.fst).Pairwise (· < ·)
  types : ∀ tname info, (tname, info) ∈ b.byType ↔ ofType trace.packets tname ≠ [] ∧
    info = (tallyOf (ofType trace.packets tname)).stats
  maxima : ∀ e ∈ b.byType, e.2.avgWitnesses ≤ e.2.maxWitnesses ∧
    IsGreatest {n | ∃ p ∈ ofType trace.packets e.1, p.witnessCount = n} e.2.maxWitnesses
  counts : (b.byType.map (·.2.count)).sum = stats.nPackets
  collisions : (b.byType.map (·.2.collisions)).sum = stats.nCollisions
  hops : b.totalHops = (trace.packets.map PacketEntry.witnessCount).sum ∧
    (b.byType.map fun e => e.2.avgWitnesses * (e.2.count : ℚ)).sum = b.totalHops ∧
    stats.avgWitnesses * stats.nPackets = b.totalHops
  amplification : b.floodAmplification = stats.avgWitnesses

/-- Every trace with packets has a breakdown, and its figures are those of the packets. -/
theorem traceStats_exact (trace : TraceDict) :
    if trace.packets = [] then computeTraceStats trace = ⟨0, 0, 0, 0, none⟩
    else ∃ b, (computeTraceStats trace).breakdown = some b ∧
      TraceStatsExact trace (computeTraceStats trace) b := by
  split_ifs with none
  · simp [computeTraceStats, none]
  · have some : trace.packets.length ≠ 0 := by simpa using none
    have positive : (0 : ℚ) < trace.packets.length := by
      exact_mod_cast Nat.pos_of_ne_zero some
    have fewer : trace.packets.countP PacketEntry.isFlood ≤ trace.packets.length :=
      List.countP_le_length
    have fewer' : (trace.packets.countP PacketEntry.isFlood : ℚ) ≤ trace.packets.length := by
      exact_mod_cast fewer
    have others := List.length_eq_countP_add_countP PacketEntry.isFlood (l := trace.packets)
    rw [computeTraceStats, if_neg some]
    refine ⟨_, rfl, rfl, rfl, ?_, Nat.add_sub_of_le fewer,
      ⟨div_mul_cancel₀ _ positive.ne', by positivity, ?_⟩, ⟨rfl, rfl⟩, pairwise_typeBreakdown _,
      fun _ _ => mem_typeBreakdown, ?_, sum_count _, sum_collisions _,
      ⟨rfl, sum_witnesses _, div_mul_cancel₀ _ positive.ne'⟩, rfl⟩
    · simp only [Bool.not_eq_true, Bool.decide_eq_false] at others
      exact Nat.sub_eq_of_eq_add' others
    · rw [div_le_iff₀ positive]
      linarith
    · rintro ⟨tname, info⟩ mem
      obtain ⟨any, rfl⟩ := mem_typeBreakdown.mp mem
      refine ⟨mean_le fun w here => le_foldl_max here, ?_, ?_⟩
      · exact List.mem_map.mp (foldl_max_mem (by simpa [tallyOf] using any))
      · rintro n ⟨p, here, rfl⟩
        exact le_foldl_max (List.mem_map_of_mem here)

end MeshcoreSim
