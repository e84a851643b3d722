import MeshcoreSim.ImportTopology.Caps

/-!
The loss of each direction of an imported edge, as `Topology` resolves it.

A measured edge has overrides if its SNRs or its losses differ. The edge of a companion to a
neighbour of its relay has them only if its SNRs do, by more than 0.01 dB, so it loses the loss of
one direction where a threshold of the loss table is between two SNRs that are 0.01 dB apart.

* `lossMatches_measuredEdge`, `lossMatches_neighbourLink_iff` — one edge of either kind.
* `lossMatches_kept_iff` — the SNRs between the relays for which this happens.
* `lossesMatch_iff` — all edges of the output.
-/

namespace MeshcoreSim.ImportTopology

open Lib

/-- The loss that is resolved for each direction is that of its SNR. -/
def LossMatches (e : EdgeConfig) (snrs : ℚ × ℚ) : Prop :=
  (e.link e.b e.aToB).loss = snrToLoss snrs.1 ∧ (e.link e.a e.bToA).loss = snrToLoss snrs.2

/-! ### The SNRs that the tool computes -/

/-- The SNRs of a pair of nodes, if it is one. -/
def groupSnrs (group : Pair × List RawEdge) : Option (ℚ × ℚ) :=
  match group.1 with
  | a :: b :: _ =>
      let best := fun src dst => bestEdge (group.2.filter fun e => e.src = src ∧ e.dst = dst)
      directionalSnrs (best a b) (best b a)
  | _ => none

/-- The SNRs of the measured edges. -/
def measuredSnrs (nodes : Dict String ImportedNode) (rawEdges : List RawEdge) : List (ℚ × ℚ) :=
  (groupEdges nodes rawEdges).entries.filterMap groupSnrs

/-- The SNRs from a relay to a neighbour and back. -/
def relaySnrs (relayName : NodeName) (e : EdgeConfig) : ℚ × ℚ :=
  let aToB := (e.link e.b e.aToB).snr
  let bToA := (e.link e.a e.bToA).snr
  if e.a = relayName then (aToB, bToA) else (bToA, aToB)

/-- The SNRs from a companion of the relay to the neighbour and back. -/
def neighbourSnrs (relayName : NodeName) (e : EdgeConfig) : ℚ × ℚ :=
  (max ((relaySnrs relayName e).1 - halfPenalty) snrFloor,
    max ((relaySnrs relayName e).2 - halfPenalty) snrFloor)

/-- The ranking key of a neighbour. -/
def bestSnr (relayName : NodeName) (e : EdgeConfig) : ℚ :=
  max ((relaySnrs relayName e).1 - halfPenalty) ((relaySnrs relayName e).2 - halfPenalty)

/-- The neighbours of a relay to which its companion gets an edge. -/
def keptNeighbours (relayEdges : List EdgeConfig) (relayName : NodeName) :
    List (NodeName × EdgeConfig) :=
  let neighbours := ((relayNeighbours relayEdges).get? relayName).getD .empty
  ((neighbours.entries.filter fun nbr => -6 < bestSnr relayName nbr.2).mergeSort
    fun x y => bestSnr relayName y.2 ≤ bestSnr relayName x.2).take 5

/-- The edge of a companion to a neighbour of its relay. -/
def neighbourLink (compName nbrName : NodeName) (snrs : ℚ × ℚ) : EdgeConfig :=
  let differ : Bool := 1 / 100 < |snrs.1 - snrs.2|
  { a := compName
    b := nbrName
    loss := snrToLoss snrs.1
    latencyMs := 20
    snr := roundTo snrs.1 2
    aToB := if differ then some (overrides snrs.1) else none
    bToA := if differ then some (overrides snrs.2) else none }

/-- The SNRs of the edges of the output; none for an estimated one, and for the link of a companion
to its relay. -/
def edgeSnrs (lib : ImportLib) (params : ImportParams) (nodes : Dict String ImportedNode)
    (rawEdges : List RawEdge) (relayEdges : List EdgeConfig) : List (Option (ℚ × ℚ)) :=
  (measuredSnrs nodes rawEdges).map some ++
    List.replicate (relayEdges.length - (measuredSnrs nodes rawEdges).length) none ++
    (companions lib params nodes).flatMap fun companion =>
      none :: (keptNeighbours relayEdges companion.2.name).map fun nbr =>
        some (neighbourSnrs companion.2.name nbr.2)

/-- For every direction of the output with an SNR, the loss is that of the SNR. -/
def LossesMatch (lib : ImportLib) (params : ImportParams) (rawNodes : Dict String RawNode)
    (rawEdges : List RawEdge) : Prop :=
  ∀ nodes topology, importNodes rawNodes = some nodes →
    importTopology lib params rawNodes rawEdges = .ok topology →
    List.Forall₂ (fun e snrs => ∀ s ∈ snrs, LossMatches e s) topology.edges
      (edgeSnrs lib params nodes rawEdges topology.relayEdges)

/-- SNRs at which the companion of a relay loses an override. -/
def Straddles (snrs : ℚ × ℚ) : Prop :=
  snrs ∈ [(9, 899 / 100), (899 / 100, 9), (3, 299 / 100), (299 / 100, 3)]

/-- No companion gets an edge to a neighbour whose edge to the relay straddles a threshold. -/
def NoneStraddles (lib : ImportLib) (params : ImportParams) (rawNodes : Dict String RawNode)
    (rawEdges : List RawEdge) : Prop :=
  ∀ nodes topology, importNodes rawNodes = some nodes →
    importTopology lib params rawNodes rawEdges = .ok topology →
    ∀ companion ∈ companions lib params nodes,
      ∀ nbr ∈ keptNeighbours topology.relayEdges companion.2.name,
        ¬ Straddles (relaySnrs companion.2.name nbr.2)

/-! ### Measured edges -/

/-- Losses of the table that are close are equal. -/
theorem snrToLoss_eq_of_close {x y : ℚ} (close : ¬ 1 / 1000 < |snrToLoss x - snrToLoss y|) :
    snrToLoss x = snrToLoss y := by
  unfold snrToLoss at close ⊢
  split_ifs at close ⊢ <;> first | rfl | exact absurd (by norm_num [abs]) close

theorem lossMatches_measuredEdge (a b : NodeName) (snrAToB snrBToA : ℚ) :
    LossMatches (measuredEdge a b snrAToB snrBToA) (snrAToB, snrBToA) := by
  unfold measuredEdge
  by_cases differ : 1 / 100 < |snrAToB - snrBToA| ∨
      1 / 1000 < |snrToLoss snrAToB - snrToLoss snrBToA|
  · simp only [differ, decide_true, if_true]
    exact ⟨rfl, rfl⟩
  · have same : snrToLoss snrAToB = snrToLoss snrBToA :=
      snrToLoss_eq_of_close (not_or.mp differ).2
    simp only [differ, decide_false, Bool.false_eq_true, if_false]
    exact ⟨rfl, same⟩

/-- An edge that merging makes of two SNRs. -/
def Measures (e : EdgeConfig) (snrs : ℚ × ℚ) : Prop := ∃ a b, e = measuredEdge a b snrs.1 snrs.2

theorem Measures.lossMatches {e : EdgeConfig} {snrs : ℚ × ℚ} (measures : Measures e snrs) :
    LossMatches e snrs := by
  obtain ⟨a, b, rfl⟩ := measures
  exact lossMatches_measuredEdge a b _ _

/-- A group adds an edge if it has SNRs. -/
theorem mergePair_measures {nodes : Dict String ImportedNode} {state state' : EdgeState}
    {group : Pair × List RawEdge} (run : mergePair nodes state group = .ok state') :
    ∃ added, state'.edges = state.edges ++ added ∧
      List.Forall₂ Measures added (groupSnrs group).toList := by
  obtain ⟨pair, edges⟩ := group
  rcases pair with - | ⟨a, - | ⟨b, pair⟩⟩
  · cases run
  · cases run
  · simp only [mergePair, groupSnrs] at run ⊢
    cases snrs : directionalSnrs (bestEdge (edges.filter fun e => e.src = a ∧ e.dst = b))
        (bestEdge (edges.filter fun e => e.src = b ∧ e.dst = a)) with
    | none =>
        simp only [snrs] at run
        cases run
        exact ⟨[], (List.append_nil _).symm, .nil⟩
    | some both =>
        obtain ⟨snrAToB, snrBToA⟩ := both
        simp only [snrs] at run
        split at run
        · cases run
          exact ⟨_, rfl, .cons ⟨_, _, rfl⟩ .nil⟩
        · cases run

theorem foldlM_mergePair_measures {nodes : Dict String ImportedNode}
    {groups : List (Pair × List RawEdge)} {state state' : EdgeState}
    (run : groups.foldlM (mergePair nodes) state = .ok state') :
    ∃ added, state'.edges = state.edges ++ added ∧
      List.Forall₂ Measures added (groups.filterMap groupSnrs) := by
  induction groups generalizing state with
  | nil =>
      cases run
      exact ⟨[], (List.append_nil _).symm, .nil⟩
  | cons group groups ih =>
      rw [List.foldlM_cons] at run
      cases first : mergePair nodes state group with
      | error e =>
          rw [first] at run
          cases run
      | ok middle =>
          rw [first] at run
          obtain ⟨here, edges, measuresHere⟩ := mergePair_measures first
          obtain ⟨rest, edges', measuresRest⟩ := ih run
          refine ⟨here ++ rest, by rw [edges', edges, List.append_assoc], ?_⟩
          rw [List.filterMap_cons]
          cases snrs : groupSnrs group with
          | none =>
              rw [snrs] at measuresHere
              cases measuresHere
              exact measuresRest
          | some both =>
              rw [snrs] at measuresHere
              exact List.rel_append measuresHere measuresRest

/-- The measured edges, with their SNRs. -/
theorem measures_of_mergeEdges {nodes : Dict String ImportedNode} {rawEdges : List RawEdge}
    {measured : EdgeState} (merged : mergeEdges nodes rawEdges = .ok measured) :
    List.Forall₂ Measures measured.edges (measuredSnrs nodes rawEdges) := by
  obtain ⟨added, edges, measures⟩ := foldlM_mergePair_measures merged
  rw [edges]
  exact measures

/-! ### Edges of companions -/

theorem neighbourEdge_eq (compName relayName : NodeName) (nbr : NodeName × EdgeConfig) :
    neighbourEdge compName relayName nbr =
      if bestSnr relayName nbr.2 ≤ -6 then none
      else some (bestSnr relayName nbr.2,
        neighbourLink compName nbr.1 (neighbourSnrs relayName nbr.2)) := by
  by_cases first : nbr.2.a = relayName
  · simp only [neighbourEdge, bestSnr, neighbourSnrs, relaySnrs, first, if_true]
    rfl
  · simp only [neighbourEdge, bestSnr, neighbourSnrs, relaySnrs, first, if_false]
    rfl

theorem companionLinks_eq (relayEdges : List EdgeConfig) (compName relayName : NodeName) :
    companionLinks relayEdges compName relayName =
      { a := compName, b := relayName, loss := 2 / 100, latencyMs := 5, snr := 12, aToB := none,
        bToA := none } :: (keptNeighbours relayEdges relayName).map fun nbr =>
          neighbourLink compName nbr.1 (neighbourSnrs relayName nbr.2) := by
  have audible (l : List (NodeName × EdgeConfig)) :
      l.filterMap (neighbourEdge compName relayName) =
        (l.filter fun nbr => -6 < bestSnr relayName nbr.2).map fun nbr =>
          (bestSnr relayName nbr.2,
            neighbourLink compName nbr.1 (neighbourSnrs relayName nbr.2)) := by
    induction l with
    | nil => rfl
    | cons nbr l ih =>
        rw [List.filterMap_cons, neighbourEdge_eq, List.filter_cons]
        by_cases weak : bestSnr relayName nbr.2 ≤ -6
        · simp only [weak, if_true, not_lt.mpr weak, decide_false, Bool.false_eq_true, if_false, ih]
        · simp only [weak, if_false, not_le.mp weak, decide_true, if_true, ih, List.map_cons]
  unfold companionLinks keptNeighbours
  simp only [audible, List.map_take]
  rw [← List.map_mergeSort (r := fun x y : NodeName × EdgeConfig =>
    decide (bestSnr relayName y.2 ≤ bestSnr relayName x.2)) (fun _ _ _ _ => rfl), List.map_map]
  rfl

theorem lossMatches_neighbourLink_iff (compName nbrName : NodeName) (snrs : ℚ × ℚ) :
    LossMatches (neighbourLink compName nbrName snrs) snrs ↔
      1 / 100 < |snrs.1 - snrs.2| ∨ snrToLoss snrs.1 = snrToLoss snrs.2 := by
  unfold neighbourLink
  by_cases differ : 1 / 100 < |snrs.1 - snrs.2|
  · simp only [differ, decide_true, if_true, true_or, iff_true]
    exact ⟨rfl, rfl⟩
  · simp only [differ, decide_false, Bool.false_eq_true, if_false, false_or]
    exact ⟨fun both => both.2, fun same => ⟨rfl, same⟩⟩

/-! ### Hundredths of a dB -/

section

variable (m n : ℤ)

/-- A threshold of the loss table, for an SNR after the penalty and the clamping. -/
theorem le_penalised_iff {t : ℚ} {k : ℤ} (above : snrFloor < t) (scaled : (k : ℚ) = 100 * (t + 3)) :
    t ≤ max ((m : ℚ) / 100 - halfPenalty) snrFloor ↔ k ≤ m := by
  rw [le_max_iff, or_iff_left (not_le.mpr above), halfPenalty, ← Int.cast_le (R := ℚ), scaled]
  constructor <;> intro reached <;> linarith

theorem snrToLoss_penalised :
    snrToLoss (max ((m : ℚ) / 100 - halfPenalty) snrFloor) =
      if 900 ≤ m then 2 / 100
      else if 300 ≤ m then 5 / 100
      else if -300 ≤ m then 10 / 100
      else if -700 ≤ m then 20 / 100
      else 35 / 100 := by
  have floor : (-12 : ℚ) ≤ max ((m : ℚ) / 100 - halfPenalty) snrFloor := le_max_right _ _
  unfold snrToLoss
  simp only [le_penalised_iff m (t := 6) (k := 900) (by decide +kernel) (by norm_num),
    le_penalised_iff m (t := 0) (k := 300) (by decide +kernel) (by norm_num),
    le_penalised_iff m (t := -6) (k := -300) (by decide +kernel) (by norm_num),
    le_penalised_iff m (t := -10) (k := -700) (by decide +kernel) (by norm_num), if_pos floor]

variable {m n}

theorem penalised_of_le (unclamped : -900 ≤ m) :
    max ((m : ℚ) / 100 - halfPenalty) snrFloor = (m : ℚ) / 100 - 3 := by
  have scaled : (-900 : ℚ) ≤ m := by exact_mod_cast unclamped
  have half : halfPenalty = 3 := by norm_num [halfPenalty]
  rw [half]
  refine max_eq_left ?_
  rw [snrFloor]
  linarith

/-- Two SNRs, of which one is not clamped, that are at most 0.01 dB apart. -/
theorem close_of_close_penalised (audible : -300 < n)
    (close : ¬ 1 / 100 < |max ((m : ℚ) / 100 - halfPenalty) snrFloor -
      max ((n : ℚ) / 100 - halfPenalty) snrFloor|) : |m - n| ≤ 1 := by
  rw [not_lt, penalised_of_le (by omega : -900 ≤ n), abs_le] at close
  have above : (-300 : ℚ) < n := by exact_mod_cast audible
  -- A clamped SNR would be 6 dB below.
  have unclamped : -900 ≤ m := by
    by_contra clamped
    have below : (m : ℚ) ≤ -900 := by exact_mod_cast (not_le.mp clamped).le
    have floor : max ((m : ℚ) / 100 - halfPenalty) snrFloor = -12 := by
      rw [halfPenalty, snrFloor]
      refine max_eq_right ?_
      linarith
    rw [floor] at close
    linarith [close.1]
  rw [penalised_of_le unclamped] at close
  have left : (-1 : ℚ) ≤ m - n := by linarith [close.1]
  have right : (m - n : ℚ) ≤ 1 := by linarith [close.2]
  rw [abs_le]
  exact ⟨by exact_mod_cast left, by exact_mod_cast right⟩

/-- The same in hundredths of a dB. -/
theorem straddles_iff_hundredths :
    Straddles ((m : ℚ) / 100, (n : ℚ) / 100) ↔
      m = 900 ∧ n = 899 ∨ m = 899 ∧ n = 900 ∨ m = 300 ∧ n = 299 ∨ m = 299 ∧ n = 300 := by
  have value {m k : ℤ} {q : ℚ} (scaled : (k : ℚ) = 100 * q) : (m : ℚ) / 100 = q ↔ m = k := by
    rw [div_eq_iff (by norm_num), mul_comm, ← scaled, Int.cast_inj]
  have nine {m : ℤ} : (m : ℚ) / 100 = 9 ↔ m = 900 := value (by norm_num)
  have belowNine {m : ℤ} : (m : ℚ) / 100 = 899 / 100 ↔ m = 899 := value (by norm_num)
  have three {m : ℤ} : (m : ℚ) / 100 = 3 ↔ m = 300 := value (by norm_num)
  have belowThree {m : ℤ} : (m : ℚ) / 100 = 299 / 100 ↔ m = 299 := value (by norm_num)
  simp only [Straddles, List.mem_cons, List.not_mem_nil, or_false, Prod.mk.injEq, nine, belowNine,
    three, belowThree]

/-- Of the SNRs of a relay and its neighbour, those at which the companion's edge is wrong. -/
theorem lossMatches_iff_hundredths (compName nbrName : NodeName) (audible : -300 < max m n) :
    LossMatches (neighbourLink compName nbrName
        (max ((m : ℚ) / 100 - halfPenalty) snrFloor, max ((n : ℚ) / 100 - halfPenalty) snrFloor))
      (max ((m : ℚ) / 100 - halfPenalty) snrFloor, max ((n : ℚ) / 100 - halfPenalty) snrFloor) ↔
      ¬ Straddles ((m : ℚ) / 100, (n : ℚ) / 100) := by
  rw [lossMatches_neighbourLink_iff, straddles_iff_hundredths]
  simp only [snrToLoss_penalised]
  constructor
  · rintro (apart | same) straddles
    · rw [penalised_of_le (by omega), penalised_of_le (by omega), lt_abs] at apart
      have close : m - n = 1 ∨ m - n = -1 := by omega
      rcases close with up | down
      · have difference : (m : ℚ) - n = 1 := by exact_mod_cast up
        rcases apart with apart | apart <;> linarith
      · have difference : (m : ℚ) - n = -1 := by exact_mod_cast down
        rcases apart with apart | apart <;> linarith
    · rcases straddles with ⟨rfl, rfl⟩ | ⟨rfl, rfl⟩ | ⟨rfl, rfl⟩ | ⟨rfl, rfl⟩ <;> norm_num at same
  · intro notStraddling
    refine or_iff_not_imp_left.mpr fun close => ?_
    have step : |m - n| ≤ 1 := by
      rcases lt_max_iff.mp audible with left | right
      · rw [abs_sub_comm] at close ⊢
        exact close_of_close_penalised left close
      · exact close_of_close_penalised right close
    rw [abs_le] at step
    have one : -300 < m ∨ -300 < n := lt_max_iff.mp audible
    split_ifs <;> first | rfl | omega

end

/-! ### The relay edges -/

/-- The SNRs of both directions are rounded. -/
def Rounded (e : EdgeConfig) : Prop :=
  ∃ m n : ℤ, (e.link e.b e.aToB).snr = m / 100 ∧ (e.link e.a e.bToA).snr = n / 100

theorem roundTo_two (x : ℚ) : roundTo x 2 = (roundHalfEven (x * 10 ^ 2) : ℚ) / 100 := by
  norm_num [roundTo]

theorem Measures.rounded {e : EdgeConfig} {snrs : ℚ × ℚ} (measures : Measures e snrs) :
    Rounded e := by
  obtain ⟨a, b, rfl⟩ := measures
  unfold measuredEdge
  by_cases differ : 1 / 100 < |snrs.1 - snrs.2| ∨ 1 / 1000 < |snrToLoss snrs.1 - snrToLoss snrs.2|
  · simp only [differ, decide_true, if_true]
    exact ⟨_, _, roundTo_two snrs.1, roundTo_two snrs.2⟩
  · simp only [differ, decide_false, Bool.false_eq_true, if_false]
    exact ⟨_, _, roundTo_two snrs.1, roundTo_two snrs.1⟩

/-- Estimated edges come behind the measured ones. -/
theorem edges_fillGaps {lib : ImportLib} {params : ImportParams}
    {nodes : Dict String ImportedNode} {measured filled : EdgeState}
    (gaps : fillGaps lib params nodes measured = some filled) :
    ∃ added, filled.edges = measured.edges ++ added ∧ ∀ e ∈ added, Rounded e := by
  have start : ∃ added, measured.edges = measured.edges ++ added ∧ ∀ e ∈ added, Rounded e :=
    ⟨[], (List.append_nil _).symm, fun e mem => absurd mem List.not_mem_nil⟩
  rcases fillGaps_eq_some gaps with ⟨-, rfl⟩ | ⟨model, state, -, -, loop, rfl⟩
  · exact start
  · refine (foldlM_fillNode_induction (motive := fun state => ∃ added,
      state.edges = measured.edges ++ added ∧ ∀ e ∈ added, Rounded e) loop ?_ ?_).1
    · rw [congrArg EdgeState.edges (countMeasured_toEdgeState nodes measured)]
      exact start
    · rintro state p1 n1 c - joinable - ⟨added, edges, rounded⟩
      rcases tryGap_outcome lib model params.maxGoodLinks n1 state joinable.after.ne with
        ⟨same, -⟩ | ⟨-, -, -, -, more, -⟩
      · exact ⟨added, (congrArg EdgeState.edges same).trans edges, rounded⟩
      · have edges' := congrArg EdgeState.edges more
        simp only [EdgeState.add] at edges'
        refine ⟨added ++ [_], by rw [edges', edges, List.append_assoc], fun e mem => ?_⟩
        rcases List.mem_append.mp mem with old | new
        · exact rounded e old
        · rw [List.mem_singleton.mp new]
          exact ⟨_, _, roundTo_two _, roundTo_two _⟩

/-- The neighbours of a relay are found by its edges. -/
theorem mem_of_neighbour {relayEdges : List EdgeConfig} {relayName : NodeName}
    {nbr : NodeName × EdgeConfig}
    (mem : nbr ∈ (((relayNeighbours relayEdges).get? relayName).getD .empty).entries) :
    nbr.2 ∈ relayEdges := by
  have add {table : Neighbours} {name other : NodeName} {e : EdgeConfig}
      (mem : nbr ∈ (((table.add name other e).get? relayName).getD .empty).entries) :
      nbr ∈ ((table.get? relayName).getD .empty).entries ∨ nbr.2 = e := by
    rw [Neighbours.add, Dict.get?_set] at mem
    split_ifs at mem with here
    · subst here
      rcases (Dict.mem_entries_set _).mp mem with rfl | ⟨old, -⟩
      · exact .inr rfl
      · exact .inl old
    · exact .inl mem
  unfold relayNeighbours at mem
  induction relayEdges using List.reverseRecOn with
  | nil => cases mem
  | append_singleton relayEdges e ih =>
      rw [List.foldl_concat] at mem
      rcases add mem with before | rfl
      · rcases add before with old | rfl
        · exact List.mem_append_left _ (ih old)
        · exact List.mem_append_right _ List.mem_cons_self
      · exact List.mem_append_right _ List.mem_cons_self

/-- The edge to a kept neighbour is wrong where the edge of the relay straddles a threshold. -/
theorem lossMatches_kept_iff {relayEdges : List EdgeConfig} (rounded : ∀ e ∈ relayEdges, Rounded e)
    (compName : NodeName) {relayName : NodeName} {nbr : NodeName × EdgeConfig}
    (kept : nbr ∈ keptNeighbours relayEdges relayName) :
    LossMatches (neighbourLink compName nbr.1 (neighbourSnrs relayName nbr.2))
        (neighbourSnrs relayName nbr.2) ↔
      ¬ Straddles (relaySnrs relayName nbr.2) := by
  obtain ⟨inTable, audible⟩ :=
    List.mem_filter.mp (List.mem_mergeSort.mp (List.mem_of_mem_take kept))
  have audible' : -6 < bestSnr relayName nbr.2 := of_decide_eq_true audible
  have hundredths : ∃ m n : ℤ, relaySnrs relayName nbr.2 = ((m : ℚ) / 100, (n : ℚ) / 100) := by
    obtain ⟨m, n, forth, back⟩ := rounded _ (mem_of_neighbour inTable)
    unfold relaySnrs
    simp only [forth, back]
    split_ifs
    · exact ⟨m, n, rfl⟩
    · exact ⟨n, m, rfl⟩
  obtain ⟨m, n, snrs⟩ := hundredths
  have loud : -300 < max m n := by
    rw [bestSnr, snrs, halfPenalty, lt_max_iff] at audible'
    refine lt_max_iff.mpr (audible'.imp (fun left => ?_) fun right => ?_)
    · have scaled : (-300 : ℚ) < m := by linarith
      exact_mod_cast scaled
    · have scaled : (-300 : ℚ) < n := by linarith
      exact_mod_cast scaled
  rw [neighbourSnrs, snrs]
  exact lossMatches_iff_hundredths compName nbr.1 loud

/-! ### The output -/

section

variable {α β γ : Type} {R : β → γ → Prop}

theorem forall₂_append_iff {l l' : List β} {m m' : List γ} (same : l.length = m.length) :
    List.Forall₂ R (l ++ l') (m ++ m') ↔ List.Forall₂ R l m ∧ List.Forall₂ R l' m' := by
  induction l generalizing m with
  | nil =>
      obtain rfl := List.length_eq_zero_iff.mp same.symm
      simp
  | cons x l ih =>
      cases m with
      | nil => cases same
      | cons y m =>
          simp only [List.cons_append, List.forall₂_cons, ih (Nat.succ.inj same), and_assoc]

theorem forall₂_flatMap_iff {f : α → List β} {g : α → List γ}
    (same : ∀ x, (f x).length = (g x).length) (l : List α) :
    List.Forall₂ R (l.flatMap f) (l.flatMap g) ↔ ∀ x ∈ l, List.Forall₂ R (f x) (g x) := by
  induction l with
  | nil => simp
  | cons x l ih =>
      simp only [List.flatMap_cons, forall₂_append_iff (same x), ih, List.forall_mem_cons]

end

/-- The losses of the output are those of the SNRs if those of the companions are. -/
theorem forall₂_edges_iff {lib : ImportLib} {params : ImportParams} {rawEdges : List RawEdge}
    {nodes : Dict String ImportedNode} {measured filled : EdgeState} {warmup : ℚ}
    (merged : mergeEdges nodes rawEdges = .ok measured)
    (gaps : fillGaps lib params nodes measured = some filled) :
    let topology := assemble lib params nodes filled.edges warmup
    List.Forall₂ (fun e snrs => ∀ s ∈ snrs, LossMatches e s) topology.edges
        (edgeSnrs lib params nodes rawEdges topology.relayEdges) ↔
      ∀ companion ∈ companions lib params nodes,
        ∀ nbr ∈ keptNeighbours topology.relayEdges companion.2.name,
          ¬ Straddles (relaySnrs companion.2.name nbr.2) := by
  intro topology
  have measures := measures_of_mergeEdges merged
  obtain ⟨added, whole, rounded⟩ := edges_fillGaps gaps
  have relayEdges : topology.relayEdges = measured.edges ++ added := whole
  have allRounded : ∀ e ∈ topology.relayEdges, Rounded e := by
    intro e mem
    rw [relayEdges] at mem
    rcases List.mem_append.mp mem with old | new
    · obtain ⟨i, inEdges, rfl⟩ := List.getElem_of_mem old
      exact (measures.get inEdges (measures.length_eq ▸ inEdges)).rounded
    · exact rounded e new
  have rest : topology.relayEdges.length - (measuredSnrs nodes rawEdges).length = added.length := by
    rw [relayEdges, List.length_append, ← measures.length_eq]
    omega
  have measuredMatch : List.Forall₂ (fun e snrs => ∀ s ∈ snrs, LossMatches e s) measured.edges
      ((measuredSnrs nodes rawEdges).map some) := by
    refine List.forall₂_map_right_iff.mpr (measures.imp fun e snrs measures => ?_)
    rintro s mem
    cases Option.mem_some.mp mem
    exact measures.lossMatches
  have addedMatch : List.Forall₂ (fun e snrs => ∀ s ∈ snrs, LossMatches e s) added
      (List.replicate added.length none) := by
    rw [← List.map_const', List.forall₂_map_right_iff]
    exact List.forall₂_same.mpr fun e _ s mem => by cases mem
  have links (companion : NodeName × ImportedNode) :
      (companionLinks topology.relayEdges companion.1 companion.2.name).length =
        (none :: (keptNeighbours topology.relayEdges companion.2.name).map fun nbr =>
          some (neighbourSnrs companion.2.name nbr.2)).length := by
    rw [companionLinks_eq]
    simp
  have companionsMatch := forall₂_flatMap_iff
    (R := fun e (snrs : Option (ℚ × ℚ)) => ∀ s ∈ snrs, LossMatches e s) links
    (companions lib params nodes)
  unfold edgeSnrs ImportedTopology.edges
  rw [rest, relayEdges, forall₂_append_iff (by simp [measures.length_eq]),
    forall₂_append_iff (by simp [measures.length_eq]), and_iff_right ⟨measuredMatch, addedMatch⟩,
    ← relayEdges]
  refine companionsMatch.trans (forall₂_congr fun companion _ => ?_)
  rw [companionLinks_eq, List.forall₂_cons, List.forall₂_map_left_iff, List.forall₂_map_right_iff,
    List.forall₂_same, and_iff_right fun s mem => by cases mem]
  refine forall₂_congr fun nbr kept => ?_
  rw [← lossMatches_kept_iff allRounded companion.1 kept]
  simp

/-- The loss of every measured direction, and of every direction between a companion and a neighbour
of its relay, is that of its SNR, unless the relay and the neighbour hear each other at 9.00 and
8.99 dB, or at 3.00 and 2.99 dB. -/
theorem lossesMatch_iff (lib : ImportLib) (params : ImportParams) (rawNodes : Dict String RawNode)
    (rawEdges : List RawEdge) :
    LossesMatch lib params rawNodes rawEdges ↔ NoneStraddles lib params rawNodes rawEdges := by
  unfold LossesMatch NoneStraddles
  refine forall_congr' fun nodes => forall_congr' fun topology => forall_congr' fun run =>
    forall_congr' fun returned => ?_
  obtain ⟨nodes', measured, filled, warmup, run', merged, gaps, -, rfl⟩ :=
    importTopology_eq_ok.mp returned
  obtain rfl : nodes = nodes' := Option.some.inj (run.symm.trans run')
  exact forall₂_edges_iff merged gaps

/-! ### A companion that loses an override -/

/-- What the relays hear of each other. -/
def nineDb : List RawEdge :=
  [⟨"a1b2c3d4", "b1b2c3d4", 9004 / 1000, "neighbors"⟩,
    ⟨"b1b2c3d4", "a1b2c3d4", 899 / 100, "neighbors"⟩]

/-- The edge between the relays. -/
def nineDbEdge : EdgeConfig := measuredEdge "left" "right" (9004 / 1000) (899 / 100)

theorem relays_twoImported : relays twoImported = [leftRelay, rightRelay] := by
  rw [relays, sortedNodes_twoImported]
  rfl

theorem kept_nineDbEdge : keptNeighbours [nineDbEdge] "left" = [("right", nineDbEdge)] := by
  have neighbour : (((relayNeighbours [nineDbEdge]).get? "left").getD .empty).entries.filter
      (fun nbr => -6 < bestSnr "left" nbr.2) = [("right", nineDbEdge)] := by
    decide +kernel
  unfold keptNeighbours
  simp only [neighbour, List.mergeSort_singleton]
  rfl

/-- The companion of the left relay hears the right one at 5.99 dB, and is heard at 6.00 dB. -/
theorem not_lossesMatch :
    ¬ ∀ lib params rawNodes rawEdges, LossesMatch lib params rawNodes rawEdges := by
  intro claim
  have merged : mergeEdges twoImported nineDb = .ok ⟨[nineDbEdge], [["a1b2c3d4", "b1b2c3d4"]]⟩ := by
    decide +kernel
  obtain ⟨warmup, warmed⟩ := (warmupSecs_eq_ok { companions := 1, fillGaps := false }
    (outputNodes equator { companions := 1, fillGaps := false } twoImported).length).mpr
      (by decide +kernel)
  have gaps : fillGaps equator { companions := 1, fillGaps := false } twoImported
      ⟨[nineDbEdge], [["a1b2c3d4", "b1b2c3d4"]]⟩ = some _ := rfl
  have returned := importTopology_eq_ok.mpr ⟨twoImported, _, _, warmup, importNodes_twoRelays,
    merged, gaps, warmed, rfl⟩
  have companion : ("alice", leftRelay) ∈
      companions equator { companions := 1, fillGaps := false } twoImported := by
    unfold companions companionCount
    rw [relays_twoImported]
    decide +kernel
  refine (forall₂_edges_iff merged gaps).mp (claim equator { companions := 1, fillGaps := false }
    twoRelays nineDb _ _ importNodes_twoRelays returned) ("alice", leftRelay) companion
      ("right", nineDbEdge) ?_ ?_
  · change ("right", nineDbEdge) ∈ keptNeighbours [nineDbEdge] "left"
    rw [kept_nineDbEdge]
    exact List.mem_cons_self
  · unfold Straddles
    decide +kernel

end MeshcoreSim.ImportTopology
