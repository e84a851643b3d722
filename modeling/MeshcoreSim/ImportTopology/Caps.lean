import Mathlib.Data.Rat.Sqrt
import MeshcoreSim.ImportTopology.Edges

/-!
The caps of the gap-filling loop.

The loop reads and writes counters of edges per node. `Capped` is its invariant: the counters
bound the edges of every node, and are bounded by what was measured or by the cap.

* `Capped.tryGap` — one step keeps it, whatever is drawn and whatever order the candidates have.
* `gap_caps` — the edges that the tool returns without companions.
-/

namespace MeshcoreSim.ImportTopology

open Lib

/-- The number of edges of a node. -/
def edgesAt (name : NodeName) (edges : List EdgeConfig) : ℕ :=
  edges.countP fun e => e.a = name ∨ e.b = name

/-- The number of edges of a node with SNR > 0. -/
def goodAt (name : NodeName) (edges : List EdgeConfig) : ℕ :=
  edges.countP fun e => (e.a = name ∨ e.b = name) ∧ 0 < e.snr

/-- An edge between two nodes in range of each other, with an estimated SNR above the floor. -/
structure Estimated (lib : ImportLib) (model : PropagationModel) (maxKm : ℚ)
    (nodes : Dict String ImportedNode) (e : EdgeConfig) : Prop where
  between : ∃ n1 ∈ nodes.values, ∃ n2 ∈ nodes.values, e.a = n1.name ∧ e.b = n2.name ∧
    ∃ dist, haversineKm lib n1 n2 = some dist ∧ 1 / 100 < dist ∧ dist ≤ maxKm ∧
    ∃ draw, let snrEst := model.a + model.b * lib.log10 dist + lib.gauss draw model.sigma
      snrFloor < snrEst ∧ e.snr = roundTo snrEst 2 ∧ e.loss = snrToLoss snrEst

/-- What a counter says of a node. -/
def count (counter : Dict String ℕ) (p : String) : ℕ := (counter.get? p).getD 0

/-- The invariant of the loop, over the measured edges. -/
structure Capped (lib : ImportLib) (model : PropagationModel) (maxKm : ℚ) (maxGoodLinks : ℤ)
    (nodes : Dict String ImportedNode) (measured : List EdgeConfig) (state : GapState) : Prop where
  joined : Joined nodes state.toEdgeState
  total : ∀ p n, nodes.get? p = some n → count state.totalCount p = edgesAt n.name state.edges
  good : ∀ p n, nodes.get? p = some n → goodAt n.name state.edges ≤ count state.goodCount p
  totalCap : ∀ p n, nodes.get? p = some n →
    count state.totalCount p ≤ max (edgesAt n.name measured) maxEdgesPerNode
  goodCap : ∀ p n, nodes.get? p = some n →
    (count state.goodCount p : ℤ) ≤ max (goodAt n.name measured : ℤ) maxGoodLinks
  added : ∃ added, state.edges = measured ++ added ∧
    ∀ e ∈ added, Estimated lib model maxKm nodes e

/-! ### Counters -/

/-- An edge is counted at its two ends. -/
theorem count_incr_incr (counter : Dict String ℕ) {a b : String} (different : a ≠ b) (p : String) :
    count ((counter.incr a).incr b) p = count counter p + if p = a ∨ p = b then 1 else 0 := by
  unfold count
  rw [Dict.get?_incr, Dict.get?_incr]
  by_cases isA : p = a
  · have notB : p ≠ b := fun isB => different (isA.symm.trans isB)
    simp [isA, different]
  · simp [isA]

theorem edgesAt_concat (name : NodeName) (edges : List EdgeConfig) (e : EdgeConfig) :
    edgesAt name (edges ++ [e]) =
      edgesAt name edges + if e.a = name ∨ e.b = name then 1 else 0 := by
  rw [edgesAt, List.countP_append, List.countP_singleton]
  simp [edgesAt]

theorem goodAt_concat (name : NodeName) (edges : List EdgeConfig) (e : EdgeConfig) :
    goodAt name (edges ++ [e]) =
      goodAt name edges + if (e.a = name ∨ e.b = name) ∧ 0 < e.snr then 1 else 0 := by
  rw [goodAt, List.countP_append, List.countP_singleton]
  simp [goodAt]

section

variable {nodes : Dict String ImportedNode} (distinct : (nodeNames nodes).Nodup)
include distinct

/-- The ends of an edge by their names and by their keys. -/
theorem ends_iff {a b p : String} {na nb n : ImportedNode} (ha : nodes.get? a = some na)
    (hb : nodes.get? b = some nb) (known : nodes.get? p = some n) :
    (na.name = n.name ∨ nb.name = n.name) ↔ (p = a ∨ p = b) := by
  constructor
  · rintro (same | same)
    · exact .inl (key_eq_of_name_eq distinct known ha same.symm)
    · exact .inr (key_eq_of_name_eq distinct known hb same.symm)
  · rintro (rfl | rfl)
    · exact .inl (congrArg ImportedNode.name (Option.some.inj (ha.symm.trans known)))
    · exact .inr (congrArg ImportedNode.name (Option.some.inj (hb.symm.trans known)))

end

/-! ### Counting what was measured -/

section

variable {nodes : Dict String ImportedNode} (distinct : (nodeNames nodes).Nodup)
  (keyed : ∀ p n, nodes.get? p = some n → n.pfx = p)
include distinct keyed

theorem countEnd_eq {e : EdgeConfig} {p : String} {n : ImportedNode}
    (known : nodes.get? p = some n) (state : GapState) :
    countEnd nodes e state n.name =
      { state with
        totalCount := state.totalCount.incr p
        goodCount := if 0 < e.snr then state.goodCount.incr p else state.goodCount } := by
  simp only [countEnd, nodeNamed_get? distinct known, keyed p n known]

/-- The counters after the measured edges. -/
theorem count_countMeasured {measured : EdgeState} (joined : Joined nodes measured) {p : String}
    {n : ImportedNode} (known : nodes.get? p = some n) :
    count (countMeasured nodes measured).totalCount p = edgesAt n.name measured.edges ∧
      count (countMeasured nodes measured).goodCount p = goodAt n.name measured.edges := by
  have ends := fun e (mem : e ∈ measured.edges) => joined.pair_of_mem mem
  unfold countMeasured
  generalize measured.edges = edges at ends ⊢
  induction edges using List.reverseRecOn with
  | nil => exact ⟨rfl, rfl⟩
  | append_singleton edges e ih =>
      obtain ⟨total, good⟩ := ih fun e mem => ends e (List.mem_append_left _ mem)
      obtain ⟨pair, a, b, na, nb, -, ordered, ha, hb, left, right⟩ :=
        ends e (List.mem_append_right _ List.mem_cons_self)
      rw [List.foldl_concat, left, right, countEnd_eq distinct keyed ha,
        countEnd_eq distinct keyed hb, edgesAt_concat, goodAt_concat, left, right,
        ← total, ← good]
      simp only [ends_iff distinct ha hb known]
      refine ⟨count_incr_incr _ ordered.ne p, ?_⟩
      by_cases strong : 0 < e.snr
      · simp only [strong, if_true, and_true]
        exact count_incr_incr _ ordered.ne p
      · simp only [strong, if_false, and_false, Nat.add_zero]

end

/-! ### One candidate -/

theorem roundHalfEven_nonpos {x : ℚ} (nonpos : x ≤ 0) : roundHalfEven x ≤ 0 := by
  have below : ⌊x⌋ ≤ 0 := by simpa using Int.floor_le_floor nonpos
  unfold roundHalfEven
  simp only
  split_ifs with down up even
  · exact below
  · by_contra positive
    have zero : ⌊x⌋ = 0 := by omega
    rw [zero] at up
    norm_num at up
    linarith
  · exact below
  · by_contra positive
    have zero : ⌊x⌋ = 0 := by omega
    exact even (by rw [zero]; rfl)

/-- Rounding does not make a link a good one. -/
theorem roundTo_nonpos {x : ℚ} (nonpos : x ≤ 0) (digits : ℕ) : roundTo x digits ≤ 0 := by
  have scaled : x * 10 ^ digits ≤ 0 := mul_nonpos_of_nonpos_of_nonneg nonpos (by positivity)
  refine div_nonpos_of_nonpos_of_nonneg ?_ (by positivity)
  exact_mod_cast roundHalfEven_nonpos scaled

section

variable {lib : ImportLib} {model : PropagationModel} {maxKm : ℚ} {maxGoodLinks : ℤ}
  {nodes : Dict String ImportedNode} {measured : List EdgeConfig} {state : GapState} {p1 : String}
  {n1 : ImportedNode} {c : Candidate}

/-- What the loop does with a candidate: nothing that matters, or it joins two nodes below the
caps. -/
theorem tryGap_outcome (lib : ImportLib) (model : PropagationModel) (maxGoodLinks : ℤ)
    (n1 : ImportedNode) (state : GapState) (different : p1 ≠ c.pfx) :
    let state' := tryGap lib model maxGoodLinks p1 n1 state c
    let snrEst := model.a + model.b * lib.log10 c.dist + lib.gauss state.draws model.sigma
    (state'.toEdgeState = state.toEdgeState ∧ state'.totalCount = state.totalCount ∧
      state'.goodCount = state.goodCount) ∨
    (count state.totalCount p1 < maxEdgesPerNode ∧
      count state.totalCount c.pfx < maxEdgesPerNode ∧ snrFloor < snrEst ∧
      (0 < snrEst → (count state.goodCount p1 : ℤ) < maxGoodLinks ∧
        (count state.goodCount c.pfx : ℤ) < maxGoodLinks) ∧
      state'.toEdgeState = state.toEdgeState.add p1 c.pfx
        { a := n1.name, b := c.node.name, loss := snrToLoss snrEst, latencyMs := 20,
          snr := roundTo snrEst 2, aToB := none, bToA := none } ∧
      state'.totalCount = (state.totalCount.incr p1).incr c.pfx ∧
      state'.goodCount =
        if 0 < snrEst then (state.goodCount.incr p1).incr c.pfx else state.goodCount) := by
  intro state' snrEst
  unfold state' tryGap
  simp only
  split
  · exact .inl ⟨rfl, rfl, rfl⟩
  · rename_i full
    split
    · exact .inl ⟨rfl, rfl, rfl⟩
    · rename_i weak
      split
      · exact .inl ⟨rfl, rfl, rfl⟩
      · rename_i crowded
        rw [not_or, not_le, not_le] at full
        rw [not_and, not_or, not_le, not_le] at crowded
        have second : (state.totalCount.incr p1).get? c.pfx = state.totalCount.get? c.pfx :=
          Dict.get?_set_of_ne _ _ different.symm
        have total : (state.totalCount.set p1 ((state.totalCount.get? p1).getD 0 + 1)).set c.pfx
            ((state.totalCount.get? c.pfx).getD 0 + 1) =
              (state.totalCount.incr p1).incr c.pfx := by
          rw [← second]
          rfl
        exact .inr ⟨full.1, full.2, not_le.mp weak, crowded, rfl, total, rfl⟩

theorem Capped.tryGap (capped : Capped lib model maxKm maxGoodLinks nodes measured state)
    (distinct : (nodeNames nodes).Nodup) (known : nodes.get? p1 = some n1)
    (joinable : Joinable nodes state.edgeSet p1 c) (inRange : c.InRange lib maxKm n1) :
    Capped lib model maxKm maxGoodLinks nodes measured
      (tryGap lib model maxGoodLinks p1 n1 state c) := by
  have joined := capped.joined.tryGap known joinable lib model maxGoodLinks
  have outcome := tryGap_outcome lib model maxGoodLinks n1 state joinable.after.ne
  generalize ImportTopology.tryGap lib model maxGoodLinks p1 n1 state c = state' at joined outcome ⊢
  simp only at outcome
  have estimate : ∃ draw, model.a + model.b * lib.log10 c.dist + lib.gauss state.draws model.sigma =
      model.a + model.b * lib.log10 c.dist + lib.gauss draw model.sigma := ⟨state.draws, rfl⟩
  generalize model.a + model.b * lib.log10 c.dist + lib.gauss state.draws model.sigma = snrEst
    at outcome estimate
  rcases outcome with ⟨edges, total, good⟩ |
    ⟨room, room', audible, goodRoom, edges, total, good⟩
  · have sameEdges := congrArg EdgeState.edges edges
    refine ⟨joined, ?_, ?_, ?_, ?_, ?_⟩
    · rw [sameEdges, total]
      exact capped.total
    · rw [sameEdges, good]
      exact capped.good
    · rw [total]
      exact capped.totalCap
    · rw [good]
      exact capped.goodCap
    · rw [sameEdges]
      exact capped.added
  · have sameEdges := congrArg EdgeState.edges edges
    have others := joinable.after.ne
    simp only [EdgeState.add] at sameEdges
    refine ⟨joined, ?_, ?_, ?_, ?_, ?_⟩
    · intro p n known'
      rw [total, count_incr_incr _ others, sameEdges, edgesAt_concat, capped.total p n known']
      simp only [ends_iff distinct known joinable.node known']
    · intro p n known'
      have before := capped.good p n known'
      rw [good, sameEdges, goodAt_concat]
      simp only [ends_iff distinct known joinable.node known']
      by_cases positive : 0 < snrEst
      · rw [if_pos positive, count_incr_incr _ others]
        by_cases here : p = p1 ∨ p = c.pfx
        · rw [if_pos here]
          refine Nat.add_le_add before ?_
          split_ifs <;> decide
        · rw [if_neg here, if_neg fun both => here both.1]
          exact before
      · have notGood : ¬ 0 < roundTo snrEst 2 := not_lt.mpr (roundTo_nonpos (not_lt.mp positive) 2)
        rw [if_neg positive, if_neg fun both => notGood both.2]
        exact before
    · intro p n known'
      have before := capped.totalCap p n known'
      rw [total, count_incr_incr _ others]
      split_ifs with here
      · rcases here with rfl | rfl
        · exact le_max_of_le_right room
        · exact le_max_of_le_right room'
      · exact before
    · intro p n known'
      have before := capped.goodCap p n known'
      rw [good]
      split_ifs with positive
      · obtain ⟨goodRoom₁, goodRoom₂⟩ := goodRoom positive
        rw [count_incr_incr _ others]
        split_ifs with here
        · push_cast
          rcases here with rfl | rfl
          · exact le_max_of_le_right goodRoom₁
          · exact le_max_of_le_right goodRoom₂
        · exact before
      · exact before
    · obtain ⟨added, whole, estimated⟩ := capped.added
      refine ⟨added ++ [_], by rw [sameEdges, whole, List.append_assoc], fun e mem => ?_⟩
      rcases List.mem_append.mp mem with old | new
      · exact estimated e old
      · obtain ⟨draw, isEstimate⟩ := estimate
        rw [List.mem_singleton.mp new]
        exact ⟨⟨n1, mem_values known, c.node, mem_values joinable.node, rfl, rfl, c.dist,
          inRange.dist, inRange.apart, inRange.near, draw, isEstimate ▸ ⟨audible, rfl, rfl⟩⟩⟩

end

/-! ### The tool -/

section

variable {nodes : Dict String ImportedNode} (distinct : (nodeNames nodes).Nodup)
  (keyed : ∀ p n, nodes.get? p = some n → n.pfx = p)
include distinct keyed

/-- The whole loop. -/
theorem capped_fillGaps {measured : EdgeState} (joined : Joined nodes measured) {lib : ImportLib}
    {model : PropagationModel} {maxKm : ℚ} {maxGoodLinks : ℤ} {filled : GapState}
    (run : (sortedNodes nodes).foldlM (fillNode lib model maxGoodLinks maxKm (sortedNodes nodes))
      (countMeasured nodes measured) = some filled) :
    Capped lib model maxKm maxGoodLinks nodes measured.edges filled := by
  have edges := congrArg EdgeState.edges (countMeasured_toEdgeState nodes measured)
  refine (foldlM_fillNode_induction run ?_ fun state p1 n1 c known joinable inRange capped =>
    capped.tryGap distinct known joinable inRange).1
  refine ⟨?_, ?_, ?_, ?_, ?_, ?_⟩
  · rw [countMeasured_toEdgeState]
    exact joined
  · intro p n known
    rw [edges]
    exact (count_countMeasured distinct keyed joined known).1
  · intro p n known
    rw [edges]
    exact (count_countMeasured distinct keyed joined known).2.ge
  · intro p n known
    exact le_max_of_le_left (count_countMeasured distinct keyed joined known).1.le
  · intro p n known
    refine le_max_of_le_left ?_
    exact_mod_cast (count_countMeasured distinct keyed joined known).2.le
  · exact ⟨[], by rw [edges, List.append_nil], fun e mem => absurd mem List.not_mem_nil⟩

end

/-- A name that is not the name of a node is not the end of an edge. -/
theorem edgesAt_eq_zero {nodes : Dict String ImportedNode} {state : EdgeState}
    (joined : Joined nodes state) {name : NodeName}
    (unknown : ¬ ∃ p n, nodes.get? p = some n ∧ n.name = name) :
    edgesAt name state.edges = 0 ∧ goodAt name state.edges = 0 := by
  have apart : ∀ e ∈ state.edges, ¬ (e.a = name ∨ e.b = name) := by
    intro e mem
    obtain ⟨pair, a, b, na, nb, -, -, ha, hb, left, right⟩ := joined.pair_of_mem mem
    rintro (same | same)
    · exact unknown ⟨a, na, ha, left.symm.trans same⟩
    · exact unknown ⟨b, nb, hb, right.symm.trans same⟩
  constructor
  · exact List.countP_eq_zero.mpr fun e mem => by simpa using apart e mem
  · refine List.countP_eq_zero.mpr fun e mem counted => ?_
    exact apart e mem (of_decide_eq_true counted).1

/-- Without companions, the edges of the output are the measured ones and others that join pairs
without an edge, of nodes in range, with SNRs above the floor. No node gets more edges or good links
than it had or the caps allow. -/
theorem gap_caps {lib : ImportLib} {params : ImportParams} {rawNodes : Dict String RawNode}
    {rawEdges : List RawEdge} {topology : ImportedTopology}
    (returned : importTopology lib params rawNodes rawEdges = .ok topology)
    (alone : params.companions = 0) :
    ∃ nodes measured added, importNodes rawNodes = some nodes ∧
      mergeEdges nodes rawEdges = .ok measured ∧
      topology.edges = measured.edges ++ added ∧
      (topology.edges.map fun e => s(e.a, e.b)).Nodup ∧
      (∀ e ∈ added, ∃ model,
        fitPropagationModel lib nodes measured.edges params.gapSigma = some model ∧
          Estimated lib model (effectiveMaxKm params model) nodes e) ∧
      ∀ name,
        edgesAt name topology.edges ≤ max (edgesAt name measured.edges) maxEdgesPerNode ∧
        (goodAt name topology.edges : ℤ) ≤
          max (goodAt name measured.edges : ℤ) params.maxGoodLinks := by
  obtain ⟨nodes, measured, filled, warmup, run, merged, gaps, -, rfl⟩ :=
    importTopology_eq_ok.mp returned
  obtain ⟨nodes', run', imported⟩ := importedFrom rawNodes
  obtain rfl : nodes = nodes' := Option.some.inj (run.symm.trans run')
  obtain ⟨measured', merged', joined⟩ := mergeEdges_ok (noSelfEdge_of_mergeEdges merged)
  obtain rfl : measured = measured' := Except.ok.inj (merged.symm.trans merged')
  have distinct := imported.distinct
  have keyed (p : String) (n : ImportedNode) (known : nodes.get? p = some n) : n.pfx = p := by
    obtain ⟨raw, -, -, place⟩ := imported.places p n known
    exact congrArg ImportedNode.pfx place
  have noCompanions : companions lib params nodes = [] := by
    have names := congrArg List.length (names_companions lib params nodes)
    have zero : companionCount params nodes = 0 := by simp [companionCount, alone]
    rw [zero] at names
    simpa using names
  have relaysOnly : (assemble lib params nodes filled.edges warmup).edges = filled.edges := by
    simp [ImportedTopology.edges, assemble, companionEdges, noCompanions]
  have filledJoined := joined.fillGaps gaps
  rw [relaysOnly]
  have once := nodup_ends distinct filledJoined.ends filledJoined.distinct
  rcases fillGaps_eq_some gaps with ⟨-, rfl⟩ | ⟨model, state, -, fitted, loop, rfl⟩
  · refine ⟨nodes, filled, [], run, merged, (List.append_nil _).symm, once, ?_, fun name => ?_⟩
    · exact fun e mem => absurd mem List.not_mem_nil
    · exact ⟨le_max_left _ _, le_max_left _ _⟩
  · have capped := capped_fillGaps distinct keyed joined loop
    obtain ⟨added, whole, estimated⟩ := capped.added
    refine ⟨nodes, measured, added, run, merged, whole, once,
      fun e mem => ⟨model, fitted, estimated e mem⟩, fun name => ?_⟩
    by_cases known : ∃ p n, nodes.get? p = some n ∧ n.name = name
    · obtain ⟨p, n, known, rfl⟩ := known
      have good := capped.good p n known
      refine ⟨(capped.total p n known).symm.trans_le (capped.totalCap p n known), ?_⟩
      exact le_trans (by exact_mod_cast good) (capped.goodCap p n known)
    · obtain ⟨none, noneGood⟩ := edgesAt_eq_zero filledJoined known
      rw [none, noneGood]
      exact ⟨Nat.zero_le _, le_max_of_le_left (Int.natCast_nonneg _)⟩

/-- Near the equator, for distances around 1 km. -/
def equator : ImportLib where
  radians x := x * (355 / 113) / 180
  sin x := x
  cos _ := 1
  asin x := x
  sqrt := Rat.sqrt
  log10 x := (x - 1) * (43 / 100)
  gauss _ _ := 0
  sample _ k := List.range k
  sample_length _ _ _ := List.length_range
  sample_lt _ _ enough _ mem := Nat.lt_of_lt_of_le (List.mem_range.mp mem) enough

/-- Two relays about 1.1 km apart. -/
def twoRelays : Dict String RawNode :=
  .ofList [("a1b2c3d4", ⟨some "left", 0, 1⟩), ("b1b2c3d4", ⟨some "right", 0, 101 / 100⟩)]

def leftRelay : ImportedNode := ⟨"left", "a1b2c3d4", 0, 1⟩

def rightRelay : ImportedNode := ⟨"right", "b1b2c3d4", 0, 101 / 100⟩

/-- `twoRelays` after the import. -/
def twoImported : Dict String ImportedNode :=
  .ofList [("a1b2c3d4", leftRelay), ("b1b2c3d4", rightRelay)]

theorem importNodes_twoRelays : importNodes twoRelays = some twoImported := by
  have entries : (importNodes twoRelays).map Dict.entries = some twoImported.entries := by
    decide +kernel
  obtain ⟨⟨nodes, distinct⟩, run, same⟩ := Option.map_eq_some_iff.mp entries
  cases same
  exact run

theorem sortedNodes_twoImported : sortedNodes twoImported = twoImported.entries :=
  List.mergeSort_of_pairwise (by decide +kernel)

/-- The gap between the relays is filled. -/
theorem fillGaps_twoImported : ∃ filled e,
    fillGaps equator { companions := 0 } twoImported ⟨[], []⟩ = some filled ∧ e ∈ filled.edges := by
  have fitted : fitPropagationModel equator twoImported [] none = some ⟨10, -30, 8, 20⟩ := by
    norm_num [fitPropagationModel, measuredPoints, regression]
  have range : effectiveMaxKm { companions := 0 } ⟨10, -30, 8, 20⟩ = 30 := by decide +kernel
  let right : Candidate :=
    ⟨(haversineKm equator leftRelay rightRelay).getD 0, "b1b2c3d4", rightRelay⟩
  let start := countMeasured twoImported ⟨[], []⟩
  let last := tryGap equator ⟨10, -30, 8, 20⟩ 3 "a1b2c3d4" leftRelay start right
  have first : fillNode equator ⟨10, -30, 8, 20⟩ 3 30 twoImported.entries start
      ("a1b2c3d4", leftRelay) = some last := by
    have found :
        twoImported.entries.mapM (candidate? equator 30 start.edgeSet "a1b2c3d4" leftRelay) =
          some [none, some right] := by decide +kernel
    rw [fillNode, candidates, found]
    simp [List.reduceOption, last]
  have second : fillNode equator ⟨10, -30, 8, 20⟩ 3 30 twoImported.entries last
      ("b1b2c3d4", rightRelay) = some last := by
    have found :
        twoImported.entries.mapM (candidate? equator 30 last.edgeSet "b1b2c3d4" rightRelay) =
          some [none, none] := by decide +kernel
    rw [fillNode, candidates, found]
    simp [List.reduceOption]
  have loop : twoImported.entries.foldlM
      (fillNode equator ⟨10, -30, 8, 20⟩ 3 30 twoImported.entries) start = some last := by
    rw [show twoImported.entries = [("a1b2c3d4", leftRelay), ("b1b2c3d4", rightRelay)] from rfl]
      at first second ⊢
    rw [List.foldlM_cons, first, Option.bind_eq_bind, Option.bind_some, List.foldlM_cons, second]
    rfl
  have some_ : last.edges.head?.isSome := by decide +kernel
  obtain ⟨e, isFirst⟩ := Option.isSome_iff_exists.mp some_
  refine ⟨last.toEdgeState, e, ?_, List.mem_of_head? isFirst⟩
  rw [fillGaps, if_pos rfl, fitted, Option.bind_some, range, sortedNodes_twoImported, loop]
  rfl

/-- The tool adds an edge between the relays, which are in range of each other. -/
theorem gap_caps_twoRelays :
    ∃ topology e, importTopology equator { companions := 0 } twoRelays [] = .ok topology ∧
      e ∈ topology.edges ∧ Estimated equator ⟨10, -30, 8, 20⟩ 30 twoImported e := by
  obtain ⟨filled, e, gaps, inFilled⟩ := fillGaps_twoImported
  obtain ⟨warmup, warmed⟩ := (warmupSecs_eq_ok { companions := 0 }
    (outputNodes equator { companions := 0 } twoImported).length).mpr (by decide +kernel)
  have merged : mergeEdges twoImported [] = .ok ⟨[], []⟩ := rfl
  have returned := importTopology_eq_ok.mpr ⟨twoImported, ⟨[], []⟩, filled, warmup,
    importNodes_twoRelays, merged, gaps, warmed, rfl⟩
  obtain ⟨nodes, measured, added, run, merged', whole, -, estimated, -⟩ := gap_caps returned rfl
  obtain rfl := Option.some.inj (importNodes_twoRelays.symm.trans run)
  cases merged'
  have mem : e ∈ (assemble equator { companions := 0 } twoImported filled.edges warmup).edges :=
    List.mem_append_left _ inFilled
  refine ⟨_, e, returned, mem, ?_⟩
  rw [whole] at mem
  obtain ⟨model, fitted, inRange⟩ := estimated e mem
  have model_ : model = ⟨10, -30, 8, 20⟩ := by
    norm_num [fitPropagationModel, measuredPoints, regression] at fitted
    exact fitted.symm
  have range : effectiveMaxKm { companions := 0 } ⟨10, -30, 8, 20⟩ = 30 := by decide +kernel
  rw [model_, range] at inRange
  exact inRange

end MeshcoreSim.ImportTopology
