import Mathlib.Algebra.Order.Floor.Ring
import Mathlib.Data.Rat.Floor
import MeshcoreSim.Config
import MeshcoreSim.Geo

/-!
Conversion of an optimizer's topology to a simulator topology (`tools/import_topology.py`).

The sections of `import_topology` are definitions of their own, in the source's order:
`importNodes` (filter and rename), `mergeEdges` (directed edges to undirected ones),
`fillGaps` (estimated edges), `outputNodes` and `companionEdges` (endpoints), `warmupSecs`.
`importTopology` runs them and raises what they raise. Floating-point values are rationals;
the functions of `math` and the seeded generator are the fields of `ImportLib`. What is
printed with `--verbose` is left out.
-/

namespace MeshcoreSim.ImportTopology

open Lib

/-! ### Library -/

/-- What the tool uses of `math` and of `random.Random(42)`. -/
structure ImportLib extends GeoLib where
  log10 : ℚ → ℚ
  /-- the draws of `gauss(0, sigma)`, by their number -/
  gauss : ℕ → ℚ → ℚ
  /-- the places of a population of `n` that `sample(population, k)` picks -/
  sample : ℕ → ℕ → List ℕ
  sample_length : ∀ n k, k ≤ n → (sample n k).length = k
  sample_lt : ∀ n k, k ≤ n → ∀ i ∈ sample n k, i < n

/-- To the nearest integer, and from the middle to the even one. -/
def roundHalfEven (x : ℚ) : ℤ :=
  let below := ⌊x⌋
  if x - below < 1 / 2 then below
  else if 1 / 2 < x - below then below + 1
  else if below % 2 = 0 then below
  else below + 1

/-- `round(x, digits)`. -/
def roundTo (x : ℚ) (digits : ℕ) : ℚ := roundHalfEven (x * 10 ^ digits) / 10 ^ digits

/-- What a run of the tool can raise; `diverges` is a loop that does not end. -/
inductive ImportError where
  | indexError
  | keyError
  | valueError
  | zeroDivisionError
  | diverges
  deriving DecidableEq, Repr

/-! ### Names -/

/-- `_COMPANION_NAMES`. -/
def companionNames : List NodeName :=
  ["alice", "bob", "charlie", "dave", "eve", "frank",
    "grace", "heidi", "ivan", "judy", "karl", "linda",
    "mike", "nancy", "oscar", "peggy", "quinn", "ruth",
    "steve", "tina", "ursula", "victor", "wendy", "xavier",
    "yvonne", "zack"]

/-- The characters that `_NAME_RE` leaves in a name. -/
def keptInName (c : Char) : Bool := c.isAlphanum ∨ c = '_' ∨ c = ' ' ∨ c = '-'

/-- `str.strip`, of the characters that satisfy `p`. -/
def strip (p : Char → Bool) (s : List Char) : List Char :=
  ((s.dropWhile p).reverse.dropWhile p).reverse

/-- Replace every run of spaces and underscores by one underscore. -/
def collapseRuns (inRun : Bool) : List Char → List Char
  | [] => []
  | c :: rest =>
      if c = ' ' ∨ c = '_' then
        if inRun then collapseRuns true rest else '_' :: collapseRuns true rest
      else c :: collapseRuns false rest

/-- Strip emoji and non-ASCII, truncate to 20 characters, fall back to the prefix. -/
def sanitizeName (rawName pfx : String) : NodeName :=
  let clean := strip (· = ' ') (rawName.toList.filter keptInName)
  let clean := strip (fun c => c = '_' ∨ c = '-') (collapseRuns false clean)
  let clean := if clean.isEmpty then pfx.toList else clean
  .ofList (clean.take 20)

/-- The name that the renaming loop tries with a counter. -/
def numbered (baseName : NodeName) (counter : ℕ) : NodeName :=
  String.ofList (baseName.toList.take 17) ++ "_" ++ toString counter

/-- The renaming loop, for at most `fuel` tests of its condition. -/
def renameLoop (existingNames : List NodeName) (baseName : NodeName) :
    ℕ → NodeName → ℕ → Option NodeName
  | 0, _, _ => none
  | fuel + 1, name, counter =>
      if name ∈ existingNames then
        renameLoop existingNames baseName fuel (numbered baseName counter) (counter + 1)
      else some name

/-- A name that no other node has. -/
def uniqueName (existingNames : List NodeName) (baseName : NodeName) : Option NodeName :=
  renameLoop existingNames baseName (existingNames.length + 2) baseName 2

/-! ### Nodes -/

/-- A value of `"nodes"`; absent coordinates count as zero. -/
structure RawNode where
  name : Option String
  lat : ℚ := 0
  lon : ℚ := 0
  deriving DecidableEq, Repr

structure ImportedNode where
  name : NodeName
  pfx : String
  lat : ℚ
  lon : ℚ
  deriving DecidableEq, Repr

/-- Whether a node is kept: its prefix is long enough, and it has coordinates. -/
def survives (pfx : String) (raw : RawNode) : Bool :=
  8 ≤ pfx.length ∧ ¬ (raw.lat = 0 ∧ raw.lon = 0)

/-- The name of a node before it is made unique. -/
def baseName (pfx : String) (raw : RawNode) : NodeName := sanitizeName (raw.name.getD pfx) pfx

def addNode (nodes : Dict String ImportedNode) (entry : String × RawNode) :
    Option (Dict String ImportedNode) :=
  let (pfx, raw) := entry
  if survives pfx raw then
    (uniqueName (nodes.values.map ImportedNode.name) (baseName pfx raw)).map fun name =>
      nodes.set pfx ⟨name, pfx, roundTo raw.lat 6, roundTo raw.lon 6⟩
  else some nodes

/-- Parse and filter the nodes. -/
def importNodes (rawNodes : Dict String RawNode) : Option (Dict String ImportedNode) :=
  rawNodes.entries.foldlM addNode .empty

/-- `sorted(nodes)`, each key with its node. -/
def sortedNodes (nodes : Dict String ImportedNode) : List (String × ImportedNode) :=
  nodes.entries.mergeSort (·.1 ≤ ·.1)

/-! ### Measured edges -/

/-- An element of `"edges"`; absent fields are empty or zero. -/
structure RawEdge where
  src : String := ""
  dst : String := ""
  snrDb : ℚ := 0
  source : String := ""
  deriving DecidableEq, Repr

/-- `_SOURCE_RANK`, or 0. -/
def sourceRank (source : String) : ℕ :=
  if source = "neighbors" then 3
  else if source = "trace" then 2
  else if source = "inferred" then 1
  else 0

/-- Map SNR (dB) to packet loss probability. -/
def snrToLoss (snr : ℚ) : ℚ :=
  if 6 ≤ snr then 2 / 100
  else if 0 ≤ snr then 5 / 100
  else if -6 ≤ snr then 10 / 100
  else if -10 ≤ snr then 20 / 100
  else if -12 ≤ snr then 35 / 100
  else 50 / 100

/-- The elements of a `frozenset` of strings, sorted. -/
abbrev Pair := List String

def frozenset (a b : String) : Pair := if a = b then [a] else if a < b then [a, b] else [b, a]

/-- Group the edges between surviving nodes by unordered pair. -/
def groupEdges (nodes : Dict String ImportedNode) (rawEdges : List RawEdge) :
    Dict Pair (List RawEdge) :=
  rawEdges.foldl (fun pairs e =>
    if (nodes.get? e.src).isNone ∨ (nodes.get? e.dst).isNone then pairs
    else pairs.set (frozenset e.src e.dst)
      ((pairs.get? (frozenset e.src e.dst)).getD [] ++ [e])) .empty

/-- The first of the candidates of the highest source rank. -/
def bestEdge (candidates : List RawEdge) : Option RawEdge :=
  candidates.foldl (fun best e =>
    match best with
    | none => some e
    | some b => if sourceRank b.source < sourceRank e.source then some e else some b) none

/-- SNR lost in the direction that was not measured. -/
def reverseSnrPenalty : ℚ := 5

/-- The SNR from A to B and from B to A. -/
def directionalSnrs : Option RawEdge → Option RawEdge → Option (ℚ × ℚ)
  | none, none => none
  | some ab, some ba => some (ab.snrDb, ba.snrDb)
  | some ab, none => some (ab.snrDb, ab.snrDb - reverseSnrPenalty)
  | none, some ba => some (ba.snrDb - reverseSnrPenalty, ba.snrDb)

/-- `{"snr": …, "loss": …}`. -/
def overrides (snr : ℚ) : DirectionalOverrides := ⟨some (snrToLoss snr), none, some (roundTo snr 2)⟩

/-- An undirected edge, with directional overrides if the two directions differ. -/
def measuredEdge (a b : NodeName) (snrAToB snrBToA : ℚ) : EdgeConfig :=
  let lossAb := snrToLoss snrAToB
  let lossBa := snrToLoss snrBToA
  let differ : Bool := 1 / 100 < |snrAToB - snrBToA| ∨ 1 / 1000 < |lossAb - lossBa|
  { a := a
    b := b
    loss := lossAb
    latencyMs := 20
    snr := roundTo snrAToB 2
    aToB := if differ then some (overrides snrAToB) else none
    bToA := if differ then some (overrides snrBToA) else none }

/-- The undirected edges so far, and the pairs that they join. -/
structure EdgeState where
  edges : List EdgeConfig
  edgeSet : List Pair
  deriving DecidableEq, Repr

def EdgeState.add (state : EdgeState) (a b : String) (edge : EdgeConfig) : EdgeState :=
  ⟨state.edges ++ [edge], state.edgeSet ++ [frozenset a b]⟩

def mergePair (nodes : Dict String ImportedNode) (state : EdgeState)
    (group : Pair × List RawEdge) : Except ImportError EdgeState :=
  match group.1 with
  | a :: b :: _ =>
      let best := fun src dst => bestEdge (group.2.filter fun e => e.src = src ∧ e.dst = dst)
      match directionalSnrs (best a b) (best b a) with
      | none => .ok state
      | some (snrAToB, snrBToA) =>
          match nodes.get? a, nodes.get? b with
          | some na, some nb => .ok (state.add a b (measuredEdge na.name nb.name snrAToB snrBToA))
          | _, _ => .error .keyError
  -- `endpoints[1]` of a set with one element.
  | _ => .error .indexError

/-- Merge directed edges into undirected ones. -/
def mergeEdges (nodes : Dict String ImportedNode) (rawEdges : List RawEdge) :
    Except ImportError EdgeState :=
  (groupEdges nodes rawEdges).entries.foldlM (mergePair nodes) ⟨[], []⟩

/-! ### Estimated edges -/

/-- The distance of two nodes; none where `haversine_km` raises. -/
def haversineKm (lib : ImportLib) (n1 n2 : ImportedNode) : Option ℚ :=
  lib.toGeoLib.haversineKm n1.lat n1.lon n2.lat n2.lon

/-- SNR = a + b · log10(dist_km), with shadow fading of `sigma`. -/
structure PropagationModel where
  a : ℚ
  b : ℚ
  sigma : ℚ
  maxDist : ℚ
  deriving DecidableEq, Repr

/-- The nodes by name, for `name_to_prefix`. -/
def nodeNamed (nodes : Dict String ImportedNode) : Dict NodeName ImportedNode :=
  .ofList (nodes.values.map fun n => (n.name, n))

/-- Distance and SNR of a measured edge, without co-located nodes. -/
def measuredPoint (lib : ImportLib) (nodes : Dict String ImportedNode) (e : EdgeConfig) :
    Option (Option (ℚ × ℚ)) :=
  match (nodeNamed nodes).get? e.a, (nodeNamed nodes).get? e.b with
  | some n1, some n2 =>
      (haversineKm lib n1 n2).map fun dist => if dist ≤ 1 / 100 then none else some (dist, e.snr)
  | _, _ => some none

def measuredPoints (lib : ImportLib) (nodes : Dict String ImportedNode)
    (measured : List EdgeConfig) : Option (List (ℚ × ℚ)) :=
  (measured.mapM (measuredPoint lib nodes)).map List.reduceOption

/-- Linear regression of SNR over log10 of the distance; hardcoded with fewer than 5 points. -/
def regression (lib : ImportLib) (sigmaOverride : Option ℚ) (measuredAt : List (ℚ × ℚ)) :
    PropagationModel :=
  let maxDist := (measuredAt.map Prod.fst).foldl max 0
  let points := measuredAt.map fun (dist, snr) => (lib.log10 dist, snr)
  if points.length < 5 then
    ⟨10, -30, 8, if maxDist = 0 then 30 / (3 / 2) else maxDist⟩
  else
    let n : ℚ := points.length
    let sumX := (points.map Prod.fst).sum
    let sumY := (points.map Prod.snd).sum
    let sumXX := (points.map fun p => p.1 ^ 2).sum
    let sumXY := (points.map fun p => p.1 * p.2).sum
    let denom := n * sumXX - sumX ^ 2
    let b := if |denom| < 1 / 10 ^ 12 then 0 else (n * sumXY - sumX * sumY) / denom
    let a := if |denom| < 1 / 10 ^ 12 then sumY / n else (sumY - b * sumX) / n
    -- A mean of squares, so `math.sqrt` does not raise.
    let variance := (points.map fun p => (p.2 - (a + b * p.1)) ^ 2).sum / n
    let sigma := sigmaOverride.getD (lib.sqrt variance)
    ⟨a, b, if sigma < 1 then 1 else sigma, maxDist⟩

/-- `fit_propagation_model`. -/
def fitPropagationModel (lib : ImportLib) (nodes : Dict String ImportedNode)
    (measured : List EdgeConfig) (sigmaOverride : Option ℚ) : Option PropagationModel :=
  (measuredPoints lib nodes measured).map (regression lib sigmaOverride)

/-- The arguments of `import_topology`. -/
structure ImportParams where
  companions : ℤ := 5
  fillGaps : Bool := true
  maxGapKm : ℚ := 30
  maxGoodLinks : ℤ := 3
  gapSigma : Option ℚ := none
  sf : ℕ := 8
  bwHz : ℕ := 62500
  cr : ℕ := 4
  preambleSymbols : ℕ := 8
  deriving DecidableEq, Repr

/-- The state of the gap-fill loop; `draws` counts the random numbers. -/
structure GapState extends EdgeState where
  totalCount : Dict String ℕ
  goodCount : Dict String ℕ
  draws : ℕ

/-- Count one measured edge at one of its ends. -/
def countEnd (nodes : Dict String ImportedNode) (e : EdgeConfig) (state : GapState)
    (name : NodeName) : GapState :=
  match (nodeNamed nodes).get? name with
  | none => state
  | some n =>
      { state with
        totalCount := state.totalCount.incr n.pfx
        goodCount := if 0 < e.snr then state.goodCount.incr n.pfx else state.goodCount }

/-- The measured edges, counted per node. -/
def countMeasured (nodes : Dict String ImportedNode) (measured : EdgeState) : GapState :=
  measured.edges.foldl (fun state e => countEnd nodes e (countEnd nodes e state e.a) e.b)
    ⟨measured, .empty, .empty, 0⟩

/-- A node that may be joined, with its distance. -/
structure Candidate where
  dist : ℚ
  pfx : String
  node : ImportedNode
  deriving DecidableEq, Repr

/-- A node after `p1` that is within range and not joined to it yet. -/
def candidate? (lib : ImportLib) (maxKm : ℚ) (edgeSet : List Pair) (p1 : String)
    (n1 : ImportedNode) (entry : String × ImportedNode) : Option (Option Candidate) :=
  let (p2, n2) := entry
  if p2 ≤ p1 then some none
  else if frozenset p1 p2 ∈ edgeSet then some none
  else
    (haversineKm lib n1 n2).map fun dist =>
      if maxKm < dist ∨ dist ≤ 1 / 100 then none else some ⟨dist, p2, n2⟩

/-- The candidates of `p1`, closest first. -/
def candidates (lib : ImportLib) (maxKm : ℚ) (prefixList : List (String × ImportedNode))
    (edgeSet : List Pair) (p1 : String) (n1 : ImportedNode) : Option (List Candidate) :=
  (prefixList.mapM (candidate? lib maxKm edgeSet p1 n1)).map fun found =>
    found.reduceOption.mergeSort fun c c' => c.dist < c'.dist ∨ c.dist = c'.dist ∧ c.pfx ≤ c'.pfx

/-- `_MAX_EDGES_PER_NODE`. -/
def maxEdgesPerNode : ℕ := 12

/-- `_SNR_FLOOR`. -/
def snrFloor : ℚ := -12

/-- Estimate the edge to a candidate, and add it unless it is too weak or a cap is reached. -/
def tryGap (lib : ImportLib) (model : PropagationModel) (maxGoodLinks : ℤ) (p1 : String)
    (n1 : ImportedNode) (state : GapState) (c : Candidate) : GapState :=
  let total := fun p => (state.totalCount.get? p).getD 0
  let good := fun p => (state.goodCount.get? p).getD 0
  if maxEdgesPerNode ≤ total p1 ∨ maxEdgesPerNode ≤ total c.pfx then state
  else
    let snrEst := model.a + model.b * lib.log10 c.dist + lib.gauss state.draws model.sigma
    let drawn := { state with draws := state.draws + 1 }
    if snrEst ≤ snrFloor then drawn
    else if 0 < snrEst ∧ (maxGoodLinks ≤ good p1 ∨ maxGoodLinks ≤ good c.pfx) then drawn
    else
      { toEdgeState := drawn.toEdgeState.add p1 c.pfx
          { a := n1.name, b := c.node.name, loss := snrToLoss snrEst, latencyMs := 20,
            snr := roundTo snrEst 2, aToB := none, bToA := none }
        totalCount := (state.totalCount.set p1 (total p1 + 1)).set c.pfx (total c.pfx + 1)
        goodCount :=
          if 0 < snrEst then (state.goodCount.incr p1).incr c.pfx else state.goodCount
        draws := drawn.draws }

/-- Estimate the missing edges of one node. -/
def fillNode (lib : ImportLib) (model : PropagationModel) (maxGoodLinks : ℤ) (maxKm : ℚ)
    (prefixList : List (String × ImportedNode)) (state : GapState)
    (entry : String × ImportedNode) : Option GapState :=
  (candidates lib maxKm prefixList state.edgeSet entry.1 entry.2).map fun cs =>
    cs.foldl (tryGap lib model maxGoodLinks entry.1 entry.2) state

/-- The greatest distance of an estimated edge. -/
def effectiveMaxKm (params : ImportParams) (model : PropagationModel) : ℚ :=
  let autoMaxKm := model.maxDist * (3 / 2)
  if 0 < autoMaxKm then min params.maxGapKm autoMaxKm else params.maxGapKm

/-- Estimate missing edges, from a model that is fitted to the measured ones. -/
def fillGaps (lib : ImportLib) (params : ImportParams) (nodes : Dict String ImportedNode)
    (measured : EdgeState) : Option EdgeState :=
  if params.fillGaps then
    (fitPropagationModel lib nodes measured.edges params.gapSigma).bind fun model =>
      ((sortedNodes nodes).foldlM (fillNode lib model params.maxGoodLinks
        (effectiveMaxKm params model) (sortedNodes nodes)) (countMeasured nodes measured)).map
          GapState.toEdgeState
  else some measured

/-! ### Companions -/

/-- The relays, sorted by prefix. -/
def relays (nodes : Dict String ImportedNode) : List ImportedNode :=
  (sortedNodes nodes).map Prod.snd

def companionCount (params : ImportParams) (nodes : Dict String ImportedNode) : ℕ :=
  min params.companions.toNat (min (relays nodes).length companionNames.length)

/-- The relays that get a companion, each with the companion's name. -/
def companions (lib : ImportLib) (params : ImportParams) (nodes : Dict String ImportedNode) :
    List (NodeName × ImportedNode) :=
  companionNames.zip
    ((lib.sample (relays nodes).length (companionCount params nodes)).filterMap fun i =>
      (relays nodes)[i]?)

/-- The nodes of the output: the relays, and then the companions. -/
def outputNodes (lib : ImportLib) (params : ImportParams) (nodes : Dict String ImportedNode) :
    List NodeConfig :=
  ((relays nodes).map fun n =>
    { NodeConfig.named n.name with relay := true, lat := some n.lat, lon := some n.lon }) ++
  (companions lib params nodes).map fun (name, relay) =>
    { NodeConfig.named name with lat := some relay.lat, lon := some relay.lon }

abbrev Neighbours := Dict NodeName (Dict NodeName EdgeConfig)

def Neighbours.add (table : Neighbours) (name nbr : NodeName) (e : EdgeConfig) : Neighbours :=
  table.set name (((table.get? name).getD .empty).set nbr e)

def relayNeighbours (relayEdges : List EdgeConfig) : Neighbours :=
  relayEdges.foldl (fun table e => Neighbours.add (Neighbours.add table e.a e.b e) e.b e.a e)
    .empty

/-- Half of `_COMPANION_ANTENNA_PENALTY`. -/
def halfPenalty : ℚ := 6 / 2

/-- The edge of a companion to a neighbour of its relay, with the SNR of its better direction. -/
def neighbourEdge (compName relayName : NodeName) (nbr : NodeName × EdgeConfig) :
    Option (ℚ × EdgeConfig) :=
  let (nbrName, nbrEdge) := nbr
  let aToB := resolve nbrEdge.snr (nbrEdge.aToB.bind (·.snr))
  let bToA := resolve nbrEdge.snr (nbrEdge.bToA.bind (·.snr))
  let relayToNbr := if nbrEdge.a = relayName then aToB else bToA
  let nbrToRelay := if nbrEdge.a = relayName then bToA else aToB
  let compToNbr := relayToNbr - halfPenalty
  let nbrToComp := nbrToRelay - halfPenalty
  if max compToNbr nbrToComp ≤ -6 then none
  else
    let toNbr := max compToNbr snrFloor
    let toComp := max nbrToComp snrFloor
    let differ : Bool := 1 / 100 < |toNbr - toComp|
    some (max compToNbr nbrToComp,
      { a := compName
        b := nbrName
        loss := snrToLoss toNbr
        latencyMs := 20
        snr := roundTo toNbr 2
        aToB := if differ then some (overrides toNbr) else none
        bToA := if differ then some (overrides toComp) else none })

/-- The edges of one companion: to its relay, and to the strongest neighbours of its relay. -/
def companionLinks (relayEdges : List EdgeConfig) (compName relayName : NodeName) :
    List EdgeConfig :=
  let neighbours := ((relayNeighbours relayEdges).get? relayName).getD .empty
  let strongest := (neighbours.entries.filterMap (neighbourEdge compName relayName)).mergeSort
    fun x y => y.1 ≤ x.1
  { a := compName, b := relayName, loss := 2 / 100, latencyMs := 5, snr := 12, aToB := none,
    bToA := none } :: (strongest.take 5).map Prod.snd

def companionEdges (lib : ImportLib) (params : ImportParams) (nodes : Dict String ImportedNode)
    (relayEdges : List EdgeConfig) : List EdgeConfig :=
  (companions lib params nodes).flatMap fun (compName, relay) =>
    companionLinks relayEdges compName relay.name

/-! ### The tool -/

/-- `denominator` of the symbol count of the warmup's airtime. -/
def symbolDenominator (params : ImportParams) : ℤ :=
  let tSymMs : ℚ := 2 ^ params.sf / (params.bwHz / 1000)
  4 * (params.sf - 2 * if 16 ≤ tSymMs then 1 else 0)

/-- Stagger and propagation margin, from the airtime of a 40-byte advert. -/
def warmupSecs (params : ImportParams) (nodeCount : ℕ) : Except ImportError ℚ :=
  if params.bwHz = 0 then .error .zeroDivisionError
  else if symbolDenominator params = 0 then .error .zeroDivisionError
  else
    let tSymMs : ℚ := 2 ^ params.sf / (params.bwHz / 1000)
    let numerator : ℤ := 8 * 40 - 4 * params.sf + 28 + 16 - 0
    let symbols := ⌈(numerator : ℚ) / symbolDenominator params⌉
    let payloadSymbols : ℤ := 8 + max (symbols * (params.cr + 4)) 0
    let airtimeMs := (8 + 17 / 4) * tSymMs + payloadSymbols * tSymMs
    .ok (max 10 (nodeCount * airtimeMs / 1000 * 2))

/-- The simulator topology that is returned; its constants are left out. -/
structure ImportedTopology where
  sf : ℕ
  bwHz : ℕ
  cr : ℕ
  preambleSymbols : ℕ
  nodes : List NodeConfig
  /-- the edges between relays, measured and estimated -/
  relayEdges : List EdgeConfig
  companionEdges : List EdgeConfig
  warmupSecs : ℚ
  deriving DecidableEq, Repr

def ImportedTopology.edges (topology : ImportedTopology) : List EdgeConfig :=
  topology.relayEdges ++ topology.companionEdges

/-- The output, from the nodes, the edges between them and the warmup. -/
def assemble (lib : ImportLib) (params : ImportParams) (nodes : Dict String ImportedNode)
    (relayEdges : List EdgeConfig) (warmup : ℚ) : ImportedTopology :=
  { sf := params.sf
    bwHz := params.bwHz
    cr := params.cr
    preambleSymbols := params.preambleSymbols
    nodes := outputNodes lib params nodes
    relayEdges := relayEdges
    companionEdges := companionEdges lib params nodes relayEdges
    warmupSecs := roundTo warmup 1 }

/-- Convert an optimizer's topology to a simulator topology. -/
def importTopology (lib : ImportLib) (params : ImportParams) (rawNodes : Dict String RawNode)
    (rawEdges : List RawEdge) : Except ImportError ImportedTopology :=
  match importNodes rawNodes with
  | none => .error .diverges
  | some nodes => do
      let measured ← mergeEdges nodes rawEdges
      let filled ← match fillGaps lib params nodes measured with
        | none => .error .valueError
        | some filled => .ok filled
      let warmup ← warmupSecs params (outputNodes lib params nodes).length
      return assemble lib params nodes filled.edges warmup

theorem importTopology_eq_ok {lib : ImportLib} {params : ImportParams}
    {rawNodes : Dict String RawNode} {rawEdges : List RawEdge} {topology : ImportedTopology} :
    importTopology lib params rawNodes rawEdges = .ok topology ↔
      ∃ nodes measured filled warmup, importNodes rawNodes = some nodes ∧
        mergeEdges nodes rawEdges = .ok measured ∧
        fillGaps lib params nodes measured = some filled ∧
        warmupSecs params (outputNodes lib params nodes).length = .ok warmup ∧
        assemble lib params nodes filled.edges warmup = topology := by
  unfold importTopology
  cases importNodes rawNodes with
  | none => simp
  | some nodes =>
      cases merged : mergeEdges nodes rawEdges with
      | error e => simp [bind, Except.bind, merged]
      | ok measured =>
          cases gaps : fillGaps lib params nodes measured with
          | none => simp [bind, Except.bind, merged, gaps]
          | some filled =>
              cases warmed : warmupSecs params (outputNodes lib params nodes).length with
              | error e => simp [bind, Except.bind, merged, gaps, warmed]
              | ok warmup => simp [bind, Except.bind, pure, Except.pure, merged, gaps, warmed]

end MeshcoreSim.ImportTopology
