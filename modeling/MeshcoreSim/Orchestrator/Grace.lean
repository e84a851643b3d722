import MeshcoreSim.Config
import MeshcoreSim.SimNode
import MeshcoreSim.SimRadio

/-!
How long a simulation outlives its traffic (`orchestrator/__main__.py`, `run`).

The timer of the simulation and the traffic generator start together. The generator sends up to
the end of the traffic window, and the timer adds a grace period to it.

* `aliveAfterLastSend_iff` — a time that is left after every possible send is left in the grace
  period.
* `drains_iff` — the grace period covers all attempts of the last message exactly when the
  network is large enough for the stagger to make up for the two timeouts that are missing, and
  the radio fast enough for the cap on the stagger.
-/

namespace MeshcoreSim

/-- `SimNode::calcFloodTimeoutMillisFor`. An airtime below 2^24 ms is exact as a `float`, and
so is its multiple by a power of two. -/
def SimNode.calcFloodTimeoutMillisFor (pktAirtimeMillis : ℕ) : ℕ := 500 + 16 * pktAirtimeMillis

/-- The flood timeout of a node with the modem of `radio`, in milliseconds, for a packet of
`lenBytes`. -/
def RadioConfig.nodeFloodTimeout (radio : RadioConfig) (lenBytes : ℕ) : ℕ :=
  SimNode.calcFloodTimeoutMillisFor
    ((SimRadio.init radio.sf radio.bwHz radio.cr).getEstAirtimeFor lenBytes)

namespace Orchestrator

variable (radio : RadioConfig) (nodeCount : ℕ) (sim : SimulationConfig) (warmupOverridden : Bool)

/-- The stagger of the traffic generator. -/
def staggerSecs : ℚ :=
  advertStaggerSecs radio.sf radio.bwHz radio.cr nodeCount radio.preambleSymbols 2 45

/-- The warmup, which is raised unless the user has set it. -/
def warmupSecs : ℚ :=
  if warmupOverridden then sim.warmupSecs else max sim.warmupSecs (staggerSecs radio nodeCount + 10)

def graceSecs : ℚ :=
  let propagationMargin := min (staggerSecs radio nodeCount) 30
  propagationMargin + floodTimeoutSecs radio.sf radio.bwHz radio.cr radio.preambleSymbols 1

def totalTime : ℚ :=
  warmupSecs radio nodeCount sim warmupOverridden + sim.durationSecs + graceSecs radio nodeCount

/-- The traffic generator, started at `start`, may send at `t`: after the warmup and before its
deadline. -/
def CanSend (start t : ℚ) : Prop :=
  start + warmupSecs radio nodeCount sim warmupOverridden ≤ t ∧
    t < start + warmupSecs radio nodeCount sim warmupOverridden + sim.durationSecs

/-- After every possible send of every run, the simulation stays alive for another `secs`. -/
def AliveAfterLastSend (secs : ℚ) : Prop :=
  ∀ sim warmupOverridden start t, CanSend radio nodeCount sim warmupOverridden start t →
    t + secs ≤ start + totalTime radio nodeCount sim warmupOverridden

/-- After every possible send there is time for all attempts at a text message, so that the
node has seen the acknowledgement or given up when the simulation ends. -/
def Drains : Prop :=
  AliveAfterLastSend radio nodeCount
    ((ackMaxRetries + 1) * radio.nodeFloodTimeout typicalMsgBytes / 1000)

variable {radio nodeCount}

/-- What is left after every possible send is left after the traffic window. -/
theorem aliveAfterLastSend_iff {secs : ℚ} :
    AliveAfterLastSend radio nodeCount secs ↔ secs ≤ graceSecs radio nodeCount := by
  constructor
  · intro alive
    by_contra short
    have missing : 0 < secs - graceSecs radio nodeCount := by linarith
    -- A send that is closer to the end of the window than what is missing.
    let sim : SimulationConfig := ⟨0, 1, 1, 1, 0, "", none, none⟩
    have late := alive sim true 0 (max 0 (1 - (secs - graceSecs radio nodeCount) / 2))
    unfold CanSend totalTime warmupSecs at late
    simp only [sim, if_true, zero_add] at late
    have sent := late ⟨le_max_left _ _, max_lt one_pos (by linarith)⟩
    have close := le_max_right 0 (1 - (secs - graceSecs radio nodeCount) / 2)
    linarith
  · intro enough sim warmupOverridden start t sends
    unfold totalTime
    linarith [sends.2]

/-- The node's timeout for a text message. -/
theorem nodeFloodTimeout_eq (lenBytes : ℕ) : radio.nodeFloodTimeout lenBytes =
    500 + 16 * ⌊loraAirtimeMs radio.sf radio.bwHz radio.cr lenBytes 8 true true⌋₊ := by
  unfold RadioConfig.nodeFloodTimeout SimNode.calcFloodTimeoutMillisFor
  rw [SimRadio.getEstAirtimeFor_eq _ rfl rfl rfl]

/-- The grace period, in milliseconds: a multiple of the airtime of an advert, up to 30 s, and
two timeouts. -/
theorem graceSecs_eq (radio : RadioConfig) (nodeCount : ℕ) : 1000 * graceSecs radio nodeCount =
    min (2 * nodeCount * loraAirtimeMs radio.sf radio.bwHz radio.cr 110 radio.preambleSymbols
      true true) 30000 +
    (1000 + 32 * loraAirtimeMs radio.sf radio.bwHz radio.cr 60 radio.preambleSymbols
      true true) := by
  unfold graceSecs staggerSecs advertStaggerSecs floodTimeoutSecs typicalAdvertBytes
    typicalMsgBytes
  simp only
  rw [min_assoc, min_eq_right (show (30 : ℚ) ≤ 45 by norm_num), mul_add,
    mul_min_of_nonneg _ _ (show (0 : ℚ) ≤ 1000 by norm_num)]
  congr 1
  · congr 1
    · ring
    · norm_num
  · push_cast
    ring

/-- The grace period covers all attempts at the last message exactly when what it lacks, about
two of the four timeouts of a message of 60 bytes, is covered by the stagger: by the airtimes of
twice as many adverts as there are nodes, and by the 30 s at which it is cut. -/
theorem drains_iff (radio : RadioConfig) (nodeCount : ℕ) :
    Drains radio nodeCount ↔
      1000 + 64 * (⌊loraAirtimeMs radio.sf radio.bwHz radio.cr 60 8 true true⌋₊ : ℚ) -
          32 * loraAirtimeMs radio.sf radio.bwHz radio.cr 60 radio.preambleSymbols true true ≤
        min (2 * nodeCount * loraAirtimeMs radio.sf radio.bwHz radio.cr 110
          radio.preambleSymbols true true) 30000 := by
  unfold Drains
  rw [aliveAfterLastSend_iff, nodeFloodTimeout_eq]
  have grace := graceSecs_eq radio nodeCount
  unfold typicalMsgBytes ackMaxRetries
  push_cast
  constructor
  · intro enough
    linarith
  · intro enough
    linarith

/-- The grace period covers all attempts, for every radio and every size of the network. -/
def AlwaysDrains : Prop :=
  ∀ (radio : RadioConfig) nodeCount, 7 ≤ radio.sf → radio.sf ≤ 12 → 0 < radio.bwHz →
    1 ≤ radio.cr → radio.cr ≤ 4 → Drains radio nodeCount

/-- With the default radio and two nodes, the simulation ends 14.4 s after the traffic window,
and four timeouts take 24.3 s. -/
theorem not_alwaysDrains : ¬ AlwaysDrains := by
  intro claim
  have drains := claim .default 2 (by decide) (by decide) (by decide) (by decide) (by decide)
  have enough := aliveAfterLastSend_iff.mp drains
  rw [nodeFloodTimeout_eq] at enough
  exact absurd enough (by decide +kernel)

end Orchestrator

end MeshcoreSim
