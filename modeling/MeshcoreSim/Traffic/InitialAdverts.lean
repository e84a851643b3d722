import Mathlib.Algebra.Order.Field.Rat
import MeshcoreSim.Adversarial
import MeshcoreSim.Airtime

/-!
The rounds of adverts of the traffic generator (`orchestrator/traffic.py`,
`run_initial_adverts`).

The stagger window is divided into one slot a node, and each advert is delayed to its slot with a
jitter of up to 30 % of it. A round may start anywhere in the random stream; what its shuffle
draws is left open, as any order of the agents.

* `lt_gap` — two adverts are more than 70 % of a slot apart.
* `guardsAdverts_iff` — they are an airtime apart in every round exactly when the airtimes of all
  nodes fit into 31.5 s, 70 % of the cap on the window.
-/

namespace MeshcoreSim

/-- `uniform(a, b)` on the draw at `i`. -/
def RandomStream.uniform (rng : RandomStream) (i : ℕ) (a b : ℚ) : ℚ := a + (b - a) * rng.draw i

/-- What an advert round reads of the traffic generator. -/
structure TrafficGenerator where
  agents : List NodeName
  staggerSecs : ℚ
  advertAirtimeSecs : ℚ

namespace TrafficGenerator

/-- The constructor. -/
def init (agents : List NodeName) : Option RadioConfig → TrafficGenerator
  | some radio =>
      { agents := agents
        staggerSecs :=
          advertStaggerSecs radio.sf radio.bwHz radio.cr agents.length radio.preambleSymbols 2 45
        advertAirtimeSecs :=
          loraAirtimeMs radio.sf radio.bwHz radio.cr typicalAdvertBytes radio.preambleSymbols
            true true / 1000 }
  | none => ⟨agents, 1, 1 / 10⟩

variable (gen : TrafficGenerator)

/-- The time between the starts of two slots. -/
def slot : ℚ := gen.staggerSecs / max gen.agents.length 1

/-- `run_initial_adverts` at `now`, with the agents as the shuffle leaves them: who starts to
advertise, and when. -/
def runInitialAdverts (rng : RandomStream) (pos : ℕ) (shuffled : List NodeName) (now : ℚ) :
    List (NodeName × ℚ) :=
  shuffled.mapIdx fun i agent =>
    (agent, now + (i * gen.slot + rng.uniform (pos + i) 0 (gen.slot * (3 / 10))))

/-- In every round, whatever is drawn, any two adverts start at least one airtime apart. -/
def GuardsAdverts : Prop :=
  ∀ (rng : RandomStream) (pos : ℕ) (shuffled : List NodeName) (now : ℚ),
    shuffled.Perm gen.agents →
      (gen.runInitialAdverts rng pos shuffled now).Pairwise fun a b =>
        gen.advertAirtimeSecs ≤ |b.2 - a.2|

variable {gen}

/-- Two adverts are more than 70 % of a slot apart. -/
theorem lt_gap (positive : 0 < gen.slot) (rng : RandomStream) (pos : ℕ) {i j : ℕ} (before : i < j) :
    7 / 10 * gen.slot <
      (j * gen.slot + rng.uniform (pos + j) 0 (gen.slot * (3 / 10))) -
        (i * gen.slot + rng.uniform (pos + i) 0 (gen.slot * (3 / 10))) := by
  have next : (i : ℚ) + 1 ≤ j := by exact_mod_cast before
  have slots := mul_le_mul_of_nonneg_right next positive.le
  have early := mul_lt_mul_of_pos_left (rng.lt_one (pos + i)) positive
  have late := mul_nonneg positive.le (rng.nonneg (pos + j))
  unfold RandomStream.uniform
  linarith

/-- Slots whose 70 % are an airtime keep the adverts apart. -/
theorem guardsAdverts_of_slot (positive : 0 < gen.slot)
    (wide : gen.advertAirtimeSecs ≤ 7 / 10 * gen.slot) : gen.GuardsAdverts := by
  intro rng pos shuffled now _
  unfold runInitialAdverts
  refine List.pairwise_iff_getElem.mpr fun i j _ _ before => ?_
  have gap := lt_gap positive rng pos before
  rw [List.getElem_mapIdx, List.getElem_mapIdx]
  refine le_trans ?_ (le_abs_self _)
  simp only
  linarith

/-- A stream that starts with one value and continues with zeros. -/
def firstDraw (x : ℚ) (nonneg : 0 ≤ x) (lt_one : x < 1) : RandomStream where
  draw i := if i = 0 then x else 0
  nonneg i := by
    split
    · exact nonneg
    · exact le_rfl
  lt_one i := by
    split
    · exact lt_one
    · exact one_pos

/-- In narrower slots, a late advert and an early one after it come closer than an airtime. -/
theorem slot_of_guardsAdverts (guards : gen.GuardsAdverts) (positive : 0 < gen.slot)
    (several : 2 ≤ gen.agents.length) : gen.advertAirtimeSecs ≤ 7 / 10 * gen.slot := by
  by_contra narrow
  have lacking : 0 < gen.advertAirtimeSecs - 7 / 10 * gen.slot := by linarith
  -- A draw that is so close to one that what it leaves of the jitter is less than what lacks.
  set x := max 0 (1 - (gen.advertAirtimeSecs - 7 / 10 * gen.slot) / gen.slot) with chosen
  have share : 0 < (gen.advertAirtimeSecs - 7 / 10 * gen.slot) / gen.slot :=
    div_pos lacking positive
  have below : x < 1 := max_lt one_pos (by linarith)
  have close : gen.slot - (gen.advertAirtimeSecs - 7 / 10 * gen.slot) ≤ gen.slot * x := by
    have large := mul_le_mul_of_nonneg_left (le_max_right 0 _ : _ ≤ x) positive.le
    rwa [mul_sub, mul_one, mul_div_cancel₀ _ positive.ne'] at large
  have pairs := guards (firstDraw x (le_max_left _ _) below) 0 gen.agents 0 (.refl _)
  have apart := List.pairwise_iff_getElem.mp pairs 0 1 (by simpa [runInitialAdverts] using by omega)
    (by simpa [runInitialAdverts] using by omega) zero_lt_one
  unfold runInitialAdverts at apart
  rw [List.getElem_mapIdx, List.getElem_mapIdx] at apart
  simp only [RandomStream.uniform, firstDraw] at apart
  have gap : 0 ≤ gen.slot - gen.slot * (3 / 10) * x := by
    have small := mul_lt_mul_of_pos_left below positive
    linarith
  have distance : gen.advertAirtimeSecs ≤ |gen.slot - gen.slot * (3 / 10) * x| := by
    simpa using apart
  rw [abs_of_nonneg gap] at distance
  linarith

/-- There is nothing to keep apart with one agent. -/
theorem guardsAdverts_of_single (single : gen.agents.length ≤ 1) : gen.GuardsAdverts := by
  intro rng pos shuffled now shuffle
  have short : (gen.runInitialAdverts rng pos shuffled now).length ≤ 1 := by
    rw [runInitialAdverts, List.length_mapIdx, shuffle.length_eq]
    exact single
  rcases adverts : gen.runInitialAdverts rng pos shuffled now with _ | ⟨advert, _ | ⟨other, rest⟩⟩
  · exact .nil
  · exact List.pairwise_singleton _ _
  · simp [adverts] at short

/-- The adverts of several agents are guarded exactly when 70 % of a slot are an airtime. -/
theorem guardsAdverts_iff_slot (positive : 0 < gen.slot) (several : 2 ≤ gen.agents.length) :
    gen.GuardsAdverts ↔ gen.advertAirtimeSecs ≤ 7 / 10 * gen.slot :=
  ⟨fun guards => slot_of_guardsAdverts guards positive several, guardsAdverts_of_slot positive⟩

/-- The slots of a radio: twice the airtime, up to an equal share of 45 s. -/
theorem slot_init {agents : List NodeName} (several : 2 ≤ agents.length) (radio : RadioConfig) :
    agents.length * (init agents (some radio)).slot =
      min (2 * (agents.length * (init agents (some radio)).advertAirtimeSecs)) 45 := by
  have count : max agents.length 1 = agents.length := by omega
  have positive : (agents.length : ℚ) ≠ 0 := by
    have : agents.length ≠ 0 := by omega
    exact_mod_cast this
  unfold slot init advertStaggerSecs
  simp only
  rw [count, mul_div_cancel₀ _ positive]
  congr 1
  ring

/-- With the stagger that is computed for a radio, the adverts of a round start at least an
airtime apart, whatever is drawn, exactly when there is one node at most or the airtimes of the
adverts of all nodes are no longer than 31.5 s. -/
theorem guardsAdverts_iff (agents : List NodeName) (radio : RadioConfig) :
    (init agents (some radio)).GuardsAdverts ↔ agents.length ≤ 1 ∨
      agents.length * (loraAirtimeMs radio.sf radio.bwHz radio.cr typicalAdvertBytes
        radio.preambleSymbols true true / 1000) ≤ 63 / 2 := by
  set gen := init agents (some radio) with made
  change _ ↔ _ ∨ agents.length * gen.advertAirtimeSecs ≤ 63 / 2
  have airtime : 0 ≤ gen.advertAirtimeSecs :=
    div_nonneg (loraAirtimeMs_nonneg _ _ _ _ _ _ _) (by norm_num)
  by_cases single : agents.length ≤ 1
  · exact iff_of_true (guardsAdverts_of_single single) (.inl single)
  · have several : 2 ≤ agents.length := by omega
    have count : (0 : ℚ) < agents.length := by exact_mod_cast (by omega : 0 < agents.length)
    have slots := slot_init several radio
    rw [← made] at slots
    rw [or_iff_right single]
    rcases airtime.eq_or_lt with none_ | some_
    · -- A radio without a bandwidth takes no time at all.
      rw [← none_]
      refine iff_of_true ?_ (by norm_num)
      intro rng pos shuffled now _
      rw [← none_]
      exact List.pairwise_of_forall fun _ _ => abs_nonneg _
    · have all : 0 < agents.length * gen.advertAirtimeSecs := mul_pos count some_
      have positive : 0 < gen.slot := by
        have window : 0 < agents.length * gen.slot := by
          rw [slots]
          exact lt_min (by linarith) (by norm_num)
        exact pos_of_mul_pos_right window count.le
      rw [guardsAdverts_iff_slot positive several]
      have scaled : gen.advertAirtimeSecs ≤ 7 / 10 * gen.slot ↔
          agents.length * gen.advertAirtimeSecs ≤ 7 / 10 * (agents.length * gen.slot) := by
        rw [← mul_le_mul_iff_right₀ count]
        ring_nf
      rw [scaled, slots]
      constructor
      · intro wide
        linarith [min_le_right (2 * (agents.length * gen.advertAirtimeSecs)) 45]
      · intro short
        rcases le_total (2 * (agents.length * gen.advertAirtimeSecs)) 45 with uncapped | capped
        · rw [min_eq_left uncapped]
          linarith
        · rw [min_eq_right capped]
          linarith

/-- For every network and every radio. -/
def AlwaysGuardsAdverts : Prop :=
  ∀ (agents : List NodeName) (radio : RadioConfig), agents.Nodup → 7 ≤ radio.sf → radio.sf ≤ 12 →
    0 < radio.bwHz → 1 ≤ radio.cr → radio.cr ≤ 4 → (init agents (some radio)).GuardsAdverts

/-- A hundred nodes with the default radio have slots of 450 ms, and an advert lasts 554 ms. -/
theorem not_alwaysGuardsAdverts : ¬ AlwaysGuardsAdverts := by
  intro claim
  let agents : List NodeName := (List.range 100).map toString
  have distinct : agents.Nodup := by
    refine List.nodup_range.map fun i j same => ?_
    have digits := congrArg (fun name : NodeName => Nat.ofDigitChars 10 name.toList 0) same
    simpa [Nat.toString_eq_ofList_toDigits] using digits
  have guards := claim agents .default distinct (by decide) (by decide) (by decide) (by decide)
    (by decide)
  have slot : (init agents (some .default)).slot = 45 / 100 := by decide +kernel
  have airtime : (init agents (some .default)).advertAirtimeSecs = 553984 / 1000000 := by
    decide +kernel
  have wide := slot_of_guardsAdverts guards (by rw [slot]; norm_num) (by simp [init, agents])
  rw [slot, airtime] at wide
  norm_num at wide

end TrafficGenerator

end MeshcoreSim
