import MeshcoreSim.Adversarial
import MeshcoreSim.Lib.DelayBuffer

/-!
The replay buffer of an adversarial node.

In replay mode the filter captures packets, and the replay drainer takes those that are due. The
calls come at any times and in any order; the places of a list of calls identify the packets.

* `calls_eq` — the calls of the filter are operations on a buffer with deadlines.
* `replays_exactly_once` — every packet is replayed by the first drain at or after its deadline.
-/

namespace MeshcoreSim.AdversarialFilter

open Lib DelayBuffer

/-- A call of the filter; a packet is filtered at some position of the random stream. -/
inductive ReplayCall where
  | filterPacket (hexData : String) (now : ℚ) (pos : ℕ)
  | drainReplays (now : ℚ)

variable (rng : RandomStream) (cfg : AdversarialConfig)

/-- The filter after a call. -/
def call (filter : AdversarialFilter) : ReplayCall → AdversarialFilter
  | .filterPacket hexData now pos => (filter.filterPacket rng hexData now pos).2.1
  | .drainReplays now => (filter.drainReplays now).2

/-- The filter after some calls. -/
def calls (calls : List ReplayCall) : AdversarialFilter := calls.foldl (call rng) ⟨cfg, []⟩

/-- A call as an operation on a buffer with deadlines. -/
def ReplayCall.op : ReplayCall → DelayOp ℚ String
  | .filterPacket hexData now _ => .put (now + cfg.replayDelayMs / 1000) hexData
  | .drainReplays now => .drain now

/-- The drain at place `j` is the first one at or after the deadline of the packet that is captured
at place `i`. -/
def ReplayedBy (calls : List ReplayCall) (i j : ℕ) : Prop := First (calls.map (·.op cfg)) i j

/-- The packet that is captured at a place. -/
def captured? (calls : List ReplayCall) (i : ℕ) : Option String :=
  match calls[i]? with
  | some (.filterPacket hexData _ _) => some hexData
  | _ => none

/-- Every captured packet is replayed exactly once, unaltered and not before its deadline. -/
structure ReplaysExactlyOnce (all : List ReplayCall) : Prop where
  /-- The original is suppressed. -/
  suppressed : ∀ i hexData now pos, all[i]? = some (.filterPacket hexData now pos) →
    ∃ filter', (calls rng cfg (all.take i)).filterPacket rng hexData now pos =
      (.suppressed, filter', pos)
  /-- A drain returns the packets that it is the first to reach, in the order of their capture. -/
  drained : ∀ j now, all[j]? = some (.drainReplays now) →
    ∃ places : List ℕ, places.Pairwise (· < ·) ∧ (∀ i, i ∈ places ↔ ReplayedBy cfg all i j) ∧
      ((calls rng cfg (all.take j)).drainReplays now).1 = places.filterMap (captured? all)
  /-- No other drain returns a packet again. -/
  once : ∀ i j j', ReplayedBy cfg all i j → ReplayedBy cfg all i j' → j = j'
  /-- A packet is returned as soon as a drain happens at or after its deadline. -/
  served : ∀ i j hexData now pos later, all[i]? = some (.filterPacket hexData now pos) →
    all[j]? = some (.drainReplays later) → i < j → now + cfg.replayDelayMs / 1000 ≤ later →
      ∃ k ≤ j, ReplayedBy cfg all i k
  /-- What no drain was to return is still captured. -/
  kept : ∃ places : List ℕ, places.Pairwise (· < ·) ∧
    (∀ i, i ∈ places ↔ (captured? all i).isSome ∧ ∀ j, ¬ ReplayedBy cfg all i j) ∧
    (calls rng cfg all).replayBuffer.map Prod.snd = places.filterMap (captured? all)

variable {rng cfg}

/-- In replay mode the filter is a buffer with deadlines. -/
theorem calls_eq (replay : cfg.mode = .replay) (all : List ReplayCall) :
    calls rng cfg all = ⟨cfg, after (all.map (·.op cfg))⟩ := by
  induction all using List.reverseRecOn with
  | nil => rfl
  | append_singleton all last ih =>
      rw [calls, List.foldl_append, ← calls, ih, List.map_append, List.map_singleton, after_concat]
      cases last with
      | filterPacket hexData now pos =>
          simp [call, filterPacket, replay, ReplayCall.op, DelayBuffer.step]
      | drainReplays now => rfl

theorem item?_map_op (all : List ReplayCall) :
    item? (all.map (·.op cfg)) = captured? all := by
  funext i
  unfold item? captured?
  rw [List.getElem?_map]
  cases all[i]? with
  | none => rfl
  | some c => cases c <;> rfl

/-- For every configuration in replay mode and every sequence of calls at any times, each captured
packet is returned by the first drain at or after its deadline and by no other, unaltered and in
the order of the captures. -/
theorem replays_exactly_once (rng : RandomStream) (probability replayDelayMs : ℚ)
    (corruptByteCount : ℤ) (all : List ReplayCall) :
    ReplaysExactlyOnce rng ⟨.replay, probability, replayDelayMs, corruptByteCount⟩ all := by
  set cfg : AdversarialConfig := ⟨.replay, probability, replayDelayMs, corruptByteCount⟩
  have items : item? (all.map (·.op cfg)) = captured? all := item?_map_op all
  have placed : ∀ (i : ℕ) (c : ReplayCall), all[i]? = some c →
      (all.map (·.op cfg))[i]? = some (c.op cfg) := by
    intro i c at_
    rw [List.getElem?_map, at_]
    rfl
  refine ⟨?_, ?_, fun _ _ _ => First.unique, ?_, ?_⟩
  · intro i hexData now pos _
    rw [calls_eq rfl]
    exact ⟨_, rfl⟩
  · intro j now drain
    obtain ⟨places, ordered, chosen, returned⟩ := due_eq (placed j _ drain)
    refine ⟨places, ordered, chosen, ?_⟩
    rw [← items, ← returned, calls_eq rfl, List.map_take]
    rfl
  · intro i j hexData now pos later capture drain before reached
    exact exists_first (placed i _ capture) (placed j _ drain) before reached
  · obtain ⟨places, ordered, chosen, left_⟩ := left_eq (all.map (·.op cfg))
    rw [items] at chosen left_
    refine ⟨places, ordered, chosen, ?_⟩
    rw [← left_, calls_eq rfl]

end MeshcoreSim.AdversarialFilter
