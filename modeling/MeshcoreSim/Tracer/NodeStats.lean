import Mathlib.Data.Finset.Card
import Mathlib.Tactic.Ring
import MeshcoreSim.Tracer.ToDict

/-!
The statistics of the trace viewer for each node (`workbench/trace_loader.py`):
`compute_node_trace_stats`, on the dictionary that `to_dict` returns.

The transmissions and receptions of a node are counted once for each packet, so its figures are
those of the packets that it sent and of those that it received.

* `of_hops` — what the loop over the hops of a packet adds to the entry of a node.
* `get?_computeNodeTraceStats` — the entry of every node.
* `nodeStats_exact` — the entries and their totals, for every trace.
-/

namespace MeshcoreSim

open Lib

structure NodeStats where
  txCount : ℕ
  rxCount : ℕ
  packetsOriginated : List ℕ
  packetsTransited : List ℕ
  collisionsInvolved : ℕ
  halfduplexInvolved : ℕ
  deriving DecidableEq, Repr

namespace NodeStats

def new : NodeStats := ⟨0, 0, [], [], 0, 0⟩

def originate (pktIdx : ℕ) (entry : NodeStats) : NodeStats :=
  { entry with packetsOriginated := entry.packetsOriginated ++ [pktIdx] }

/-- A transmission of the node; it is a transit if another node is the originator. -/
def send (pktIdx : ℕ) (transit : Bool) (entry : NodeStats) : NodeStats :=
  { entry with
    txCount := entry.txCount + 1
    packetsTransited :=
      if transit ∧ pktIdx ∉ entry.packetsTransited then entry.packetsTransited ++ [pktIdx]
      else entry.packetsTransited }

def receive (entry : NodeStats) : NodeStats := { entry with rxCount := entry.rxCount + 1 }

def collision (entry : NodeStats) : NodeStats :=
  { entry with collisionsInvolved := entry.collisionsInvolved + 1 }

def halfduplex (entry : NodeStats) : NodeStats :=
  { entry with halfduplexInvolved := entry.halfduplexInvolved + 1 }

end NodeStats

abbrev NodeTable := Dict NodeName NodeStats

/-- The local variables of the loop over the hops of a packet. -/
structure HopLoop where
  stats : NodeTable
  sendersSeen : List NodeName
  receiversSeen : List NodeName

namespace NodeTable

/-- Update the entry of a node, which `_ensure` creates where it is missing. -/
def update (stats : NodeTable) (name : NodeName) (change : NodeStats → NodeStats) : NodeTable :=
  stats.set name (change ((stats.get? name).getD .new))

end NodeTable

namespace HopLoop

variable (firstSender : NodeName) (pktIdx : ℕ)

def send (loop : HopLoop) (s : NodeName) : HopLoop :=
  if s ∈ loop.sendersSeen then loop
  else
    { loop with
      stats := loop.stats.update s (NodeStats.send pktIdx (s ≠ firstSender))
      sendersSeen := s :: loop.sendersSeen }

def receive (loop : HopLoop) (r : NodeName) : HopLoop :=
  if r ∈ loop.receiversSeen then loop
  else
    { loop with
      stats := loop.stats.update r NodeStats.receive
      receiversSeen := r :: loop.receiversSeen }

def hop (loop : HopLoop) (hop : HopRecord) : HopLoop :=
  (loop.send firstSender pktIdx hop.sender).receive hop.receiver

end HopLoop

namespace NodeTable

/-- Count the records of one packet. -/
def packet (stats : NodeTable) (pktIdx : ℕ) (pkt : PacketEntry) : NodeTable :=
  let stats :=
    if pkt.firstSender ≠ "" then stats.update pkt.firstSender (NodeStats.originate pktIdx)
    else stats
  let stats := (pkt.hops.foldl (HopLoop.hop pkt.firstSender pktIdx) ⟨stats, [], []⟩).stats
  let stats := pkt.collisions.foldl (fun stats col =>
    stats.update col.receiver NodeStats.collision) stats
  pkt.halfduplex.foldl (fun stats hd => stats.update hd.receiver NodeStats.halfduplex) stats

/-- The loop over the packets. -/
def ofPackets (packets : List PacketEntry) : NodeTable :=
  packets.zipIdx.foldl (fun stats (pkt, pktIdx) => packet stats pktIdx pkt) .empty

end NodeTable

/-- Per-node trace statistics. -/
def computeNodeTraceStats (trace : TraceDict) : NodeTable := .ofPackets trace.packets

/-! ### One entry -/

namespace NodeTable

/-- The entry of a node, a new one where it is missing. -/
def of (stats : NodeTable) (name : NodeName) : NodeStats := (stats.get? name).getD .new

variable {stats : NodeTable} {name other : NodeName} {change : NodeStats → NodeStats}

@[simp] theorem of_update : (stats.update other change).of name =
    if name = other then change (stats.of name) else stats.of name := by
  unfold update of
  rw [Dict.get?_set]
  split_ifs with same
  · rw [same]
    rfl
  · rfl

@[simp] theorem mem_keys_update :
    name ∈ (stats.update other change).keys ↔ name = other ∨ name ∈ stats.keys := by
  unfold update
  rw [Dict.mem_keys_iff, Dict.get?_set, Dict.mem_keys_iff]
  split_ifs with same <;> simp [same]

theorem get?_eq (stats : NodeTable) (name : NodeName) :
    stats.get? name = if name ∈ stats.keys then some (stats.of name) else none := by
  unfold of
  cases known : stats.get? name with
  | none => simp [Dict.mem_keys_iff, known]
  | some entry => simp [Dict.mem_keys_iff, known]

/-- Updates with one change, for all records of one kind. -/
theorem of_foldl_update {α : Type} (key : α → NodeName) (records : List α) :
    (records.foldl (fun stats r => stats.update (key r) change) stats).of name =
      change^[records.countP fun r => key r = name] (stats.of name) := by
  induction records generalizing stats with
  | nil => rfl
  | cons r rest ih =>
      rw [List.foldl_cons, ih, of_update, List.countP_cons]
      by_cases same : name = key r
      · simp [same]
      · simp [same, Ne.symm same]

theorem mem_keys_foldl_update {α : Type} (key : α → NodeName) (records : List α) :
    name ∈ (records.foldl (fun stats r => stats.update (key r) change) stats).keys ↔
      name ∈ records.map key ∨ name ∈ stats.keys := by
  induction records generalizing stats with
  | nil => simp
  | cons r rest ih =>
      rw [List.foldl_cons, ih, mem_keys_update, List.map_cons, List.mem_cons]
      grind

end NodeTable

namespace NodeStats

/-- A change that is made on a condition. -/
def applyIf (made : Prop) [Decidable made] (change : NodeStats → NodeStats) (entry : NodeStats) :
    NodeStats :=
  if made then change entry else entry

variable {made made' : Prop} [Decidable made] [Decidable made'] {change : NodeStats → NodeStats}
  {entry : NodeStats}

theorem applyIf_congr (same : made ↔ made') :
    applyIf made change entry = applyIf made' change entry := by
  unfold applyIf
  simp only [same]

theorem applyIf_or (apart : ¬ (made ∧ made')) :
    applyIf made change (applyIf made' change entry) = applyIf (made ∨ made') change entry := by
  unfold applyIf
  by_cases first : made <;> by_cases second : made' <;> simp_all

/-- The two changes are about different fields. -/
theorem applyIf_receive_send (pktIdx : ℕ) (transit : Bool) :
    applyIf made (send pktIdx transit) (applyIf made' receive entry) =
      applyIf made' receive (applyIf made (send pktIdx transit) entry) := by
  unfold applyIf
  split_ifs <;> rfl

end NodeStats

namespace HopLoop

variable {firstSender : NodeName} {pktIdx : ℕ} {name : NodeName}

theorem of_send (loop : HopLoop) (s : NodeName) :
    (loop.send firstSender pktIdx s).stats.of name =
      NodeStats.applyIf (name ∉ loop.sendersSeen ∧ name = s)
        (NodeStats.send pktIdx (name ≠ firstSender)) (loop.stats.of name) := by
  unfold send NodeStats.applyIf
  by_cases same : name = s
  · subst same
    by_cases seen : name ∈ loop.sendersSeen <;> simp [seen]
  · by_cases seen : s ∈ loop.sendersSeen <;> simp [seen, same]

theorem of_receive (loop : HopLoop) (r : NodeName) :
    (loop.receive r).stats.of name =
      NodeStats.applyIf (name ∉ loop.receiversSeen ∧ name = r) NodeStats.receive
        (loop.stats.of name) := by
  unfold receive NodeStats.applyIf
  by_cases same : name = r
  · subst same
    by_cases seen : name ∈ loop.receiversSeen <;> simp [seen]
  · by_cases seen : r ∈ loop.receiversSeen <;> simp [seen, same]

/-- The names that a hop adds to those that were seen. -/
theorem seen_hop (loop : HopLoop) (h : HopRecord) :
    (name ∈ (loop.hop firstSender pktIdx h).sendersSeen ↔
        name = h.sender ∨ name ∈ loop.sendersSeen) ∧
      (name ∈ (loop.hop firstSender pktIdx h).receiversSeen ↔
        name = h.receiver ∨ name ∈ loop.receiversSeen) := by
  unfold hop send receive
  by_cases sent : h.sender ∈ loop.sendersSeen <;>
    by_cases received : h.receiver ∈ loop.receiversSeen <;> simp [sent, received] <;> grind

theorem of_hop (loop : HopLoop) (h : HopRecord) :
    (loop.hop firstSender pktIdx h).stats.of name =
      NodeStats.applyIf (name ∉ loop.receiversSeen ∧ name = h.receiver) NodeStats.receive
        (NodeStats.applyIf (name ∉ loop.sendersSeen ∧ name = h.sender)
          (NodeStats.send pktIdx (name ≠ firstSender)) (loop.stats.of name)) := by
  have kept : (loop.send firstSender pktIdx h.sender).receiversSeen = loop.receiversSeen := by
    unfold send
    split_ifs <;> rfl
  rw [hop, of_receive, of_send, kept]

/-- The loop counts one transmission of each sender and one reception of each receiver that was
not seen before. -/
theorem of_hops (hops : List HopRecord) (loop : HopLoop) :
    (hops.foldl (hop firstSender pktIdx) loop).stats.of name =
      NodeStats.applyIf (name ∉ loop.receiversSeen ∧ name ∈ hops.map HopRecord.receiver)
        NodeStats.receive
        (NodeStats.applyIf (name ∉ loop.sendersSeen ∧ name ∈ hops.map HopRecord.sender)
          (NodeStats.send pktIdx (name ≠ firstSender)) (loop.stats.of name)) := by
  induction hops generalizing loop with
  | nil => simp [NodeStats.applyIf]
  | cons h rest ih =>
      rw [List.foldl_cons, ih, of_hop]
      obtain ⟨sent, received⟩ := @seen_hop firstSender pktIdx name loop h
      have senders : (name ∉ (hop firstSender pktIdx loop h).sendersSeen ∧
            name ∈ rest.map HopRecord.sender) ∨ name ∉ loop.sendersSeen ∧ name = h.sender ↔
          name ∉ loop.sendersSeen ∧ name ∈ (h :: rest).map HopRecord.sender := by
        rw [sent, List.map_cons, List.mem_cons]
        grind
      have receivers : (name ∉ (hop firstSender pktIdx loop h).receiversSeen ∧
            name ∈ rest.map HopRecord.receiver) ∨ name ∉ loop.receiversSeen ∧ name = h.receiver ↔
          name ∉ loop.receiversSeen ∧ name ∈ (h :: rest).map HopRecord.receiver := by
        rw [received, List.map_cons, List.mem_cons]
        grind
      rw [NodeStats.applyIf_receive_send,
        NodeStats.applyIf_or fun both => both.1.1 (received.mpr (Or.inl both.2.2)),
        NodeStats.applyIf_or fun both => both.1.1 (sent.mpr (Or.inl both.2.2)),
        NodeStats.applyIf_congr senders, NodeStats.applyIf_congr receivers]

theorem mem_keys_hop (loop : HopLoop) (h : HopRecord)
    (seen : ∀ n, n ∈ loop.sendersSeen ∨ n ∈ loop.receiversSeen → n ∈ loop.stats.keys) :
    (name ∈ (loop.hop firstSender pktIdx h).stats.keys ↔
        name = h.sender ∨ name = h.receiver ∨ name ∈ loop.stats.keys) := by
  have sender := seen h.sender
  have receiver := seen h.receiver
  unfold hop send receive
  by_cases sent : h.sender ∈ loop.sendersSeen <;>
    by_cases received : h.receiver ∈ loop.receiversSeen <;> simp [sent, received] <;> grind

theorem mem_keys_hops (hops : List HopRecord) (loop : HopLoop)
    (seen : ∀ n, n ∈ loop.sendersSeen ∨ n ∈ loop.receiversSeen → n ∈ loop.stats.keys) :
    name ∈ (hops.foldl (hop firstSender pktIdx) loop).stats.keys ↔
      name ∈ hops.map HopRecord.sender ∨ name ∈ hops.map HopRecord.receiver ∨
        name ∈ loop.stats.keys := by
  induction hops generalizing loop with
  | nil => simp
  | cons h rest ih =>
      have seen' : ∀ n, n ∈ (loop.hop firstSender pktIdx h).sendersSeen ∨
          n ∈ (loop.hop firstSender pktIdx h).receiversSeen →
          n ∈ (loop.hop firstSender pktIdx h).stats.keys := by
        intro n
        rw [mem_keys_hop loop h seen, (loop.seen_hop h).1, (loop.seen_hop h).2]
        have before := seen n
        grind
      rw [List.foldl_cons, ih _ seen', mem_keys_hop loop h seen, List.map_cons, List.mem_cons,
        List.map_cons, List.mem_cons]
      grind

end HopLoop

/-! ### All packets -/

namespace PacketEntry

variable (pkt : PacketEntry) (name : NodeName)

/-- The node appears in the packet. -/
def Involves : Prop :=
  name = pkt.firstSender ∧ name ≠ "" ∨ name ∈ pkt.hops.map HopRecord.sender ∨
    name ∈ pkt.hops.map HopRecord.receiver ∨ name ∈ pkt.collisions.map CollisionRecord.receiver ∨
    name ∈ pkt.halfduplex.map HalfduplexRecord.receiver

instance : Decidable (pkt.Involves name) := by
  unfold Involves
  infer_instance

def originates : Bool := pkt.firstSender = name ∧ name ≠ ""
def sentBy : Bool := name ∈ pkt.hops.map HopRecord.sender
def heardBy : Bool := name ∈ pkt.hops.map HopRecord.receiver
def transits : Bool := pkt.sentBy name && decide (name ≠ pkt.firstSender)

end PacketEntry

/-- The places of the packets with a property. -/
def placesOf (packets : List PacketEntry) (p : PacketEntry → Bool) : List ℕ :=
  (packets.zipIdx.filter fun e => p e.1).map Prod.snd

/-- What the statistics of a node should be. -/
def statsOf (packets : List PacketEntry) (name : NodeName) : NodeStats where
  txCount := packets.countP (·.sentBy name)
  rxCount := packets.countP (·.heardBy name)
  packetsOriginated := placesOf packets (·.originates name)
  packetsTransited := placesOf packets (·.transits name)
  collisionsInvolved := (packets.map fun pkt => pkt.collisions.countP (·.receiver = name)).sum
  halfduplexInvolved := (packets.map fun pkt => pkt.halfduplex.countP (·.receiver = name)).sum

theorem placesOf_concat (packets : List PacketEntry) (pkt : PacketEntry) (p : PacketEntry → Bool) :
    placesOf (packets ++ [pkt]) p =
      placesOf packets p ++ if p pkt then [packets.length] else [] := by
  unfold placesOf
  rw [List.zipIdx_append, List.filter_append, List.map_append]
  by_cases has : p pkt = true <;> simp [has]

theorem lt_of_mem_placesOf {packets : List PacketEntry} {p : PacketEntry → Bool} {pktIdx : ℕ}
    (mem : pktIdx ∈ placesOf packets p) : pktIdx < packets.length := by
  obtain ⟨⟨pkt, place⟩, found, rfl⟩ := List.mem_map.mp mem
  have inside := List.mem_zipIdx_iff_getElem?.mp (List.mem_of_mem_filter found)
  exact (List.getElem?_eq_some_iff.mp inside).1

namespace NodeStats

theorem iterate_collision (k : ℕ) (entry : NodeStats) :
    collision^[k] entry = { entry with collisionsInvolved := entry.collisionsInvolved + k } := by
  induction k with
  | zero => rfl
  | succ k ih =>
      rw [Function.iterate_succ_apply', ih]
      rfl

theorem iterate_halfduplex (k : ℕ) (entry : NodeStats) :
    halfduplex^[k] entry = { entry with halfduplexInvolved := entry.halfduplexInvolved + k } := by
  induction k with
  | zero => rfl
  | succ k ih =>
      rw [Function.iterate_succ_apply', ih]
      rfl

/-- What a packet adds to the entry of a node. -/
def packet (pktIdx : ℕ) (pkt : PacketEntry) (name : NodeName) (entry : NodeStats) : NodeStats :=
  halfduplex^[pkt.halfduplex.countP (·.receiver = name)]
    (collision^[pkt.collisions.countP (·.receiver = name)]
      (applyIf (pkt.heardBy name) receive
        (applyIf (pkt.sentBy name) (send pktIdx (name ≠ pkt.firstSender))
          (applyIf (pkt.originates name) (originate pktIdx) entry))))

theorem packet_statsOf (packets : List PacketEntry) (pkt : PacketEntry) (name : NodeName) :
    (statsOf packets name).packet packets.length pkt name = statsOf (packets ++ [pkt]) name := by
  have new : packets.length ∉ placesOf packets (·.transits name) := fun mem =>
    (lt_of_mem_placesOf mem).ne rfl
  have transits : pkt.transits name = (pkt.sentBy name && decide (name ≠ pkt.firstSender)) := rfl
  unfold packet statsOf applyIf
  rw [iterate_halfduplex, iterate_collision]
  generalize decide (name ≠ pkt.firstSender) = relays at transits ⊢
  by_cases heard : pkt.heardBy name = true <;> by_cases sent : pkt.sentBy name = true <;>
    by_cases first : pkt.originates name = true <;> cases relays <;>
    simp_all [placesOf_concat, receive, send, originate]

end NodeStats

namespace NodeTable

variable (stats : NodeTable) (pktIdx : ℕ) (pkt : PacketEntry) (name : NodeName)

theorem of_packet :
    (stats.packet pktIdx pkt).of name = (stats.of name).packet pktIdx pkt name := by
  have first : (if pkt.firstSender ≠ "" then
        stats.update pkt.firstSender (NodeStats.originate pktIdx) else stats).of name =
      NodeStats.applyIf (pkt.originates name) (NodeStats.originate pktIdx) (stats.of name) := by
    unfold NodeStats.applyIf PacketEntry.originates
    by_cases anonymous : pkt.firstSender = ""
    · simp [anonymous]
    · by_cases same : name = pkt.firstSender
      · simp [same, anonymous]
      · simp [anonymous, same, Ne.symm same]
  rw [packet, of_foldl_update, of_foldl_update, HopLoop.of_hops, first]
  simp [NodeStats.packet, NodeStats.applyIf, PacketEntry.heardBy, PacketEntry.sentBy]

theorem mem_keys_packet :
    name ∈ (stats.packet pktIdx pkt).keys ↔ pkt.Involves name ∨ name ∈ stats.keys := by
  have first : name ∈ (if pkt.firstSender ≠ "" then
        stats.update pkt.firstSender (NodeStats.originate pktIdx) else stats).keys ↔
      name = pkt.firstSender ∧ name ≠ "" ∨ name ∈ stats.keys := by
    split_ifs with named
    · rw [mem_keys_update]
      exact or_congr_left ⟨fun same => ⟨same, same ▸ named⟩, And.left⟩
    · rw [not_not] at named
      exact ⟨Or.inr, fun either => either.resolve_left fun both => both.2 (both.1.trans named)⟩
  rw [packet, mem_keys_foldl_update, mem_keys_foldl_update, HopLoop.mem_keys_hops _ _ (by simp),
    first]
  unfold PacketEntry.Involves
  grind

theorem ofPackets_concat (packets : List PacketEntry) (pkt : PacketEntry) :
    ofPackets (packets ++ [pkt]) = (ofPackets packets).packet packets.length pkt := by
  simp [ofPackets, List.zipIdx_append]

theorem of_ofPackets (packets : List PacketEntry) (name : NodeName) :
    (ofPackets packets).of name = statsOf packets name := by
  induction packets using List.reverseRecOn with
  | nil => rfl
  | append_singleton packets pkt ih =>
      rw [ofPackets_concat, of_packet, ih, NodeStats.packet_statsOf]

theorem mem_keys_ofPackets (packets : List PacketEntry) (name : NodeName) :
    name ∈ (ofPackets packets).keys ↔ ∃ pkt ∈ packets, pkt.Involves name := by
  induction packets using List.reverseRecOn with
  | nil => simp [ofPackets, Dict.keys, Dict.empty]
  | append_singleton packets pkt ih =>
      rw [ofPackets_concat, mem_keys_packet, ih]
      simp only [List.mem_append, List.mem_singleton]
      constructor
      · rintro (last | ⟨pkt', mem, involved⟩)
        · exact ⟨pkt, Or.inr rfl, last⟩
        · exact ⟨pkt', Or.inl mem, involved⟩
      · rintro ⟨pkt', mem | rfl, involved⟩
        · exact Or.inr ⟨pkt', mem, involved⟩
        · exact Or.inl involved

end NodeTable

/-- The entry of every node in the statistics of a trace. -/
theorem get?_computeNodeTraceStats (trace : TraceDict) (name : NodeName) :
    (computeNodeTraceStats trace).get? name =
      if ∃ pkt ∈ trace.packets, pkt.Involves name then some (statsOf trace.packets name)
      else none := by
  rw [computeNodeTraceStats, NodeTable.get?_eq, NodeTable.of_ofPackets]
  simp only [NodeTable.mem_keys_ofPackets]

/-! ### Totals -/

/-- The number of names in a list that were not seen before. -/
def unseen (seen names : List NodeName) : ℕ := (names.toFinset \ seen.toFinset).card

theorem unseen_cons (seen names : List NodeName) (name : NodeName) :
    unseen seen (name :: names) =
      if name ∈ seen then unseen seen names else unseen (name :: seen) names + 1 := by
  unfold unseen
  rw [List.toFinset_cons]
  split_ifs with old
  · rw [Finset.insert_sdiff_of_mem _ (List.mem_toFinset.mpr old)]
  · have new : name ∉ names.toFinset \ (name :: seen).toFinset := by simp
    rw [← Finset.card_insert_of_notMem new]
    congr 1
    ext n
    by_cases same : n = name <;> simp [same, old]

theorem unseen_nil (names : List NodeName) : unseen [] names = names.dedup.length := by
  rw [unseen, List.toFinset_nil, Finset.sdiff_empty, List.card_toFinset]

section Totals

variable {f : NodeStats → ℕ} (fresh : f .new = 0)
include fresh

theorem NodeTable.sumBy_update {change : NodeStats → NodeStats} {n : ℕ}
    (adds : ∀ entry, f (change entry) = f entry + n) (stats : NodeTable) (name : NodeName) :
    (stats.update name change).sumBy f = stats.sumBy f + n :=
  stats.sumBy_set_getD _ fresh adds

theorem NodeTable.sumBy_foldl_update {α : Type} {key : α → NodeName}
    {change : NodeStats → NodeStats} {n : ℕ} (adds : ∀ entry, f (change entry) = f entry + n)
    (records : List α) (stats : NodeTable) :
    (records.foldl (fun stats r => stats.update (key r) change) stats).sumBy f =
      stats.sumBy f + records.length * n := by
  induction records generalizing stats with
  | nil => simp
  | cons r rest ih =>
      rw [List.foldl_cons, ih, sumBy_update fresh adds, List.length_cons]
      ring

variable {o s r c d : ℕ}
  (originates : ∀ pktIdx entry, f (NodeStats.originate pktIdx entry) = f entry + o)
  (sends : ∀ pktIdx transit entry, f (NodeStats.send pktIdx transit entry) = f entry + s)
  (receives : ∀ entry, f (NodeStats.receive entry) = f entry + r)
  (collisions : ∀ entry, f (NodeStats.collision entry) = f entry + c)
  (halfduplex : ∀ entry, f (NodeStats.halfduplex entry) = f entry + d)

include sends receives in
theorem HopLoop.sumBy_hops (firstSender : NodeName) (pktIdx : ℕ) (hops : List HopRecord)
    (loop : HopLoop) :
    (hops.foldl (HopLoop.hop firstSender pktIdx) loop).stats.sumBy f = loop.stats.sumBy f +
      unseen loop.sendersSeen (hops.map HopRecord.sender) * s +
      unseen loop.receiversSeen (hops.map HopRecord.receiver) * r := by
  induction hops generalizing loop with
  | nil => simp [unseen]
  | cons h rest ih =>
      have sent (transit : Bool) := NodeTable.sumBy_update fresh (sends pktIdx transit)
      have received := NodeTable.sumBy_update fresh receives
      rw [List.foldl_cons, ih, List.map_cons, List.map_cons, unseen_cons, unseen_cons]
      unfold hop send receive
      split_ifs <;> simp only [sent, received] <;> ring

include originates sends receives collisions halfduplex

theorem NodeTable.sumBy_packet (stats : NodeTable) (pktIdx : ℕ) (pkt : PacketEntry) :
    (stats.packet pktIdx pkt).sumBy f = stats.sumBy f +
      ((if pkt.firstSender ≠ "" then o else 0) +
        (pkt.hops.map HopRecord.sender).dedup.length * s +
        (pkt.hops.map HopRecord.receiver).dedup.length * r + pkt.collisions.length * c +
        pkt.halfduplex.length * d) := by
  unfold packet
  rw [sumBy_foldl_update fresh halfduplex, sumBy_foldl_update fresh collisions,
    HopLoop.sumBy_hops fresh sends receives, unseen_nil, unseen_nil]
  split_ifs
  · rw [sumBy_update fresh (originates pktIdx)]
    ring
  · ring

/-- A measure that the five kinds of records raise by `o`, `s`, `r`, `c` and `d`. -/
theorem NodeTable.sumBy_ofPackets (packets : List PacketEntry) :
    (ofPackets packets).sumBy f = (packets.map fun pkt =>
      (if pkt.firstSender ≠ "" then o else 0) +
        (pkt.hops.map HopRecord.sender).dedup.length * s +
        (pkt.hops.map HopRecord.receiver).dedup.length * r + pkt.collisions.length * c +
        pkt.halfduplex.length * d).sum := by
  induction packets using List.reverseRecOn with
  | nil => rfl
  | append_singleton packets pkt ih =>
      rw [ofPackets_concat, sumBy_packet fresh originates sends receives collisions halfduplex, ih,
        List.map_append, List.sum_append, List.map_singleton, List.sum_singleton]

end Totals

/-- A node is counted once for a packet that it receives several times. -/
theorem sumBy_rxCount (trace : TraceDict) :
    (computeNodeTraceStats trace).sumBy NodeStats.rxCount =
      (trace.packets.map fun pkt => (pkt.hops.map HopRecord.receiver).dedup.length).sum := by
  rw [computeNodeTraceStats, NodeTable.sumBy_ofPackets (o := 0) (s := 0) (r := 1) (c := 0)
    (d := 0) rfl (fun _ _ => rfl) (fun _ _ _ => rfl) (fun _ => rfl) (fun _ => rfl) fun _ => rfl]
  simp

theorem sumBy_collisionsInvolved (trace : TraceDict) :
    (computeNodeTraceStats trace).sumBy NodeStats.collisionsInvolved =
      (trace.packets.map (·.collisions.length)).sum := by
  rw [computeNodeTraceStats, NodeTable.sumBy_ofPackets (o := 0) (s := 0) (r := 0) (c := 1)
    (d := 0) rfl (fun _ _ => rfl) (fun _ _ _ => rfl) (fun _ => rfl) (fun _ => rfl) fun _ => rfl]
  simp

theorem sumBy_halfduplexInvolved (trace : TraceDict) :
    (computeNodeTraceStats trace).sumBy NodeStats.halfduplexInvolved =
      (trace.packets.map (·.halfduplex.length)).sum := by
  rw [computeNodeTraceStats, NodeTable.sumBy_ofPackets (o := 0) (s := 0) (r := 0) (c := 0)
    (d := 1) rfl (fun _ _ => rfl) (fun _ _ _ => rfl) (fun _ => rfl) (fun _ => rfl) fun _ => rfl]
  simp

/-- The statistics of the nodes count what is in the packets. -/
structure NodeStatsExact (trace : TraceDict) : Prop where
  entries : ∀ name, (computeNodeTraceStats trace).get? name =
    if ∃ pkt ∈ trace.packets, pkt.Involves name then some (statsOf trace.packets name) else none
  /-- what a node sent are its transits and those of its own packets that somebody heard -/
  sent : ∀ name, (statsOf trace.packets name).txCount =
    (statsOf trace.packets name).packetsTransited.length +
      trace.packets.countP fun pkt => pkt.sentBy name ∧ pkt.firstSender = name
  originated : (computeNodeTraceStats trace).sumBy (·.packetsOriginated.length) =
    trace.packets.countP fun pkt => pkt.firstSender ≠ ""
  transmissions : (computeNodeTraceStats trace).sumBy NodeStats.txCount =
    (trace.packets.map fun pkt => (pkt.hops.map HopRecord.sender).dedup.length).sum
  receptions : (computeNodeTraceStats trace).sumBy NodeStats.rxCount =
    (trace.packets.map fun pkt => (pkt.hops.map HopRecord.receiver).dedup.length).sum
  collisions : (computeNodeTraceStats trace).sumBy NodeStats.collisionsInvolved =
    (trace.packets.map (·.collisions.length)).sum
  halfduplex : (computeNodeTraceStats trace).sumBy NodeStats.halfduplexInvolved =
    (trace.packets.map (·.halfduplex.length)).sum

theorem length_placesOf (packets : List PacketEntry) (p : PacketEntry → Bool) :
    (placesOf packets p).length = packets.countP p := by
  induction packets using List.reverseRecOn with
  | nil => rfl
  | append_singleton packets pkt ih =>
      rw [placesOf_concat, List.length_append, ih, List.countP_append]
      by_cases has : p pkt = true <;> simp [has]

theorem countP_eq_sum (packets : List PacketEntry) (p : PacketEntry → Bool) :
    packets.countP p = (packets.map fun pkt => if p pkt then 1 else 0).sum := by
  induction packets with
  | nil => rfl
  | cons pkt packets ih =>
      rw [List.countP_cons, ih, List.map_cons, List.sum_cons, Nat.add_comm]

/-- In every trace. -/
theorem nodeStats_exact (trace : TraceDict) : NodeStatsExact trace where
  entries := get?_computeNodeTraceStats trace
  sent name := by
    have split := List.countP_eq_countP_filter_add trace.packets (·.sentBy name)
      fun pkt => decide (name ≠ pkt.firstSender)
    rw [List.countP_filter, List.countP_filter] at split
    have transits : (statsOf trace.packets name).packetsTransited.length =
        trace.packets.countP (·.transits name) := by
      have eq : (statsOf trace.packets name).packetsTransited =
        placesOf trace.packets (fun pkt => pkt.transits name) := rfl
      rw [eq, length_placesOf]
    refine split.trans ?_
    rw [transits]
    congr 1
    apply List.countP_congr
    intro pkt _
    rw [Bool.and_eq_true, Bool.not_eq_true', decide_eq_false_iff_not, ne_eq, not_not,
      decide_eq_true_eq, eq_comm (a := name)]
  originated := by
    rw [computeNodeTraceStats, NodeTable.sumBy_ofPackets (o := 1) (s := 0) (r := 0) (c := 0)
      (d := 0) rfl (by simp [NodeStats.originate]) (by simp [NodeStats.send]) (fun _ => rfl)
      (fun _ => rfl) (fun _ => rfl), countP_eq_sum]
    simp
  transmissions := by
    rw [computeNodeTraceStats, NodeTable.sumBy_ofPackets (o := 0) (s := 1) (r := 0) (c := 0)
      (d := 0) rfl (fun _ _ => rfl) (fun _ _ _ => rfl) (fun _ => rfl) (fun _ => rfl) fun _ => rfl]
    simp
  receptions := sumBy_rxCount trace
  collisions := sumBy_collisionsInvolved trace
  halfduplex := sumBy_halfduplexInvolved trace

end MeshcoreSim
