import MeshcoreSim.Nexthop.Routes

/-!
The path exchange from one end to the other: a text message of a sender, the relays between, and
what the receiver learns.

The path of a flooded packet grows by the hash of each relay, and that of a direct one loses its
first hash at the relay with this hash. A direct packet is for the node at which its path is empty,
and there the guard of the exchange asks for a path that is not.

* `pathExchanged_iff` — the receiver learns the way back exactly when the message was flooded, and
  it did not know one before.
* `not_pathExchanged_direct` — a first message on a route of the routing table.
-/

namespace MeshcoreSim.Nexthop

open Lib

/-! ### Relays -/

def floods (info : PacketInfo) : Bool :=
  info.routeType = routeTypeFlood ∨ info.routeType = routeTypeTransportFlood

/-- What the relay with a hash makes of a packet; nothing where the packet is not for it. -/
def forward (info : PacketInfo) (hash : Bytes) : Option PacketInfo :=
  if hash.length ≠ info.pathSize then none
  else if floods info then
    some { info with pathCount := info.pathCount + 1, pathBytes := info.pathBytes ++ hash }
  else if info.pathCount > 0 ∧ info.pathBytes.take info.pathSize = hash then
    some { info with
      pathCount := info.pathCount - 1
      pathBytes := info.pathBytes.drop info.pathSize }
  else none

/-- A packet behind a chain of relays. -/
def forwardAll (info : PacketInfo) (relays : List Bytes) : Option PacketInfo :=
  relays.foldlM forward info

/-- A packet as it reaches a node behind a chain of relays; nothing where it is not for this
node. -/
def arrive (info : PacketInfo) (relays : List Bytes) : Option PacketInfo :=
  (forwardAll info relays).filter fun arrived => floods arrived ∨ arrived.pathCount = 0

/-- A packet of a text message as it leaves its sender. The version, the size of the hashes in
floods and the encrypted payload are those of the packet layer. -/
def Effect.onAir (version hashSize : ℕ) (payload : Bytes) : Effect → Option PacketInfo
  | .sendFlood (.datagram ..) =>
      some ⟨routeTypeFlood, payloadTypeTxtMsg, version, 0, hashSize, [], payload⟩
  | .sendDirect (.datagram ..) path pathLen =>
      let count := pathLen % 64
      let size := pathLen / 64 + 1
      some ⟨routeTypeDirect, payloadTypeTxtMsg, version, count, size, path.take (count * size),
        payload⟩
  | _ => none

variable {info arrived : PacketInfo} {relays : List Bytes}

theorem forwardAll_cons (info : PacketInfo) (hash : Bytes) (relays : List Bytes) :
    forwardAll info (hash :: relays) =
      (forward info hash).bind fun next => forwardAll next relays := by
  rw [forwardAll, List.foldlM_cons]
  rfl

/-- A relay does not change the way a packet is routed. -/
theorem floods_forward {hash : Bytes} {next : PacketInfo} (step : forward info hash = some next) :
    floods next = floods info := by
  unfold forward at step
  split_ifs at step
  · cases step
    rfl
  · cases step
    rfl

/-- A flooded packet has the hashes of the relays behind its path. -/
theorem forwardAll_flood (flood : floods info = true)
    (forwarded : forwardAll info relays = some arrived) :
    (∀ r ∈ relays, r.length = info.pathSize) ∧
      arrived = { info with
        pathCount := info.pathCount + relays.length
        pathBytes := info.pathBytes ++ relays.flatten } := by
  induction relays generalizing info with
  | nil =>
      cases forwarded
      simp
  | cons hash relays ih =>
      rw [forwardAll_cons] at forwarded
      obtain ⟨next, step, rest⟩ := Option.bind_eq_some_iff.mp forwarded
      obtain ⟨sizes, rfl⟩ := ih ((floods_forward step).trans flood) rest
      unfold forward at step
      rw [if_pos flood] at step
      split_ifs at step with size
      cases step
      refine ⟨?_, ?_⟩
      · rintro r (_ | ⟨_, mem⟩)
        · exact Decidable.not_not.mp size
        · exact sizes r mem
      · simp only [List.length_cons, List.flatten_cons, List.append_assoc, Nat.add_assoc,
          Nat.add_comm 1]

/-- A direct packet has passed the first relays of its path, and has the others left. -/
theorem forwardAll_direct (direct : floods info = false)
    (forwarded : forwardAll info relays = some arrived) :
    floods arrived = false ∧ info.pathCount = relays.length + arrived.pathCount ∧
      info.pathBytes = relays.flatten ++ arrived.pathBytes := by
  induction relays generalizing info with
  | nil =>
      cases forwarded
      simp [direct]
  | cons hash relays ih =>
      rw [forwardAll_cons] at forwarded
      obtain ⟨next, step, rest⟩ := Option.bind_eq_some_iff.mp forwarded
      obtain ⟨direct', count, path⟩ := ih ((floods_forward step).trans direct) rest
      unfold forward at step
      rw [direct, if_neg Bool.false_ne_true] at step
      split_ifs at step with size first
      cases step
      obtain ⟨positive, own⟩ := first
      refine ⟨direct', ?_, ?_⟩
      · simp only [List.length_cons] at count ⊢
        omega
      · rw [List.flatten_cons, List.append_assoc, ← path, ← own, List.take_append_drop]

/-- A direct packet that reaches its node has been at all relays of its path, and has no path. -/
theorem arrive_direct (direct : floods info = false) (arrives : arrive info relays = some arrived) :
    floods arrived = false ∧ arrived.pathCount = 0 ∧ info.pathCount = relays.length := by
  obtain ⟨forwarded, isFor⟩ := Option.filter_eq_some_iff.mp arrives
  obtain ⟨direct', count, -⟩ := forwardAll_direct direct forwarded
  have none : arrived.pathCount = 0 := by simpa [direct'] using isFor
  exact ⟨direct', none, by rw [count, none, Nat.add_zero]⟩

/-- A flooded packet reaches every node with the relays as its path. -/
theorem relays_of_arrive {packet : Packet} (flood : floods info = true) (count : info.pathCount = 0)
    (path : info.pathBytes = []) (arrives : arrive info relays = some packet.info) :
    floods packet.info = true ∧ packet.relays = relays := by
  obtain ⟨forwarded, -⟩ := Option.filter_eq_some_iff.mp arrives
  obtain ⟨sizes, isArrived⟩ := forwardAll_flood flood forwarded
  refine ⟨by rw [isArrived]; exact flood, ?_⟩
  have whole := chunks_flatten sizes []
  rw [List.append_nil] at whole
  rw [Packet.relays, isArrived, count, path, Nat.zero_add, List.nil_append]
  exact whole

/-! ### The two ends -/

namespace Node

/-- The packet in which a text message leaves its sender. -/
def departs (sender : Node) (destPubHex text timestamp : Bytes) (version hashSize : ℕ)
    (payload : Bytes) : Option PacketInfo :=
  (sender.sendTextTo destPubHex text timestamp true).2.1.findSome?
    (Effect.onAir version hashSize payload)

/-- The node sends directly: it has a path to the destination in its routing table, or in its
contact list. -/
def hasRoute (sender : Node) (destPubHex : Bytes) : Bool :=
  (sender.contacts.find? fun c => destPubHex.isPrefixOf (writeHex hexUc c.id.bytes)).any
    fun target =>
      (sender.tableRoute target).isSome ∨ (target.hasPath ∧ target.path ≠ [])

/-- The receiver has stored the relays in reverse order as the path of a contact, and has sent a
PATH return to it. -/
def PathExchanged (receiver : Node) (packet : Packet) (senderIdx : ℤ) (data : Bytes) (idx : ℕ)
    (relays : List Bytes) : Prop :=
  ∃ node' effects,
    receiver.onPeerDataRecv packet payloadTypeTxtMsg senderIdx data true = some (node', effects) ∧
    ∃ c, node'.contacts[idx]? = some c ∧ c.hasPath = true ∧ c.path = relays.reverse.flatten ∧
      ∃ path pathLen, .sendFlood (.pathReturn c.id path pathLen) ∈ effects

variable {sender receiver : Node} {destPubHex text timestamp payload : Bytes}
  {version hashSize : ℕ}

theorem fallback_onAir {target : Contact} {dest : PubKey} {plain : Bytes}
    (departs : (sendTextTo.fallback target (.datagram dest plain)).findSome?
      (Effect.onAir version hashSize payload) = some info) :
    (target.hasPath = true ∧ target.path ≠ [] ∧ floods info = false) ∨
      (¬ (target.hasPath = true ∧ target.path ≠ []) ∧
        floods info = true ∧ info.pathCount = 0 ∧ info.pathBytes = []) := by
  unfold sendTextTo.fallback at departs
  split_ifs at departs with direct
  · cases departs
    exact Or.inl ⟨direct.1, direct.2, rfl⟩
  · cases departs
    exact Or.inr ⟨direct, rfl, rfl, rfl⟩

/-- A message of a node that knows a route leaves directly, and any other is flooded. -/
theorem departs_cases
    (departs : sender.departs destPubHex text timestamp version hashSize payload = some info) :
    (sender.hasRoute destPubHex = true ∧ floods info = false) ∨
      (sender.hasRoute destPubHex = false ∧
        floods info = true ∧ info.pathCount = 0 ∧ info.pathBytes = []) := by
  unfold Node.departs at departs
  unfold hasRoute
  cases isTarget : sender.contacts.find? fun c =>
      destPubHex.isPrefixOf (writeHex hexUc c.id.bytes) with
  | none => simp [sendTextTo, isTarget, Effect.onAir] at departs
  | some target =>
      rw [sendTextTo_of_target isTarget] at departs
      rw [Option.any_some]
      cases route : sender.tableRoute target with
      | some e =>
          simp only [route] at departs
          cases departs
          exact Or.inl ⟨by simp, rfl⟩
      | none =>
          simp only [route] at departs
          rcases fallback_onAir departs with ⟨hasPath, some, direct⟩ | ⟨noPath, flood⟩
          · exact Or.inl ⟨by simp [hasPath, some], direct⟩
          · exact Or.inr ⟨by simpa using noPath, flood⟩

variable {packet : Packet} {senderIdx : ℤ} {idx : ℕ} {c : Contact} {data : Bytes}

theorem contact_of_peerIndex (peer : receiver.peerIndex senderIdx = some (some (idx, c))) :
    receiver.contacts[idx]? = some c := by
  unfold peerIndex at peer
  split_ifs at peer
  · cases peer
  · obtain ⟨place, -, peer'⟩ := Option.bind_eq_some_iff.mp peer
    obtain ⟨c', known, same⟩ := Option.bind_eq_some_iff.mp peer'
    cases same
    exact known

/-- What the receiver does with a text message is decided by its guard. -/
theorem pathExchanged_iff_guard (peer : receiver.peerIndex senderIdx = some (some (idx, c))) :
    receiver.PathExchanged packet senderIdx data idx relays ↔
      exchanges packet payloadTypeTxtMsg c = true ∧
        packet.relays.reverse.flatten = relays.reverse.flatten := by
  have known := contact_of_peerIndex peer
  obtain ⟨inside, -⟩ := List.getElem?_eq_some_iff.mp known
  unfold PathExchanged
  rw [onPeerDataRecv_eq peer]
  by_cases guard : exchanges packet payloadTypeTxtMsg c = true
  · rw [if_pos guard]
    constructor
    · rintro ⟨_, _, ⟨⟩, c', isContact, -, path, -⟩
      rw [List.getElem?_set_self inside] at isContact
      cases isContact
      exact ⟨guard, path⟩
    · rintro ⟨-, path⟩
      refine ⟨_, _, rfl, _, List.getElem?_set_self inside, rfl, path, ?_⟩
      exact ⟨packet.info.pathBytes, packet.pathLen, by simp [pathReturn]⟩
  · rw [if_neg guard]
    constructor
    · rintro ⟨_, _, ⟨⟩, c', -, -, -, path, pathLen, sent⟩
      unfold received at sent
      split_ifs at sent <;> simp at sent
    · exact fun done => absurd done.1 guard

end Node

/-- A text message over a chain of relays: the receiver learns the way back and returns the path
exactly when the sender has no route, so that the message is flooded, and the receiver does not
have a path yet. -/
theorem pathExchanged_iff {sender receiver : Node} {destPubHex text timestamp payload data : Bytes}
    {version hashSize idx : ℕ} {start : PacketInfo} {relays : List Bytes} {packet : Packet}
    {senderIdx : ℤ} {c : Contact}
    (departs : sender.departs destPubHex text timestamp version hashSize payload = some start)
    (chain : relays ≠ []) (arrives : arrive start relays = some packet.info)
    (peer : receiver.peerIndex senderIdx = some (some (idx, c))) :
    receiver.PathExchanged packet senderIdx data idx relays ↔
      sender.hasRoute destPubHex = false ∧ c.hasPath = false := by
  rw [Node.pathExchanged_iff_guard peer]
  rcases Node.departs_cases departs with ⟨route, direct⟩ | ⟨noRoute, flood, count, path⟩
  · obtain ⟨-, none, -⟩ := arrive_direct direct arrives
    simp [Node.exchanges, route, none]
  · obtain ⟨flooded, isPath⟩ := relays_of_arrive flood count path arrives
    have some : packet.info.pathCount > 0 := by
      rw [← packet.length_relays, isPath]
      exact List.length_pos_iff.mpr chain
    have isFlood : packet.isRouteFlood = true := flooded
    simp [Node.exchanges, noRoute, isPath, isFlood, some]

/-- The message of a node that hears the receiver itself, over two relays. -/
theorem pathExchanged_iff_flood :
    (⟨keyOf 1, [⟨keyOf 0, false, [], []⟩], [0], .empty⟩ : Node).PathExchanged
      ⟨⟨routeTypeFlood, payloadTypeTxtMsg, 0, 2, 1, [0xA1, 0xB2], []⟩, by constructor <;> decide⟩
      0 [] 0 [[0xA1], [0xB2]] := by
  have departs : (⟨keyOf 0, [⟨keyOf 1, false, [], []⟩], [], .empty⟩ : Node).departs
      [0x30, 0x31] [] [] 0 1 [] = some ⟨routeTypeFlood, payloadTypeTxtMsg, 0, 0, 1, [], []⟩ := rfl
  exact (pathExchanged_iff departs (by decide) rfl rfl).mpr ⟨rfl, rfl⟩

/-- Two nodes know each other by an advert over one relay. The first message goes directly, and
the receiver learns nothing. -/
theorem not_pathExchanged_direct :
    ∃ (sender receiver : Node) (start : PacketInfo) (packet : Packet) (c : Contact),
      (exec Node.step (Node.init (keyOf 0)) [.onAdvertRecv oneHopAdvert (keyOf 1) []]).map
        Prod.fst = some sender ∧
      (exec Node.step (Node.init (keyOf 1)) [.onAdvertRecv oneHopAdvert (keyOf 0) [],
        .searchPeersByHash fun id => id = keyOf 0]).map Prod.fst = some receiver ∧
      sender.departs [0x30, 0x31] [0x68, 0x69] [0, 0, 0, 1] 0 1 [] = some start ∧
      arrive start [[0xA1]] = some packet.info ∧
      receiver.peerIndex 0 = some (some (0, c)) ∧ c.id = keyOf 0 ∧
      ¬ receiver.PathExchanged packet 0 [0, 0, 0, 1, 0x68, 0x69] 0 [[0xA1]] := by
  have inRange : (⟨routeTypeDirect, payloadTypeTxtMsg, 0, 0, 1, [], []⟩ : PacketInfo).InRange := by
    constructor <;> decide
  refine ⟨_, _, _, ⟨_, inRange⟩, ⟨keyOf 0, false, [], []⟩, rfl, rfl, rfl, rfl, rfl, rfl, ?_⟩
  intro done
  have guard := ((Node.pathExchanged_iff_guard rfl).mp done).1
  exact Bool.false_ne_true guard

end MeshcoreSim.Nexthop
