import MeshcoreSim.Nexthop.Calls

/-!
The routes on which a node sends messages directly.

`sendDirect` takes its length in the encoded form of the wire format. A path that comes with a PATH
return is stored with that length, while the paths of adverts and messages are stored with their
number of bytes. A `Ledger` beside the node remembers what every stored path was learned from.

* `directRoutes_iff` — a message goes on the route that was learned exactly when that came with a
  PATH return or its hashes have one byte.
* `wrongRoute_twoBytes` — a route of two-byte hashes.
-/

namespace MeshcoreSim.Nexthop

open Lib

/-- A list of relays by their hashes, all of one size. -/
structure Route where
  size : ℕ
  hashes : List Bytes
  deriving DecidableEq, Repr

/-- The route that a path and an encoded length stand for: the number of hashes in the lower six
bits, and their size less one above. -/
def Route.decode (path : Bytes) (pathLen : ℕ) : Route :=
  ⟨pathLen / 64 + 1, chunks (pathLen / 64 + 1) (pathLen % 64) path⟩

/-- The route back along which a packet came. -/
def Packet.route (packet : Packet) : Route := ⟨packet.info.pathSize, packet.relays.reverse⟩

/-- The route at an address in memory, with its encoded length. -/
def Route.received (path : ℕ → UInt8) (pathLen : ℕ) : Route :=
  .decode ((List.range (pathLen % 64 * (pathLen / 64 + 1))).map path) pathLen

inductive Source where
  | advert
  | message
  | pathReturn
  deriving DecidableEq, Repr

/-- What a stored path was learned from. -/
structure Learned where
  source : Source
  route : Route
  deriving DecidableEq, Repr

/-- What the paths of the routing table, by key, and of the contacts, by place, were learned
from. -/
structure Ledger where
  routes : Bytes → Option Learned
  contacts : ℕ → Option Learned

def Ledger.empty : Ledger := ⟨fun _ => none, fun _ => none⟩

def Ledger.setRoute (ledger : Ledger) (dest : Bytes) (learned : Learned) : Ledger :=
  { ledger with routes := fun dest' => if dest' = dest then some learned else ledger.routes dest' }

def Ledger.setContact (ledger : Ledger) (idx : ℕ) (learned : Learned) : Ledger :=
  { ledger with contacts := fun i => if i = idx then some learned else ledger.contacts i }

namespace Node

variable (node : Node)

/-- The routing table takes the path of an advert: it has none for the key, or no shorter one. -/
def takes (id : PubKey) (packet : Packet) : Bool :=
  node.table.tick.all fun ticked =>
    (rtFind ticked.routes id.dest).all fun e => packet.metric ≤ e.metric

/-- What is learned with a call. -/
def learn (ledger : Ledger) : Call → Ledger
  | .onAdvertRecv packet id _ =>
      if id ≠ node.selfId ∧ node.takes id packet then
        ledger.setRoute id.dest ⟨.advert, packet.route⟩
      else ledger
  | .onPeerDataRecv packet type senderIdx _ _ =>
      match node.peerIndex senderIdx with
      | some (some (idx, c)) =>
          if exchanges packet type c then ledger.setContact idx ⟨.message, packet.route⟩
          else ledger
      | _ => ledger
  | .onPeerPathRecv senderIdx path pathLen =>
      match node.peerIndex senderIdx with
      | some (some (idx, _)) =>
          ledger.setContact idx ⟨.pathReturn, .received path pathLen.toNat⟩
      | _ => ledger
  | .searchPeersByHash _ | .sendTextTo .. => ledger

/-- One call, with what is learned. -/
def track (state : Node × Ledger) (call : Call) : Option ((Node × Ledger) × List Effect) :=
  (state.1.step call).map fun r => ((r.1, state.1.learn state.2 call), r.2)

/-- What the path on which `sendTextTo` sends a message directly was learned from: the entry of the
routing table where it has more than one hop and a path, the path of the contact otherwise. -/
def directSource (ledger : Ledger) (destPubHex : Bytes) : Option Learned :=
  (node.contacts.findIdx? fun c => destPubHex.isPrefixOf (writeHex hexUc c.id.bytes)).bind
    fun idx => (node.contacts[idx]?).bind fun target =>
      if (node.tableRoute target).isSome then ledger.routes target.id.dest
      else ledger.contacts idx

end Node

/-! ### Stored paths -/

/-- The relays of a packet: hashes of one size, at most 63 of them. -/
structure Route.Sized (route : Route) : Prop where
  size : 1 ≤ route.size ∧ route.size ≤ 3
  count : route.hashes.length < 64
  all : ∀ hash ∈ route.hashes, hash.length = route.size

/-- A path holds what was learned. -/
def Learned.Holds (learned : Learned) (path : Bytes) : Prop :=
  match learned.source with
  | .advert | .message => learned.route.Sized ∧ path = learned.route.hashes.flatten
  | .pathReturn => ∃ (memory : ℕ → UInt8) (pathLen : UInt8),
      path = (List.range pathLen.toNat).map memory ∧
        learned.route = .received memory pathLen.toNat

/-- What a path was learned from is known. -/
def Known (learned : Option Learned) (path : Bytes) : Prop :=
  ∃ l, learned = some l ∧ l.Holds path

theorem Packet.sized_route (packet : Packet) : packet.route.Sized where
  size := packet.pathSize_mem
  count := by
    rw [Packet.route, List.length_reverse, length_relays]
    exact packet.inRange.pathCount
  all := fun _ mem => packet.length_of_mem_relays (List.mem_reverse.mp mem)

/-- A path of a PATH return is long enough for its hashes, and is sent with its own length. -/
theorem decode_received (memory : ℕ → UInt8) {pathLen : ℕ} (small : pathLen < 256) :
    Route.decode ((List.range pathLen).map memory) pathLen = .received memory pathLen := by
  have enough : pathLen % 64 * (pathLen / 64 + 1) ≤ pathLen := by
    have sizes : ∀ pathLen < 256, pathLen % 64 * (pathLen / 64 + 1) ≤ pathLen := by decide +kernel
    exact sizes pathLen small
  have same : ((List.range pathLen).map memory).take (pathLen % 64 * (pathLen / 64 + 1)) =
      (List.range (pathLen % 64 * (pathLen / 64 + 1))).map memory := by
    rw [← List.map_take, List.take_range, Nat.min_eq_left enough]
  rw [Route.received, ← same, Route.decode, Route.decode, chunks_take]

/-- A number of bytes is the encoded length of the same path for hashes of one byte only. -/
theorem decode_flatten_iff {route : Route} (sized : route.Sized) (some : route.hashes ≠ []) :
    Route.decode route.hashes.flatten route.hashes.flatten.length = route ↔ route.size = 1 := by
  have count := sized.count
  have positive := List.length_pos_iff.mpr some
  obtain ⟨low, high⟩ := sized.size
  obtain ⟨size, hashes⟩ := route
  rw [length_flatten_of_forall sized.all]
  simp only at count positive low high sized ⊢
  constructor
  · intro same
    obtain ⟨sizes, lists⟩ := Route.mk.inj same
    have lengths := congrArg List.length lists
    rw [length_chunks] at lengths
    by_contra more
    have cases : size = 2 ∨ size = 3 := by omega
    rcases cases with rfl | rfl <;> omega
  · rintro rfl
    have all := chunks_flatten sized.all []
    rw [List.append_nil] at all
    rw [Route.decode, Nat.mul_one, Nat.div_eq_of_lt count, Nat.mod_eq_of_lt count]
    exact congrArg (Route.mk 1) all

/-- A path is sent as what was learned exactly when that came with a PATH return or has hashes of
one byte. -/
theorem Learned.Holds.decode_iff {learned : Learned} {path : Bytes} (holds : learned.Holds path)
    (some : path ≠ []) :
    Route.decode path path.length = learned.route ↔
      learned.source = .pathReturn ∨ learned.route.size = 1 := by
  unfold Holds at holds
  cases source : learned.source with
  | pathReturn =>
      rw [source] at holds
      obtain ⟨memory, pathLen, rfl, route⟩ := holds
      rw [List.length_map, List.length_range, route, decode_received memory pathLen.toNat_lt]
      simp
  | advert | message =>
      rw [source] at holds
      obtain ⟨sized, rfl⟩ := holds
      have hashes : learned.route.hashes ≠ [] := by
        intro none
        exact some (by rw [none]; rfl)
      rw [decode_flatten_iff sized hashes]
      simp

/-! ### Runs -/

namespace Node

/-- The ledger knows every path that a message can be sent on. -/
structure Recorded (node : Node) (ledger : Ledger) : Prop where
  routes : ∀ dest e, rtFind node.table.routes dest = some e → e.pathBytes > 0 →
    Known (ledger.routes dest) e.path
  contacts : ∀ i c, node.contacts[i]? = some c → c.hasPath = true → c.path ≠ [] →
    Known (ledger.contacts i) c.path

variable {node : Node} {ledger : Ledger}

theorem recorded_init (selfId : PubKey) : (init selfId).Recorded .empty where
  routes := fun _ _ found => by cases found
  contacts := fun _ _ at_i => by cases at_i

/-- A path that is stored for a contact. -/
theorem recorded_setContact (recorded : node.Recorded ledger) {idx : ℕ} {c : Contact}
    {learned : Learned} (holds : learned.Holds c.path) :
    { node with contacts := node.contacts.set idx c }.Recorded (ledger.setContact idx learned) where
  routes := recorded.routes
  contacts := by
    intro i c' at_i hasPath some
    rw [Ledger.setContact]
    rw [List.getElem?_set] at at_i
    simp only
    by_cases here : i = idx
    · subst here
      rw [if_pos rfl] at at_i
      split_ifs at at_i
      cases at_i
      exact ⟨learned, if_pos rfl, holds⟩
    · rw [if_neg fun same => here same.symm] at at_i
      rw [if_neg here]
      exact recorded.contacts i c' at_i hasPath some

/-- Ageing leaves the paths alone. -/
theorem known_aged (recorded : node.Recorded ledger) {dest : Bytes} {e : RouteEntry}
    (found : (rtFind node.table.routes dest).bind aged = some e) (useful : e.pathBytes > 0) :
    Known (ledger.routes dest) e.path := by
  obtain ⟨e₀, found₀, kept⟩ := Option.bind_eq_some_iff.mp found
  unfold aged at kept
  split_ifs at kept
  cases kept
  exact recorded.routes dest e₀ found₀ useful

theorem holds_stored {packet : Packet} (useful : packet.stored.length > 0) :
    (⟨.advert, packet.route⟩ : Learned).Holds packet.stored := by
  refine ⟨packet.sized_route, ?_⟩
  unfold Packet.stored at useful ⊢
  split_ifs at useful ⊢
  · cases useful
  · rfl

/-- What is learned with an advert is the path that it leaves in the slot of its key. -/
theorem known_offered {dest : Bytes} {packet : Packet} {older : Option RouteEntry}
    (before : ∀ e ∈ older, e.pathBytes > 0 → Known (ledger.routes dest) e.path)
    (useful : (packet.offered dest older).pathBytes > 0) :
    Known
      ((if older.all fun e => packet.metric ≤ e.metric then
          ledger.setRoute dest ⟨.advert, packet.route⟩
        else ledger).routes dest)
      (packet.offered dest older).path := by
  cases older with
  | none => exact ⟨_, if_pos rfl, holds_stored useful⟩
  | some e =>
      rw [Packet.offered] at useful ⊢
      rw [Option.all_some]
      by_cases better : packet.metric ≤ e.metric
      · rw [if_pos better] at useful
        rw [if_pos better, if_pos (decide_eq_true better)]
        exact ⟨_, if_pos rfl, holds_stored useful⟩
      · rw [if_neg better] at useful
        rw [if_neg better, if_neg (by simpa using better)]
        exact before e rfl useful

/-- Contacts that keep their paths, and others without one. -/
theorem known_contacts (recorded : node.Recorded ledger) {contacts : List Contact}
    (known : ∀ (i : ℕ) (c' : Contact), contacts[i]? = some c' →
      (∃ c : Contact, node.contacts[i]? = some c ∧ c'.hasPath = c.hasPath ∧ c'.path = c.path) ∨
        (c'.hasPath = false ∧ c'.path = []))
    {i : ℕ} {c : Contact} (at_i : contacts[i]? = some c) (hasPath : c.hasPath = true)
    (some : c.path ≠ []) : Known (ledger.contacts i) c.path := by
  obtain ⟨c₀, at_i₀, sameFlag, samePath⟩ | ⟨noPath, -⟩ := known i c at_i
  · rw [sameFlag] at hasPath
    rw [samePath] at some ⊢
    exact recorded.contacts i c₀ at_i₀ hasPath some
  · rw [noPath] at hasPath
    cases hasPath

/-- What an advert of another node does to the paths of the routing table. -/
theorem recorded_hear (good : node.Good) (recorded : node.Recorded ledger) {id : PubKey}
    {packet : Packet} {table : Table} {upsert : Upsert} {contacts : List Contact}
    (heard : node.table.hear id packet = some (table, upsert))
    (known : ∀ (i : ℕ) (c' : Contact), contacts[i]? = some c' →
      (∃ c : Contact, node.contacts[i]? = some c ∧ c'.hasPath = c.hasPath ∧ c'.path = c.path) ∨
        (c'.hasPath = false ∧ c'.path = [])) :
    { node with contacts := contacts, table := table }.Recorded
      (if node.takes id packet then ledger.setRoute id.dest ⟨.advert, packet.route⟩
      else ledger) := by
  obtain ⟨ticked, tick, seen, -, slots⟩ := Table.tick_eq good.table
  obtain ⟨-, table', upsert', -, heard', -, -, -, -, slots'⟩ :=
    Table.hear_eq good.table id packet
  obtain ⟨rfl, -⟩ := Prod.mk.inj (Option.some.inj (heard.symm.trans heard'))
  simp only [← seen, ← slots] at slots'
  have takes : node.takes id packet =
      (rtFind ticked.routes id.dest).all fun e => packet.metric ≤ e.metric := by
    rw [Node.takes, tick, Option.all_some]
  have before (dest : Bytes) (e : RouteEntry) (found : rtFind ticked.routes dest = some e)
      (useful : e.pathBytes > 0) : Known (ledger.routes dest) e.path := by
    rw [slots] at found
    split_ifs at found
    · exact known_aged recorded found useful
    · exact recorded.routes dest e found useful
  refine ⟨fun dest e found useful => ?_, fun i c at_i hasPath some => ?_⟩
  · rw [slots'] at found
    by_cases here : dest = id.dest
    · subst here
      rw [if_pos rfl, Option.some.injEq] at found
      subst found
      rw [takes]
      exact known_offered (before id.dest) useful
    · rw [if_neg here] at found
      obtain ⟨learned, isKnown, holds⟩ := before dest e found useful
      refine ⟨learned, ?_, holds⟩
      split_ifs
      · exact (if_neg here).trans isKnown
      · exact isKnown
  · obtain ⟨learned, isKnown, holds⟩ := known_contacts recorded known at_i hasPath some
    refine ⟨learned, ?_, holds⟩
    split_ifs <;> exact isKnown

/-- A use of a route changes no path. -/
theorem recorded_used (recorded : node.Recorded ledger) (dest : Bytes) :
    { node with table := used node.table dest }.Recorded ledger where
  routes := by
    intro dest' e found useful
    simp only [used, rtFind] at found
    rw [find?_modifyFirst dest_use] at found
    split_ifs at found with here
    · obtain ⟨e₀, found₀, rfl⟩ := Option.map_eq_some_iff.mp found
      rw [use_eq] at useful ⊢
      exact recorded.routes dest' e₀ found₀ useful
    · exact recorded.routes dest' e found useful
  contacts := recorded.contacts

/-- Every call is recorded. -/
theorem track_recorded (good : node.Good) (recorded : node.Recorded ledger) (call : Call) :
    ∃ node' effects, track (node, ledger) call =
      some ((node', node.learn ledger call), effects) ∧
      node'.Good ∧ node'.Recorded (node.learn ledger call) := by
  obtain ⟨node', effects, stepped, good'⟩ := step_good good call
  refine ⟨node', effects, by rw [track, stepped]; rfl, good', ?_⟩
  cases call with
  | searchPeersByHash isHashMatch =>
      cases stepped
      exact ⟨recorded.routes, recorded.contacts⟩
  | onPeerDataRecv packet type senderIdx data created =>
      simp only [step] at stepped
      rcases peerIndex_eq good senderIdx with none | ⟨idx, c, peer, -⟩
      · simp only [onPeerDataRecv, none, Option.bind_eq_bind, Option.bind_some] at stepped
        cases stepped
        rwa [learn, none]
      · rw [onPeerDataRecv_eq peer] at stepped
        simp only [learn, peer]
        split_ifs at stepped ⊢
        · cases stepped
          exact recorded_setContact recorded ⟨packet.sized_route, rfl⟩
        · cases stepped
          exact recorded
  | onPeerPathRecv senderIdx path pathLen =>
      simp only [step] at stepped
      rcases peerIndex_eq good senderIdx with none | ⟨idx, c, peer, -⟩
      · simp only [onPeerPathRecv, none, Option.bind_eq_bind, Option.bind_some] at stepped
        cases stepped
        rwa [learn, none]
      · rw [onPeerPathRecv_eq peer] at stepped
        cases stepped
        simp only [learn, peer]
        exact recorded_setContact recorded ⟨path, pathLen, rfl, rfl⟩
  | onAdvertRecv packet id appData =>
      simp only [step] at stepped
      by_cases own : id = node.selfId
      · rw [onAdvertRecv, if_pos own] at stepped
        cases stepped
        rwa [learn, if_neg (by simp [own])]
      · obtain ⟨contacts, table, upsert, effects', heard, called, -, known⟩ :=
          onAdvertRecv_eq good packet appData own
        rw [called] at stepped
        cases stepped
        have taken := recorded_hear good recorded heard known
        simpa only [learn, ne_eq, own, not_false_eq_true, true_and] using taken
  | sendTextTo destPubHex text timestamp created =>
      cases stepped
      rcases sendTextTo_eq node destPubHex text timestamp created with same | ⟨dest, counted⟩
      · rwa [same]
      · rw [counted]
        exact recorded_used recorded dest

theorem exec_recorded (good : node.Good) (recorded : node.Recorded ledger) (calls : List Call) :
    ∃ node' ledger' effects, exec track (node, ledger) calls = some ((node', ledger'), effects) ∧
      node'.Good ∧ node'.Recorded ledger' := by
  induction calls generalizing node ledger with
  | nil => exact ⟨node, ledger, [], rfl, good, recorded⟩
  | cons call calls ih =>
      obtain ⟨middle, effects, tracked, good', recorded'⟩ := track_recorded good recorded call
      obtain ⟨last, ledger', more, rest, ends⟩ := ih good' recorded'
      refine ⟨last, ledger', effects ++ more, ?_, ends⟩
      rw [exec, tracked]
      simp only [rest, Option.map_some]

/-- Without a route in the table a message is sent directly on the path of the contact. -/
theorem fallback_eq {target : Contact} {pkt packet : Outgoing} {path : Bytes} {pathLen : ℕ}
    (sent : .sendDirect packet path pathLen ∈ sendTextTo.fallback target pkt) :
    target.hasPath = true ∧ target.path ≠ [] ∧ path = target.path ∧
      pathLen = target.path.length % 256 := by
  unfold sendTextTo.fallback at sent
  split_ifs at sent with direct
  · cases List.mem_singleton.mp sent
    exact ⟨direct.1, direct.2, rfl, rfl⟩
  · cases List.mem_singleton.mp sent

/-- A message that is sent directly goes on a stored path, with its number of bytes as length. -/
theorem sendDirect_eq (good : node.Good) (recorded : node.Recorded ledger)
    {destPubHex text timestamp path : Bytes} {created : Bool} {packet : Outgoing} {pathLen : ℕ}
    (sent : .sendDirect packet path pathLen ∈
      (node.sendTextTo destPubHex text timestamp created).2.1) :
    ∃ learned, node.directSource ledger destPubHex = some learned ∧ learned.Holds path ∧
      path ≠ [] ∧ pathLen = path.length := by
  unfold directSource
  cases isTarget : node.contacts.find? fun c =>
      destPubHex.isPrefixOf (writeHex hexUc c.id.bytes) with
  | none => simp [sendTextTo, isTarget] at sent
  | some target =>
      have place := isTarget
      rw [List.find?_eq_bind_findIdx?_getElem?] at place
      obtain ⟨idx, first, known⟩ := Option.bind_eq_some_iff.mp place
      rw [first, Option.bind_some, known, Option.bind_some]
      cases created with
      | false => simp [sendTextTo, isTarget] at sent
      | true =>
          rw [sendTextTo_of_target isTarget] at sent
          cases route : node.tableRoute target with
          | some e =>
              simp only [route, List.mem_cons, List.not_mem_nil, or_false, reduceCtorEq,
                Effect.sendDirect.injEq] at sent
              obtain ⟨-, rfl, rfl⟩ := sent
              obtain ⟨found, useful⟩ := Option.filter_eq_some_iff.mp route
              have positive := (of_decide_eq_true useful).2
              obtain ⟨learned, isKnown, holds⟩ := recorded.routes _ e found positive
              have length := (good.table.good e (List.mem_of_find?_eq_some found)).path
              refine ⟨learned, isKnown, holds, ?_, length.symm⟩
              exact List.ne_nil_of_length_pos (length.symm ▸ positive)
          | none =>
              simp only [route] at sent
              obtain ⟨hasPath, nonempty, rfl, rfl⟩ := fallback_eq sent
              obtain ⟨learned, isKnown, holds⟩ :=
                recorded.contacts idx target known hasPath nonempty
              have small := good.paths target (List.mem_of_getElem? known)
              exact ⟨learned, isKnown, holds, nonempty, Nat.mod_eq_of_lt small⟩

end Node

/-- After every sequence of calls: a message that is sent directly goes on the route that was
learned exactly when that came with a PATH return or has hashes of one byte. -/
theorem directRoutes_iff (selfId : PubKey) (calls : List Node.Call) :
    ∃ node ledger effects,
      exec Node.track (Node.init selfId, Ledger.empty) calls = some ((node, ledger), effects) ∧
      ∀ destPubHex text timestamp created packet path pathLen,
        .sendDirect packet path pathLen ∈
          (node.sendTextTo destPubHex text timestamp created).2.1 →
        ∃ learned, node.directSource ledger destPubHex = some learned ∧
          (Route.decode path pathLen = learned.route ↔
            learned.source = .pathReturn ∨ learned.route.size = 1) := by
  obtain ⟨node, ledger, effects, run, good, recorded⟩ :=
    Node.exec_recorded (Node.good_init selfId) (Node.recorded_init selfId) calls
  refine ⟨node, ledger, effects, run, fun _ _ _ _ _ path _ sent => ?_⟩
  obtain ⟨learned, source, holds, some, rfl⟩ := Node.sendDirect_eq good recorded sent
  exact ⟨learned, source, holds.decode_iff some⟩

/-- A route over a relay with a one-byte hash. -/
theorem directRoutes_iff_oneByte :
    ∃ node ledger effects learned packet,
      exec Node.track (Node.init (keyOf 0), Ledger.empty)
        [.onAdvertRecv oneHopAdvert (keyOf 1) []] = some ((node, ledger), effects) ∧
      .sendDirect packet [0xA1] 1 ∈ (node.sendTextTo [0x30, 0x31] [] [] true).2.1 ∧
      node.directSource ledger [0x30, 0x31] = some learned ∧
      Route.decode [0xA1] 1 = learned.route := by
  obtain ⟨node, ledger, effects, run, routes⟩ :=
    directRoutes_iff (keyOf 0) [.onAdvertRecv oneHopAdvert (keyOf 1) []]
  cases run
  have sent := routes [0x30, 0x31] [] [] true (.datagram (keyOf 1) []) [0xA1] 1 List.mem_cons_self
  obtain ⟨learned, source, same⟩ := sent
  have oneByte : learned.route.size = 1 := by
    cases source
    rfl
  exact ⟨_, _, _, learned, _, rfl, List.mem_cons_self, source, same.mpr (Or.inr oneByte)⟩

/-- An advert that one relay with a two-byte hash has forwarded. -/
def twoByteHop : Packet :=
  ⟨⟨routeTypeFlood, 4, 0, 1, 2, [0xA1, 0xB2], []⟩, by constructor <;> decide⟩

/-- A route over one relay is sent as a route over two. -/
theorem wrongRoute_twoBytes :
    ∃ node ledger effects packet,
      exec Node.track (Node.init (keyOf 0), Ledger.empty) [.onAdvertRecv twoByteHop (keyOf 1) []] =
        some ((node, ledger), effects) ∧
      .sendDirect packet [0xA1, 0xB2] 2 ∈ (node.sendTextTo [0x30, 0x31] [] [] true).2.1 ∧
      node.directSource ledger [0x30, 0x31] = some ⟨.advert, ⟨2, [[0xA1, 0xB2]]⟩⟩ ∧
      Route.decode [0xA1, 0xB2] 2 = ⟨1, [[0xA1], [0xB2]]⟩ :=
  ⟨_, _, _, _, rfl, List.mem_cons_self, rfl, rfl⟩

end MeshcoreSim.Nexthop
