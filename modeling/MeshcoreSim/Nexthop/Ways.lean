import MeshcoreSim.Nexthop.Mesh

/-!
The paths that the nodes of a mesh know.

* `Mesh.Sound` — what holds between two steps: a path is a way through the mesh.
* `Mesh.routes_lead` — in every run, every route in a table and every path of a contact leads to its
  node, and the metric of a route is the number of hops.
* `Mesh.direct_text_arrives` — in every run, a text that is sent directly can still arrive.
-/

namespace MeshcoreSim.Nexthop.Mesh

open Lib

variable {ι : Type} {mesh : Mesh ι} {i j d : ι} {via : List ι} {node : Node} {sent : Sent ι}

/-! ### Ways -/

/-- A way through the mesh over relays. -/
def Way (mesh : Mesh ι) (i j : ι) (via : List ι) : Prop :=
  Lib.Way (fun i j => mesh.hears i j = true) (fun r => mesh.isRelay r = true) i j via

/-- The hashes of relays, one behind the other. -/
def pathOf (mesh : Mesh ι) (via : List ι) : Bytes := (via.map mesh.hash).flatten

/-- A packet has these relays in its path. -/
structure Carries (mesh : Mesh ι) (info : PacketInfo) (via : List ι) : Prop where
  size : info.pathSize = 1
  count : info.pathCount = via.length
  path : info.pathBytes = mesh.pathOf via

/-- A path leads from a node to that with a key. -/
def PathLeads (mesh : Mesh ι) (i : ι) (id : PubKey) (path : Bytes) : Prop :=
  ∃ d via, mesh.key d = id ∧ mesh.Way i d via ∧ via.length < 64 ∧ path = mesh.pathOf via

/-- A route leads from a node to one with its key, in as many hops as its metric. -/
def RouteLeads (mesh : Mesh ι) (i : ι) (e : RouteEntry) : Prop :=
  ∃ d via, (mesh.key d).dest = e.dest ∧ mesh.Way i d via ∧ via.length < 64 ∧
    e.metric = via.length + 1 ∧ (0 < e.pathBytes → e.path = mesh.pathOf via)

theorem Way.back (way : mesh.Way i j via) : mesh.Way j i via.reverse :=
  way.reverse fun i j heard => by rwa [mesh.symm]

theorem length_hash_mem : ∀ h ∈ via.map mesh.hash, h.length = 1 := by
  rintro _ mem
  obtain ⟨i, -, rfl⟩ := List.mem_map.mp mem
  exact mesh.length_hash i

@[simp] theorem length_pathOf : (mesh.pathOf via).length = via.length := by
  rw [pathOf, length_flatten_of_forall length_hash_mem, List.length_map, Nat.mul_one]

theorem pathOf_concat (r : ι) : mesh.pathOf (via ++ [r]) = mesh.pathOf via ++ mesh.hash r := by
  simp [pathOf]

theorem Carries.relays {packet : Packet} (carries : mesh.Carries packet.info via) :
    packet.relays = via.map mesh.hash := by
  have short : ∀ h ∈ via.map mesh.hash, h.length = 1 := length_hash_mem
  have whole := chunks_flatten short []
  rw [List.append_nil, List.length_map] at whole
  rw [Packet.relays, carries.size, carries.count, carries.path]
  exact whole

/-- The path that a node stores for the sender of a packet. -/
theorem Carries.reversed {packet : Packet} (carries : mesh.Carries packet.info via) :
    packet.relays.reverse.flatten = mesh.pathOf via.reverse := by
  rw [carries.relays, pathOf, List.map_reverse]

/-! ### What holds between two steps -/

/-- What a packet on the air says is right. -/
def ContentSound (mesh : Mesh ι) (sent : Sent ι) : Prop :=
  match sent.content with
  | .advert id _ => id = mesh.key sent.origin ∧ floods sent.packet.info = true
  | .text .. => True
  | .pathReturn dest path pathLen =>
      ∃ d via, mesh.key d = dest ∧ mesh.Way d sent.origin via ∧ path = mesh.pathOf via ∧
        pathLen = via.length ∧ pathLen < 64

/-- The trail of a packet is a way to each node that hears it, and a flooded packet has it as its
path. -/
structure SentSound (mesh : Mesh ι) (sent : Sent ι) : Prop where
  way : ∀ j, mesh.hears sent.sender j = true → mesh.Way sent.origin j sent.trail
  flood : floods sent.packet.info = true → mesh.Carries sent.packet.info sent.trail
  content : mesh.ContentSound sent

/-- The paths of a node lead where they should. -/
structure NodeSound (mesh : Mesh ι) (i : ι) (node : Node) : Prop where
  good : node.Good
  self : node.selfId = mesh.key i
  routes : ∀ dest e, rtFind node.table.routes dest = some e → mesh.RouteLeads i e
  contacts : ∀ c ∈ node.contacts, c.hasPath = true → mesh.PathLeads i c.id c.path

structure Sound (mesh : Mesh ι) (w : MeshState ι) : Prop where
  nodes : ∀ i, mesh.NodeSound i (w.nodes i)
  air : ∀ sent ∈ w.air, mesh.SentSound sent

/-! ### Packets -/

theorem info_of? {info : PacketInfo} {packet : Packet}
    (made : Packet.of? info = some packet) : packet.info = info := by
  unfold Packet.of? at made
  split_ifs at made
  cases made
  rfl

/-- A packet that is flooded has no path yet. -/
theorem sendFlood_sound {version : ℕ} {payload : Bytes} {content : Content}
    (flooded : sendFlood i version payload content = some sent)
    (right : mesh.ContentSound sent) :
    mesh.SentSound sent := by
  obtain ⟨packet, made, rfl⟩ := Option.map_eq_some_iff.mp flooded
  refine ⟨fun j heard => .direct heard, fun _ => ?_, right⟩
  rw [info_of? made]
  exact ⟨rfl, rfl, rfl⟩

theorem sendDirect_sound {version pathLen : ℕ} {payload path : Bytes} {content : Content}
    (direct : sendDirect i version payload content path pathLen = some sent)
    (right : mesh.ContentSound sent) : mesh.SentSound sent := by
  obtain ⟨packet, made, rfl⟩ := Option.map_eq_some_iff.mp direct
  refine ⟨fun j heard => .direct heard, fun flood => ?_, right⟩
  rw [info_of? made] at flood
  cases flood

/-- A relay adds itself to the trail, and to the path of a flooded packet. -/
theorem relay_sound (sound : mesh.SentSound sent) (heard : mesh.hears sent.sender i = true)
    (relays : mesh.isRelay i = true) {info : PacketInfo} {packet : Packet}
    (forwarded : forward sent.packet.info (mesh.hash i) = some info)
    (made : Packet.of? info = some packet) :
    mesh.SentSound { sent with sender := i, trail := sent.trail ++ [i], packet := packet } := by
  have same := info_of? made
  have flood := floods_forward forwarded
  refine ⟨fun j next => (sound.way i heard).snoc relays next, fun flooded => ?_, ?_⟩
  · rw [same] at flooded ⊢
    have carries := sound.flood (flood.symm.trans flooded)
    unfold forward at forwarded
    rw [if_pos (flood.symm.trans flooded)] at forwarded
    split_ifs at forwarded
    cases forwarded
    refine ⟨carries.size, ?_, ?_⟩
    · simp [carries.count]
    · rw [pathOf_concat, carries.path]
  · have content := sound.content
    unfold ContentSound at content ⊢
    cases kind : sent.content with
    | advert id appData =>
        rw [kind] at content
        exact ⟨content.1, by rw [same, flood, content.2]⟩
    | text dest data => trivial
    | pathReturn dest path pathLen =>
        rw [kind] at content
        exact content

/-! ### Calls -/

theorem PathLeads.set (known : ∀ c ∈ node.contacts, c.hasPath = true → mesh.PathLeads i c.id c.path)
    {idx : ℕ} {c : Contact} (leads : mesh.PathLeads i c.id c.path) :
    ∀ c' ∈ node.contacts.set idx c, c'.hasPath = true → mesh.PathLeads i c'.id c'.path := by
  intro c' mem hasPath
  rcases List.mem_or_eq_of_mem_set mem with old | rfl
  · exact known c' old hasPath
  · exact leads

/-- The contact that is opened is the origin of the packet. -/
theorem id_of_opens {senderIdx : ℤ} {origin : PubKey} {idx : ℕ} {c : Contact}
    (opened : opens node senderIdx origin = true)
    (peer : node.peerIndex senderIdx = some (some (idx, c))) : c.id = origin := by
  unfold opens at opened
  rw [peer] at opened
  exact of_decide_eq_true opened

/-- A route stays right with another age or count. -/
theorem RouteLeads.of_aged {e e' : RouteEntry} (leads : mesh.RouteLeads i e)
    (kept : aged e = some e') : mesh.RouteLeads i e' := by
  unfold aged at kept
  split_ifs at kept
  cases kept
  exact leads

theorem RouteLeads.use {e : RouteEntry} (leads : mesh.RouteLeads i e) :
    mesh.RouteLeads i e.use := by
  rw [Node.use_eq]
  exact leads

/-- The route that an advert offers. -/
theorem routeLeads_offered {packet : Packet} (carries : mesh.Carries packet.info via)
    (way : mesh.Way i d via.reverse) {older : Option RouteEntry}
    (before : ∀ e ∈ older, mesh.RouteLeads i e ∧ e.dest = (mesh.key d).dest) :
    mesh.RouteLeads i (packet.offered (mesh.key d).dest older) := by
  have entry (e : RouteEntry) (dest : e.dest = (mesh.key d).dest)
      (path : e.path = packet.stored) (bytes : e.pathBytes = packet.stored.length)
      (metric : e.metric = packet.metric) : mesh.RouteLeads i e := by
    refine ⟨d, via.reverse, dest.symm, way, ?_, ?_, fun some => ?_⟩
    · rw [List.length_reverse, ← carries.count]
      exact packet.inRange.pathCount
    · rw [metric, Packet.metric, carries.count, List.length_reverse]
    · rw [bytes] at some
      rw [path]
      unfold Packet.stored at some ⊢
      split_ifs at some ⊢
      · cases some
      · exact carries.reversed
  cases older with
  | none => exact entry _ rfl rfl rfl rfl
  | some e =>
      obtain ⟨leads, dest⟩ := before e rfl
      rw [Packet.offered]
      split_ifs
      · exact entry _ dest rfl rfl rfl
      · exact leads

theorem dest_of_rtFind {routes : List RouteEntry} {dest : Bytes} {e : RouteEntry}
    (found : rtFind routes dest = some e) : e.dest = dest := by
  simpa using List.find?_some found

theorem mem_addContact {contacts : List Contact} {id : PubKey} {c : Contact}
    (mem : c ∈ (Node.addContact contacts id).1) : c ∈ contacts ∨ c.hasPath = false := by
  unfold Node.addContact at mem
  split at mem
  · exact Or.inl mem
  · rcases List.mem_append.mp mem with old | new
    · exact Or.inl old
    · rw [List.mem_singleton.mp new]
      exact Or.inr rfl

theorem id_rename (appData : Bytes) (c : Contact) : (Node.rename appData c).id = c.id := by
  unfold Node.rename
  split_ifs <;> rfl

theorem upsert_silent (upsert : Upsert) (dest : Bytes) (version : ℕ) (payload : Bytes) :
    (upsert.effects dest).filterMap (sentBy i version payload) = [] := by
  unfold Upsert.effects
  split
  · rfl
  · split_ifs <;> rfl
  · rfl

/-- A contact of an advert has the path that it had before, or none; nothing is sent. -/
theorem onAdvertRecv_contacts {packet : Packet} {id : PubKey} {appData : Bytes} {node' : Node}
    {effects : List Effect}
    (received : node.onAdvertRecv packet id appData = some (node', effects)) :
    (∀ c' ∈ node'.contacts, c'.hasPath = true →
        ∃ c ∈ node.contacts, c'.id = c.id ∧ c.hasPath = true ∧ c'.path = c.path) ∧
      ∀ version payload, effects.filterMap (sentBy (ι := ι) i version payload) = [] := by
  unfold Node.onAdvertRecv at received
  split_ifs at received with own
  · cases received
    exact ⟨fun c mem hasPath => ⟨c, mem, rfl, hasPath, rfl⟩, fun _ _ => rfl⟩
  · obtain ⟨contact, known, received⟩ := Option.bind_eq_some_iff.mp received
    obtain ⟨⟨table, upsert⟩, -, received⟩ := Option.bind_eq_some_iff.mp received
    cases received
    have old (c : Contact) (mem : c ∈ (Node.addContact node.contacts id).1)
        (hasPath : c.hasPath = true) : c ∈ node.contacts :=
      (mem_addContact mem).resolve_right fun none => by rw [none] at hasPath; cases hasPath
    obtain ⟨path, flag⟩ := Node.rename_eq appData contact
    refine ⟨fun c' mem hasPath => ?_, fun version payload => ?_⟩
    · rcases List.mem_or_eq_of_mem_set mem with mem | rfl
      · exact ⟨c', old c' mem hasPath, rfl, hasPath, rfl⟩
      · rw [flag] at hasPath
        exact ⟨contact, old contact (List.mem_of_getElem? known) hasPath, id_rename _ _, hasPath,
          path⟩
    · rw [List.cons_append, List.filterMap_cons, List.filterMap_append, upsert_silent]
      split_ifs <;> rfl

/-- An advert that came over the relays of its path. -/
theorem onAdvertRecv_sound (sound : mesh.NodeSound i node) {packet : Packet}
    (carries : mesh.Carries packet.info via) (way : mesh.Way d i via) {appData : Bytes}
    {node' : Node} {effects : List Effect}
    (received : node.onAdvertRecv packet (mesh.key d) appData = some (node', effects)) :
    mesh.NodeSound i node' := by
  by_cases own : mesh.key d = node.selfId
  · rw [Node.onAdvertRecv, if_pos own] at received
    cases received
    exact sound
  · obtain ⟨contacts, table, upsert, effects', heard, called, good, known⟩ :=
      Node.onAdvertRecv_eq sound.good packet appData own
    obtain ⟨-, table', upsert', -, heard', -, -, -, -, slots⟩ :=
      Table.hear_eq sound.good.table (mesh.key d) packet
    obtain ⟨rfl, -⟩ := Prod.mk.inj (Option.some.inj (heard.symm.trans heard'))
    obtain ⟨rfl, -⟩ := Prod.mk.inj (Option.some.inj (received.symm.trans called))
    have slot {dest : Bytes} {e : RouteEntry}
        (found : (if (node.table.advertSeen + 1) % 2 ^ 32 % rtAgeEvery = 0 then
          (rtFind node.table.routes dest).bind aged else rtFind node.table.routes dest) = some e) :
        mesh.RouteLeads i e ∧ e.dest = dest := by
      split_ifs at found
      · obtain ⟨e₀, found₀, kept⟩ := Option.bind_eq_some_iff.mp found
        exact ⟨(sound.routes dest e₀ found₀).of_aged kept,
          (dest_of_aged kept).trans (dest_of_rtFind found₀)⟩
      · exact ⟨sound.routes dest e found, dest_of_rtFind found⟩
    refine ⟨good, sound.self, fun dest e found => ?_, fun c mem hasPath => ?_⟩
    · rw [slots] at found
      by_cases here : dest = (mesh.key d).dest
      · rw [here, if_pos rfl] at found
        cases found
        exact routeLeads_offered carries way.back fun e older => slot older
      · rw [if_neg here] at found
        exact (slot found).1
    · obtain ⟨c₀, mem₀, id, hasPath₀, path⟩ :=
        (onAdvertRecv_contacts (ι := ι) (i := i) received).1 c mem hasPath
      rw [id, path]
      exact sound.contacts c₀ mem₀ hasPath₀

/-- A text that came over the relays of its path, if it was flooded; the PATH return for it says
this path. -/
theorem onPeerDataRecv_sound (sound : mesh.NodeSound i node) {packet : Packet}
    (flood : floods packet.info = true → mesh.Carries packet.info via)
    (arrived : floods packet.info = true ∨ packet.info.pathCount = 0) (way : mesh.Way d i via)
    {senderIdx : ℤ} {data : Bytes} {created : Bool}
    (opened : opens node senderIdx (mesh.key d) = true) {node' : Node} {effects : List Effect}
    (received : node.onPeerDataRecv packet payloadTypeTxtMsg senderIdx data created =
      some (node', effects)) :
    mesh.NodeSound i node' ∧
      ∀ version payload, ∀ sent ∈ effects.filterMap (sentBy i version payload),
        mesh.SentSound sent := by
  rcases Node.peerIndex_eq sound.good senderIdx with none | ⟨idx, c, peer, -⟩
  · simp only [Node.onPeerDataRecv, none, Option.bind_eq_bind, Option.bind_some] at received
    cases received
    refine ⟨sound, fun version payload sent mem => ?_⟩
    cases mem
  · have same := id_of_opens opened peer
    have silent : ∀ version payload,
        sentBy i version payload (Node.received c payloadTypeTxtMsg data) = none := by
      intro version payload
      unfold Node.received
      split_ifs <;> rfl
    rw [Node.onPeerDataRecv_eq peer] at received
    split_ifs at received with exchanges
    · -- Only a flooded text has relays in its path when it arrives.
      have flooded : floods packet.info = true := by
        refine arrived.resolve_right fun none => ?_
        simp [Node.exchanges, none] at exchanges
      have carries := flood flooded
      cases received
      refine ⟨⟨Node.good_setContact sound.good (Node.length_exchanged packet), sound.self,
        sound.routes, PathLeads.set sound.contacts ?_⟩, fun version payload sent mem => ?_⟩
      · refine ⟨d, via.reverse, same.symm, way.back, ?_, carries.reversed⟩
        rw [List.length_reverse, ← carries.count]
        exact packet.inRange.pathCount
      · rw [List.cons_append, List.filterMap_cons, silent, List.filterMap_append] at mem
        have created' : ∃ content,
            sendFlood i version payload content = some sent ∧
              content = .pathReturn c.id packet.info.pathBytes packet.pathLen := by
          unfold Node.pathReturn at mem
          split_ifs at mem
          · simpa [sentBy, Outgoing.content, Option.toList] using mem
          · simp [sentBy] at mem
        obtain ⟨_, made, rfl⟩ := created'
        refine sendFlood_sound made ?_
        obtain ⟨fields, contentEq⟩ : sent.origin = i ∧
            sent.content = .pathReturn c.id packet.info.pathBytes packet.pathLen := by
          obtain ⟨_, -, rfl⟩ := Option.map_eq_some_iff.mp made
          exact ⟨rfl, rfl⟩
        have small := packet.inRange.pathCount
        have len : packet.pathLen = packet.info.pathCount := by
          rw [Packet.pathLen, carries.size, pathLenByte]
          simp
          omega
        unfold ContentSound
        rw [contentEq]
        exact ⟨d, via, same.symm, fields ▸ way, carries.path, len.trans carries.count, len ▸ small⟩
    · cases received
      refine ⟨sound, fun version payload sent mem => ?_⟩
      simp [silent] at mem

/-- The path of a PATH return. -/
theorem onPeerPathRecv_sound (sound : mesh.NodeSound i node) {dest : PubKey} {path : Bytes}
    {pathLen : ℕ} {j : ι}
    (content : ∃ d via, mesh.key d = dest ∧ mesh.Way d j via ∧ path = mesh.pathOf via ∧
      pathLen = via.length ∧ pathLen < 64)
    (mine : dest = node.selfId) {senderIdx : ℤ} {memory : ℕ → UInt8}
    (read : (List.range path.length).map memory = path)
    (opened : opens node senderIdx (mesh.key j) = true) {node' : Node} {effects : List Effect}
    (received : node.onPeerPathRecv senderIdx memory (UInt8.ofNat pathLen) =
      some (node', effects)) :
    mesh.NodeSound i node' ∧
      ∀ version payload, effects.filterMap (sentBy (ι := ι) i version payload) = [] := by
  rcases Node.peerIndex_eq sound.good senderIdx with none | ⟨idx, c, peer, -⟩
  · simp only [Node.onPeerPathRecv, none, Option.bind_eq_bind, Option.bind_some] at received
    cases received
    exact ⟨sound, fun _ _ => rfl⟩
  · obtain ⟨d, via, key, way, rfl, rfl, small⟩ := content
    obtain rfl : d = i := mesh.distinct (key.trans (mine.trans sound.self))
    have same := id_of_opens opened peer
    rw [Node.onPeerPathRecv_eq peer] at received
    cases received
    have len : (UInt8.ofNat via.length).toNat = via.length := by
      rw [UInt8.toNat_ofNat']
      exact Nat.mod_eq_of_lt (by omega)
    have bytes : (List.range (UInt8.ofNat via.length).toNat).map memory = mesh.pathOf via := by
      rw [len]
      rwa [length_pathOf] at read
    refine ⟨⟨Node.good_setContact sound.good ?_, sound.self, sound.routes,
      PathLeads.set sound.contacts ⟨j, via, same.symm, way, small, bytes⟩⟩, fun _ _ => rfl⟩
    rw [bytes, length_pathOf]
    omega

/-- A text is flooded or sent directly, and nothing else is sent. -/
theorem sendTextTo_effects {destPubHex text timestamp : Bytes} {created : Bool} {effect : Effect}
    (mem : effect ∈ (node.sendTextTo destPubHex text timestamp created).2.1) :
    (∃ line, effect = .log line) ∨ ∃ dest data, effect = .sendFlood (.datagram dest data) ∨
      ∃ path pathLen, effect = .sendDirect (.datagram dest data) path pathLen := by
  cases isTarget : node.contacts.find? fun c =>
      destPubHex.isPrefixOf (writeHex hexUc c.id.bytes) with
  | none => exact Or.inl ⟨_, by simpa [Node.sendTextTo, isTarget] using mem⟩
  | some target =>
      cases created with
      | false => exact Or.inl ⟨_, by simpa [Node.sendTextTo, isTarget] using mem⟩
      | true =>
          rw [Node.sendTextTo_of_target isTarget] at mem
          cases route : node.tableRoute target with
          | some r =>
              simp only [route, List.mem_cons, List.not_mem_nil, or_false] at mem
              rcases mem with rfl | rfl
              · exact Or.inr ⟨_, _, Or.inr ⟨_, _, rfl⟩⟩
              · exact Or.inl ⟨_, rfl⟩
          | none =>
              simp only [route, Node.sendTextTo.fallback] at mem
              split_ifs at mem
              · exact Or.inr ⟨_, _, Or.inr ⟨_, _, List.mem_singleton.mp mem⟩⟩
              · exact Or.inr ⟨_, _, Or.inl (List.mem_singleton.mp mem)⟩

/-- A text on the air says nothing of a path. -/
theorem text_sound {destPubHex text timestamp payload : Bytes} {created : Bool} {version : ℕ}
    (mem : sent ∈ (node.sendTextTo destPubHex text timestamp created).2.1.filterMap
      (sentBy i version payload)) : mesh.SentSound sent := by
  obtain ⟨effect, inEffects, sends⟩ := List.mem_filterMap.mp mem
  have right (dest : PubKey) (data : Bytes) (content : sent.content = .text dest data) :
      mesh.ContentSound sent := by
    unfold ContentSound
    rw [content]
    trivial
  rcases sendTextTo_effects inEffects with ⟨line, rfl⟩ | ⟨dest, data, rfl | ⟨path, len, rfl⟩⟩
  · cases sends
  · refine sendFlood_sound sends (right dest data ?_)
    obtain ⟨packet, -, rfl⟩ := Option.map_eq_some_iff.mp sends
    rfl
  · refine sendDirect_sound sends (right dest data ?_)
    obtain ⟨packet, -, rfl⟩ := Option.map_eq_some_iff.mp sends
    rfl

theorem sendTextTo_sound (sound : mesh.NodeSound i node) (destPubHex text timestamp : Bytes)
    (created : Bool) :
    mesh.NodeSound i (node.sendTextTo destPubHex text timestamp created).1 := by
  rcases Node.sendTextTo_eq node destPubHex text timestamp created with same | ⟨dest, counted⟩
  · rwa [same]
  · rw [counted]
    refine ⟨{ sound.good with table := Node.good_used sound.good.table dest }, sound.self,
      fun dest' e found => ?_, sound.contacts⟩
    simp only [Node.used, rtFind] at found
    rw [find?_modifyFirst Node.dest_use] at found
    split_ifs at found
    · obtain ⟨e₀, found₀, rfl⟩ := Option.map_eq_some_iff.mp found
      exact (sound.routes dest' e₀ found₀).use
    · exact sound.routes dest' e found

/-- A text that is sent directly has a way to a node that the routing table cannot tell from its
destination. -/
theorem sendDirect_leads (sound : mesh.NodeSound i node)
    {destPubHex text timestamp data path : Bytes} {created : Bool} {id : PubKey} {pathLen : ℕ}
    (direct : .sendDirect (.datagram id data) path pathLen ∈
      (node.sendTextTo destPubHex text timestamp created).2.1) :
    ∃ d via, (mesh.key d).dest = id.dest ∧ mesh.Way i d via ∧ via.length < 64 ∧
      path = mesh.pathOf via ∧ pathLen = via.length := by
  cases isTarget : node.contacts.find? fun c =>
      destPubHex.isPrefixOf (writeHex hexUc c.id.bytes) with
  | none => simp [Node.sendTextTo, isTarget] at direct
  | some target =>
      cases created with
      | false => simp [Node.sendTextTo, isTarget] at direct
      | true =>
          rw [Node.sendTextTo_of_target isTarget] at direct
          cases route : node.tableRoute target with
          | some r =>
              simp only [route, List.mem_cons, List.not_mem_nil, or_false, reduceCtorEq,
                Effect.sendDirect.injEq, Outgoing.datagram.injEq] at direct
              obtain ⟨⟨rfl, -⟩, rfl, rfl⟩ := direct
              obtain ⟨found, useful⟩ := Option.filter_eq_some_iff.mp route
              have positive := (of_decide_eq_true useful).2
              obtain ⟨d, via, key, way, small, -, path⟩ := sound.routes _ r found
              have length := (sound.good.table.good r (List.mem_of_find?_eq_some found)).path
              refine ⟨d, via, key.trans (dest_of_rtFind found), way, small, path positive, ?_⟩
              rw [← length, path positive, length_pathOf]
          | none =>
              simp only [route, Node.sendTextTo.fallback] at direct
              split_ifs at direct with known
              · simp only [List.mem_singleton, Effect.sendDirect.injEq,
                  Outgoing.datagram.injEq] at direct
                obtain ⟨⟨rfl, -⟩, rfl, rfl⟩ := direct
                obtain ⟨d, via, key, way, small, path⟩ :=
                  sound.contacts target (List.mem_of_find?_eq_some isTarget) known.1
                refine ⟨d, via, by rw [key], way, small, path, ?_⟩
                rw [path, length_pathOf]
                omega
              · simp at direct

/-- A relay takes its hash off the path of a direct packet. -/
theorem forward_direct {info : PacketInfo} (fits : info.InRange) (direct : floods info = false)
    {r : ι} (carries : mesh.Carries info (r :: via)) :
    ∃ next, forward info (mesh.hash r) = some next ∧ next.InRange ∧ floods next = false ∧
      mesh.Carries next via := by
  have first : info.pathBytes.take info.pathSize = mesh.hash r := by
    rw [carries.path, carries.size, ← mesh.length_hash r, pathOf, List.map_cons, List.flatten_cons,
      List.take_left]
  have rest : info.pathBytes.drop info.pathSize = mesh.pathOf via := by
    rw [carries.path, carries.size, ← mesh.length_hash r, pathOf, List.map_cons, List.flatten_cons,
      List.drop_left, pathOf]
  have count := carries.count
  rw [List.length_cons] at count
  refine ⟨{ info with
      pathCount := info.pathCount - 1
      pathBytes := info.pathBytes.drop info.pathSize }, ?_, ?_, direct, ?_⟩
  · rw [forward, if_neg (by rw [mesh.length_hash, carries.size]; simp), direct,
      if_neg Bool.false_ne_true, if_pos ⟨by omega, first⟩]
  · refine { fits with pathCount := ?_, pathBytes := ?_ }
    · have small := fits.pathCount
      change info.pathCount - 1 < 64
      omega
    · change (info.pathBytes.drop info.pathSize).length = (info.pathCount - 1) * info.pathSize
      rw [rest, length_pathOf, count, carries.size]
      omega
  · exact ⟨carries.size, by change info.pathCount - 1 = _; omega, rest⟩

theorem sendDirect_packet (i : ι) (payload data : Bytes) (id : PubKey) {version pathLen : ℕ}
    {path : Bytes}
    (small : version < 4) (short : via.length < 64) (isPath : path = mesh.pathOf via)
    (isLen : pathLen = via.length) :
    ∃ sent, sendDirect i version payload (.text id data) path pathLen = some sent ∧
      sent.origin = i ∧ sent.sender = i ∧ sent.content = .text id data ∧
      floods sent.packet.info = false ∧ mesh.Carries sent.packet.info via := by
  subst isPath isLen
  have count : via.length % 64 = via.length := Nat.mod_eq_of_lt short
  have size : via.length / 64 + 1 = 1 := by omega
  have whole : (mesh.pathOf via).take (via.length * 1) = mesh.pathOf via :=
    List.take_of_length_le (by simp)
  have fits : (⟨routeTypeDirect, payloadTypeTxtMsg, version, via.length, 1, mesh.pathOf via,
      payload⟩ : PacketInfo).InRange :=
    ⟨by simp [routeTypeDirect], by simp [payloadTypeTxtMsg], small, short, by simp, by simp⟩
  refine ⟨⟨i, i, [], ⟨_, fits⟩, .text id data⟩, ?_, rfl, rfl, rfl, rfl, rfl, rfl, rfl⟩
  simp only [sendDirect, count, size, whole, Content.payloadType, Packet.of?, dif_pos fits,
    Option.map_some]

/-! ### Steps -/

variable {w w' : MeshState ι}

theorem sound_init (mesh : Mesh ι) : mesh.Sound mesh.init where
  nodes := fun _ => ⟨Node.good_init _, rfl, nofun, nofun⟩
  air := nofun

/-- A node that does with a packet what it is for. -/
theorem handle_sound (nodeSound : mesh.NodeSound i node) (sentSound : mesh.SentSound sent)
    (heard : mesh.hears sent.sender i = true)
    (arrived : floods sent.packet.info = true ∨ sent.packet.info.pathCount = 0) {senderIdx : ℤ}
    {memory : ℕ → UInt8} {created : Bool} {result : Node × List Effect}
    (handled : mesh.handle node sent senderIdx memory created = some result) :
    mesh.NodeSound i result.1 ∧
      ∀ version payload, ∀ sent' ∈ result.2.filterMap (sentBy i version payload),
        mesh.SentSound sent' := by
  have content := sentSound.content
  unfold handle at handled
  unfold ContentSound at content
  cases kind : sent.content with
  | advert id appData =>
      rw [kind] at handled content
      obtain ⟨rfl, flood⟩ := content
      refine ⟨onAdvertRecv_sound nodeSound (sentSound.flood flood) (sentSound.way i heard) handled,
        fun version payload sent' mem => ?_⟩
      rw [(onAdvertRecv_contacts handled).2] at mem
      cases mem
  | text dest data =>
      simp only [kind] at handled
      split_ifs at handled with mine
      exact onPeerDataRecv_sound nodeSound sentSound.flood arrived (sentSound.way i heard) mine.2
        handled
  | pathReturn dest path pathLen =>
      rw [kind] at content
      simp only [kind] at handled
      split_ifs at handled with mine
      obtain ⟨kept, silent⟩ :=
        onPeerPathRecv_sound nodeSound content mine.1 mine.2.2 mine.2.1 handled
      refine ⟨kept, fun version payload sent' mem => ?_⟩
      rw [silent] at mem
      cases mem

variable [DecidableEq ι]

theorem Sound.done (sound : mesh.Sound w) {version : ℕ} {payload : Bytes}
    {result : Node × List Effect} (kept : mesh.NodeSound i result.1)
    (sends : ∀ sent ∈ result.2.filterMap (sentBy i version payload), mesh.SentSound sent) :
    mesh.Sound (done w i version payload result).1 where
  nodes j := by
    unfold Mesh.done
    by_cases here : j = i
    · subst here
      simpa using kept
    · simpa [here] using sound.nodes j
  air sent mem := by
    rcases List.mem_append.mp mem with old | new
    · exact sound.air sent old
    · exact sends sent new

theorem step_sound (sound : mesh.Sound w) {e : MeshEvent ι} {out : List (ι × Effect)}
    (stepped : mesh.step w e = some (w', out)) : mesh.Sound w' := by
  cases e with
  | broadcastAdvert i appData version payload =>
      obtain ⟨sent, flooded, eq⟩ := Option.map_eq_some_iff.mp stepped
      cases eq
      refine ⟨sound.nodes, fun sent' mem => ?_⟩
      rcases List.mem_append.mp mem with old | new
      · exact sound.air sent' old
      · rw [List.mem_singleton.mp new]
        refine sendFlood_sound flooded ?_
        obtain ⟨packet, made, rfl⟩ := Option.map_eq_some_iff.mp flooded
        exact ⟨rfl, by rw [info_of? made]; rfl⟩
  | sendTextTo i destPubHex text timestamp created version payload =>
      cases stepped
      exact sound.done (sendTextTo_sound (sound.nodes i) ..) fun sent mem => text_sound mem
  | searchPeersByHash i isHashMatch =>
      cases stepped
      have node := sound.nodes i
      exact sound.done ⟨Node.good_searchPeersByHash node.good _, node.self, node.routes,
        node.contacts⟩ nofun
  | relay k i =>
      obtain ⟨sent, known, stepped⟩ := Option.bind_eq_some_iff.mp stepped
      split_ifs at stepped with guard
      obtain ⟨info, forwarded, stepped⟩ := Option.bind_eq_some_iff.mp stepped
      obtain ⟨packet, made, stepped⟩ := Option.bind_eq_some_iff.mp stepped
      cases stepped
      refine ⟨sound.nodes, fun sent' mem => ?_⟩
      rcases List.mem_append.mp mem with old | new
      · exact sound.air sent' old
      · rw [List.mem_singleton.mp new]
        exact relay_sound (sound.air sent (List.mem_of_getElem? known)) guard.1 guard.2 forwarded
          made
  | receive k i senderIdx memory created version payload =>
      obtain ⟨sent, known, stepped⟩ := Option.bind_eq_some_iff.mp stepped
      split_ifs at stepped with guard
      obtain ⟨result, handled, stepped⟩ := Option.bind_eq_some_iff.mp stepped
      cases stepped
      obtain ⟨kept, sends⟩ := handle_sound (sound.nodes i)
        (sound.air sent (List.mem_of_getElem? known)) guard.1 guard.2 handled
      exact sound.done kept (sends version payload)

/-! ### Runs -/

variable {tr : List (ι × Effect)}

theorem sound (run : Run mesh.step anyStep mesh.init w tr) : mesh.Sound w :=
  run.invariant (I := fun w _ => mesh.Sound w) (sound_init mesh)
    fun _ _ _ _ _ _ sound _ stepped => step_sound sound stepped

theorem rtFind_of_mem {routes : List RouteEntry} (distinct : (routes.map RouteEntry.dest).Nodup)
    {e : RouteEntry} (mem : e ∈ routes) : rtFind routes e.dest = some e := by
  have some : (rtFind routes e.dest).isSome = true := by
    rw [rtFind, List.find?_isSome]
    exact ⟨e, mem, decide_eq_true rfl⟩
  obtain ⟨e', found⟩ := Option.isSome_iff_exists.mp some
  rw [found, List.inj_on_of_nodup_map distinct (List.mem_of_find?_eq_some found) mem
    (dest_of_rtFind found)]

/-- Three nodes in a row, the middle one a relay. -/
def row : Mesh (Fin 3) where
  key i := keyOf i
  hash i := [UInt8.ofNat (0xA0 + i)]
  isRelay i := i = 1
  hears i j := i.val + 1 = j.val ∨ j.val + 1 = i.val
  distinct := by
    intro i j same
    have first := congrArg (fun key : PubKey => key.bytes.head?) same
    simp only [keyOf, List.head?_cons, Option.some.injEq] at first
    have number := congrArg UInt8.toNat first
    simp only [UInt8.toNat_ofNat'] at number
    omega
  length_hash _ := rfl
  symm i j := by
    simp only [decide_eq_decide]
    omega

/-- The advert of the last node is heard by the first one. -/
def rowEvents : List (MeshEvent (Fin 3)) :=
  [.broadcastAdvert 2 [] 0 [], .relay 0 1, .receive 1 0 0 (fun _ => 0) true 0 []]

/-- The first node knows a route, and sends a text to the last one on it. -/
def RowLeft (r : MeshState (Fin 3) × List (Fin 3 × Effect)) : Prop :=
  (r.1.nodes 0).table.routes.any (fun e => e.path = [0xA1] ∧ e.metric = 2) ∧
    .sendDirect (.datagram (keyOf 2) [0x68]) [0xA1] 1 ∈
      ((r.1.nodes 0).sendTextTo [0x30, 0x32] [0x68] [] true).2.1

instance : DecidablePred RowLeft := fun _ => inferInstanceAs (Decidable (_ ∧ _))

theorem run_row : ∃ w tr, Run row.step anyStep row.init w tr ∧ RowLeft (w, tr) := by
  have replay : (exec (restrict row.step anyStep) row.init rowEvents).any
      (fun r => decide (RowLeft r)) = true := by decide +kernel
  obtain ⟨w, tr, run, left⟩ := Run.of_exec_any replay
  exact ⟨w, tr, run, of_decide_eq_true left⟩

/-- In every run, whatever is lost, heard twice or heard late: every route in the table of a node
leads to a node with its key in as many hops as its metric, and every path of a contact leads to the
contact. -/
theorem routes_lead (run : Run mesh.step anyStep mesh.init w tr) (i : ι) :
    (∀ e ∈ (w.nodes i).table.routes, mesh.RouteLeads i e) ∧
      ∀ c ∈ (w.nodes i).contacts, c.hasPath = true → mesh.PathLeads i c.id c.path := by
  have node := (sound run).nodes i
  exact ⟨fun e mem => node.routes e.dest e (rtFind_of_mem node.good.table.distinct mem),
    node.contacts⟩

theorem routes_lead_row : ∃ w tr, Run row.step anyStep row.init w tr ∧
    ∃ e ∈ (w.nodes 0).table.routes, e.path = [0xA1] ∧ row.RouteLeads 0 e := by
  obtain ⟨w, tr, run, some, -⟩ := run_row
  obtain ⟨e, mem, path⟩ := List.any_eq_true.mp some
  exact ⟨w, tr, run, e, mem, (of_decide_eq_true path).1, (routes_lead run 0).1 e mem⟩

/-! ### A text on its way -/

/-- The relays of its path take a direct packet to the end of its way. -/
theorem relays_forward (way : mesh.Way i d via) (w : MeshState ι) (onAir : sent ∈ w.air)
    (here : sent.sender = i) (direct : floods sent.packet.info = false)
    (carries : mesh.Carries sent.packet.info via) :
    ∃ w', Run mesh.step anyStep w w' [] ∧ w'.nodes = w.nodes ∧ ∃ sent' ∈ w'.air,
      sent'.origin = sent.origin ∧ sent'.content = sent.content ∧
      sent'.packet.info.pathCount = 0 ∧ mesh.hears sent'.sender d = true := by
  induction way generalizing w sent with
  | direct link =>
      subst here
      exact ⟨w, .start, rfl, sent, onAir, rfl, rfl, carries.count, link⟩
  | @through a b r via link forwarding rest ih =>
      subst here
      obtain ⟨next, forwarded, fits, direct', carries'⟩ :=
        forward_direct sent.packet.inRange direct carries
      obtain ⟨k, known⟩ := List.mem_iff_getElem?.mp onAir
      let relayed : Sent ι :=
        { sent with sender := r, trail := sent.trail ++ [r], packet := ⟨next, fits⟩ }
      have stepped : mesh.step w (.relay k r) =
          some ({ w with air := w.air ++ [relayed] }, []) := by
        simp only [step, known, Option.bind_eq_bind, Option.bind_some,
          if_pos (And.intro link forwarding), forwarded, Packet.of?, dif_pos fits]
        rfl
      have repeated : relayed ∈ w.air ++ [relayed] := by simp
      obtain ⟨w', run, nodes, sent', onAir', ends⟩ :=
        ih { w with air := w.air ++ [relayed] } repeated rfl direct' carries'
      exact ⟨w', (Run.start.next trivial stepped).trans run, nodes, sent', onAir', ends⟩

/-- In every run, whatever happens before: a text that a node sends directly can be taken by relays
to a node with the key of its destination, as far as a routing table tells keys apart. -/
theorem direct_text_arrives (run : Run mesh.step anyStep mesh.init w tr)
    {destPubHex text timestamp payload data path : Bytes} {created : Bool} {version pathLen : ℕ}
    {id : PubKey} {out : List (ι × Effect)} (small : version < 4)
    (stepped : mesh.step w (.sendTextTo i destPubHex text timestamp created version payload) =
      some (w', out))
    (direct : (i, .sendDirect (.datagram id data) path pathLen) ∈ out) :
    ∃ d w₂, (mesh.key d).dest = id.dest ∧ Run mesh.step anyStep w' w₂ [] ∧
      w₂.nodes = w'.nodes ∧ ∃ sent ∈ w₂.air, sent.origin = i ∧ sent.content = .text id data ∧
        sent.packet.info.pathCount = 0 ∧ mesh.hears sent.sender d = true := by
  cases stepped
  obtain ⟨effect, inEffects, same⟩ := List.mem_map.mp direct
  cases same
  obtain ⟨d, via, key, way, short, isPath, isLen⟩ :=
    sendDirect_leads ((sound run).nodes i) inEffects
  obtain ⟨sent, sends, origin, sender, content, direct', carries⟩ :=
    sendDirect_packet i payload data id small short isPath isLen
  have onAir : sent ∈ (done w i version payload
      (((w.nodes i).sendTextTo destPubHex text timestamp created).1,
        ((w.nodes i).sendTextTo destPubHex text timestamp created).2.1)).1.air :=
    List.mem_append_right _ (List.mem_filterMap.mpr ⟨_, inEffects, sends⟩)
  obtain ⟨w₂, forwarded, nodes, sent', onAir', origin', content', ends⟩ :=
    relays_forward way _ onAir sender direct' carries
  exact ⟨d, w₂, key, forwarded, nodes, sent', onAir', origin'.trans origin, content'.trans content,
    ends⟩

theorem direct_text_arrives_row : ∃ w w' out d w₂,
    row.step w (.sendTextTo 0 [0x30, 0x32] [0x68] [] true 0 []) = some (w', out) ∧
    Run row.step anyStep w' w₂ [] ∧ (row.key d).dest = (keyOf 2).dest ∧
    ∃ sent ∈ w₂.air, sent.content = .text (keyOf 2) [0x68] ∧
      sent.packet.info.pathCount = 0 ∧ row.hears sent.sender d = true := by
  obtain ⟨w, tr, run, -, direct⟩ := run_row
  have stepped : row.step w (.sendTextTo 0 [0x30, 0x32] [0x68] [] true 0 []) = some _ := rfl
  obtain ⟨d, w₂, key, forwarded, -, sent, onAir, -, content, done, heard⟩ :=
    direct_text_arrives run (by decide) stepped (List.mem_map.mpr ⟨_, direct, rfl⟩)
  exact ⟨w, _, _, d, w₂, rfl, forwarded, key, sent, onAir, content, done, heard⟩

end MeshcoreSim.Nexthop.Mesh
