import MeshcoreSim.Nexthop.Table

/-!
What each call does to a node, and what no run of calls can break.

* `table_invariant` — every call succeeds, so that no `uint8_t` wraps, and leaves a well-formed
  table.
* `defences_dead` — neither the admission limit nor the search for a victim is ever reached.
-/

namespace MeshcoreSim.Nexthop

open Lib

namespace Node

/-- What holds between two calls: the results of a peer search are contacts, and the length of a
path fits a byte. -/
structure Good (node : Node) : Prop where
  table : node.table.Good
  peers : ∀ i ∈ node.searchResults, i < node.contacts.length
  paths : ∀ c ∈ node.contacts, c.path.length < 256

variable {node : Node}

theorem good_init (selfId : PubKey) : (init selfId).Good :=
  ⟨Table.good_empty, nofun, nofun⟩

theorem good_searchPeersByHash (good : node.Good) (isHashMatch : PubKey → Bool) :
    (node.searchPeersByHash isHashMatch).Good where
  table := good.table
  peers := fun _ mem => List.mem_range.mp (List.mem_of_mem_filter mem)
  paths := good.paths

/-- Only the path and the name of a known contact change. -/
theorem good_setContact (good : node.Good) {idx : ℕ} {c : Contact} (path : c.path.length < 256) :
    { node with contacts := node.contacts.set idx c }.Good where
  table := good.table
  peers := fun i mem => (good.peers i mem).trans_eq (List.length_set ..).symm
  paths := fun c' mem =>
    (List.mem_or_eq_of_mem_set mem).elim (good.paths c') fun same => same ▸ path

theorem peerIndex_eq (good : node.Good) (senderIdx : ℤ) :
    node.peerIndex senderIdx = some none ∨
      ∃ idx c, node.peerIndex senderIdx = some (some (idx, c)) ∧ node.contacts[idx]? = some c := by
  unfold peerIndex
  split_ifs with outside
  · exact Or.inl rfl
  · have inside : senderIdx.toNat < node.searchResults.length := by omega
    have known := good.peers _ (List.getElem_mem inside)
    refine Or.inr ⟨node.searchResults[senderIdx.toNat], _, ?_, List.getElem?_eq_getElem known⟩
    rw [List.getElem?_eq_getElem inside]
    simp only [Option.bind_eq_bind, Option.bind_some, List.getElem?_eq_getElem known]
    rfl

/-! ### The path exchange -/

theorem length_resize (path : Bytes) (n : ℕ) : (resize path n).length = n := by
  rw [resize, List.length_append, List.length_take, List.length_replicate]
  omega

/-- The loop fills the path from the end with the relays from the first one on. -/
theorem exchangeLoop_eq (packet : Packet) {resized : Bytes}
    (length : resized.length = packet.info.pathCount * packet.info.pathSize) {i : ℕ}
    (inside : i ≤ packet.info.pathCount) :
    exchangeLoop packet.info.pathBytes packet.info.pathSize packet.info.pathCount resized i =
      some (resized.take ((packet.info.pathCount - i) * packet.info.pathSize) ++
        (packet.relays.take i).reverse.flatten) := by
  induction i with
  | zero =>
      rw [exchangeLoop, Nat.sub_zero, ← length, List.take_length]
      simp
  | succ i ih =>
      have left : packet.info.pathCount - i = packet.info.pathCount - 1 - i + 1 := by omega
      have total : (packet.info.pathCount - 1 - i + 1) * packet.info.pathSize ≤
          packet.info.pathCount * packet.info.pathSize := Nat.mul_le_mul_right _ (by omega)
      rw [Nat.succ_mul] at total
      have width : (chunk packet.info.pathSize packet.info.pathBytes i).length =
          packet.info.pathSize := length_chunk inside packet.length_pathBytes.ge
      have next : packet.relays.take (i + 1) =
          packet.relays.take i ++ [chunk packet.info.pathSize packet.info.pathBytes i] := by
        rw [List.take_add_one, List.getElem?_eq_getElem (by simpa using Nat.lt_of_succ_le inside)]
        simp [Packet.relays, chunks]
      rw [exchangeLoop, ih (by omega), left, Nat.succ_mul, List.take_add, List.append_assoc]
      simp only [Option.bind_eq_bind, Option.bind_some]
      change memcpy _ _ (chunk packet.info.pathSize packet.info.pathBytes i) = _
      rw [memcpy_middle]
      · have skip : packet.info.pathCount - (i + 1) = packet.info.pathCount - 1 - i := by omega
        rw [next, skip]
        simp
      · rw [List.length_take]
        omega
      · rw [width, List.length_take, List.length_drop]
        omega

/-- The relays of a message as the exchange stores them. -/
theorem exchangeLoop_full (packet : Packet) (path : Bytes) :
    exchangeLoop packet.info.pathBytes packet.info.pathSize packet.info.pathCount
      (resize path (packet.info.pathCount * packet.info.pathSize)) packet.info.pathCount =
        some packet.relays.reverse.flatten := by
  rw [exchangeLoop_eq packet (length_resize _ _) (Nat.le_refl _)]
  have whole : packet.relays.take packet.info.pathCount = packet.relays :=
    List.take_of_length_le (by simp)
  simp [whole]

/-- The PATH return to a contact. -/
def pathReturn (packet : Packet) (c : Contact) (created : Bool) : List Effect :=
  if created then [.sendFlood (.pathReturn c.id packet.info.pathBytes packet.pathLen)] else []

/-- A message of a known peer, and the path exchange where its guard holds. -/
theorem onPeerDataRecv_eq {senderIdx : ℤ} {idx : ℕ} {c : Contact}
    (peer : node.peerIndex senderIdx = some (some (idx, c))) (packet : Packet) (type : ℕ)
    (data : Bytes) (created : Bool) :
    node.onPeerDataRecv packet type senderIdx data created =
      if exchanges packet type c then
        some ({ node with
            contacts :=
              node.contacts.set idx
                { c with hasPath := true, path := packet.relays.reverse.flatten } },
          received c type data :: pathReturn packet c created ++
            [.log (.pathExchange packet.info.pathCount c.id)])
      else some (node, [received c type data]) := by
  unfold onPeerDataRecv
  simp only [peer, Option.bind_eq_bind, Option.bind_some, exchangeLoop_full]
  by_cases guard : exchanges packet type c = true
  · rw [if_pos guard, if_pos guard]
    cases created <;> rfl
  · rw [if_neg guard, if_neg guard]
    rfl

theorem onPeerPathRecv_eq {senderIdx : ℤ} {idx : ℕ} {c : Contact}
    (peer : node.peerIndex senderIdx = some (some (idx, c))) (path : ℕ → UInt8) (pathLen : UInt8) :
    node.onPeerPathRecv senderIdx path pathLen =
      some ({ node with
          contacts :=
            node.contacts.set idx
              { c with hasPath := true, path := (List.range pathLen.toNat).map path } },
        [.log (.pathLearned c.id pathLen)]) := by
  unfold onPeerPathRecv
  simp only [peer, Option.bind_eq_bind, Option.bind_some]
  rfl

theorem length_exchanged (packet : Packet) : packet.relays.reverse.flatten.length < 256 := by
  have count := packet.inRange.pathCount
  obtain ⟨-, size⟩ := packet.pathSize_mem
  have product : packet.info.pathCount * packet.info.pathSize ≤ 63 * 3 :=
    Nat.mul_le_mul (by omega) size
  rw [packet.length_reverse_flatten]
  omega

/-! ### Adverts and messages -/

/-- A contact that is added has no path, and is behind the others. -/
theorem addContact_eq (contacts : List Contact) (id : PubKey) :
    ∃ c : Contact, (addContact contacts id).1[(addContact contacts id).2]? = some c ∧
      contacts.length ≤ (addContact contacts id).1.length ∧
      ∀ (i : ℕ) (c' : Contact), (addContact contacts id).1[i]? = some c' →
        contacts[i]? = some c' ∨ (c'.hasPath = false ∧ c'.path = []) := by
  unfold addContact
  cases found : contacts.findIdx? fun c => c.id = id with
  | some idx =>
      obtain ⟨inside, -⟩ := List.findIdx?_eq_some_iff_getElem.mp found
      exact ⟨_, List.getElem?_eq_getElem inside, Nat.le_refl _, fun _ _ => Or.inl⟩
  | none =>
      refine ⟨⟨id, false, [], []⟩, by simp, by simp, fun i c at_i => ?_⟩
      rw [List.getElem?_append] at at_i
      split_ifs at at_i
      · exact Or.inl at_i
      · rw [List.mem_singleton.mp (List.mem_of_getElem? at_i)]
        exact Or.inr ⟨rfl, rfl⟩

theorem rename_eq (appData : Bytes) (c : Contact) :
    (rename appData c).path = c.path ∧ (rename appData c).hasPath = c.hasPath := by
  unfold rename
  split_ifs <;> exact ⟨rfl, rfl⟩

/-- An advert of another node updates the routing table, and no path of a contact. -/
theorem onAdvertRecv_eq (good : node.Good) (packet : Packet) {id : PubKey} (appData : Bytes)
    (other : id ≠ node.selfId) :
    ∃ (contacts : List Contact) (table : Table) (upsert : Upsert) (effects : List Effect),
      node.table.hear id packet = some (table, upsert) ∧
      node.onAdvertRecv packet id appData =
        some ({ node with contacts := contacts, table := table }, effects) ∧
      { node with contacts := contacts, table := table }.Good ∧
      ∀ (i : ℕ) (c' : Contact), contacts[i]? = some c' →
        (∃ c, node.contacts[i]? = some c ∧ c'.hasPath = c.hasPath ∧ c'.path = c.path) ∨
          (c'.hasPath = false ∧ c'.path = []) := by
  obtain ⟨c, known, longer, old⟩ := addContact_eq node.contacts id
  obtain ⟨ticked, table, upsert, -, heard, -, table', -⟩ := Table.hear_eq good.table id packet
  obtain ⟨path, hasPath⟩ := rename_eq appData c
  have paths (i : ℕ) (c' : Contact)
      (at_i : ((addContact node.contacts id).1.set (addContact node.contacts id).2
        (rename appData c))[i]? = some c') :
      (∃ c, node.contacts[i]? = some c ∧ c'.hasPath = c.hasPath ∧ c'.path = c.path) ∨
        (c'.hasPath = false ∧ c'.path = []) := by
    rw [List.getElem?_set] at at_i
    split_ifs at at_i with here inside
    · subst here
      cases at_i
      rw [path, hasPath]
      exact (old _ c known).imp_left fun before => ⟨c, before, rfl, rfl⟩
    · exact (old i c' at_i).imp_left fun before => ⟨c', before, rfl, rfl⟩
  unfold onAdvertRecv
  rw [if_neg other]
  simp only [known, heard, Option.bind_eq_bind, Option.bind_some]
  refine ⟨_, table, upsert, _, rfl, rfl, ⟨table', ?_, ?_⟩, paths⟩
  · intro i mem
    rw [List.length_set]
    exact Nat.lt_of_lt_of_le (good.peers i mem) longer
  · intro c' mem
    obtain ⟨i, at_i⟩ := List.mem_iff_getElem?.mp mem
    rcases paths i c' at_i with ⟨c, before, -, same⟩ | ⟨-, empty⟩
    · rw [same]
      exact good.paths c (List.mem_of_getElem? before)
    · rw [empty]
      decide

theorem use_eq (e : RouteEntry) : e.use = { e with useCount := e.use.useCount } := by
  unfold RouteEntry.use
  split_ifs <;> rfl

/-- A use changes nothing but the count. -/
theorem dest_use (e : RouteEntry) : e.use.dest = e.dest := by rw [use_eq]

/-- The table with a use of the route to a destination. -/
def used (table : Table) (dest : Bytes) : Table :=
  { table with routes := modifyFirst (fun e => e.dest = dest) RouteEntry.use table.routes }

theorem good_used {table : Table} (good : table.Good) (dest : Bytes) : (used table dest).Good := by
  have counts (age : ℕ) : held age (used table dest).routes ≤ held age table.routes :=
    countP_modifyFirst_of_imp (fun e counted => by rwa [use_eq] at counted) _
  refine ⟨?_, fun e mem => ?_, good.admits, (counts 0).trans good.young,
    fun age positive bounded => (counts age).trans (good.old age positive bounded)⟩
  · rw [used, map_modifyFirst dest_use]
    exact good.distinct
  · rcases mem_modifyFirst mem with old | ⟨e₀, mem₀, -, rfl⟩
    · exact good.good e old
    · rw [use_eq]
      exact { good.good e₀ mem₀ with }

/-- The entry of the routing table that a message to a contact is sent on. -/
def tableRoute (node : Node) (target : Contact) : Option RouteEntry :=
  (rtFind node.table.routes target.id.dest).filter fun e => e.metric > 1 ∧ e.pathBytes > 0

/-- How a message goes to a known destination. -/
theorem sendTextTo_of_target {destPubHex : Bytes} {target : Contact}
    (isTarget : (node.contacts.find? fun c =>
      destPubHex.isPrefixOf (writeHex hexUc c.id.bytes)) = some target) (text timestamp : Bytes) :
    (node.sendTextTo destPubHex text timestamp true).2.1 =
      let pkt := Outgoing.datagram target.id (timestamp ++ text)
      match node.tableRoute target with
      | some r => [.sendDirect pkt r.path r.pathBytes, .log (.tableDirect destPubHex r.use)]
      | none => sendTextTo.fallback target pkt := by
  unfold sendTextTo tableRoute
  simp only [isTarget, not_true_eq_false, if_false]
  cases found : rtFind node.table.routes target.id.dest with
  | none => rfl
  | some r =>
      rw [Option.filter_some]
      by_cases useful : r.metric > 1 ∧ r.pathBytes > 0
      · simp only [if_pos useful, if_pos (decide_eq_true useful)]
      · simp only [if_neg useful, decide_eq_false useful, Bool.false_eq_true, if_false]

/-- A message leaves the node as it is, or counts a use of a route. -/
theorem sendTextTo_eq (node : Node) (destPubHex text timestamp : Bytes) (created : Bool) :
    (node.sendTextTo destPubHex text timestamp created).1 = node ∨
      ∃ dest, (node.sendTextTo destPubHex text timestamp created).1 =
        { node with table := used node.table dest } := by
  unfold sendTextTo
  split
  · exact Or.inl rfl
  · cases created with
    | false => exact Or.inl rfl
    | true =>
        simp only [not_true_eq_false, if_false]
        split
        · split_ifs
          · exact Or.inr ⟨_, rfl⟩
          · exact Or.inl rfl
        · exact Or.inl rfl

/-! ### Runs -/

/-- Every call succeeds, and keeps what holds between two calls. -/
theorem step_good (good : node.Good) (call : Call) :
    ∃ node' effects, node.step call = some (node', effects) ∧ node'.Good := by
  cases call with
  | searchPeersByHash isHashMatch =>
      exact ⟨_, _, rfl, good_searchPeersByHash good isHashMatch⟩
  | onPeerDataRecv packet type senderIdx data created =>
      rcases peerIndex_eq good senderIdx with none | ⟨idx, c, peer, -⟩
      · refine ⟨node, [], ?_, good⟩
        simp only [step, onPeerDataRecv, none, Option.bind_eq_bind, Option.bind_some]
        rfl
      · simp only [step, onPeerDataRecv_eq peer]
        split_ifs
        · exact ⟨_, _, rfl, good_setContact good (length_exchanged packet)⟩
        · exact ⟨_, _, rfl, good⟩
  | onPeerPathRecv senderIdx path pathLen =>
      rcases peerIndex_eq good senderIdx with none | ⟨idx, c, peer, -⟩
      · refine ⟨node, [], ?_, good⟩
        simp only [step, onPeerPathRecv, none, Option.bind_eq_bind, Option.bind_some]
        rfl
      · refine ⟨_, _, onPeerPathRecv_eq peer path pathLen, good_setContact good ?_⟩
        simpa using pathLen.toNat_lt
  | onAdvertRecv packet id appData =>
      by_cases own : id = node.selfId
      · exact ⟨node, [], if_pos own, good⟩
      · obtain ⟨contacts, table, upsert, effects, -, received, good', -⟩ :=
          onAdvertRecv_eq good packet appData own
        exact ⟨_, effects, received, good'⟩
  | sendTextTo destPubHex text timestamp created =>
      refine ⟨_, _, rfl, ?_⟩
      rcases sendTextTo_eq node destPubHex text timestamp created with same | ⟨dest, counted⟩
      · rwa [same]
      · rw [counted]
        exact { good with table := good_used good.table dest }

/-- No sequence of calls gets stuck. -/
theorem exec_good (good : node.Good) (calls : List Call) :
    ∃ node' effects, exec step node calls = some (node', effects) ∧ node'.Good := by
  induction calls generalizing node with
  | nil => exact ⟨node, [], rfl, good⟩
  | cons call calls ih =>
      obtain ⟨middle, effects, stepped, good'⟩ := step_good good call
      obtain ⟨last, more, rest, good''⟩ := ih good'
      refine ⟨last, effects ++ more, ?_, good''⟩
      rw [exec, stepped]
      simp only [rest, Option.map_some]

/-- The clauses of a well-formed table. -/
structure WellFormed (table : Table) : Prop where
  count : table.routes.length ≤ rtMaxRoutes
  distinct : (table.routes.map RouteEntry.dest).Nodup
  dest : ∀ e ∈ table.routes, e.dest.length = 4
  cap : ∀ e ∈ table.routes, e.pathBytes ≤ rtPathCap ∧ e.path.length = e.pathBytes
  shape : ∀ e ∈ table.routes, e.pathBytes = 0 ∨ e.pathBytes = e.hashSz * (e.metric - 1)
  age : ∀ e ∈ table.routes, e.pinned = false → e.counter ≤ rtMaxAge
  admits : table.admitsThisCycle ≤ rtAdmitPerCycle

/-- Over every sequence of calls no `uint8_t` wraps, and the table is well-formed. -/
theorem table_invariant (selfId : PubKey) (calls : List Call) :
    ∃ node effects, exec step (init selfId) calls = some (node, effects) ∧
      WellFormed node.table := by
  obtain ⟨node, effects, run, good⟩ := exec_good (good_init selfId) calls
  have every : rtAgeEvery = 16 := rfl
  have limit : rtAdmitPerCycle = 16 := rfl
  have slots : rtMaxRoutes = 128 := rfl
  have length := good.table.length_le
  have admits := good.table.admits
  rw [every] at length admits
  refine ⟨node, effects, run, ⟨by omega, good.table.distinct, ?_, ?_, ?_, ?_, by omega⟩⟩
  · exact fun e mem => (good.table.good e mem).dest
  · exact fun e mem => ⟨(good.table.good e mem).cap, (good.table.good e mem).path⟩
  · exact fun e mem => (good.table.good e mem).shape
  · intro e mem _
    rw [(good.table.good e mem).counter]
    exact (good.table.good e mem).age

/-- Whatever was received before, `rt_upsert` is entered below the admission limit and with at most
63 entries, so that it refreshes an entry, keeps a shorter one or takes a free place. -/
theorem defences_dead (selfId : PubKey) (calls : List Call) :
    ∃ node effects, exec step (init selfId) calls = some (node, effects) ∧
      node.table.routes.length ≤ 64 ∧
      ∀ (id : PubKey) (packet : Packet), ∃ entered table upsert,
        node.table.tick = some entered ∧ entered.admitsThisCycle < rtAdmitPerCycle ∧
        entered.routes.length < 64 ∧ node.table.hear id packet = some (table, upsert) ∧
        upsert ∈ [Upsert.refreshed, .longer, .inserted] := by
  obtain ⟨node, effects, run, good⟩ := exec_good (good_init selfId) calls
  have every : rtAgeEvery = 16 := rfl
  have limit : rtAdmitPerCycle = 16 := rfl
  have length := good.table.length_le
  rw [every] at length
  refine ⟨node, effects, run, by omega, fun id packet => ?_⟩
  obtain ⟨entered, table, upsert, tick, heard, within, -, outcome, -⟩ :=
    Table.hear_eq good.table id packet
  have admits := within.admits
  have entries := within.length_le
  rw [every] at admits entries
  exact ⟨entered, table, upsert, tick, by omega, by omega, heard, outcome⟩

end Node

end MeshcoreSim.Nexthop
