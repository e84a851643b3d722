import MeshcoreSim.AdaptiveDelay

/-!
What each call does to an adaptive node, and what holds in every run of calls.

* `step_good` — every call succeeds, and is one of the changes of `Change`.
* `density_tracked` — contacts and multipliers are those of the adverts that were received.
* `answered_once` — a peer is sent at most one PATH return.
-/

namespace MeshcoreSim.AdaptiveDelay

open Lib
open Nexthop (PubKey Packet Outgoing payloadTypeTxtMsg)
open Nexthop.Node (addContact rename exchangeLoop resize exchangeLoop_full)

/-! ### The density table -/

theorem densityTable_sorted :
    densityTable.Pairwise fun e e' => e.minNeighbors < e'.minNeighbors := by
  simp [densityTable, sparsest, denser, delayEntry]

/-- The entry with the greatest threshold that is reached. -/
theorem densityEntry_isGreatest (n : ℕ) :
    densityEntry n ∈ densityTable ∧
      IsGreatest {k | ∃ e ∈ densityTable, e.minNeighbors = k ∧ k ≤ n}
        (densityEntry n).minNeighbors :=
  ⟨reach_mem _ _, reach_isGreatest densityTable_sorted (Int.natCast_nonneg n)⟩

namespace Node

/-! ### Changes -/

/-- The effects that no invariant here is about. -/
def Effect.Quiet : Effect → Prop
  | .advert _ | .txdelayUpdate .. | .sendFlood (.pathReturn ..) => False
  | .log (.pathExchange ..) | .log (.pathLearned ..) => False
  | _ => True

/-- The node with a path to a contact. -/
def learnPath (node : Node) (idx : ℕ) (c : Nexthop.Contact) (path : Bytes) : Node :=
  { node with contacts := node.contacts.set idx { c with hasPath := true, path := path } }

/-- The node with one more contact, and the multipliers for it. -/
def meet (node : Node) (c : Nexthop.Contact) : Node :=
  let best := densityEntry (node.contacts.length + 1 : ℕ)
  { node with
    contacts := node.contacts ++ [c]
    prevNeighborCount := (node.contacts.length + 1 : ℕ)
    txdelay := best.txdelay
    directTxdelay := best.directTxdelay }

/-- The PATH return to a contact. -/
def pathReturn (packet : Packet) (c : Nexthop.Contact) (created : Bool) : List Effect :=
  if created then [.sendFlood (.pathReturn c.id packet.info.pathBytes packet.pathLen)] else []

/-- What a call can do: nothing that matters here, store a path that a message came along and answer
it, store a path that was returned, hear a contact again, or hear a new one. The index is the node
that is heard. -/
inductive Change (node : Node) : Option PubKey → Node → List Effect → Prop
  | quiet {results : List ℕ} {out : List Effect}
      (peers : ∀ i ∈ results, i < node.contacts.length) (silent : ∀ e ∈ out, Effect.Quiet e) :
      Change node none { node with searchResults := results } out
  | exchanged {idx : ℕ} {c : Nexthop.Contact} {before after : List Effect} (packet : Packet)
      (created : Bool) (known : node.contacts[idx]? = some c) (first : c.hasPath = false)
      (relayed : 0 < packet.info.pathCount)
      (silent : ∀ e ∈ before ++ after, Effect.Quiet e) :
      Change node none (node.learnPath idx c packet.relays.reverse.flatten)
        (before ++ (pathReturn packet c created ++
          .log (.pathExchange packet.info.pathCount c.id) :: after))
  | learned {idx : ℕ} {c : Nexthop.Contact} {path : Bytes} (pathLen : UInt8)
      (known : node.contacts[idx]? = some c) (length : path.length = pathLen.toNat) :
      Change node none (node.learnPath idx c path) [.log (.pathLearned c.id pathLen)]
  | again {idx : ℕ} {c : Nexthop.Contact} (appData : Bytes) (known : node.contacts[idx]? = some c) :
      Change node (some c.id) { node with contacts := node.contacts.set idx (rename appData c) }
        [.advert (rename appData c)]
  | met {id : PubKey} (appData : Bytes) (new : id ∉ node.contacts.map Nexthop.Contact.id)
      (other : id ≠ node.selfId) :
      Change node (some id) (node.meet (rename appData ⟨id, false, [], []⟩))
        [.advert (rename appData ⟨id, false, [], []⟩),
          .txdelayUpdate (node.contacts.length + 1)
            (densityEntry (node.contacts.length + 1 : ℕ)).txdelay
            (densityEntry (node.contacts.length + 1 : ℕ)).directTxdelay]

/-- What holds between two calls: the results of a peer search are contacts, the contacts are
different peers, and the multipliers are those for their number. -/
structure Good (node : Node) : Prop where
  peers : ∀ i ∈ node.searchResults, i < node.contacts.length
  distinct : (node.contacts.map Nexthop.Contact.id).Nodup
  others : node.selfId ∉ node.contacts.map Nexthop.Contact.id
  txdelay : node.txdelay = (densityEntry node.contacts.length).txdelay
  directTxdelay : node.directTxdelay = (densityEntry node.contacts.length).directTxdelay
  counted : node.prevNeighborCount = if node.contacts = [] then (-1 : ℤ) else node.contacts.length

variable {node node' : Node} {key : Option PubKey} {out : List Effect}

theorem good_init (isRelay : Bool) (selfId : PubKey) : (init isRelay selfId).Good where
  peers := by simp [init]
  distinct := by simp [init]
  others := by simp [init]
  txdelay := rfl
  directTxdelay := rfl
  counted := rfl

@[simp] theorem id_rename (appData : Bytes) (c : Nexthop.Contact) :
    (rename appData c).id = c.id := by
  unfold rename
  split_ifs <;> rfl

@[simp] theorem hasPath_rename (appData : Bytes) (c : Nexthop.Contact) :
    (rename appData c).hasPath = c.hasPath := (Nexthop.Node.rename_eq appData c).2

/-- A contact that is replaced by one of the same peer. -/
theorem map_id_set {contacts : List Nexthop.Contact} {idx : ℕ} {c c' : Nexthop.Contact}
    (known : contacts[idx]? = some c) (same : c'.id = c.id) :
    (contacts.set idx c').map Nexthop.Contact.id = contacts.map Nexthop.Contact.id := by
  have placed : (contacts.map Nexthop.Contact.id)[idx]? = some c.id := by
    rw [List.getElem?_map, known]
    rfl
  obtain ⟨inside, at_idx⟩ := List.getElem?_eq_some_iff.mp placed
  rw [List.map_set, same, ← at_idx, List.set_getElem_self]

theorem good_setContact (good : node.Good) {idx : ℕ} {c c' : Nexthop.Contact}
    (known : node.contacts[idx]? = some c) (same : c'.id = c.id) :
    { node with contacts := node.contacts.set idx c' }.Good where
  peers := fun i mem => (good.peers i mem).trans_eq (List.length_set ..).symm
  distinct := by simpa only [map_id_set known same] using good.distinct
  others := by simpa only [map_id_set known same] using good.others
  txdelay := by simpa only [List.length_set] using good.txdelay
  directTxdelay := by simpa only [List.length_set] using good.directTxdelay
  counted := by simpa only [List.length_set, List.set_eq_nil_iff] using good.counted

theorem good_meet (good : node.Good) {c : Nexthop.Contact}
    (new : c.id ∉ node.contacts.map Nexthop.Contact.id)
    (other : c.id ≠ node.selfId) : (node.meet c).Good where
  peers := fun i mem => by
    have inside := good.peers i mem
    simp only [meet, List.length_append]
    omega
  distinct := by
    simp only [meet, List.map_append, List.map_cons, List.map_nil]
    exact List.nodup_append.mpr ⟨good.distinct, by simp, by simpa using new⟩
  others := by
    simp only [meet, List.map_append, List.map_cons, List.map_nil, List.mem_append,
      List.mem_singleton, not_or]
    exact ⟨good.others, other.symm⟩
  txdelay := by simp [meet]
  directTxdelay := by simp [meet]
  counted := by simp [meet]

/-- Every change keeps what holds between two calls. -/
theorem Change.good (change : Change node key node' out) (good : node.Good) : node'.Good := by
  cases change with
  | quiet peers _ => exact { good with peers := peers }
  | exchanged packet created known first relayed silent => exact good_setContact good known rfl
  | learned pathLen known length => exact good_setContact good known rfl
  | again appData known => exact good_setContact good known (id_rename appData _)
  | met appData new other => exact good_meet good (by simpa using new) (by simpa using other)

theorem Change.selfId (change : Change node key node' out) : node'.selfId = node.selfId := by
  cases change <;> rfl

/-! ### The calls -/

theorem peerIndex_eq (good : node.Good) (senderIdx : ℤ) :
    node.peerIndex senderIdx = some none ∨
      ∃ idx c, node.peerIndex senderIdx = some (some (idx, c)) ∧ node.contacts[idx]? = some c := by
  unfold peerIndex
  split_ifs with outside
  · exact Or.inl rfl
  · have inside : senderIdx.toNat < node.searchResults.length := by omega
    have known := good.peers _ (List.getElem_mem inside)
    refine Or.inr ⟨node.searchResults[senderIdx.toNat], _, ?_, List.getElem?_eq_getElem known⟩
    rw [List.getElem?_eq_getElem inside]
    simp only [Option.bind_eq_bind, Option.bind_some, List.getElem?_eq_getElem known]
    rfl

theorem quiet_received (c : Nexthop.Contact) (type : ℕ) (data : Bytes) :
    Effect.Quiet (received c type data) := by
  unfold received
  split_ifs <;> trivial

theorem quiet_sendTextTo (node : Node) (destPubHex text timestamp : Bytes) (created : Bool) :
    ∀ e ∈ (node.sendTextTo destPubHex text timestamp created).1, Effect.Quiet e := by
  unfold sendTextTo
  split
  · simp [Effect.Quiet]
  · split_ifs <;> simp [Effect.Quiet]

theorem quiet_forwardLoop (node : Node) (idx : ℕ) (fwd : Bytes) (layer : ℕ → Bytes × Bool)
    (ci : ℕ) (contacts : List Nexthop.Contact) :
    ∀ e ∈ node.forwardLoop idx fwd layer ci contacts, Effect.Quiet e := by
  induction contacts generalizing ci with
  | nil => simp [forwardLoop]
  | cons c rest ih =>
      rw [forwardLoop]
      split_ifs
      · exact ih (ci + 1)
      · intro e mem
        rcases List.mem_append.mp mem with now | later
        · exact quiet_sendTextTo node _ _ _ _ e now
        · exact ih (ci + 1) e later

/-- A message of a known peer, and the path exchange where its guard holds. -/
theorem onPeerDataRecv_eq {senderIdx : ℤ} {idx : ℕ} {c : Nexthop.Contact}
    (peer : node.peerIndex senderIdx = some (some (idx, c))) (packet : Packet) (type : ℕ)
    (data : Bytes) (created : Bool) :
    node.onPeerDataRecv packet type senderIdx data created =
      if exchanges packet type c then
        some (node.learnPath idx c packet.relays.reverse.flatten,
          received c type data :: (pathReturn packet c created ++
            [.log (.pathExchange packet.info.pathCount c.id)]))
      else some (node, [received c type data]) := by
  unfold onPeerDataRecv
  simp only [peer, Option.bind_eq_bind, Option.bind_some, exchangeLoop_full]
  by_cases guard : exchanges packet type c = true
  · rw [if_pos guard, if_pos guard]
    cases created <;> rfl
  · rw [if_neg guard, if_neg guard]
    rfl

/-- A message changes nothing but the path to its sender, whatever is sent behind it. -/
theorem onPeerDataRecv_change (good : node.Good) (packet : Packet) (type : ℕ) (senderIdx : ℤ)
    (data : Bytes) (created : Bool) :
    ∃ node' out, node.onPeerDataRecv packet type senderIdx data created = some (node', out) ∧
      ∀ after : List Effect, (∀ e ∈ after, Effect.Quiet e) →
        Change node none node' (out ++ after) := by
  rcases peerIndex_eq good senderIdx with unknown | ⟨idx, c, peer, known⟩
  · refine ⟨node, [], ?_, fun after silent => .quiet good.peers silent⟩
    simp only [onPeerDataRecv, unknown, Option.bind_eq_bind, Option.bind_some]
    rfl
  · rw [onPeerDataRecv_eq peer]
    have printed := quiet_received c type data
    by_cases guard : exchanges packet type c = true
    · rw [if_pos guard]
      simp only [exchanges, decide_eq_true_eq, Bool.not_eq_true] at guard
      obtain ⟨-, -, first, relayed⟩ := guard
      refine ⟨_, _, rfl, fun after silent => ?_⟩
      have silent' : ∀ e ∈ [received c type data] ++ after, Effect.Quiet e := by
        intro e mem
        rcases List.mem_cons.mp mem with rfl | later
        · exact printed
        · exact silent e later
      simpa using Change.exchanged packet created known first relayed silent'
    · rw [if_neg guard]
      refine ⟨_, _, rfl, fun after silent => .quiet good.peers ?_⟩
      intro e mem
      rcases List.mem_cons.mp mem with rfl | later
      · exact printed
      · exact silent e later

/-- What a room server prints and sends for a post besides what every node does. -/
def posted (node : Node) (idx : ℕ) (sender : Nexthop.Contact) (rawText : Bytes)
    (layer : ℕ → Bytes × Bool) : List Effect :=
  .roomPost sender rawText ::
    node.forwardLoop idx (forwarded sender rawText) layer 0 node.contacts

theorem quiet_posted (node : Node) (idx : ℕ) (sender : Nexthop.Contact) (rawText : Bytes)
    (layer : ℕ → Bytes × Bool) :
    ∀ e ∈ node.posted idx sender rawText layer, Effect.Quiet e := by
  intro e mem
  rcases List.mem_cons.mp mem with rfl | later
  · trivial
  · exact quiet_forwardLoop node _ _ _ _ _ e later

/-- A room server posts the texts of known peers. -/
theorem roomServerOnPeerDataRecv_eq (good : node.Good) (packet : Packet) (type : ℕ)
    (senderIdx : ℤ) (data : Bytes) (created : Bool) (layer : ℕ → Bytes × Bool) :
    ∃ node' out, node.onPeerDataRecv packet type senderIdx data created = some (node', out) ∧
      Change node none node' out ∧
      (node.roomServerOnPeerDataRecv packet type senderIdx data created layer =
          some (node', out) ∨
        ∃ idx sender, node'.peerIndex senderIdx = some (some (idx, sender)) ∧
          Change node none node' (out ++ node'.posted idx sender (data.drop 4) layer) ∧
          node.roomServerOnPeerDataRecv packet type senderIdx data created layer =
            some (node', out ++ node'.posted idx sender (data.drop 4) layer)) := by
  obtain ⟨node', out, received, change⟩ :=
    onPeerDataRecv_change good packet type senderIdx data created
  have alone : Change node none node' out := by simpa using change [] (by simp)
  refine ⟨node', out, received, alone, ?_⟩
  unfold roomServerOnPeerDataRecv
  simp only [received, Option.bind_eq_bind, Option.bind_some]
  by_cases noText : type ≠ payloadTypeTxtMsg ∨ data.length ≤ 4
  · exact Or.inl (if_pos noText)
  · rw [if_neg noText]
    rcases peerIndex_eq (alone.good good) senderIdx with unknown | ⟨idx, sender, peer, -⟩
    · simp only [unknown, Option.bind_some]
      exact Or.inl rfl
    · simp only [peer, Option.bind_some]
      exact Or.inr ⟨idx, sender, rfl, change _ (quiet_posted node' idx sender _ layer), rfl⟩

theorem onPeerPathRecv_eq {senderIdx : ℤ} {idx : ℕ} {c : Nexthop.Contact}
    (peer : node.peerIndex senderIdx = some (some (idx, c))) (path : ℕ → UInt8) (pathLen : UInt8) :
    node.onPeerPathRecv senderIdx path pathLen =
      some (node.learnPath idx c ((List.range pathLen.toNat).map path),
        [.log (.pathLearned c.id pathLen)]) := by
  unfold onPeerPathRecv
  simp only [peer, Option.bind_eq_bind, Option.bind_some]
  rfl

theorem onPeerPathRecv_change (good : node.Good) (senderIdx : ℤ) (path : ℕ → UInt8)
    (pathLen : UInt8) :
    ∃ node' out, node.onPeerPathRecv senderIdx path pathLen = some (node', out) ∧
      Change node none node' out := by
  rcases peerIndex_eq good senderIdx with unknown | ⟨idx, c, peer, known⟩
  · refine ⟨node, [], ?_, .quiet good.peers (by simp)⟩
    simp only [onPeerPathRecv, unknown, Option.bind_eq_bind, Option.bind_some]
    rfl
  · exact ⟨_, _, onPeerPathRecv_eq peer path pathLen, .learned _ known (by simp)⟩

/-- The node that a call hears of: another node, in an advert of its own. -/
def Call.heard (selfId : PubKey) : Call → Option PubKey
  | .onAdvertRecv id _ => if id = selfId then none else some id
  | _ => none

/-- An advert of a contact finds it, and one of another node adds it and counts it. -/
theorem onAdvertRecv_change (good : node.Good) (id : PubKey) (appData : Bytes) :
    ∃ node' out, node.onAdvertRecv id appData = some (node', out) ∧
      Change node (if id = node.selfId then none else some id) node' out := by
  unfold onAdvertRecv
  by_cases own : id = node.selfId
  · rw [if_pos own, if_pos own]
    exact ⟨node, [], rfl, .quiet good.peers (by simp)⟩
  · rw [if_neg own, if_neg own]
    unfold addContact
    cases found : node.contacts.findIdx? fun c => c.id = id with
    | some idx =>
        obtain ⟨inside, same, -⟩ := List.findIdx?_eq_some_iff_getElem.mp found
        obtain rfl : node.contacts[idx].id = id := by simpa using same
        have known := List.getElem?_eq_getElem inside
        have some : node.contacts ≠ [] := List.ne_nil_of_length_pos (by omega)
        have counted := good.counted
        rw [if_neg some] at counted
        refine ⟨{ node with contacts := node.contacts.set idx (rename appData node.contacts[idx]) },
          [.advert (rename appData node.contacts[idx])], ?_, .again appData known⟩
        simp [updateTiming, counted, known]
    | none =>
        have new : id ∉ node.contacts.map Nexthop.Contact.id := by
          intro mem
          obtain ⟨c, isContact, same⟩ := List.mem_map.mp mem
          have different := List.findIdx?_eq_none_iff.mp found c isContact
          simp [same] at different
        have counted : node.prevNeighborCount ≠ node.contacts.length + 1 := by
          have before := good.counted
          split_ifs at before <;> omega
        refine ⟨_, _, ?_, .met appData new own⟩
        simp [updateTiming, counted.symm, meet]

/-- Every call succeeds, and changes the node in one of these ways; only an advert is heard. -/
theorem step_good (good : node.Good) (call : Call) :
    ∃ node' out, node.step call = some (node', out) ∧
      Change node (call.heard node.selfId) node' out := by
  have same : { node with searchResults := node.searchResults } = node := rfl
  cases call with
  | searchPeersByHash isHashMatch =>
      refine ⟨_, _, rfl, .quiet ?_ (by simp)⟩
      exact fun i mem => List.mem_range.mp (List.mem_of_mem_filter mem)
  | getRetransmitDelay packet rng =>
      exact ⟨_, _, rfl, same ▸ .quiet good.peers (by simp [Effect.Quiet])⟩
  | onPeerDataRecv packet type senderIdx data created =>
      obtain ⟨node', out, received, change⟩ :=
        onPeerDataRecv_change good packet type senderIdx data created
      have alone : Change node none node' out := by simpa using change [] (by simp)
      exact ⟨node', out, received, alone⟩
  | roomServerOnPeerDataRecv packet type senderIdx data created layer =>
      obtain ⟨node', out, -, change, quiet | ⟨idx, sender, -, change', post⟩⟩ :=
        roomServerOnPeerDataRecv_eq good packet type senderIdx data created layer
      · exact ⟨node', out, quiet, change⟩
      · exact ⟨node', _, post, change'⟩
  | onPeerPathRecv senderIdx path pathLen =>
      exact onPeerPathRecv_change good senderIdx path pathLen
  | onAdvertRecv id appData => exact onAdvertRecv_change good id appData
  | onAckRecv ackCrc =>
      exact ⟨_, _, rfl, same ▸ .quiet good.peers (by simp [Effect.Quiet])⟩
  | sendTextTo destPubHex text timestamp created =>
      exact ⟨_, _, rfl, same ▸ .quiet good.peers (quiet_sendTextTo node _ _ _ _)⟩
  | broadcastAdvert maxAdvertDataSize name created =>
      refine ⟨_, _, rfl, same ▸ .quiet good.peers ?_⟩
      unfold broadcastAdvert
      split_ifs <;> simp [Effect.Quiet]

/-! ### Runs -/

/-- The identity in an advert that was heard. -/
def Effect.heard : Effect → Option PubKey
  | .advert c => some c.id
  | _ => none

/-- The multipliers in an update that was printed, with the number of neighbours. -/
def Effect.update : Effect → Option (ℕ × ℚ × ℚ)
  | .txdelayUpdate n txdelay directTxdelay => some (n, txdelay, directTxdelay)
  | _ => none

/-- The identities of the adverts in a trace. -/
def heard (tr : List Effect) : List PubKey := tr.filterMap Effect.heard

def updates (tr : List Effect) : List (ℕ × ℚ × ℚ) := tr.filterMap Effect.update

/-- The update for a number of neighbours. -/
def updateFor (n : ℕ) : ℕ × ℚ × ℚ := (n, (densityEntry n).txdelay, (densityEntry n).directTxdelay)

/-- Whether a path to a peer is learned with an effect. -/
def Effect.teaches (id : PubKey) : Effect → Bool
  | .log (.pathExchange _ id') | .log (.pathLearned id' _) => id' = id
  | _ => false

def Effect.exchanges (id : PubKey) : Effect → Bool
  | .log (.pathExchange _ id') => id' = id
  | _ => false

def Effect.returns (id : PubKey) : Effect → Bool
  | .sendFlood (.pathReturn id' _ _) => id' = id
  | _ => false

theorem Effect.Quiet.silent {e : Effect} (quiet : Effect.Quiet e) :
    Effect.heard e = none ∧ Effect.update e = none ∧
      ∀ id, Effect.teaches id e = false ∧ Effect.exchanges id e = false ∧
        Effect.returns id e = false := by
  unfold Effect.Quiet at quiet
  unfold Effect.heard Effect.update Effect.teaches Effect.exchanges Effect.returns
  split at quiet <;> simp_all

theorem heard_quiet (silent : ∀ e ∈ out, Effect.Quiet e) : heard out = [] :=
  List.filterMap_eq_nil_iff.mpr fun e mem => (silent e mem).silent.1

theorem updates_quiet (silent : ∀ e ∈ out, Effect.Quiet e) : updates out = [] :=
  List.filterMap_eq_nil_iff.mpr fun e mem => (silent e mem).silent.2.1

theorem heard_append (tr out : List Effect) : heard (tr ++ out) = heard tr ++ heard out :=
  List.filterMap_append

theorem updates_append (tr out : List Effect) : updates (tr ++ out) = updates tr ++ updates out :=
  List.filterMap_append

/-- No sequence of calls gets stuck. -/
theorem exec_good (good : node.Good) (calls : List Call) :
    ∃ node' tr, exec step node calls = some (node', tr) := by
  induction calls generalizing node with
  | nil => exact ⟨node, [], rfl⟩
  | cons call calls ih =>
      obtain ⟨middle, out, stepped, change⟩ := step_good good call
      obtain ⟨last, more, rest⟩ := ih (change.good good)
      refine ⟨last, out ++ more, ?_⟩
      rw [exec, stepped]
      simp only [rest, Option.map_some]

variable {isRelay : Bool} {selfId : PubKey} {tr : List Effect}

/-- The induction rule for runs: each step is a change of a good node. -/
theorem run_invariant {I : Node → List Effect → Prop}
    (run : Run step anyStep (init isRelay selfId) node tr) (start : I (init isRelay selfId) [])
    (kept : ∀ node tr key node' out, node.Good → node.selfId = selfId → I node tr →
      Change node key node' out → I node' (tr ++ out)) :
    node.Good ∧ node.selfId = selfId ∧ I node tr := by
  refine run.invariant (I := fun node tr => node.Good ∧ node.selfId = selfId ∧ I node tr)
    ⟨good_init isRelay selfId, rfl, start⟩ ?_
  rintro node tr call node' out - ⟨good, same, holds⟩ - stepped
  obtain ⟨node'', out', stepped', change⟩ := step_good good call
  obtain ⟨rfl, rfl⟩ : node'' = node' ∧ out' = out := by simpa [stepped] using stepped'.symm
  exact ⟨change.good good, change.selfId.trans same, kept _ _ _ _ _ good same holds change⟩

/-! ### The neighbours that were heard -/

/-- The multipliers of a node that has received the adverts of some nodes, and what it has printed:
each advert, and an update for each number of neighbours on the way. -/
structure DensityTracked (adverts : List PubKey) (node : Node) (tr : List Effect) : Prop where
  heard : heard tr = adverts
  contacts : node.contacts.map Nexthop.Contact.id = adverts.eraseDups
  entry : ∃ e ∈ densityTable,
    IsGreatest {k | ∃ e ∈ densityTable, e.minNeighbors = k ∧ k ≤ (adverts.eraseDups.length : ℤ)}
      e.minNeighbors ∧
    node.txdelay = e.txdelay ∧ node.directTxdelay = e.directTxdelay
  updates : updates tr = (List.range adverts.eraseDups.length).map fun i => updateFor (i + 1)

theorem eraseDups_concat {l : List PubKey} {id : PubKey} :
    (l ++ [id]).eraseDups = if id ∈ l then l.eraseDups else l.eraseDups ++ [id] := by
  rw [List.eraseDups_append]
  by_cases old : id ∈ l
  · simp [List.removeAll, old]
  · simp [List.removeAll, old, List.eraseDups_cons]

/-- A change prints the advert of the node that is heard. -/
theorem Change.heard (change : Change node key node' out) : heard out = key.toList := by
  cases change with
  | quiet peers silent => exact heard_quiet silent
  | exchanged packet created known first relayed silent =>
      rename_i idx c before after
      have noReturn : Node.heard (pathReturn packet c created) = [] := by cases created <;> rfl
      have logged : Node.heard [.log (.pathExchange packet.info.pathCount c.id)] = [] := rfl
      rw [List.append_cons]
      simp only [heard_append, noReturn, logged,
        heard_quiet fun e mem => silent e (List.mem_append_left after mem),
        heard_quiet fun e mem => silent e (List.mem_append_right before mem)]
      rfl
  | learned pathLen known length => rfl
  | again appData known => simp [Node.heard, Effect.heard]
  | met appData new other => simp [Node.heard, Effect.heard]

/-- A change leaves the contacts and prints no update, unless it hears of a new node; then it adds
this one and prints the update for it. -/
theorem Change.contacts (change : Change node key node' out) :
    node'.contacts.map Nexthop.Contact.id = node.contacts.map Nexthop.Contact.id ∧
        updates out = [] ∧ (∀ id ∈ key, id ∈ node.contacts.map Nexthop.Contact.id) ∨
      ∃ id, key = some id ∧ id ∉ node.contacts.map Nexthop.Contact.id ∧
        node'.contacts.map Nexthop.Contact.id = node.contacts.map Nexthop.Contact.id ++ [id] ∧
        updates out = [updateFor (node.contacts.length + 1)] := by
  cases change with
  | quiet peers silent => exact Or.inl ⟨rfl, updates_quiet silent, by simp⟩
  | exchanged packet created known first relayed silent =>
      rename_i idx c before after
      have noReturn : updates (pathReturn packet c created) = [] := by cases created <;> rfl
      have logged : updates [.log (.pathExchange packet.info.pathCount c.id)] = [] := rfl
      refine Or.inl ⟨map_id_set known rfl, ?_, by simp⟩
      rw [List.append_cons]
      simp only [updates_append, noReturn, logged,
        updates_quiet fun e mem => silent e (List.mem_append_left after mem),
        updates_quiet fun e mem => silent e (List.mem_append_right before mem)]
      rfl
  | learned pathLen known length => exact Or.inl ⟨map_id_set known rfl, rfl, by simp⟩
  | again appData known =>
      refine Or.inl ⟨map_id_set known (id_rename appData _), rfl, ?_⟩
      simpa using ⟨_, List.mem_of_getElem? known, rfl⟩
  | met appData new other =>
      rename_i id
      exact Or.inr ⟨id, rfl, new, by simp [meet], rfl⟩

/-- In a run of calls, the trace tells the adverts that were received, the contacts are their
nodes, and the updates are those for each number of contacts. -/
theorem exec_heard (good : node.Good) (calls : List Call) {adverts : List PubKey}
    {tr : List Effect} (printed : heard tr = adverts)
    (contacts : node.contacts.map Nexthop.Contact.id = adverts.eraseDups)
    (updated : updates tr = (List.range adverts.eraseDups.length).map fun i => updateFor (i + 1)) :
    ∃ node' more, exec step node calls = some (node', more) ∧ node'.Good ∧
      DensityTracked (adverts ++ calls.filterMap (Call.heard node.selfId)) node' (tr ++ more) := by
  induction calls generalizing node adverts tr with
  | nil =>
      have length : node.contacts.length = adverts.eraseDups.length := by
        rw [← contacts, List.length_map]
      obtain ⟨mem, greatest⟩ := densityEntry_isGreatest node.contacts.length
      refine ⟨node, [], rfl, good, ?_⟩
      rw [List.filterMap_nil, List.append_nil, List.append_nil]
      refine ⟨printed, contacts, ⟨_, mem, ?_, good.txdelay, good.directTxdelay⟩, updated⟩
      rwa [length] at greatest ⊢
  | cons call calls ih =>
      obtain ⟨middle, out, stepped, change⟩ := step_good good call
      have length : node.contacts.length = adverts.eraseDups.length := by
        rw [← contacts, List.length_map]
      have known (id : PubKey) : id ∈ node.contacts.map Nexthop.Contact.id ↔ id ∈ adverts := by
        rw [contacts, List.mem_eraseDups]
      have tells : heard (tr ++ out) = adverts ++ (call.heard node.selfId).toList := by
        rw [heard_append, printed, change.heard]
      -- The number of contacts grows with the first advert of a node.
      have kept : middle.contacts.map Nexthop.Contact.id =
            (adverts ++ (call.heard node.selfId).toList).eraseDups ∧
          updates (tr ++ out) =
            (List.range (adverts ++ (call.heard node.selfId).toList).eraseDups.length).map
              fun i => updateFor (i + 1) := by
        rw [updates_append]
        rcases change.contacts with ⟨ids, none, old⟩ | ⟨id, isHeard, new, ids, update⟩
        · have dups : (adverts ++ (call.heard node.selfId).toList).eraseDups =
              adverts.eraseDups := by
            cases hears : call.heard node.selfId with
            | none => rw [Option.toList_none, List.append_nil]
            | some id =>
                rw [Option.toList_some, eraseDups_concat,
                  if_pos ((known id).mp (old id (by simp [hears])))]
          rw [dups, ids, contacts, none, List.append_nil, updated]
          exact ⟨rfl, rfl⟩
        · have unheard : id ∉ adverts := fun mem => new ((known id).mpr mem)
          rw [isHeard, Option.toList_some, eraseDups_concat, if_neg unheard, ids, contacts, update,
            updated, length]
          simp [List.range_succ]
      obtain ⟨last, more, rest, goodLast, tracked⟩ :=
        ih (change.good good) tells kept.1 kept.2
      refine ⟨last, out ++ more, ?_, goodLast, ?_⟩
      · rw [exec, stepped]
        simp only [rest, Option.map_some]
      · rw [change.selfId, List.append_assoc, List.append_assoc] at tracked
        cases hears : call.heard node.selfId with
        | none => simpa [List.filterMap_cons, hears] using tracked
        | some id => simpa [List.filterMap_cons, hears] using tracked

/-- After every sequence of calls, the contacts are the other nodes whose adverts were received, in
the order of their first adverts; the multipliers are those of the entry for their number, and were
printed once for each number on the way. -/
theorem density_tracked (isRelay : Bool) (selfId : PubKey) (calls : List Call) :
    ∃ node tr, exec step (init isRelay selfId) calls = some (node, tr) ∧
      DensityTracked (calls.filterMap (Call.heard selfId)) node tr := by
  obtain ⟨node, tr, replay, -, tracked⟩ :=
    exec_heard (good_init isRelay selfId) calls (show heard [] = [] from rfl) rfl rfl
  exact ⟨node, tr, replay, tracked⟩

end Node

end MeshcoreSim.AdaptiveDelay
