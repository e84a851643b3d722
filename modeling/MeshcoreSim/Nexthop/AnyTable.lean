import MeshcoreSim.Nexthop.Eviction

/-!
What calls do to a routing table in any state: full ones, ones with pinned entries, and ones that
no run of calls reaches.

`grown` and `Upserted` say what ageing and `rt_upsert` do to the entries. A pinned entry follows
from one call to the next as `Protected` allows, at whatever place it is.

* `pinned_protected` — over every sequence of calls, the pinned entries are those from before.
* `advert_path_whole` — the loop of `onAdvertRecv` reverses the relays in bounds, and no entry ever
  has a part of a path.
-/

namespace MeshcoreSim.Nexthop

open Lib

/-- One round of ageing. -/
def grown (e : RouteEntry) : Option RouteEntry :=
  if e.pinned then some e
  else if e.counter + 1 > rtMaxAge then none else some { e with age := e.counter + 1 }

def pinnedRoutes (routes : List RouteEntry) : List RouteEntry := routes.filter RouteEntry.pinned

/-- Another entry with the same route. -/
structure RouteEntry.SameRoute (e e' : RouteEntry) : Prop where
  dest : e'.dest = e.dest
  path : e'.path = e.path
  pathBytes : e'.pathBytes = e.pathBytes
  hashSz : e'.hashSz = e.hashSz
  metric : e'.metric = e.metric

/-- An entry with the route of an advert. -/
structure RouteEntry.From (e : RouteEntry) (packet : Packet) : Prop where
  path : e.path = packet.stored
  pathBytes : e.pathBytes = packet.stored.length
  hashSz : e.hashSz = packet.info.pathSize
  metric : e.metric = packet.metric

/-- What an advert, if there is one, makes of a pinned entry: its route changes if the advert is for
its key and not longer. -/
structure Protected (advert : Option (PubKey × Packet)) (e e' : RouteEntry) : Prop where
  dest : e'.dest = e.dest
  pinned : e'.pinned = true
  counter : e'.counter ≤ e.counter
  route : e.SameRoute e' ∨ ∃ id packet, advert = some (id, packet) ∧ id.dest = e.dest ∧
    packet.metric ≤ e.metric ∧ e'.From packet

/-- What an advert, if there is one, makes of the entries: the pinned ones stay as they may, and a
route is one of before or that of the advert. -/
structure Kept (advert : Option (PubKey × Packet)) (routes routes' : List RouteEntry) : Prop where
  pinned : Follow (Protected advert) (pinnedRoutes routes) (pinnedRoutes routes')
  routes : ∀ e' ∈ routes', (∃ e ∈ routes, e.SameRoute e') ∨
    ∃ id packet, advert = some (id, packet) ∧ e'.dest = id.dest ∧ e'.From packet

/-- What `rt_upsert` does to the entries. -/
inductive Upserted (routes : List RouteEntry) (dest : Bytes) (packet : Packet) :
    List RouteEntry → Prop
  | same : Upserted routes dest packet routes
  | refreshed {e : RouteEntry} : rtFind routes dest = some e → packet.metric ≤ e.metric →
      Upserted routes dest packet
        (modifyFirst (fun e => e.dest = dest)
          (.update packet.stored packet.stored.length packet.info.pathSize packet.metric) routes)
  | inserted : Upserted routes dest packet (routes ++ [packet.entry dest])
  | replaced {i : ℕ} {victim : RouteEntry} : routes[i]? = some victim → victim.pinned = false →
      Upserted routes dest packet (routes.set i (packet.entry dest))

theorem RouteEntry.SameRoute.rfl {e : RouteEntry} : e.SameRoute e :=
  ⟨Eq.refl _, Eq.refl _, Eq.refl _, Eq.refl _, Eq.refl _⟩

theorem Protected.rfl {advert : Option (PubKey × Packet)} {e : RouteEntry}
    (pinned : e.pinned = true) : Protected advert e e :=
  ⟨Eq.refl _, pinned, Nat.le_refl _, .inl .rfl⟩

/-! ### Ageing -/

theorem ageEntry_eq_grown (e : RouteEntry) : ageEntry e = some (grown e) := by
  have small : e.counter < 128 := Nat.mod_lt _ (by decide)
  unfold ageEntry grown
  by_cases pinned : e.pinned = true
  · rw [if_pos pinned, if_pos pinned]
  · rw [if_neg pinned, if_neg pinned, u8_of_lt (by omega)]
    rfl

theorem grown_of_pinned {e : RouteEntry} (pinned : e.pinned = true) : grown e = some e :=
  if_pos pinned

/-- An entry that ageing keeps has its route and its flag. -/
theorem sameRoute_of_grown {e e' : RouteEntry} (kept : grown e = some e') :
    e.SameRoute e' ∧ e'.pinned = e.pinned := by
  unfold grown at kept
  split_ifs at kept with pinned expired
  · cases kept
    exact ⟨.rfl, Eq.refl _⟩
  · cases kept
    have young : e.counter + 1 < 2 ^ 7 := by
      have max : rtMaxAge = 3 := Eq.refl _
      omega
    refine ⟨⟨Eq.refl _, Eq.refl _, Eq.refl _, Eq.refl _, Eq.refl _⟩, ?_⟩
    rw [Bool.eq_false_iff.mpr pinned]
    exact Nat.testBit_lt_two_pow young

theorem pinnedRoutes_filterMap_grown (routes : List RouteEntry) :
    pinnedRoutes (routes.filterMap grown) = pinnedRoutes routes := by
  induction routes with
  | nil => rfl
  | cons e routes ih =>
      unfold pinnedRoutes at ih ⊢
      cases pinned : e.pinned with
      | true =>
          rw [List.filterMap_cons_some (grown_of_pinned pinned), List.filter_cons_of_pos pinned,
            List.filter_cons_of_pos pinned, ih]
      | false =>
          rw [List.filter_cons_of_neg (by simp [pinned])]
          cases kept : grown e with
          | none => rw [List.filterMap_cons_none kept, ih]
          | some e' =>
              have flag := (sameRoute_of_grown kept).2
              rw [List.filterMap_cons_some kept, List.filter_cons_of_neg (by simp [flag, pinned]),
                ih]

/-- Counting an advert, in any table. -/
theorem tick_any (table : Table) : ∃ ticked, table.tick = some ticked ∧
    (ticked.routes = table.routes ∨ ticked.routes.Perm (table.routes.filterMap grown)) := by
  unfold Table.tick
  simp only
  split_ifs
  · obtain ⟨routes, swept, perm⟩ := sweep_perm (l := table.routes) (g := grown)
      fun e _ => ageEntry_eq_grown e
    rw [rtAgeEntries, swept]
    exact ⟨_, rfl, .inr perm⟩
  · exact ⟨_, rfl, .inl rfl⟩

/-! ### Writing -/

/-- `rt_upsert` with what an advert says, in any table. -/
theorem rtUpsert_any (table : Table) (dest : Bytes) (packet : Packet) {revPath : Bytes}
    (path : revPath.take packet.stored.length = packet.stored) :
    ∃ table' upsert, rtUpsert table dest revPath packet.stored.length packet.info.pathSize
        packet.metric = some (table', upsert) ∧
      Upserted table.routes dest packet table'.routes := by
  have fits : min packet.stored.length rtPathCap = packet.stored.length :=
    Nat.min_eq_left packet.length_stored.1
  have limit : rtAdmitPerCycle = 16 := rfl
  have slots : rtMaxRoutes = 128 := rfl
  unfold rtUpsert
  simp only [fits, path]
  cases found : rtFind table.routes dest with
  | some e =>
      simp only
      split_ifs with better
      · exact ⟨_, _, rfl, .refreshed found better⟩
      · exact ⟨_, _, rfl, .same⟩
  | none =>
      simp only
      by_cases limited : table.admitsThisCycle ≥ rtAdmitPerCycle
      · rw [if_pos limited]
        exact ⟨_, _, rfl, .same⟩
      by_cases free : table.routes.length < rtMaxRoutes
      · rw [if_neg limited, if_pos free, u8_of_lt (by omega), u8_of_lt (by omega)]
        exact ⟨_, _, rfl, .inserted⟩
      rw [if_neg limited, if_neg free]
      have searched := worst_worstLoop table.routes
      generalize worstLoop none 0 table.routes = outcome at searched ⊢
      rcases outcome with - | ⟨i, victim⟩
      · exact ⟨_, _, rfl, .same⟩
      · simp only
        split_ifs
        · exact ⟨_, _, rfl, .same⟩
        · rw [u8_of_lt (by omega)]
          exact ⟨_, _, rfl, .replaced searched.here searched.unpinned⟩

/-- An advert, in any table: it ages the entries or not, and then writes. -/
theorem hear_any (table : Table) (id : PubKey) (packet : Packet) :
    ∃ ticked table' upsert, table.hear id packet = some (table', upsert) ∧
      (ticked = table.routes ∨ ticked.Perm (table.routes.filterMap grown)) ∧
      Upserted ticked id.dest packet table'.routes := by
  obtain ⟨revPath, heard, path⟩ := packet.heard_eq
  obtain ⟨ticked, tick, aged⟩ := tick_any table
  obtain ⟨table', upsert, done, upserted⟩ := rtUpsert_any ticked id.dest packet path
  refine ⟨ticked.routes, table', upsert, ?_, aged, upserted⟩
  simp only [Table.hear, heard, tick, Option.bind_eq_bind, Option.bind_some, done]

/-! ### What the entries are after a call -/

section

variable {advert : Option (PubKey × Packet)} {routes routes' : List RouteEntry} {id : PubKey}
  {packet : Packet}

theorem RouteEntry.SameRoute.trans {e e' e'' : RouteEntry} (first : e.SameRoute e')
    (second : e'.SameRoute e'') : e.SameRoute e'' :=
  ⟨second.dest.trans first.dest, second.path.trans first.path,
    second.pathBytes.trans first.pathBytes, second.hashSz.trans first.hashSz,
    second.metric.trans first.metric⟩

theorem RouteEntry.SameRoute.from {e e' : RouteEntry} (same : e.SameRoute e')
    (source : e.From packet) : e'.From packet :=
  ⟨same.path.trans source.path, same.pathBytes.trans source.pathBytes,
    same.hashSz.trans source.hashSz, same.metric.trans source.metric⟩

theorem protected_pinned : ∀ e ∈ pinnedRoutes routes, Protected advert e e :=
  fun _ mem => .rfl (List.mem_filter.mp mem).2

theorem Kept.rfl : Kept advert routes routes :=
  ⟨.refl protected_pinned, fun e mem => .inl ⟨e, mem, .rfl⟩⟩

/-- Ageing before a call. -/
theorem Kept.of_grown {ticked : List RouteEntry}
    (aged : ticked = routes ∨ ticked.Perm (routes.filterMap grown))
    (kept : Kept advert ticked routes') : Kept advert routes routes' := by
  rcases aged with rfl | perm
  · exact kept
  · have pinned : (pinnedRoutes ticked).Perm (pinnedRoutes routes) :=
      (perm.filter _).trans (.of_eq (pinnedRoutes_filterMap_grown routes))
    refine ⟨kept.pinned.of_perm pinned, fun e' mem => ?_⟩
    rcases kept.routes e' mem with ⟨e, old, same⟩ | new
    · obtain ⟨e₀, mem₀, older⟩ := List.mem_filterMap.mp (perm.mem_iff.mp old)
      exact .inl ⟨e₀, mem₀, (sameRoute_of_grown older).1.trans same⟩
    · exact .inr new

/-- The age is reset, except for the flag. -/
theorem pinned_update (e : RouteEntry) (path : Bytes) (pathBytes hashSz metric : ℕ) :
    (e.update path pathBytes hashSz metric).pinned = e.pinned := by
  change (if e.pinned = true then rtPinnedBit else 0).testBit 7 = e.pinned
  cases e.pinned <;> decide

theorem counter_update (e : RouteEntry) (path : Bytes) (pathBytes hashSz metric : ℕ) :
    (e.update path pathBytes hashSz metric).counter = 0 := by
  change (if e.pinned = true then rtPinnedBit else 0) % 128 = 0
  cases e.pinned <;> decide

theorem Packet.pinned_entry (packet : Packet) (dest : Bytes) : (packet.entry dest).pinned = false :=
  Nat.zero_testBit 7

theorem Packet.from_entry (packet : Packet) (dest : Bytes) : (packet.entry dest).From packet :=
  ⟨Eq.refl _, Eq.refl _, Eq.refl _, Eq.refl _⟩

/-- A write of `rt_upsert`. -/
theorem Kept.upserted (upserted : Upserted routes id.dest packet routes') :
    Kept (some (id, packet)) routes routes' := by
  cases upserted with
  | same => exact .rfl
  | @refreshed e found better =>
      have here : e.dest = id.dest := by simpa using List.find?_some found
      refine ⟨⟨_, .refl _, ?_⟩, fun e' mem => ?_⟩
      · refine forall₂_filter_modifyFirst (pinned_update · _ _ _ _) (fun _ => .rfl) ?_
        intro e' first pinned
        obtain rfl : e = e' := Option.some.inj (found.symm.trans first)
        exact ⟨Eq.refl _, (pinned_update ..).trans pinned,
          (counter_update ..).trans_le (Nat.zero_le _), .inr ⟨id, packet, Eq.refl _, here.symm,
            better, Eq.refl _, Eq.refl _, Eq.refl _, Eq.refl _⟩⟩
      · rcases mem_modifyFirst mem with old | ⟨e₀, -, first, rfl⟩
        · exact .inl ⟨e', old, .rfl⟩
        · obtain rfl : e = e₀ := Option.some.inj (found.symm.trans first)
          exact .inr ⟨id, packet, Eq.refl _, here, Eq.refl _, Eq.refl _, Eq.refl _, Eq.refl _⟩
  | inserted =>
      have same : pinnedRoutes (routes ++ [packet.entry id.dest]) = pinnedRoutes routes := by
        rw [pinnedRoutes, List.filter_append,
          List.filter_cons_of_neg (by simp [packet.pinned_entry]), List.filter_nil, List.append_nil]
        rfl
      refine ⟨same.symm ▸ .refl protected_pinned, fun e' mem => ?_⟩
      rcases List.mem_append.mp mem with old | new
      · exact .inl ⟨e', old, .rfl⟩
      · rw [List.mem_singleton.mp new]
        exact .inr ⟨id, packet, Eq.refl _, Eq.refl _, packet.from_entry _⟩
  | @replaced i victim here unpinned =>
      have same : pinnedRoutes (routes.set i (packet.entry id.dest)) = pinnedRoutes routes :=
        filter_set_of_neg here unpinned (packet.pinned_entry _)
      refine ⟨same.symm ▸ .refl protected_pinned, fun e' mem => ?_⟩
      rcases List.mem_or_eq_of_mem_set mem with old | new
      · exact .inl ⟨e', old, .rfl⟩
      · rw [new]
        exact .inr ⟨id, packet, Eq.refl _, Eq.refl _, packet.from_entry _⟩

/-- A use changes the count only. -/
theorem Kept.used (table : Table) (dest : Bytes) :
    Kept advert table.routes (Node.used table dest).routes := by
  have route (e : RouteEntry) : e.SameRoute e.use := by
    rw [Node.use_eq]
    exact ⟨Eq.refl _, Eq.refl _, Eq.refl _, Eq.refl _, Eq.refl _⟩
  have flag (e : RouteEntry) : e.use.pinned = e.pinned := by
    rw [Node.use_eq]
    rfl
  have age (e : RouteEntry) : e.use.counter = e.counter := by
    rw [Node.use_eq]
    rfl
  refine ⟨⟨_, .refl _, forall₂_filter_modifyFirst flag (fun _ => .rfl) ?_⟩, fun e' mem => ?_⟩
  · exact fun e _ pinned =>
      ⟨(route e).dest, (flag e).trans pinned, (age e).le, .inl (route e)⟩
  · rcases mem_modifyFirst mem with old | ⟨e, old, -, rfl⟩
    · exact .inl ⟨e', old, .rfl⟩
    · exact .inl ⟨e, old, route e⟩

end

/-! ### Calls -/

namespace Node

variable {node node' : Node} {call : Call} {effects : List Effect}

/-- The advert that a call brings to the routing table. -/
def Call.advert (selfId : PubKey) : Call → Option (PubKey × Packet)
  | .onAdvertRecv packet id _ => if id = selfId then none else some (id, packet)
  | _ => none

/-- Whether a call is an advert or a send. -/
def Call.isAdvertOrSend : Call → Bool
  | .onAdvertRecv .. => true
  | .sendTextTo .. => true
  | _ => false

/-- What the calls make of a pinned entry, one after the other. -/
inductive ProtectedOver (selfId : PubKey) : List Call → RouteEntry → RouteEntry → Prop
  | start {e : RouteEntry} : ProtectedOver selfId [] e e
  | next {call : Call} {calls : List Call} {e e' e'' : RouteEntry} :
      Protected (call.advert selfId) e e' → ProtectedOver selfId calls e' e'' →
      ProtectedOver selfId (call :: calls) e e''

theorem advert_onAdvertRecv (selfId : PubKey) (packet : Packet) (id : PubKey) (appData : Bytes) :
    (Call.onAdvertRecv packet id appData).advert selfId =
      if id = selfId then none else some (id, packet) := rfl

/-- An advert is received whatever the table is. -/
theorem onAdvertRecv_any (node : Node) (packet : Packet) (id : PubKey) (appData : Bytes) :
    ∃ node' effects, node.onAdvertRecv packet id appData = some (node', effects) ∧
      node'.selfId = node.selfId ∧
      Kept ((Call.onAdvertRecv packet id appData).advert node.selfId) node.table.routes
        node'.table.routes := by
  rw [onAdvertRecv, advert_onAdvertRecv]
  by_cases own : id = node.selfId
  · rw [if_pos own, if_pos own]
    exact ⟨node, [], rfl, rfl, .rfl⟩
  · obtain ⟨c, known, -⟩ := addContact_eq node.contacts id
    obtain ⟨ticked, table, upsert, heard, aged, upserted⟩ := hear_any node.table id packet
    rw [if_neg own, if_neg own]
    simp only [known, heard, Option.bind_eq_bind, Option.bind_some]
    exact ⟨_, _, rfl, rfl, (Kept.upserted upserted).of_grown aged⟩

theorem sendTextTo_any (node : Node) (destPubHex text timestamp : Bytes) (created : Bool) :
    (node.sendTextTo destPubHex text timestamp created).1.selfId = node.selfId ∧
      Kept none node.table.routes
        (node.sendTextTo destPubHex text timestamp created).1.table.routes := by
  rcases sendTextTo_eq node destPubHex text timestamp created with same | ⟨dest, counted⟩
  · rw [same]
    exact ⟨rfl, .rfl⟩
  · rw [counted]
    exact ⟨rfl, .used node.table dest⟩

/-- A call about a peer leaves the routing table as it is. -/
theorem table_onPeerDataRecv {packet : Packet} {type : ℕ} {senderIdx : ℤ} {data : Bytes}
    {created : Bool}
    (received : node.onPeerDataRecv packet type senderIdx data created = some (node', effects)) :
    node'.selfId = node.selfId ∧ node'.table = node.table := by
  unfold onPeerDataRecv at received
  cases peer : node.peerIndex senderIdx with
  | none => simp [peer] at received
  | some found =>
      rcases found with - | ⟨idx, c⟩
      · simp only [peer, Option.bind_eq_bind, Option.bind_some] at received
        cases received
        exact ⟨rfl, rfl⟩
      · simp only [peer, Option.bind_eq_bind, Option.bind_some, exchangeLoop_full] at received
        by_cases guard : exchanges packet type c = true
        · rw [if_pos guard] at received
          cases received
          exact ⟨rfl, rfl⟩
        · rw [if_neg guard] at received
          cases received
          exact ⟨rfl, rfl⟩

theorem table_onPeerPathRecv {senderIdx : ℤ} {path : ℕ → UInt8} {pathLen : UInt8}
    (received : node.onPeerPathRecv senderIdx path pathLen = some (node', effects)) :
    node'.selfId = node.selfId ∧ node'.table = node.table := by
  unfold onPeerPathRecv at received
  cases peer : node.peerIndex senderIdx with
  | none => simp [peer] at received
  | some found =>
      rcases found with - | ⟨idx, c⟩
      · simp only [peer, Option.bind_eq_bind, Option.bind_some] at received
        cases received
        exact ⟨rfl, rfl⟩
      · simp only [peer, Option.bind_eq_bind, Option.bind_some] at received
        cases received
        exact ⟨rfl, rfl⟩

/-- One call. -/
theorem kept_step (stepped : node.step call = some (node', effects)) :
    node'.selfId = node.selfId ∧
      Kept (call.advert node.selfId) node.table.routes node'.table.routes := by
  cases call with
  | searchPeersByHash isHashMatch =>
      cases stepped
      exact ⟨rfl, .rfl⟩
  | onPeerDataRecv packet type senderIdx data created =>
      obtain ⟨selfId, table⟩ := table_onPeerDataRecv stepped
      exact ⟨selfId, table ▸ .rfl⟩
  | onPeerPathRecv senderIdx path pathLen =>
      obtain ⟨selfId, table⟩ := table_onPeerPathRecv stepped
      exact ⟨selfId, table ▸ .rfl⟩
  | onAdvertRecv packet id appData =>
      obtain ⟨node₁, effects₁, received, selfId, kept⟩ := onAdvertRecv_any node packet id appData
      cases received.symm.trans stepped
      exact ⟨selfId, kept⟩
  | sendTextTo destPubHex text timestamp created =>
      cases stepped
      exact sendTextTo_any node destPubHex text timestamp created

/-- Adverts and sends succeed. -/
theorem step_any (node : Node) (kind : call.isAdvertOrSend = true) :
    ∃ result, node.step call = some result := by
  cases call with
  | onAdvertRecv packet id appData =>
      obtain ⟨node', effects, received, -⟩ := onAdvertRecv_any node packet id appData
      exact ⟨_, received⟩
  | sendTextTo destPubHex text timestamp created => exact ⟨_, rfl⟩
  | searchPeersByHash isHashMatch => cases kind
  | onPeerDataRecv packet type senderIdx data created => cases kind
  | onPeerPathRecv senderIdx path pathLen => cases kind

/-- Adverts and sends, over a sequence of them. -/
theorem exec_any (node : Node) {calls : List Call}
    (kinds : ∀ call ∈ calls, call.isAdvertOrSend = true) :
    ∃ result, exec step node calls = some result := by
  induction calls generalizing node with
  | nil => exact ⟨_, rfl⟩
  | cons call calls ih =>
      obtain ⟨⟨middle, effects⟩, stepped⟩ := step_any node (kinds call List.mem_cons_self)
      obtain ⟨result, rest⟩ := ih middle fun call mem => kinds call (List.mem_cons_of_mem _ mem)
      rw [exec, stepped]
      simp only [rest, Option.map_some]
      exact ⟨_, rfl⟩

/-- A sequence of calls starts with its first one. -/
theorem exec_cons {calls : List Call}
    (run : exec step node (call :: calls) = some (node', effects)) :
    ∃ middle first rest, node.step call = some (middle, first) ∧
      exec step middle calls = some (node', rest) := by
  rw [exec] at run
  cases stepped : node.step call with
  | none => simp [stepped] at run
  | some result =>
      simp only [stepped, Option.map_eq_some_iff] at run
      obtain ⟨⟨last, rest⟩, later, same⟩ := run
      cases same
      exact ⟨result.1, result.2, rest, rfl, later⟩

theorem ProtectedOver.frame {selfId : PubKey} {calls : List Call} {e e' : RouteEntry}
    (over' : ProtectedOver selfId calls e e') : e'.dest = e.dest ∧ e'.counter ≤ e.counter := by
  induction over' with
  | start => exact ⟨rfl, Nat.le_refl _⟩
  | next first _ ih => exact ⟨ih.1.trans first.dest, ih.2.trans first.counter⟩

/-- The pinned entries over a sequence of calls. -/
theorem follow_exec {calls : List Call} (run : exec step node calls = some (node', effects)) :
    Follow (ProtectedOver node.selfId calls) (pinnedRoutes node.table.routes)
      (pinnedRoutes node'.table.routes) := by
  induction calls generalizing node effects with
  | nil =>
      cases run
      exact .refl fun _ _ => .start
  | cons call calls ih =>
      obtain ⟨middle, first, rest, stepped, later⟩ := exec_cons run
      obtain ⟨selfId, kept⟩ := kept_step stepped
      have followed := ih later
      rw [selfId] at followed
      exact kept.pinned.trans followed fun _ _ _ => .next

/-- Where the routes come from over a sequence of calls. -/
theorem routes_exec {calls : List Call} (run : exec step node calls = some (node', effects)) :
    ∀ e' ∈ node'.table.routes, (∃ e ∈ node.table.routes, e.SameRoute e') ∨
      ∃ call ∈ calls, ∃ id packet, call.advert node.selfId = some (id, packet) ∧
        e'.dest = id.dest ∧ e'.From packet := by
  induction calls generalizing node effects with
  | nil =>
      cases run
      exact fun e mem => .inl ⟨e, mem, .rfl⟩
  | cons call calls ih =>
      intro e' mem
      obtain ⟨middle, first, rest, stepped, later⟩ := exec_cons run
      obtain ⟨selfId, kept⟩ := kept_step stepped
      rcases ih later e' mem with ⟨e, old, same⟩ | ⟨call', mem', id, packet, advert, here, source⟩
      · rcases kept.routes e old with ⟨e₀, older, same₀⟩ | ⟨id, packet, advert, here, source⟩
        · exact .inl ⟨e₀, older, same₀.trans same⟩
        · exact .inr ⟨call, List.mem_cons_self, id, packet, advert, same.dest.trans here,
            same.from source⟩
      · rw [selfId] at advert
        exact .inr ⟨call', List.mem_cons_of_mem _ mem', id, packet, advert, here, source⟩

/-- Over every sequence of calls the pinned entries are the ones from before, at whatever places,
with their keys and ages that are not higher, and their routes change with the adverts for their
keys only. Adverts and sends always succeed. -/
theorem pinned_protected (node : Node) (calls : List Call) :
    ((∀ call ∈ calls, call.isAdvertOrSend = true) →
      ∃ result, exec step node calls = some result) ∧
    ∀ node' effects, exec step node calls = some (node', effects) →
      Follow (fun e e' => e'.dest = e.dest ∧ e'.pinned = true ∧ e'.counter ≤ e.counter ∧
          ProtectedOver node.selfId calls e e')
        (pinnedRoutes node.table.routes) (pinnedRoutes node'.table.routes) := by
  refine ⟨exec_any node, fun node' effects run => (follow_exec run).imp fun e e' mem over' => ?_⟩
  exact ⟨over'.frame.1, (List.mem_filter.mp mem).2, over'.frame.2, over'⟩

/-- The loop of `onAdvertRecv` reverses the relays of a path that fits, in the bounds of both
arrays; of a longer one it takes nothing. Every route of a table was there before or is that of an
advert, whole or empty. -/
theorem advert_path_whole :
    (∀ packet : Packet,
      if packet.info.pathCount * packet.info.pathSize ≤ rtPathCap then
        (∀ i < packet.info.pathCount,
          (packet.info.pathCount - 1 - i) * packet.info.pathSize + packet.info.pathSize ≤
            packet.info.pathBytes.length ∧
          i * packet.info.pathSize + packet.info.pathSize ≤ rtPathCap) ∧
        ∃ revPath, packet.heard =
            some ⟨revPath, packet.relays.reverse.flatten.length, packet.info.pathSize,
              packet.metric⟩ ∧
          revPath.length = rtPathCap ∧ packet.relays.reverse.flatten <+: revPath
      else packet.heard =
        some ⟨List.replicate rtPathCap 0, 0, packet.info.pathSize, packet.metric⟩) ∧
    ∀ node calls node' effects, exec step node calls = some (node', effects) →
      ∀ e' ∈ node'.table.routes, (∃ e ∈ node.table.routes, e.SameRoute e') ∨
        ∃ call ∈ calls, ∃ id packet, call.advert node.selfId = some (id, packet) ∧
          e'.dest = id.dest ∧ e'.From packet := by
  refine ⟨fun packet => ?_, fun _ _ _ _ run => routes_exec run⟩
  split_ifs with short
  · refine ⟨fun i inside => ⟨?_, ?_⟩, packet.relays.reverse.flatten ++
      List.replicate (rtPathCap - packet.info.pathCount * packet.info.pathSize) 0, ?_, ?_,
      List.prefix_append _ _⟩
    · have source : (packet.info.pathCount - 1 - i + 1) * packet.info.pathSize ≤
          packet.info.pathCount * packet.info.pathSize := Nat.mul_le_mul_right _ (by omega)
      rw [packet.length_pathBytes, ← Nat.succ_mul]
      exact source
    · have destination : (i + 1) * packet.info.pathSize ≤
          packet.info.pathCount * packet.info.pathSize := Nat.mul_le_mul_right _ inside
      rw [← Nat.succ_mul]
      exact destination.trans short
    · rw [packet.length_reverse_flatten, packet.heard_of_short short]
    · rw [List.length_append, packet.length_reverse_flatten, List.length_replicate]
      omega
  · exact packet.heard_of_long (Nat.not_le.mp short)

end Node

end MeshcoreSim.Nexthop
