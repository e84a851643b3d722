import MeshcoreSim.Hex
import MeshcoreSim.Lib.Chunks
import MeshcoreSim.Lib.Run
import MeshcoreSim.Lib.Sweep
import MeshcoreSim.Packet.Wire

/-!
The node of the nexthop experiment (`privatemesh/nexthop/SimNode.cpp`): its routing table and the
calls that read or write it.

The packet layer below the node is not part of the repository. What it hands to a call (packets,
the results of a decryption) and whether it can create a packet are arguments of the call. The
shared secrets, which only that layer reads, are left out, and so are the texts of what is printed.

A `uint8_t` is a number below 256, and `u8` is `none` where a computation does not fit. Writes
and reads outside of an array are `none` as well.
-/

namespace MeshcoreSim.Nexthop

open Lib

def rtMaxRoutes : ℕ := 128
def rtMaxAge : ℕ := 3
def rtPathCap : ℕ := 64
def rtAgeEvery : ℕ := 16
def rtAdmitPerCycle : ℕ := 16
def rtPinnedBit : ℕ := 0x80

def payloadTypeTxtMsg : ℕ := 2

/-- A value that is stored in a `uint8_t`. -/
def u8 (n : ℕ) : Option ℕ := if n < 256 then some n else none

/-- A public key. -/
@[ext] structure PubKey where
  bytes : Bytes
  length_bytes : bytes.length = 32

instance : DecidableEq PubKey := fun id id' =>
  decidable_of_iff (id.bytes = id'.bytes) PubKey.ext_iff.symm

/-- The first 4 bytes of a key, by which the routing table finds it. -/
def PubKey.dest (id : PubKey) : Bytes := id.bytes.take 4

/-- A public key that starts with a byte. -/
def keyOf (n : ℕ) : PubKey := ⟨UInt8.ofNat n :: List.replicate 31 0, rfl⟩

/-- A packet as it is received. -/
structure Packet where
  info : PacketInfo
  inRange : info.InRange

namespace Packet

variable (packet : Packet)

def isRouteFlood : Bool :=
  packet.info.routeType = routeTypeFlood ∨ packet.info.routeType = routeTypeTransportFlood

def isRouteDirect : Bool :=
  packet.info.routeType = routeTypeDirect ∨ packet.info.routeType = routeTypeTransportDirect

/-- The `path_len` byte, in its encoded form. -/
def pathLen : ℕ := (pathLenByte packet.info.pathCount packet.info.pathSize).toNat

end Packet

/-- An advert that one relay has forwarded. -/
def oneHopAdvert : Packet :=
  ⟨⟨routeTypeFlood, 4, 0, 1, 1, [0xA1], []⟩, by constructor <;> decide⟩

/-! ### The routing table -/

/-- `path` holds the `pathBytes` bytes that were written; the array keeps older ones behind. -/
structure RouteEntry where
  dest : Bytes
  path : Bytes
  pathBytes : ℕ
  hashSz : ℕ
  metric : ℕ
  age : ℕ
  useCount : ℕ
  deriving DecidableEq, Repr

/-- `age & RT_PINNED_BIT`. -/
def RouteEntry.pinned (e : RouteEntry) : Bool := e.age.testBit 7

/-- `age & RT_AGE_MASK`. -/
def RouteEntry.counter (e : RouteEntry) : ℕ := e.age % 128

/-- What `rt_upsert` writes to an existing entry: the age is reset, and the pinned bit kept. -/
def RouteEntry.update (path : Bytes) (pathBytes hashSz metric : ℕ) (e : RouteEntry) : RouteEntry :=
  { e with
    path := path
    pathBytes := pathBytes
    hashSz := hashSz
    metric := metric
    age := if e.pinned then rtPinnedBit else 0 }

/-- Track that the route is used. -/
def RouteEntry.use (e : RouteEntry) : RouteEntry :=
  if e.useCount < 255 then { e with useCount := e.useCount + 1 } else e

/-- The routing table: the live entries, and the two counters beside them. -/
structure Table where
  routes : List RouteEntry
  advertSeen : ℕ
  admitsThisCycle : ℕ
  deriving DecidableEq, Repr

def Table.empty : Table := ⟨[], 0, 0⟩

/-- What `rt_upsert` did. -/
inductive Upsert where
  | refreshed
  | longer
  | admissionLimit
  | inserted
  | allPinned
  | useless
  | evicted (victim : RouteEntry)
  deriving DecidableEq, Repr

def rtFind (routes : List RouteEntry) (dest : Bytes) : Option RouteEntry :=
  routes.find? fun e => e.dest = dest

/-- The body of the loop of `rt_age_entries`: the entry with its new age, or nothing where it is
evicted. -/
def ageEntry (e : RouteEntry) : Option (Option RouteEntry) :=
  if e.pinned then some (some e)
  else (u8 (e.counter + 1)).map fun newAge =>
    if newAge > rtMaxAge then none else some { e with age := newAge }

def rtAgeEntries (table : Table) : Option Table :=
  (sweep ageEntry table.routes).map fun routes =>
    { table with routes := routes, admitsThisCycle := 0 }

/-- Whether the search for a victim prefers an entry to the worst one so far. -/
def preferred (entry worst : RouteEntry) : Bool :=
  let iUseless := entry.pathBytes = 0
  let wUseless := worst.pathBytes = 0
  if iUseless ∧ ¬ wUseless then true
  else if iUseless ↔ wUseless then
    if ¬ iUseless then
      if worst.useCount > 0 ∧ entry.useCount = 0 then true
      else entry.useCount = worst.useCount ∧ entry.counter > worst.counter
    else entry.counter > worst.counter
  else false

/-- The search for a victim, from place `i` on. -/
def worstLoop (worst : Option (ℕ × RouteEntry)) (i : ℕ) :
    List RouteEntry → Option (ℕ × RouteEntry)
  | [] => worst
  | entry :: rest =>
      let worst' :=
        if entry.pinned then worst
        else match worst with
          | none => some (i, entry)
          | some (_, w) => if preferred entry w then some (i, entry) else worst
      worstLoop worst' (i + 1) rest

def rtUpsert (table : Table) (dest revPath : Bytes) (pathBytes hashSz metric : ℕ) :
    Option (Table × Upsert) :=
  let n := min pathBytes rtPathCap
  let fresh : RouteEntry := ⟨dest, revPath.take n, n, hashSz, metric, 0, 0⟩
  match rtFind table.routes dest with
  | some e =>
      if metric ≤ e.metric then
        let routes :=
          modifyFirst (fun e => e.dest = dest) (.update (revPath.take n) n hashSz metric)
            table.routes
        some ({ table with routes := routes }, .refreshed)
      else some (table, .longer)
  | none =>
      if table.admitsThisCycle ≥ rtAdmitPerCycle then some (table, .admissionLimit)
      else if table.routes.length < rtMaxRoutes then do
        let _ ← u8 (table.routes.length + 1)
        let admits ← u8 (table.admitsThisCycle + 1)
        return ({ table with routes := table.routes ++ [fresh], admitsThisCycle := admits },
          .inserted)
      else match worstLoop none 0 table.routes with
        | none => some (table, .allPinned)
        | some (i, victim) =>
            if pathBytes = 0 then some (table, .useless)
            else do
              let admits ← u8 (table.admitsThisCycle + 1)
              return ({ table with routes := table.routes.set i fresh, admitsThisCycle := admits },
                .evicted victim)

/-- Count an advert, and age the entries with every sixteenth one. -/
def Table.tick (table : Table) : Option Table :=
  let counted := { table with advertSeen := (table.advertSeen + 1) % 2 ^ 32 }
  if counted.advertSeen % rtAgeEvery = 0 then rtAgeEntries counted else some counted

/-- The loop of `onAdvertRecv` that reverses the path: the array `rev_path` and `rev_bytes` before
iteration `i`. -/
def reverseLoop (path : Bytes) (hashSz hashCnt : ℕ) : ℕ → Option (Bytes × ℕ)
  | 0 => some (List.replicate rtPathCap 0, 0)
  | i + 1 => do
      let (revPath, revBytes) ← reverseLoop path hashSz hashCnt i
      let srcOff ← u8 ((hashCnt - 1 - i) * hashSz)
      let dstOff ← u8 (i * hashSz)
      let written ← memcpy revPath dstOff ((path.drop srcOff).take hashSz)
      return (written, ← u8 (revBytes + hashSz))

/-- What an advert says about the route to its sender, as `onAdvertRecv` passes it to
`rt_upsert`. -/
structure Heard where
  revPath : Bytes
  revBytes : ℕ
  hashSz : ℕ
  metric : ℕ
  deriving DecidableEq, Repr

def Packet.heard (packet : Packet) : Option Heard := do
  let hashSz := packet.info.pathSize
  let hashCnt := packet.info.pathCount
  let metric ← u8 (hashCnt + 1)
  let fullPathBytes ← u8 (hashCnt * hashSz)
  if fullPathBytes > rtPathCap then return ⟨List.replicate rtPathCap 0, 0, hashSz, metric⟩
  else
    let (revPath, revBytes) ← reverseLoop packet.info.pathBytes hashSz hashCnt hashCnt
    return ⟨revPath, revBytes, hashSz, metric⟩

/-- The routing table update of `onAdvertRecv`. -/
def Table.hear (table : Table) (id : PubKey) (packet : Packet) : Option (Table × Upsert) := do
  let heard ← packet.heard
  let ticked ← table.tick
  rtUpsert ticked id.dest heard.revPath heard.revBytes heard.hashSz heard.metric

/-! ### The node -/

structure Contact where
  id : PubKey
  hasPath : Bool
  path : Bytes
  name : Bytes
  deriving DecidableEq

/-- The node, with the static variables of its file. -/
structure Node where
  selfId : PubKey
  contacts : List Contact
  searchResults : List ℕ
  table : Table

/-- The constructor. -/
def Node.init (selfId : PubKey) : Node := ⟨selfId, [], [], .empty⟩

/-- A packet that the node has created. -/
inductive Outgoing where
  | datagram (dest : PubKey) (payload : Bytes)
  | pathReturn (dest : PubKey) (path : Bytes) (pathLen : ℕ)
  deriving DecidableEq

/-- What is logged. -/
inductive Log where
  | pathTooLong (id : PubKey) (bytes : ℕ)
  | admissionLimit (dest : Bytes)
  | evicting (victim : RouteEntry)
  | pathExchange (hops : ℕ) (id : PubKey)
  | pathLearned (id : PubKey) (len : UInt8)
  | unknownDestination (destPubHex : Bytes)
  | createFailed
  | tableDirect (destPubHex : Bytes) (route : RouteEntry)
  deriving DecidableEq

/-- What a call does besides changing the node. -/
inductive Effect where
  | advert (contact : Contact)
  | recvText (contact : Contact) (text : Bytes)
  | recvData (contact : Contact) (type : ℕ) (data : Bytes)
  | log (line : Log)
  | sendDirect (packet : Outgoing) (path : Bytes) (pathLen : ℕ)
  | sendFlood (packet : Outgoing)
  deriving DecidableEq

/-- The log lines of `rt_upsert`. -/
def Upsert.effects (dest : Bytes) : Upsert → List Effect
  | .admissionLimit => [.log (.admissionLimit dest)]
  | .evicted victim =>
      if victim.pathBytes > 0 ∧ victim.useCount > 0 then [.log (.evicting victim)] else []
  | _ => []

namespace Node

variable (node : Node)

/-- `searchPeersByHash`, with the `isHashMatch` of the hash. -/
def searchPeersByHash (isHashMatch : PubKey → Bool) : Node :=
  { node with
    searchResults :=
      (List.range node.contacts.length).filter fun i =>
        (node.contacts[i]?).any fun c => isHashMatch c.id }

/-- The place in the contact list of the peer that a callback is about; the outer `none` where a
place is outside of the list. -/
def peerIndex (senderIdx : ℤ) : Option (Option (ℕ × Contact)) :=
  if senderIdx < 0 ∨ senderIdx ≥ node.searchResults.length then some none
  else do
    let idx ← node.searchResults[senderIdx.toNat]?
    let contact ← node.contacts[idx]?
    return some (idx, contact)

/-- The loop of the path exchange, which fills a path from its end: the path before
iteration `i`. -/
def exchangeLoop (path : Bytes) (sz cnt : ℕ) (resized : Bytes) : ℕ → Option Bytes
  | 0 => some resized
  | i + 1 => do
      let filled ← exchangeLoop path sz cnt resized i
      memcpy filled ((cnt - 1 - i) * sz) ((path.drop (i * sz)).take sz)

/-- `std::vector::resize`. -/
def resize (path : Bytes) (n : ℕ) : Bytes := path.take n ++ List.replicate (n - path.length) 0

/-- What is printed of the data. -/
def received (c : Contact) (type : ℕ) (data : Bytes) : Effect :=
  if type = payloadTypeTxtMsg ∧ data.length > 4 then .recvText c (data.drop 4)
  else .recvData c type data

/-- The guard of the path exchange. -/
def exchanges (packet : Packet) (type : ℕ) (c : Contact) : Bool :=
  type = payloadTypeTxtMsg ∧ (packet.isRouteFlood ∨ packet.isRouteDirect) ∧ ¬ c.hasPath ∧
    packet.info.pathCount > 0

/-- `onPeerDataRecv`; `created` says whether `createPathReturn` succeeds. -/
def onPeerDataRecv (packet : Packet) (type : ℕ) (senderIdx : ℤ) (data : Bytes) (created : Bool) :
    Option (Node × List Effect) := do
  match ← node.peerIndex senderIdx with
  | none => return (node, [])
  | some (idx, c) =>
      if exchanges packet type c then
        let sz := packet.info.pathSize
        let cnt := packet.info.pathCount
        let path ← exchangeLoop packet.info.pathBytes sz cnt (resize c.path (cnt * sz)) cnt
        let contacts := node.contacts.set idx { c with path := path, hasPath := true }
        let rpath : List Effect :=
          if created then [.sendFlood (.pathReturn c.id packet.info.pathBytes packet.pathLen)]
          else []
        return ({ node with contacts := contacts },
          received c type data :: rpath ++ [.log (.pathExchange cnt c.id)])
      else return (node, [received c type data])

/-- `onPeerPathRecv`, with the memory at the address `path`. -/
def onPeerPathRecv (senderIdx : ℤ) (path : ℕ → UInt8) (pathLen : UInt8) :
    Option (Node × List Effect) := do
  match ← node.peerIndex senderIdx with
  | none => return (node, [])
  | some (idx, c) =>
      let contacts :=
        node.contacts.set idx
          { c with hasPath := true, path := (List.range pathLen.toNat).map path }
      return ({ node with contacts := contacts }, [.log (.pathLearned c.id pathLen)])

/-- The contact list with an entry for `id`, and its place. -/
def addContact (contacts : List Contact) (id : PubKey) : List Contact × ℕ :=
  match contacts.findIdx? fun c => c.id = id with
  | some idx => (contacts, idx)
  | none => (contacts ++ [⟨id, false, [], []⟩], contacts.length)

/-- The application data of an advert up to a NUL is the name. -/
def rename (appData : Bytes) (c : Contact) : Contact :=
  if appData = [] then c else { c with name := appData.takeWhile (· ≠ 0) }

def onAdvertRecv (packet : Packet) (id : PubKey) (appData : Bytes) :
    Option (Node × List Effect) :=
  if id = node.selfId then some (node, [])
  else do
    let (added, idx) := addContact node.contacts id
    let contact ← added[idx]?
    let existing := rename appData contact
    let fullPathBytes := packet.info.pathCount * packet.info.pathSize
    let tooLong : List Effect :=
      if fullPathBytes > rtPathCap then [.log (.pathTooLong id fullPathBytes)] else []
    let (table, upsert) ← node.table.hear id packet
    return ({ node with contacts := added.set idx existing, table := table },
      .advert existing :: tooLong ++ upsert.effects id.dest)

/-- `sendTextTo`; `created` says whether `createDatagram` succeeds. -/
def sendTextTo (destPubHex text timestamp : Bytes) (created : Bool) :
    Node × List Effect × Bool :=
  match node.contacts.find? fun c => destPubHex.isPrefixOf (writeHex hexUc c.id.bytes) with
  | none => (node, [.log (.unknownDestination destPubHex)], false)
  | some target =>
      if ¬ created then (node, [.log .createFailed], false)
      else
        let pkt := Outgoing.datagram target.id (timestamp ++ text)
        match rtFind node.table.routes target.id.dest with
        | some r =>
            if r.metric > 1 ∧ r.pathBytes > 0 then
              let routes :=
                modifyFirst (fun e => e.dest = target.id.dest) RouteEntry.use node.table.routes
              ({ node with table := { node.table with routes := routes } },
                [.sendDirect pkt r.path r.pathBytes, .log (.tableDirect destPubHex r.use)], true)
            else (node, fallback target pkt, true)
        | none => (node, fallback target pkt, true)
where
  /-- Standard path-exchange direct or flood. -/
  fallback (target : Contact) (pkt : Outgoing) : List Effect :=
    if target.hasPath ∧ target.path ≠ [] then
      [.sendDirect pkt target.path (target.path.length % 256)]
    else [.sendFlood pkt]

/-- The calls that the packet layer and the main program make. -/
inductive Call where
  | searchPeersByHash (isHashMatch : PubKey → Bool)
  | onPeerDataRecv (packet : Packet) (type : ℕ) (senderIdx : ℤ) (data : Bytes) (created : Bool)
  | onPeerPathRecv (senderIdx : ℤ) (path : ℕ → UInt8) (pathLen : UInt8)
  | onAdvertRecv (packet : Packet) (id : PubKey) (appData : Bytes)
  | sendTextTo (destPubHex text timestamp : Bytes) (created : Bool)

/-- One call. -/
def step (node : Node) : Call → Option (Node × List Effect)
  | .searchPeersByHash isHashMatch => some (node.searchPeersByHash isHashMatch, [])
  | .onPeerDataRecv packet type senderIdx data created =>
      node.onPeerDataRecv packet type senderIdx data created
  | .onPeerPathRecv senderIdx path pathLen => node.onPeerPathRecv senderIdx path pathLen
  | .onAdvertRecv packet id appData => node.onAdvertRecv packet id appData
  | .sendTextTo destPubHex text timestamp created =>
      some ((node.sendTextTo destPubHex text timestamp created).1,
        (node.sendTextTo destPubHex text timestamp created).2.1)

end Node

end MeshcoreSim.Nexthop
