import MeshcoreSim.Lib.BinaryRounding
import MeshcoreSim.Lib.Thresholds
import MeshcoreSim.Nexthop.Calls
import MeshcoreSim.SimRNG
import Mathlib.Data.Rat.Floor

/-!
The node of the adaptive-delay experiment (`privatemesh/adaptive_delay/SimNode.cpp`), and its room
server.

The packet layer below the node is not part of the repository: as in `MeshcoreSim.Nexthop`, what it
hands to a call and whether it can create a packet are arguments of the call, and the shared
secrets and the texts of what is printed are left out. Keys, packets, contacts and the loops over
them are those of `MeshcoreSim.Nexthop`, whose source this one shares.

A `float` is a rational that `float` has rounded; all values here are zero or in the normal range.
-/

namespace MeshcoreSim.AdaptiveDelay

open Lib
open Nexthop (PubKey Packet Outgoing payloadTypeTxtMsg)
open Nexthop.Node (addContact rename exchangeLoop resize)

def payloadTypeAdvert : ℕ := 4

/-- A result of single precision. -/
def float (x : ℚ) : ℚ := roundTo 24 x

/-- `LORA_AIRTIME_MS`. -/
def loraAirtimeMs : ℚ := float 330

/-! ### The density table -/

structure DelayEntry where
  minNeighbors : ℤ
  txdelay : ℚ
  directTxdelay : ℚ

/-- An entry with the multipliers as they are written. -/
def delayEntry (minNeighbors : ℤ) (txdelay directTxdelay : ℚ) : DelayEntry :=
  ⟨minNeighbors, float txdelay, float directTxdelay⟩

/-- `DENSITY_TABLE[0]`. -/
def sparsest : DelayEntry := delayEntry 0 1 (4 / 10)

/-- The other entries of `DENSITY_TABLE`. -/
def denser : List DelayEntry :=
  [delayEntry 1 (11 / 10) (5 / 10),
    delayEntry 2 (12 / 10) (6 / 10),
    delayEntry 4 (13 / 10) (7 / 10),
    delayEntry 6 (15 / 10) (7 / 10),
    delayEntry 8 (17 / 10) (8 / 10),
    delayEntry 9 (18 / 10) (8 / 10),
    delayEntry 10 (19 / 10) (9 / 10),
    delayEntry 11 (20 / 10) (9 / 10),
    delayEntry 12 (21 / 10) (9 / 10)]

def densityTable : List DelayEntry := sparsest :: denser

/-- The loop of `_update_timing`, which ends at the first threshold above `n`. -/
def densityEntry (n : ℤ) : DelayEntry := reach DelayEntry.minNeighbors n sparsest denser

/-! ### The node -/

structure Node where
  isRelay : Bool
  selfId : PubKey
  txdelay : ℚ
  directTxdelay : ℚ
  prevNeighborCount : ℤ
  contacts : List Nexthop.Contact
  searchResults : List ℕ

/-- What is logged. -/
inductive Log where
  | pathExchange (hops : ℕ) (id : PubKey)
  | pathLearned (id : PubKey) (len : UInt8)
  | unknownDestination (destPubHex : Bytes)
  | createFailed
  deriving DecidableEq

/-- What a call does besides changing the node. -/
inductive Effect where
  | advert (contact : Nexthop.Contact)
  | txdelayUpdate (neighborCount : ℕ) (txdelay directTxdelay : ℚ)
  | recvText (contact : Nexthop.Contact) (text : Bytes)
  | recvData (contact : Nexthop.Contact) (type : ℕ) (data : Bytes)
  | roomPost (contact : Nexthop.Contact) (text : Bytes)
  | ack (crc : UInt32)
  | log (line : Log)
  | sendDirect (packet : Outgoing) (path : Bytes) (pathLen : ℕ)
  | sendFlood (packet : Outgoing)
  | floodAdvert (appData : Bytes)
  /-- The answer to the packet layer, in milliseconds. -/
  | retransmitDelay (packet : Packet) (ms : ℕ)

namespace Node

/-- The constructor. -/
def init (isRelay : Bool) (selfId : PubKey) : Node where
  isRelay := isRelay
  selfId := selfId
  txdelay := sparsest.txdelay
  directTxdelay := sparsest.directTxdelay
  prevNeighborCount := -1
  contacts := []
  searchResults := []

variable (node : Node)

/-- `_update_timing`. -/
def updateTiming : Node × List Effect :=
  let n := node.contacts.length
  if (n : ℤ) = node.prevNeighborCount then (node, [])
  else
    let best := densityEntry n
    ({ node with
        prevNeighborCount := n
        txdelay := best.txdelay
        directTxdelay := best.directTxdelay },
      [.txdelayUpdate n best.txdelay best.directTxdelay])

/-- The number that the four bytes in `buf` make up. -/
def drawn (buf : Bytes) : UInt32 :=
  (buf.getD 0 0).toUInt32 <<< 24 ||| (buf.getD 1 0).toUInt32 <<< 16 |||
    (buf.getD 2 0).toUInt32 <<< 8 ||| (buf.getD 3 0).toUInt32

/-- A fraction of a time, from a number that was drawn. -/
def backoff (maxMs : ℚ) (r : UInt32) : ℕ :=
  let frac := float (float r.toNat * float (float 1 / float 4294967296))
  ⌊float (frac * maxMs)⌋₊

/-- The width of the window of a packet that is not an advert. -/
def maxMs (packet : Packet) : ℚ :=
  let td := if packet.isRouteDirect then node.directTxdelay else node.txdelay
  float (float (float 5 * loraAirtimeMs) * td)

/-- `getRetransmitDelay`, with the state of the random number generator. -/
def getRetransmitDelay (packet : Packet) (rng : SimRNG) : ℕ × SimRNG :=
  if packet.info.payloadType = payloadTypeAdvert then (0, rng)
  else
    let (buf, rng) := rng.random 4
    (backoff (node.maxMs packet) (drawn buf), rng)

/-- `allowPacketForward`. -/
def allowPacketForward (_packet : Packet) : Bool := node.isRelay

/-- `searchPeersByHash`, with the `isHashMatch` of the hash. -/
def searchPeersByHash (isHashMatch : PubKey → Bool) : Node :=
  { node with
    searchResults :=
      (List.range node.contacts.length).filter fun i =>
        (node.contacts[i]?).any fun c => isHashMatch c.id }

/-- The place in the contact list of the peer that a callback is about; the outer `none` where a
place is outside of the list. -/
def peerIndex (senderIdx : ℤ) : Option (Option (ℕ × Nexthop.Contact)) :=
  if senderIdx < 0 ∨ senderIdx ≥ node.searchResults.length then some none
  else do
    let idx ← node.searchResults[senderIdx.toNat]?
    let contact ← node.contacts[idx]?
    return some (idx, contact)

/-- What is printed of the data. -/
def received (c : Nexthop.Contact) (type : ℕ) (data : Bytes) : Effect :=
  if type = payloadTypeTxtMsg ∧ data.length > 4 then .recvText c (data.drop 4)
  else .recvData c type data

/-- The guard of the path exchange. Unlike the one of the nexthop node it asks for a flood. -/
def exchanges (packet : Packet) (type : ℕ) (c : Nexthop.Contact) : Bool :=
  type = payloadTypeTxtMsg ∧ packet.isRouteFlood ∧ ¬ c.hasPath ∧ packet.info.pathCount > 0

/-- `onPeerDataRecv`; `created` says whether `createPathReturn` succeeds. -/
def onPeerDataRecv (packet : Packet) (type : ℕ) (senderIdx : ℤ) (data : Bytes) (created : Bool) :
    Option (Node × List Effect) := do
  match ← node.peerIndex senderIdx with
  | none => return (node, [])
  | some (idx, c) =>
      if exchanges packet type c then
        let sz := packet.info.pathSize
        let cnt := packet.info.pathCount
        let path ← exchangeLoop packet.info.pathBytes sz cnt
          (resize c.path (cnt * sz)) cnt
        let contacts := node.contacts.set idx { c with path := path, hasPath := true }
        let rpath : List Effect :=
          if created then [.sendFlood (.pathReturn c.id packet.info.pathBytes packet.pathLen)]
          else []
        return ({ node with contacts := contacts },
          received c type data :: rpath ++ [.log (.pathExchange cnt c.id)])
      else return (node, [received c type data])

/-- `onPeerPathRecv`, with the memory at the address `path`. -/
def onPeerPathRecv (senderIdx : ℤ) (path : ℕ → UInt8) (pathLen : UInt8) :
    Option (Node × List Effect) := do
  match ← node.peerIndex senderIdx with
  | none => return (node, [])
  | some (idx, c) =>
      let contacts :=
        node.contacts.set idx
          { c with hasPath := true, path := (List.range pathLen.toNat).map path }
      return ({ node with contacts := contacts }, [.log (.pathLearned c.id pathLen)])

def onAdvertRecv (id : PubKey) (appData : Bytes) : Option (Node × List Effect) :=
  if id = node.selfId then some (node, [])
  else do
    let (added, idx) := addContact node.contacts id
    let contact ← added[idx]?
    let existing := rename appData contact
    let (tuned, updates) := { node with contacts := added.set idx existing }.updateTiming
    return (tuned, .advert existing :: updates)

/-- `sendTextTo`; `created` says whether `createDatagram` succeeds. -/
def sendTextTo (destPubHex text timestamp : Bytes) (created : Bool) : List Effect × Bool :=
  match node.contacts.find? fun c => destPubHex.isPrefixOf (writeHex hexUc c.id.bytes) with
  | none => ([.log (.unknownDestination destPubHex)], false)
  | some target =>
      if ¬ created then ([.log .createFailed], false)
      else
        let pkt := Outgoing.datagram target.id (timestamp ++ text)
        if target.hasPath ∧ target.path ≠ [] then
          ([.sendDirect pkt target.path (target.path.length % 256)], true)
        else ([.sendFlood pkt], true)

/-- `broadcastAdvert`, with the limit of the packet layer on application data. -/
def broadcastAdvert (maxAdvertDataSize : ℕ) (name : Bytes) (created : Bool) : List Effect :=
  let appData := if name = [] then [] else name.take (maxAdvertDataSize - 1) ++ [0]
  if created then [.floodAdvert appData] else []

/-! ### The room server -/

/-- The text that a room server forwards, in a buffer of 320 bytes. The text of the post ends at
its length or at a NUL. -/
def forwarded (sender : Nexthop.Contact) (rawText : Bytes) : Bytes :=
  snprintf 320 (ascii "[" ++ sender.name ++ ascii "]: " ++ rawText.takeWhile (· ≠ 0))

/-- The forwarding loop over the contacts from place `ci` on. `layer` is the timestamp and whether
`createDatagram` succeeds, at each place. -/
def forwardLoop (idx : ℕ) (fwd : Bytes) (layer : ℕ → Bytes × Bool) (ci : ℕ) :
    List Nexthop.Contact → List Effect
  | [] => []
  | c :: rest =>
      if ci = idx then forwardLoop idx fwd layer (ci + 1) rest
      else (node.sendTextTo (writeHex hexUc c.id.bytes) fwd (layer ci).1 (layer ci).2).1 ++
        forwardLoop idx fwd layer (ci + 1) rest

/-- `RoomServerNode::onPeerDataRecv`. -/
def roomServerOnPeerDataRecv (packet : Packet) (type : ℕ) (senderIdx : ℤ) (data : Bytes)
    (created : Bool) (layer : ℕ → Bytes × Bool) : Option (Node × List Effect) := do
  let (node', printed) ← node.onPeerDataRecv packet type senderIdx data created
  if type ≠ payloadTypeTxtMsg ∨ data.length ≤ 4 then return (node', printed)
  else match ← node'.peerIndex senderIdx with
    | none => return (node', printed)
    | some (idx, sender) =>
        let rawText := data.drop 4
        return (node', printed ++ .roomPost sender rawText ::
          node'.forwardLoop idx (forwarded sender rawText) layer 0 node'.contacts)

/-! ### Runs -/

/-- The calls that the packet layer and the main program make. -/
inductive Call where
  | searchPeersByHash (isHashMatch : PubKey → Bool)
  | getRetransmitDelay (packet : Packet) (rng : SimRNG)
  | onPeerDataRecv (packet : Packet) (type : ℕ) (senderIdx : ℤ) (data : Bytes) (created : Bool)
  | roomServerOnPeerDataRecv (packet : Packet) (type : ℕ) (senderIdx : ℤ) (data : Bytes)
      (created : Bool) (layer : ℕ → Bytes × Bool)
  | onPeerPathRecv (senderIdx : ℤ) (path : ℕ → UInt8) (pathLen : UInt8)
  | onAdvertRecv (id : PubKey) (appData : Bytes)
  | onAckRecv (ackCrc : UInt32)
  | sendTextTo (destPubHex text timestamp : Bytes) (created : Bool)
  | broadcastAdvert (maxAdvertDataSize : ℕ) (name : Bytes) (created : Bool)

/-- One call. -/
def step (node : Node) : Call → Option (Node × List Effect)
  | .searchPeersByHash isHashMatch => some (node.searchPeersByHash isHashMatch, [])
  | .getRetransmitDelay packet rng =>
      some (node, [.retransmitDelay packet (node.getRetransmitDelay packet rng).1])
  | .onPeerDataRecv packet type senderIdx data created =>
      node.onPeerDataRecv packet type senderIdx data created
  | .roomServerOnPeerDataRecv packet type senderIdx data created layer =>
      node.roomServerOnPeerDataRecv packet type senderIdx data created layer
  | .onPeerPathRecv senderIdx path pathLen => node.onPeerPathRecv senderIdx path pathLen
  | .onAdvertRecv id appData => node.onAdvertRecv id appData
  | .onAckRecv ackCrc => some (node, [.ack ackCrc])
  | .sendTextTo destPubHex text timestamp created =>
      some (node, (node.sendTextTo destPubHex text timestamp created).1)
  | .broadcastAdvert maxAdvertDataSize name created =>
      some (node, broadcastAdvert maxAdvertDataSize name created)

end Node

end MeshcoreSim.AdaptiveDelay
