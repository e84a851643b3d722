import MeshcoreSim.Lib.Way
import MeshcoreSim.Nexthop.PathExchange

/-!
Several nexthop nodes and the packets between them.

A packet that a node creates is heard by the nodes in its range, any number of times and at any
later time, or never. A relay sends on what it hears: a flooded packet with its hash behind the
path, and a direct one without its hash in front. The packet layer, which is not part of the
repository, has a node open only what is for it, with the secret of the contact that sent it.

Hashes of relays have one byte. `Sent.trail` and `Sent.origin` are beside the bytes of a packet: no
node reads them.

* `Mesh.handle` — what a node does with a packet that it hears.
* `Mesh.step` — the mesh as a state machine.
-/

namespace MeshcoreSim.Nexthop

open Lib

def payloadTypeAdvert : ℕ := 4
def payloadTypePath : ℕ := 8

/-- The nodes of a mesh, and who hears whom. -/
structure Mesh (ι : Type) where
  key : ι → PubKey
  hash : ι → Bytes
  isRelay : ι → Bool
  hears : ι → ι → Bool
  distinct : Function.Injective key
  length_hash : ∀ i, (hash i).length = 1
  symm : ∀ i j, hears i j = hears j i

/-- What is in a packet for those that can open it. -/
inductive Content where
  | advert (id : PubKey) (appData : Bytes)
  | text (dest : PubKey) (data : Bytes)
  | pathReturn (dest : PubKey) (path : Bytes) (pathLen : ℕ)
  deriving DecidableEq

/-- A packet on the air. -/
structure Sent (ι : Type) where
  origin : ι
  sender : ι
  trail : List ι
  packet : Packet
  content : Content

/-- The nodes, and all packets that were on the air. -/
structure MeshState (ι : Type) where
  nodes : ι → Node
  air : List (Sent ι)

/-- What happens in a mesh. The version and the payload of a packet are those that the packet layer
gives it, and the memory is that behind the path of a PATH return. -/
inductive MeshEvent (ι : Type) where
  | broadcastAdvert (i : ι) (appData : Bytes) (version : ℕ) (payload : Bytes)
  | sendTextTo (i : ι) (destPubHex text timestamp : Bytes) (created : Bool) (version : ℕ)
      (payload : Bytes)
  | searchPeersByHash (i : ι) (isHashMatch : PubKey → Bool)
  | relay (k : ℕ) (i : ι)
  | receive (k : ℕ) (i : ι) (senderIdx : ℤ) (memory : ℕ → UInt8) (created : Bool) (version : ℕ)
      (payload : Bytes)

def Outgoing.content : Outgoing → Content
  | .datagram dest payload => .text dest payload
  | .pathReturn dest path pathLen => .pathReturn dest path pathLen

def Content.payloadType : Content → ℕ
  | .advert .. => payloadTypeAdvert
  | .text .. => payloadTypeTxtMsg
  | .pathReturn .. => payloadTypePath

instance : DecidablePred PacketInfo.InRange := fun info =>
  decidable_of_iff (info.routeType < 4 ∧ info.payloadType < 16 ∧ info.version < 4 ∧
      info.pathCount < 64 ∧ info.pathSize ∈ [1, 2, 3] ∧
      info.pathBytes.length = info.pathCount * info.pathSize)
    ⟨fun ⟨route, type, version, count, size, bytes⟩ => ⟨route, type, version, count, size, bytes⟩,
      fun fits => ⟨fits.routeType, fits.payloadType, fits.version, fits.pathCount, fits.pathSize,
        fits.pathBytes⟩⟩

/-- A packet with these fields, where they fit. -/
def Packet.of? (info : PacketInfo) : Option Packet :=
  if fits : info.InRange then some ⟨info, fits⟩ else none

namespace Mesh

variable {ι : Type}

/-- `sendFlood`. -/
def sendFlood (i : ι) (version : ℕ) (payload : Bytes) (content : Content) :
    Option (Sent ι) :=
  (Packet.of? ⟨routeTypeFlood, content.payloadType, version, 0, 1, [], payload⟩).map fun packet =>
    ⟨i, i, [], packet, content⟩

/-- `sendDirect`, with a path and its length in the encoded form. -/
def sendDirect (i : ι) (version : ℕ) (payload : Bytes) (content : Content)
    (path : Bytes) (pathLen : ℕ) : Option (Sent ι) :=
  let count := pathLen % 64
  let size := pathLen / 64 + 1
  (Packet.of? ⟨routeTypeDirect, content.payloadType, version, count, size,
    path.take (count * size), payload⟩).map fun packet => ⟨i, i, [], packet, content⟩

/-- The packet that an effect of a node puts on the air. -/
def sentBy (i : ι) (version : ℕ) (payload : Bytes) : Effect → Option (Sent ι)
  | .sendFlood out => sendFlood i version payload out.content
  | .sendDirect out path pathLen => sendDirect i version payload out.content path pathLen
  | _ => none

variable [DecidableEq ι] (mesh : Mesh ι)

def init : MeshState ι := ⟨fun i => .init (mesh.key i), []⟩

/-- A node with what a call made of it, and the packets that it sent. -/
def done (w : MeshState ι) (i : ι) (version : ℕ) (payload : Bytes) (result : Node × List Effect) :
    MeshState ι × List (ι × Effect) :=
  (⟨Function.update w.nodes i result.1, w.air ++ result.2.filterMap (sentBy i version payload)⟩,
    result.2.map (i, ·))

/-- The peer that a callback is about is the node that created the packet. -/
def opens (node : Node) (senderIdx : ℤ) (origin : PubKey) : Bool :=
  match node.peerIndex senderIdx with
  | some (some (_, c)) => c.id = origin
  | _ => true

/-- What a node does with a packet that is for it. -/
def handle (node : Node) (sent : Sent ι) (senderIdx : ℤ) (memory : ℕ → UInt8) (created : Bool) :
    Option (Node × List Effect) :=
  match sent.content with
  | .advert id appData => node.onAdvertRecv sent.packet id appData
  | .text dest data =>
      if dest = node.selfId ∧ opens node senderIdx (mesh.key sent.origin) then
        node.onPeerDataRecv sent.packet payloadTypeTxtMsg senderIdx data created
      else none
  | .pathReturn dest path pathLen =>
      if dest = node.selfId ∧ opens node senderIdx (mesh.key sent.origin) ∧
          (List.range path.length).map memory = path then
        node.onPeerPathRecv senderIdx memory (UInt8.ofNat pathLen)
      else none

/-- One step of the mesh. -/
def step (w : MeshState ι) : MeshEvent ι → Option (MeshState ι × List (ι × Effect))
  | .broadcastAdvert i appData version payload =>
      (sendFlood i version payload (.advert (mesh.key i) appData)).map fun sent =>
        ({ w with air := w.air ++ [sent] }, [])
  | .sendTextTo i destPubHex text timestamp created version payload =>
      let sending := (w.nodes i).sendTextTo destPubHex text timestamp created
      some (done w i version payload (sending.1, sending.2.1))
  | .searchPeersByHash i isHashMatch =>
      some (done w i 0 [] ((w.nodes i).searchPeersByHash isHashMatch, []))
  | .relay k i => do
      let sent ← w.air[k]?
      if mesh.hears sent.sender i ∧ mesh.isRelay i then
        let info ← forward sent.packet.info (mesh.hash i)
        let packet ← Packet.of? info
        return ({ w with
          air := w.air ++
            [{ sent with sender := i, trail := sent.trail ++ [i], packet := packet }] },
          [])
      else none
  | .receive k i senderIdx memory created version payload => do
      let sent ← w.air[k]?
      if mesh.hears sent.sender i ∧ (floods sent.packet.info ∨ sent.packet.info.pathCount = 0) then
        let result ← mesh.handle (w.nodes i) sent senderIdx memory created
        return done w i version payload result
      else none

end Mesh

end MeshcoreSim.Nexthop
