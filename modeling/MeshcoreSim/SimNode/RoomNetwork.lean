import Mathlib.Data.List.Nodup
import Mathlib.Data.List.Perm.Basic
import Mathlib.Logic.Function.Basic
import MeshcoreSim.Lib.Run
import MeshcoreSim.SimNode

/-!
Room servers and endpoints that know each other.

Every node is known to the others under one `Contact`. Endpoints post to room servers; a message
is delivered once, at any time after it was sent, and a room server forwards what it receives. The
number of the post that a message is made of, and the servers that it has passed, are bookkeeping:
no step reads them.

* `echo_and_loop_free` — where a post can come back, and how often a server forwards it, from the
  routes between the servers.
* `rooms_echo_and_loop` — three room servers that know each other.
-/

namespace MeshcoreSim

open Lib

/-- A set of nodes with their contacts. Sending never fails, and `ack` is what the chat stack
expects as acknowledgement. -/
structure RoomNetwork where
  nodes : List Contact
  isServer : Contact → Bool
  contacts : Contact → List Contact
  ack : Contact → UInt8 → Bytes → UInt32
  known : ∀ s, ∀ c ∈ contacts s, c ∈ nodes
  distinct : ∀ c ∈ nodes, ∀ c' ∈ nodes, c.pubKey = c'.pubKey → c = c'
  once : ∀ s, (contacts s).Nodup

/-- A message on its way. -/
structure RoomMessage where
  /-- The number of the post that it is made of. -/
  post : ℕ
  /-- The room servers that have forwarded it, the last one first. -/
  path : List Contact
  sender : Contact
  target : Contact
  text : Bytes
  deriving DecidableEq

/-- A message without its text and its sender, which follow from the rest. -/
def RoomMessage.key (m : RoomMessage) : ℕ × List Contact × Contact := (m.post, m.path, m.target)

structure RoomWorld where
  inFlight : List RoomMessage
  posts : ℕ
  node : Contact → SimNode

inductive RoomMove where
  | post (author first : Contact) (text : Bytes)
  | deliver (k : ℕ)
  deriving DecidableEq

inductive RoomObs where
  | posted (i : ℕ) (author first : Contact) (text : Bytes)
  | delivered (m : RoomMessage)
  /-- A room server sends a message. -/
  | sent (m : RoomMessage)
  deriving DecidableEq

/-- The message that a room server sends when it handles `m`. -/
def Effect.message? (m : RoomMessage) : Effect → Option RoomMessage
  | .send target _ text _ => some ⟨m.post, m.target :: m.path, m.target, target, text⟩
  | .emit _ => none

namespace RoomNetwork

variable (net : RoomNetwork)

def init : RoomWorld := ⟨[], 0, fun _ => .init⟩

/-- The chat stack of a node: it finds its contacts by their keys, and sends what it is given. -/
def mesh (s : Contact) : ChatMesh where
  lookupContactByPubKey pub := (net.contacts s).find? fun c => pub <+: c.pubKey
  sendMessage target attempt text := some (net.ack target attempt text)

/-- What a node does with a message: a room server forwards it. -/
def handle (node : SimNode) (m : RoomMessage) : SimNode × List Effect :=
  if net.isServer m.target then
    node.roomServerOnMessageRecv ((net.contacts m.target).map fun c => (c, net.mesh m.target))
      m.sender m.text
  else node.onMessageRecv m.sender m.text

def step (w : RoomWorld) : RoomMove → Option (RoomWorld × List RoomObs)
  | .post author first text =>
      if author ∈ net.nodes ∧ net.isServer author = false ∧ net.isServer first ∧
          first ∈ net.contacts author then
        some ({ w with
          inFlight := w.inFlight ++ [⟨w.posts, [], author, first, text⟩]
          posts := w.posts + 1 }, [.posted w.posts author first text])
      else none
  | .deliver k =>
      match w.inFlight[k]? with
      | none => none
      | some m =>
          let (node', effects) := net.handle (w.node m.target) m
          let sent := effects.filterMap (Effect.message? m)
          some ({ w with
            inFlight := w.inFlight.eraseIdx k ++ sent
            node := Function.update w.node m.target node' }, .delivered m :: sent.map .sent)

/-! ### What a room server sends -/

/-- The messages that a room server makes of one that it receives. -/
def forwards (m : RoomMessage) : List RoomMessage :=
  if net.isServer m.target then
    ((net.contacts m.target).filter fun c => c.pubKey ≠ m.sender.pubKey).map fun c =>
      ⟨m.post, m.target :: m.path, m.target, c, SimNode.forwarded m.sender m.text⟩
  else []

variable {net} {s c author first : Contact} {m : RoomMessage} {w w' : RoomWorld}
  {tr out : List RoomObs}

/-- A contact is found by its whole key. -/
theorem lookup_contact (mem : c ∈ net.contacts s) :
    (net.mesh s).lookupContactByPubKey c.pubKey = some c := by
  cases found : (net.mesh s).lookupContactByPubKey c.pubKey with
  | none =>
      have absent := List.find?_eq_none.mp found c mem
      simp at absent
  | some c' =>
      have isPrefix : c.pubKey <+: c'.pubKey := by simpa using List.find?_some found
      have same := isPrefix.eq_of_length (c.length_pubKey.trans c'.length_pubKey.symm)
      have mem' : c' ∈ net.contacts s := List.mem_of_find?_eq_some found
      rw [net.distinct c (net.known s c mem) c' (net.known s c' mem') same]

theorem sendTextTo_contact (node : SimNode) (mem : c ∈ net.contacts s) (text : Bytes) :
    ∃ node' ack, node.sendTextTo (net.mesh s) (writeHex hexUc c.pubKey) text =
      (node', [.send c 0 text ack], true) := by
  have key := hexToBytes_writeHex hexTable_hexUc c.pubKey
  have valid : c.pubKey ≠ [] := List.ne_nil_of_length_eq_add_one c.length_pubKey
  rcases SimNode.sendTextTo_eq node (net.mesh s) (writeHex hexUc c.pubKey) text with
    ⟨ack, target, found, -, eq⟩ | ⟨unsent, -⟩
  · rw [key, lookup_contact mem] at found
    cases found
    exact ⟨_, ack, eq⟩
  · rw [ChatMesh.attempt, key, if_neg valid, lookup_contact mem] at unsent
    cases unsent

/-- The effects of the forwarding loop: one message for each contact but the sender. -/
theorem forwardLoop_sends (sender : Contact) (fwd : Bytes) (node : SimNode)
    (contacts : List Contact) (known : ∀ c ∈ contacts, c ∈ net.contacts m.target) :
    (SimNode.forwardLoop sender fwd node
      (contacts.map fun c => (c, net.mesh m.target))).2.filterMap (Effect.message? m) =
      (contacts.filter fun c => c.pubKey ≠ sender.pubKey).map fun c =>
        ⟨m.post, m.target :: m.path, m.target, c, fwd⟩ := by
  induction contacts generalizing node with
  | nil => rfl
  | cons c contacts ih =>
      have rest := fun node => ih node fun c' mem => known c' (List.mem_cons_of_mem _ mem)
      by_cases isSender : c.pubKey = sender.pubKey
      · rw [List.map_cons, SimNode.forwardLoop, if_pos isSender, rest]
        simp [isSender]
      · obtain ⟨node', ack, eq⟩ := sendTextTo_contact node (known c List.mem_cons_self) fwd
        rw [List.map_cons, SimNode.forwardLoop, if_neg isSender, eq]
        simp only [List.singleton_append, List.filterMap_cons, Effect.message?, rest]
        simp [isSender]

theorem handle_sends (node : SimNode) (m : RoomMessage) :
    (net.handle node m).2.filterMap (Effect.message? m) = net.forwards m := by
  unfold handle forwards
  split
  · unfold SimNode.roomServerOnMessageRecv SimNode.onMessageRecv
    simp only [List.singleton_append, List.filterMap_cons, Effect.message?]
    exact forwardLoop_sends _ _ _ _ fun _ mem => mem
  · rfl

/-! ### Routes -/

/-- The routes of a post from its author to the first room server and on to `c`: the servers
that have forwarded it, the last one first. A server forwards to all of its contacts but the one
that it has the message from. -/
inductive Route (net : RoomNetwork) (author first : Contact) : List Contact → Contact → Prop
  | post : Route net author first [] first
  | forward {path : List Contact} {s c : Contact} : Route net author first path s →
      net.isServer s → c ∈ net.contacts s → c ≠ path.headD author →
      Route net author first (s :: path) c

/-- The messages that have been delivered. -/
def delivered (tr : List RoomObs) : List RoomMessage :=
  tr.filterMap fun
    | .delivered m => some m
    | .posted _ _ _ _ | .sent _ => none

/-- All messages that there have been. -/
def messages (w : RoomWorld) (tr : List RoomObs) : List RoomMessage := delivered tr ++ w.inFlight

/-- A message is on a route of a post that was made. -/
def OnRoute (net : RoomNetwork) (tr : List RoomObs) (m : RoomMessage) : Prop :=
  ∃ author first text, .posted m.post author first text ∈ tr ∧
    Route net author first m.path m.target ∧ m.sender = m.path.headD author

/-- Posts have different numbers. Every message follows a route of its post, no two messages of a
post the same one, and what a server sends on was delivered to it. -/
structure Routed (net : RoomNetwork) (w : RoomWorld) (tr : List RoomObs) : Prop where
  posts : ∀ i author first text, .posted i author first text ∈ tr → i < w.posts
  functional : ∀ i author first text author' first' text', .posted i author first text ∈ tr →
    .posted i author' first' text' ∈ tr → author = author' ∧ first = first'
  sent : ∀ m, .sent m ∈ tr → m ∈ messages w tr ∧ m.path ≠ []
  routes : ∀ m ∈ messages w tr, OnRoute net tr m
  parents : ∀ m ∈ messages w tr, ∀ s path, m.path = s :: path →
    (m.post, path, s) ∈ (delivered tr).map RoomMessage.key
  nodup : ((messages w tr).map RoomMessage.key).Nodup

/-- What a step does: a post is a new message, and a delivery adds what the receiver forwards. -/
inductive Taken (net : RoomNetwork) (w : RoomWorld) : RoomMove → RoomWorld → List RoomObs → Prop
  | post (author first : Contact) (text : Bytes) (w' : RoomWorld) (isNode : author ∈ net.nodes)
      (isContact : first ∈ net.contacts author)
      (inFlight : w'.inFlight = w.inFlight ++ [⟨w.posts, [], author, first, text⟩])
      (posts : w'.posts = w.posts + 1) :
      Taken net w (.post author first text) w' [.posted w.posts author first text]
  | deliver (k : ℕ) (m : RoomMessage) (w' : RoomWorld) (current : w.inFlight[k]? = some m)
      (inFlight : w'.inFlight = w.inFlight.eraseIdx k ++ net.forwards m)
      (posts : w'.posts = w.posts) :
      Taken net w (.deliver k) w' (.delivered m :: (net.forwards m).map .sent)

theorem Taken.of_step {e : RoomMove} (stepped : net.step w e = some (w', out)) :
    Taken net w e w' out := by
  cases e with
  | post author first text =>
      simp only [step] at stepped
      split at stepped
      · rename_i allowed
        obtain ⟨rfl, rfl⟩ := Prod.mk.inj (Option.some.inj stepped)
        exact .post author first text _ allowed.1 allowed.2.2.2 rfl rfl
      · cases stepped
  | deliver k =>
      simp only [step] at stepped
      cases current : w.inFlight[k]? with
      | none => simp [current] at stepped
      | some m =>
          simp only [current, handle_sends] at stepped
          obtain ⟨rfl, rfl⟩ := Prod.mk.inj (Option.some.inj stepped)
          exact .deliver k m _ current rfl rfl

theorem delivered_append (tr out : List RoomObs) :
    delivered (tr ++ out) = delivered tr ++ delivered out := List.filterMap_append

theorem delivered_sent (ms : List RoomMessage) : delivered (ms.map .sent) = [] := by
  simp [delivered, List.filterMap_map]

theorem messages_deliver {k : ℕ} (current : w.inFlight[k]? = some m)
    (inFlight : w'.inFlight = w.inFlight.eraseIdx k ++ net.forwards m) :
    (messages w' (tr ++ .delivered m :: (net.forwards m).map .sent)).Perm
      (messages w tr ++ net.forwards m) := by
  obtain ⟨bound, eq⟩ := List.getElem?_eq_some_iff.mp current
  have now : delivered (.delivered m :: (net.forwards m).map .sent) = [m] := by
    change m :: delivered ((net.forwards m).map .sent) = [m]
    rw [delivered_sent]
  have moved : (m :: w.inFlight.eraseIdx k).Perm w.inFlight := by
    rw [← eq]
    exact List.getElem_cons_eraseIdx_perm bound
  unfold messages
  rw [inFlight, delivered_append, now, List.append_assoc, List.append_assoc]
  apply List.Perm.append_left _
  rw [List.singleton_append, ← List.cons_append]
  exact moved.append_right _

/-- What a server makes of a message follows the route one hop further. -/
theorem mem_forwards {m' : RoomMessage} (mem : m' ∈ net.forwards m) :
    net.isServer m.target ∧ m'.target ∈ net.contacts m.target ∧ m'.target ≠ m.sender ∧
      m'.post = m.post ∧ m'.path = m.target :: m.path ∧ m'.sender = m.target := by
  unfold forwards at mem
  split at mem
  · rename_i isServer
    obtain ⟨c, isContact, rfl⟩ := List.mem_map.mp mem
    obtain ⟨isContact, other⟩ := List.mem_filter.mp isContact
    refine ⟨isServer, isContact, ?_, rfl, rfl, rfl⟩
    rintro rfl
    simp at other
  · cases mem

theorem nodup_forwards (m : RoomMessage) : ((net.forwards m).map RoomMessage.key).Nodup := by
  unfold forwards
  split
  · rw [List.map_map]
    refine List.Nodup.map ?_ ((net.once m.target).filter _)
    intro c c' same
    simpa [RoomMessage.key] using same
  · exact List.nodup_nil

/-- New messages, each on a new route of its post. -/
theorem Routed.extend (routed : Routed net w tr) {news : List RoomMessage}
    (perm : (messages w' (tr ++ out)).Perm (messages w tr ++ news))
    (posts : ∀ i author first text, .posted i author first text ∈ tr ++ out → i < w'.posts)
    (functional : ∀ i author first text author' first' text',
      .posted i author first text ∈ tr ++ out → .posted i author' first' text' ∈ tr ++ out →
      author = author' ∧ first = first')
    (sent : ∀ m, .sent m ∈ out → m ∈ news ∧ m.path ≠ [])
    (routes : ∀ m ∈ news, OnRoute net (tr ++ out) m)
    (parents : ∀ m ∈ news, ∀ s path, m.path = s :: path →
      (m.post, path, s) ∈ (delivered (tr ++ out)).map RoomMessage.key)
    (nodup : (news.map RoomMessage.key).Nodup)
    (fresh : ∀ m ∈ messages w tr, ∀ m' ∈ news, m.key ≠ m'.key) :
    Routed net w' (tr ++ out) where
  posts := posts
  functional := functional
  sent m mem := by
    rcases List.mem_append.mp mem with old | new
    · obtain ⟨there, passed⟩ := routed.sent m old
      exact ⟨perm.mem_iff.mpr (List.mem_append_left _ there), passed⟩
    · obtain ⟨there, passed⟩ := sent m new
      exact ⟨perm.mem_iff.mpr (List.mem_append_right _ there), passed⟩
  routes m mem := by
    rcases List.mem_append.mp (perm.mem_iff.mp mem) with old | new
    · obtain ⟨author, first, text, posted, route⟩ := routed.routes m old
      exact ⟨author, first, text, List.mem_append_left _ posted, route⟩
    · exact routes m new
  parents m mem s path passed := by
    rcases List.mem_append.mp (perm.mem_iff.mp mem) with old | new
    · rw [delivered_append, List.map_append]
      exact List.mem_append_left _ (routed.parents m old s path passed)
    · exact parents m new s path passed
  nodup := by
    rw [(perm.map RoomMessage.key).nodup_iff, List.map_append, List.nodup_append]
    refine ⟨routed.nodup, nodup, ?_⟩
    intro key old key' new same
    obtain ⟨m, mem, rfl⟩ := List.mem_map.mp old
    obtain ⟨m', mem', rfl⟩ := List.mem_map.mp new
    exact fresh m mem m' mem' same

theorem Routed.step (routed : Routed net w tr) {e : RoomMove} (taken : Taken net w e w' out) :
    Routed net w' (tr ++ out) := by
  cases taken with
  | post author first text w' isNode isContact inFlight posts =>
      have grown : messages w' (tr ++ [.posted w.posts author first text]) =
          messages w tr ++ [⟨w.posts, [], author, first, text⟩] := by
        unfold messages
        rw [delivered_append, inFlight]
        simp [delivered]
      have fresh : ∀ author' first' text', .posted w.posts author' first' text' ∉ tr :=
        fun author' first' text' old =>
          Nat.lt_irrefl _ (routed.posts _ author' first' text' old)
      refine routed.extend (.of_eq grown) ?_ ?_ nofun ?_ ?_ (List.nodup_singleton _) ?_
      · intro i author' first' text' mem
        rw [posts]
        rcases List.mem_append.mp mem with old | new
        · exact Nat.lt_succ_of_lt (routed.posts i author' first' text' old)
        · cases List.mem_singleton.mp new
          exact Nat.lt_succ_self _
      · intro i author' first' text' author'' first'' text'' mem mem'
        rcases List.mem_append.mp mem with old | new
        · rcases List.mem_append.mp mem' with old' | new'
          · exact routed.functional i _ _ _ _ _ _ old old'
          · cases List.mem_singleton.mp new'
            exact absurd old (fresh _ _ _)
        · cases List.mem_singleton.mp new
          rcases List.mem_append.mp mem' with old' | new'
          · exact absurd old' (fresh _ _ _)
          · cases List.mem_singleton.mp new'
            exact ⟨rfl, rfl⟩
      · intro m mem
        cases List.mem_singleton.mp mem
        exact ⟨author, first, text, by simp, .post, rfl⟩
      · intro m mem s path passed
        cases List.mem_singleton.mp mem
        cases passed
      · intro m old m' mem same
        cases List.mem_singleton.mp mem
        obtain ⟨author', first', text', posted, -⟩ := routed.routes m old
        have number : m.post = w.posts := congrArg Prod.fst same
        rw [number] at posted
        exact fresh _ _ _ posted
  | deliver k m w' current inFlight posts =>
      have here : m ∈ messages w tr :=
        List.mem_append_right _ (List.mem_of_getElem? current)
      obtain ⟨author, first, text, posted, route, sender⟩ := routed.routes m here
      refine routed.extend (messages_deliver current inFlight) ?_ ?_ ?_ ?_ ?_
        (nodup_forwards m) ?_
      · intro i author' first' text' mem
        rw [posts]
        exact routed.posts i author' first' text' (by simpa using mem)
      · intro i _ _ _ _ _ _ mem mem'
        exact routed.functional i _ _ _ _ _ _ (by simpa using mem) (by simpa using mem')
      · intro m' mem
        have new : m' ∈ net.forwards m := by simpa using mem
        obtain ⟨-, -, -, -, path, -⟩ := mem_forwards new
        exact ⟨new, by simp [path]⟩
      · intro m' new
        obtain ⟨isServer, isContact, other, post, path, sender'⟩ := mem_forwards new
        refine ⟨author, first, text, ?_, ?_, ?_⟩
        · rw [post]
          exact List.mem_append_left _ posted
        · rw [path]
          exact route.forward isServer isContact (sender ▸ other)
        · rw [path, sender']
          rfl
      · intro m' new s path passed
        obtain ⟨-, -, -, post, path', -⟩ := mem_forwards new
        rw [path'] at passed
        cases passed
        rw [post, delivered_append, List.map_append]
        exact List.mem_append_right _ List.mem_cons_self
      · -- What a server has sent on was delivered to it, and `m` is only delivered now.
        intro m' old m'' new same
        obtain ⟨-, -, -, post, path, -⟩ := mem_forwards new
        have passed : m'.path = m.target :: m.path := by
          rw [← path]
          exact congrArg (·.2.1) same
        have parent := routed.parents m' old _ _ passed
        have number : m'.post = m.post := by
          rw [← post]
          exact congrArg Prod.fst same
        rw [number] at parent
        have nodup := routed.nodup
        rw [messages, List.map_append] at nodup
        exact List.disjoint_of_nodup_append nodup parent
          (List.mem_map_of_mem (List.mem_of_getElem? current))

theorem routed (run : Run net.step anyStep init w tr) : Routed net w tr :=
  run.invariant ⟨nofun, nofun, nofun, nofun, nofun, List.nodup_nil⟩
    fun _ _ _ _ _ _ routed _ stepped => routed.step (.of_step stepped)

/-! ### Echoes and loops -/

/-- No text that a server makes of a post goes back to the author of the post. -/
def NoEcho (tr : List RoomObs) : Prop :=
  ∀ i author first text m, .posted i author first text ∈ tr → .sent m ∈ tr → m.post = i →
    text <:+: m.text → m.target ≠ author

/-- How often a node has received a post. -/
def receptions (tr : List RoomObs) (i : ℕ) (s : Contact) : ℕ :=
  (delivered tr).countP fun m => m.post = i ∧ m.target = s

/-- Every server forwards every post at most once. -/
def ForwardsOnce (net : RoomNetwork) (tr : List RoomObs) : Prop :=
  ∀ i s, net.isServer s → receptions tr i s ≤ 1

/-- No room server has another one among its contacts. -/
def ServersApart (net : RoomNetwork) : Prop :=
  ∀ s, net.isServer s → ∀ s' ∈ net.contacts s, net.isServer s' = false

/-- A post that goes back to its author has passed two servers. -/
theorem Route.two_hops {path : List Contact} (route : Route net author first path author)
    (passed : path ≠ []) : 2 ≤ path.length := by
  cases route with
  | post => exact absurd rfl passed
  | @forward path s _ before isServer isContact other =>
      cases path with
      | nil => exact absurd rfl other
      | cons s' path => simp

/-- Where servers do not know each other, a post reaches a server from its author only. -/
theorem Route.direct (apart : ServersApart net) {path : List Contact}
    (route : Route net author first path s) (isServer : net.isServer s) : path = [] := by
  cases route with
  | post => rfl
  | forward before isServer' isContact other =>
      cases isServer.symm.trans (apart _ isServer' s isContact)

/-- And so it passes one server only. -/
theorem Route.length_le_one (apart : ServersApart net) {path : List Contact}
    (route : Route net author first path c) : path.length ≤ 1 := by
  cases route with
  | post => exact Nat.zero_le 1
  | forward before isServer isContact other =>
      rw [before.direct apart isServer]
      exact Nat.le_refl 1

/-- A server that a post can only reach on one route receives it at most once. -/
theorem Routed.receptions_le_one (routed : Routed net w tr) {i : ℕ} {text : Bytes}
    (posted : .posted i author first text ∈ tr)
    (unique : ∀ path path', Route net author first path s → Route net author first path' s →
      path = path') : receptions tr i s ≤ 1 := by
  have nodup : ((delivered tr).map RoomMessage.key).Nodup := by
    have whole := routed.nodup
    rw [messages, List.map_append] at whole
    exact whole.of_append_left
  have route : ∀ m ∈ delivered tr, m.post = i → m.target = s →
      Route net author first m.path s := by
    rintro m mem rfl rfl
    obtain ⟨author', first', text', posted', route, -⟩ :=
      routed.routes m (List.mem_append_left _ mem)
    obtain ⟨rfl, rfl⟩ := routed.functional _ _ _ _ _ _ _ posted posted'
    exact route
  by_cases never : ∀ m ∈ delivered tr, ¬ (m.post = i ∧ m.target = s)
  · rw [receptions, List.countP_eq_zero.mpr (by simpa using never)]
    exact Nat.zero_le 1
  · push Not at never
    obtain ⟨m, mem, post, target⟩ := never
    -- All receptions have the key of this one, which occurs once.
    calc receptions tr i s
        ≤ (delivered tr).countP fun m' => m'.key = m.key := by
          refine List.countP_mono_left fun m' mem' same => ?_
          obtain ⟨post', target'⟩ : m'.post = i ∧ m'.target = s := by simpa using same
          have path := unique m'.path m.path (route m' mem' post' target')
            (route m mem post target)
          simp [RoomMessage.key, post, post', target, target', path]
      _ = ((delivered tr).map RoomMessage.key).count m.key := by
          rw [List.count, List.countP_map]
          refine List.countP_congr fun m' _ => ?_
          simp
      _ ≤ 1 := List.nodup_iff_count_le_one.mp nodup m.key

/-- What room servers do with a post, in every network and every run. A text made of it follows
a route from server to server, each of them a contact of the one before, which never turns
straight back; so it goes back to the author only after it has passed two servers, and a
server that can only be reached on one route receives and forwards it at most once. Where no
room server has another one among its contacts, no post is echoed and each server forwards it
at most once. -/
theorem echo_and_loop_free (run : Run net.step anyStep init w tr) :
    (∀ m, .sent m ∈ tr → ∃ author first text, .posted m.post author first text ∈ tr ∧
      Route net author first m.path m.target ∧ (m.target = author → 2 ≤ m.path.length)) ∧
    (∀ i s author first text, .posted i author first text ∈ tr →
      (∀ path path', Route net author first path s → Route net author first path' s →
        path = path') → receptions tr i s ≤ 1) ∧
    (ServersApart net → NoEcho tr ∧ ForwardsOnce net tr) := by
  have inv := routed run
  have sent : ∀ m, .sent m ∈ tr → ∃ author first text, .posted m.post author first text ∈ tr ∧
      Route net author first m.path m.target ∧ (m.target = author → 2 ≤ m.path.length) := by
    intro m mem
    obtain ⟨there, passed⟩ := inv.sent m mem
    obtain ⟨author, first, text, posted, route, -⟩ := inv.routes m there
    refine ⟨author, first, text, posted, route, ?_⟩
    intro back
    exact (back ▸ route).two_hops passed
  refine ⟨sent, fun i s author first text posted => inv.receptions_le_one posted, ?_⟩
  intro apart
  constructor
  · rintro i author first text m posted mem rfl - back
    obtain ⟨author', first', text', posted', route, far⟩ := sent m mem
    obtain ⟨rfl, rfl⟩ := inv.functional _ _ _ _ _ _ _ posted posted'
    exact absurd (far back) (by have near := route.length_le_one apart; omega)
  · intro i s isServer
    by_contra often
    obtain ⟨m, mem, received⟩ := List.countP_pos_iff.mp (Nat.zero_lt_of_lt (Nat.not_le.mp often))
    obtain ⟨rfl, rfl⟩ : m.post = i ∧ m.target = s := by simpa using received
    obtain ⟨author, first, text, posted, -⟩ := inv.routes m (List.mem_append_left _ mem)
    refine often (inv.receptions_le_one posted fun path path' route route' => ?_)
    rw [route.direct apart isServer, route'.direct apart isServer]

/-! ### One room server, and three -/

/-- Room servers and endpoints of which everyone knows everyone. -/
def acquainted (servers endpoints : List Contact)
    (keys : ((servers ++ endpoints).map Contact.pubKey).Nodup) : RoomNetwork where
  nodes := servers ++ endpoints
  isServer s := s ∈ servers
  contacts s := (servers ++ endpoints).filter (· ≠ s)
  ack _ _ _ := 0
  known _ _ mem := (List.mem_filter.mp mem).1
  distinct _ mem _ mem' same := List.inj_on_of_nodup_map keys mem mem' same
  once _ := keys.of_map.filter _

def room (n : UInt8) (name : Bytes) (short : name.length < 32) (nonzero : 0 ∉ name) : Contact :=
  ⟨.replicate 32 n, name, rfl, short, nonzero⟩

def room1 : Contact := room 1 (ascii "s1") (by decide) (by decide)

def room2 : Contact := room 2 (ascii "s2") (by decide) (by decide)

def room3 : Contact := room 3 (ascii "s3") (by decide) (by decide)

/-- A single room server does not know itself. -/
theorem serversApart_single (hub : Contact) (endpoints : List Contact)
    (keys : (([hub] ++ endpoints).map Contact.pubKey).Nodup) :
    ServersApart (acquainted [hub] endpoints keys) := by
  intro s isServer s' mem
  obtain rfl : s = hub := by simpa [acquainted] using isServer
  have other : s' ≠ s := by simpa using (List.mem_filter.mp mem).2
  simpa [acquainted] using other

/-- With one room server there is no echo. -/
theorem echo_and_loop_free_oneRoom : ∃ w tr,
    Run (acquainted [room1] [SimNode.alice, SimNode.bob] (by decide)).step anyStep init w tr ∧
      receptions tr 0 SimNode.bob = 1 ∧ NoEcho tr := by
  have replay : (exec (restrict (acquainted [room1] [SimNode.alice, SimNode.bob]
      (by decide)).step anyStep) init
      [.post SimNode.alice room1 (ascii "hi"), .deliver 0, .deliver 0]).any
        fun r => decide (receptions r.2 0 SimNode.bob = 1) := by decide +kernel
  obtain ⟨w, tr, run, received⟩ := Run.of_exec_any replay
  have apart := serversApart_single room1 [SimNode.alice, SimNode.bob] (by decide)
  exact ⟨w, tr, run, by simpa using received, ((echo_and_loop_free run).2.2 apart).1⟩

/-- Three room servers and an endpoint. -/
def threeRooms : RoomNetwork := acquainted [room1, room2, room3] [SimNode.alice] (by decide)

/-- The post of `alice` goes from the first room server to the second, which sends it back to
`alice` and on to the third; from there the first one gets it again. -/
theorem rooms_echo_and_loop : ∃ w tr, Run threeRooms.step anyStep init w tr ∧
    ¬ NoEcho tr ∧ ¬ ForwardsOnce threeRooms tr := by
  have replay : (exec (restrict threeRooms.step anyStep) init
      [.post SimNode.alice room1 (ascii "hi"), .deliver 0, .deliver 0, .deliver 1, .deliver 2]).any
        fun r => decide (receptions r.2 0 room1 = 2 ∧
          .posted 0 SimNode.alice room1 (ascii "hi") ∈ r.2 ∧
          .sent ⟨0, [room2, room1], room2, SimNode.alice, ascii "[s1]: [alice]: hi"⟩ ∈ r.2) := by
    decide +kernel
  obtain ⟨w, tr, run, checked⟩ := Run.of_exec_any replay
  obtain ⟨twice, posted, echo⟩ := of_decide_eq_true checked
  refine ⟨w, tr, run, fun noEcho => ?_, fun once => ?_⟩
  · exact noEcho 0 _ _ _ _ posted echo rfl ⟨ascii "[s1]: [alice]: ", [], by decide⟩ rfl
  · have atMostOnce : 2 ≤ 1 := twice ▸ once 0 room1 (by decide)
    omega

end RoomNetwork

end MeshcoreSim
