import Std.Data.String.ToNat
import MeshcoreSim.Deliveries
import MeshcoreSim.Lib.Run
import MeshcoreSim.NodeAgent.Commands

/-!
The random text traffic (`orchestrator/traffic.py`) and the delivery ledger of the metrics.

A run alternates calls of `_send_random` at any clock times with events of the nodes. What the
random generator draws, the sender with the peers that it knows, the roll and the destination, is
a parameter of each call. The observations of a run are the records of its send attempts.

* `stamped_eq_iff` — two texts are the same exactly when the same node sends them in the same
  millisecond, modulo 1000 s.
* `accounted` — every completed or pending record is a send attempt of its own, in every run.
* `exact_iff` — the ledger of a run is exact as long as no text is sent while it is pending, and
  no node but the destination reports a pending text.
-/

namespace MeshcoreSim

open Lib

/-! ### One send -/

/-- A sender, as `_send_random` reads it. -/
structure Endpoint where
  name : NodeName
  pubKey : List ℕ
  knownPeers : List (List ℕ)

/-- `int(time.time() * 1000) % 1_000_000`. -/
def stamp (clock : ℚ) : ℕ := ⌊1000 * clock⌋₊ % 1000000

/-- `f"{greeting} from {sender_name} t={...}"`. -/
def stamped (greeting : String) (senderName : NodeName) (clock : ℚ) : List ℕ :=
  pyString greeting ++ pyString " from " ++ pyString senderName ++ pyString " t=" ++
    pyString (toString (stamp clock))

/-- The endpoints that the sender knows, without itself. -/
def Endpoint.known (sender : Endpoint) (endpointPubs : List (List ℕ)) : List (List ℕ) :=
  sender.knownPeers.filter fun pub => pub ∈ endpointPubs ∧ pub ≠ sender.pubKey

/-- The roll is for a channel message. -/
def IsChannel (roll : ℚ) : Prop := roll < 15 / 100

instance (roll : ℚ) : Decidable (IsChannel roll) := inferInstanceAs (Decidable (_ < _))

/-- The endpoint that a direct message is for, if the sender knows one. -/
def Endpoint.destPub? (sender : Endpoint) (endpointPubs : List (List ℕ)) (choice : ℕ) :
    Option (List ℕ) :=
  (sender.known endpointPubs)[choice % (sender.known endpointPubs).length]?

namespace DeliveryMetrics

/-- `_send_random`, with the command that the sender's node is given. -/
def sendRandom (m : DeliveryMetrics) (now clock roll : ℚ) (sender : Endpoint)
    (endpointPubs : List (List ℕ)) (choice : ℕ) : DeliveryMetrics × Option CommandDict :=
  if IsChannel roll then
    (m.recordChannelSend, some (.sendChannel (stamped "ch" sender.name clock)))
  else match sender.destPub? endpointPubs choice with
    | none => (m, none)
    | some destPub =>
        let text := stamped "hello" sender.name clock
        (m.recordSendAttempt now sender.name destPub text,
          some (.sendText (destPub.take 8) text))

/-- `attempted_count`. -/
def attemptedCount (m : DeliveryMetrics) : ℕ := m.completed.length + m.pending.entries.length

end DeliveryMetrics

/-! ### Texts -/

theorem pyString_inj {s t : String} : pyString s = pyString t ↔ s = t := by
  constructor
  · intro same
    refine String.toList_inj.mp (List.map_injective_iff.mpr ?_ same)
    exact fun c d sameCode => Char.ext (UInt32.toNat_inj.mp sameCode)
  · exact congrArg pyString

/-- A stamp is written with digits. -/
theorem noEquals_stamp (clock : ℚ) : 61 ∉ pyString (toString (stamp clock)) := by
  intro mem
  obtain ⟨c, inStamp, isEquals⟩ := List.mem_map.mp mem
  have digit : c.isDigit = true := by
    rw [Nat.toString_eq_repr, Nat.repr_eq_ofList_toDigits, String.toList_ofList] at inStamp
    exact Nat.isDigit_of_mem_toDigits (by decide) (by decide) inStamp
  obtain ⟨-, high⟩ := Char.isDigit_iff_toNat.mp digit
  have nine : ('9' : Char).toNat = 57 := rfl
  omega

/-- Two lists with a last separator split at it in the same way. -/
theorem split_last {α : Type} {front front' back back' : List α} {x : α} (last : x ∉ back)
    (last' : x ∉ back') (same : front ++ x :: back = front' ++ x :: back') :
    front = front' ∧ back = back' := by
  rcases List.append_eq_append_iff.mp same with ⟨between, eq, rest⟩ | ⟨between, eq, rest⟩
  · cases between with
    | nil => exact ⟨by simpa using eq.symm, by simpa using rest⟩
    | cons y between =>
        obtain ⟨-, rfl⟩ := List.cons_eq_cons.mp rest
        exact absurd (List.mem_append_right _ List.mem_cons_self) last
  · cases between with
    | nil => exact ⟨by simpa using eq, by simpa using rest.symm⟩
    | cons y between =>
        obtain ⟨-, rfl⟩ := List.cons_eq_cons.mp rest
        exact absurd (List.mem_append_right _ List.mem_cons_self) last'

/-- Two texts are the same exactly when the same node sends them with the same stamp. -/
theorem stamped_eq_iff (greeting : String) (name name' : NodeName) (clock clock' : ℚ) :
    stamped greeting name clock = stamped greeting name' clock' ↔
      name = name' ∧ stamp clock = stamp clock' := by
  have splits : ∀ (name : NodeName) (clock : ℚ), stamped greeting name clock =
      (pyString greeting ++ pyString " from " ++ pyString name ++ [32, 116]) ++
        61 :: pyString (toString (stamp clock)) := by
    intro name clock
    have sep : pyString " t=" = [32, 116] ++ [61] := rfl
    simp only [stamped, sep, List.append_assoc, List.cons_append, List.nil_append]
  constructor
  · intro same
    rw [splits, splits] at same
    -- The last `=` of a text is the one before its stamp.
    obtain ⟨sameFront, sameStamp⟩ := split_last (noEquals_stamp _) (noEquals_stamp _) same
    have sameName := List.append_cancel_left (List.append_cancel_right sameFront)
    refine ⟨pyString_inj.mp sameName, Nat.repr_inj.mp ?_⟩
    exact pyString_inj.mp sameStamp
  · rintro ⟨rfl, same⟩
    rw [splits, splits, same]

namespace DeliveryMetrics

/-! ### Runs -/

/-- What the orchestrator does: a random send, or an event of a node. -/
inductive TrafficEvent where
  | sendRandom (now clock roll : ℚ) (sender : Endpoint) (endpointPubs : List (List ℕ))
      (choice : ℕ)
  | onEvent (now : ℚ) (nodeName : NodeName) (event : JsonValue)

/-- One event; the observations are the records of the calls of `record_send_attempt`. -/
def step (m : DeliveryMetrics) : TrafficEvent → Option (DeliveryMetrics × List SendRecord)
  | .sendRandom now clock roll sender endpointPubs choice =>
      let attempted := if IsChannel roll then none else sender.destPub? endpointPubs choice
      some ((m.sendRandom now clock roll sender endpointPubs choice).1,
        attempted.toList.map fun destPub =>
          ⟨sender.name, destPub, stamped "hello" sender.name clock, now, none, none⟩)
  | .onEvent now nodeName event => some (m.onEvent now nodeName event, [])

variable (pubOf : NodeName → List ℕ)

/-- No text is sent while the same text is pending, and only the destination of a pending text
reports it. -/
def Careful (m : DeliveryMetrics) : TrafficEvent → Prop
  | .sendRandom _ clock roll sender endpointPubs choice =>
      ¬ IsChannel roll → (sender.destPub? endpointPubs choice).isSome →
        m.pending.get? (stamped "hello" sender.name clock) = none
  | .onEvent _ nodeName event => ∀ text record, Carries text event →
      m.pending.get? text = some record → pubOf nodeName = record.destPub

end DeliveryMetrics

/-- A record as it was when the text was sent. -/
def SendRecord.asSent (record : SendRecord) : SendRecord :=
  { record with receivedAt := none, receivedBy := none }

namespace DeliveryMetrics

variable (pubOf : NodeName → List ℕ)

/-- The ledger is exact: it has one record for each send attempt, the completed records are
attempts of their own, and each of them was completed by the node that has the public key of the
destination. -/
structure Exact (m : DeliveryMetrics) (attempts : List SendRecord) : Prop where
  count : m.attemptedCount = attempts.length
  distinct : (m.completed.map SendRecord.asSent).Subperm attempts
  byDestination : ∀ record ∈ m.completed,
    ∃ nodeName, record.receivedBy = some nodeName ∧ pubOf nodeName = record.destPub

/-- What an event does to the ledger: a send attempt, the completion of a pending record, or
nothing; and when it is careful. -/
inductive Step (m : DeliveryMetrics) (e : TrafficEvent) :
    DeliveryMetrics → List SendRecord → Prop
  | attempted (m' : DeliveryMetrics) (record : SendRecord) (sent : record.asSent = record)
      (pending : m'.pending = m.pending.set record.text record)
      (completed : m'.completed = m.completed)
      (careful : Careful pubOf m e ↔ m.pending.get? record.text = none) : Step m e m' [record]
  | completed (m' : DeliveryMetrics) (now : ℚ) (nodeName : NodeName) (text : List ℕ)
      (record : SendRecord) (known : m.pending.get? text = some record)
      (pending : m'.pending = m.pending.erase text)
      (completed : m'.completed = m.completed ++
        [{ record with receivedAt := some now, receivedBy := some nodeName }])
      (careful : Careful pubOf m e ↔ pubOf nodeName = record.destPub) : Step m e m' []
  | other (m' : DeliveryMetrics) (pending : m'.pending = m.pending)
      (completed : m'.completed = m.completed) (careful : Careful pubOf m e) : Step m e m' []

variable {pubOf} {m m' : DeliveryMetrics} {e : TrafficEvent} {attempts out : List SendRecord}

/-- An event is a text event with one text, or with none. -/
theorem carries_unique {event : JsonValue} {text text' : List ℕ} (carries : Carries text event)
    (carries' : Carries text' event) : text = text' := by
  have same := carries.2.symm.trans carries'.2
  cases same
  rfl

/-- An event that carries no pending text leaves the ledger as it is. -/
theorem onEvent_other {now : ℚ} {nodeName : NodeName} {event : JsonValue}
    (other : ∀ text, Carries text event → m.pending.get? text = none) :
    (m.onEvent now nodeName event).pending = m.pending ∧
      (m.onEvent now nodeName event).completed = m.completed := by
  unfold onEvent
  split
  · rename_i etype type
    split_ifs with isText
    · split
      · rename_i text body
        unfold receiveText
        rw [other text ⟨by rw [type, isText], body⟩]
        exact ⟨rfl, rfl⟩
      · exact ⟨rfl, rfl⟩
    · exact ⟨rfl, rfl⟩
    · split
      · unfold receiveLog
        split_ifs <;> exact ⟨rfl, rfl⟩
      · exact ⟨rfl, rfl⟩
    · exact ⟨rfl, rfl⟩
  · exact ⟨rfl, rfl⟩

theorem Step.of_step (stepped : m.step e = some (m', out)) : Step pubOf m e m' out := by
  cases e with
  | sendRandom now clock roll sender endpointPubs choice =>
      obtain ⟨rfl, rfl⟩ := Prod.mk.inj (Option.some.inj stepped)
      unfold sendRandom
      by_cases channel : IsChannel roll
      · simp only [if_pos channel]
        exact .other _ rfl rfl fun direct => absurd channel direct
      · simp only [if_neg channel]
        cases dest : sender.destPub? endpointPubs choice with
        | none =>
            refine .other _ rfl rfl fun _ known => ?_
            rw [dest] at known
            cases known
        | some destPub =>
            refine .attempted _ _ rfl rfl rfl ⟨fun careful => ?_, fun fresh _ _ => fresh⟩
            exact careful channel (Option.isSome_of_eq_some dest)
  | onEvent now nodeName event =>
      obtain ⟨rfl, rfl⟩ := Prod.mk.inj (Option.some.inj stepped)
      by_cases reports : ∃ text record, Carries text event ∧ m.pending.get? text = some record
      · obtain ⟨text, record, carries, known⟩ := reports
        have received : m.onEvent now nodeName event = m.receiveText now nodeName text :=
          onEvent_of_carries carries
        unfold receiveText at received
        rw [known] at received
        refine .completed _ now nodeName text record known (by rw [received]) (by rw [received]) ?_
        constructor
        · exact fun careful => careful text record carries known
        · intro destination text' record' carries' known'
          obtain rfl := carries_unique carries carries'
          cases known.symm.trans known'
          exact destination
      · have other : ∀ text, Carries text event → m.pending.get? text = none := by
          intro text carries
          by_contra known
          obtain ⟨record, known⟩ := Option.ne_none_iff_exists'.mp known
          exact reports ⟨text, record, carries, known⟩
        obtain ⟨pending, completed⟩ := onEvent_other other
        refine .other _ pending completed fun text record carries known => ?_
        rw [other text carries] at known
        cases known

/-! ### What holds in every run -/

@[simp] theorem asSent_received (record : SendRecord) (now : ℚ) (nodeName : NodeName) :
    ({ record with receivedAt := some now, receivedBy := some nodeName } : SendRecord).asSent =
      record.asSent := rfl

/-- The completed and the pending records are attempts, each one of its own. -/
def Accounted (m : DeliveryMetrics) (attempts : List SendRecord) : Prop :=
  ((m.completed ++ m.pending.values).map SendRecord.asSent).Subperm attempts

theorem attemptedCount_eq : m.attemptedCount = (m.completed ++ m.pending.values).length := by
  simp [attemptedCount, Dict.values]

/-- A completion moves a record. -/
theorem perm_of_completed {now : ℚ} {nodeName : NodeName} {text : List ℕ} {record : SendRecord}
    (known : m.pending.get? text = some record) (pending : m'.pending = m.pending.erase text)
    (completed : m'.completed = m.completed ++
      [{ record with receivedAt := some now, receivedBy := some nodeName }]) :
    ((m'.completed ++ m'.pending.values).map SendRecord.asSent).Perm
      ((m.completed ++ m.pending.values).map SendRecord.asSent) := by
  rw [pending, completed, List.append_assoc]
  simp only [List.map_append, List.map_cons, List.map_nil, asSent_received]
  refine List.Perm.append_left _ ?_
  exact ((m.pending.values_perm_erase known).map SendRecord.asSent).symm

theorem Accounted.step (kept : Accounted m attempts) (taken : Step pubOf m e m' out) :
    Accounted m' (attempts ++ out) := by
  cases taken with
  | attempted record sent pending completed _ =>
      have fewer := m.pending.values_erase_sublist record.text
      have values := m.pending.values_set_perm record.text record
      have others : ((m.completed ++ (m.pending.erase record.text).values).map
          SendRecord.asSent).Subperm attempts :=
        (((List.Sublist.refl _).append fewer).map _).subperm.trans kept
      have perm : ((m'.completed ++ m'.pending.values).map SendRecord.asSent).Perm
          (record :: (m.completed ++ (m.pending.erase record.text).values).map
            SendRecord.asSent) := by
        rw [pending, completed]
        have moved := ((values.append_left m.completed).trans List.perm_middle).map
          SendRecord.asSent
        rwa [List.map_cons, sent] at moved
      have added := (List.subperm_cons record).mpr others
      exact (perm.subperm.trans added).trans
        (List.perm_append_singleton record attempts).symm.subperm
  | completed now nodeName text record known pending completed _ =>
      rw [List.append_nil]
      exact (perm_of_completed known pending completed).subperm.trans kept
  | other pending completed _ =>
      rw [List.append_nil]
      unfold Accounted
      rwa [pending, completed]

theorem accounted (run : Run step anyStep init m attempts) : Accounted m attempts :=
  run.invariant List.nil_subperm fun m _ e m' out _ kept _ stepped =>
    have taken : Step (fun _ => []) m e m' out := .of_step stepped
    kept.step taken

/-! ### When the ledger is exact -/

/-- An event counts one more attempt exactly when it is careful, if it is an attempt at all. -/
theorem Step.attemptedCount (taken : Step pubOf m e m' out) :
    m'.attemptedCount ≤ m.attemptedCount + out.length ∧
      (m'.attemptedCount = m.attemptedCount + out.length ↔ out = [] ∨ Careful pubOf m e) := by
  cases taken with
  | attempted record sent pending completed careful =>
      have grown := (m.pending.values_set_perm record.text record).length_eq
      rw [careful]
      simp only [attemptedCount_eq, pending, completed, List.length_append, grown,
        List.length_cons, List.length_nil, reduceCtorEq, false_or]
      cases known : m.pending.get? record.text with
      | none =>
          rw [m.pending.values_erase_of_none known]
          simp
          omega
      | some old =>
          rw [(m.pending.values_perm_erase known).length_eq]
          simp
  | completed now nodeName text record known pending completed _ =>
      have moved := (perm_of_completed known pending completed).length_eq
      simp only [List.length_map] at moved
      simp [attemptedCount_eq, moved]
  | other pending completed _ => simp [attemptedCount_eq, pending, completed]

/-- What an event does to the completed records. -/
theorem Step.byDestination (taken : Step pubOf m e m' out)
    (kept : ∀ record ∈ m.completed,
      ∃ nodeName, record.receivedBy = some nodeName ∧ pubOf nodeName = record.destPub) :
    (∀ record ∈ m'.completed,
      ∃ nodeName, record.receivedBy = some nodeName ∧ pubOf nodeName = record.destPub) ↔
    out ≠ [] ∨ Careful pubOf m e := by
  cases taken with
  | attempted record sent pending completed _ =>
      rw [completed]
      exact iff_of_true kept (.inl (by simp))
  | completed now nodeName text record known pending completed careful =>
      rw [completed, careful]
      constructor
      · intro all
        obtain ⟨by_, same, pub⟩ := all _ (List.mem_append_right _ List.mem_cons_self)
        cases same
        exact .inr pub
      · rintro (none | pub) r mem
        · exact absurd rfl none
        · rcases List.mem_append.mp mem with old | new
          · exact kept r old
          · cases List.mem_singleton.mp new
            exact ⟨nodeName, rfl, pub⟩
  | other pending completed careful =>
      rw [completed]
      exact iff_of_true kept (.inr careful)

theorem attemptedCount_le (kept : Accounted m attempts) : m.attemptedCount ≤ attempts.length := by
  rw [attemptedCount_eq, ← List.length_map (f := SendRecord.asSent)]
  exact kept.length_le

theorem Step.completed_subset (taken : Step pubOf m e m' out) :
    ∀ record ∈ m.completed, record ∈ m'.completed := by
  intro record mem
  cases taken with
  | attempted _ _ _ completed _ => exact completed ▸ mem
  | completed _ _ _ _ _ _ completed _ => exact completed ▸ List.mem_append_left _ mem
  | other _ completed _ => exact completed ▸ mem

/-- The completed records of an accounted ledger are attempts of their own. -/
theorem Accounted.distinct (kept : Accounted m attempts) :
    (m.completed.map SendRecord.asSent).Subperm attempts :=
  ((List.sublist_append_left _ _).map _).subperm.trans kept

/-- A step keeps the ledger exact exactly when it is careful, and nothing makes it exact again. -/
theorem exact_step_iff (kept : Accounted m attempts) (taken : Step pubOf m e m' out) :
    Exact pubOf m' (attempts ++ out) ↔ Exact pubOf m attempts ∧ Careful pubOf m e := by
  obtain ⟨atMost, countIff⟩ := taken.attemptedCount
  have before := attemptedCount_le kept
  constructor
  · rintro ⟨count, -, byDestination⟩
    rw [List.length_append] at count
    have earlier := fun record mem => byDestination record (taken.completed_subset record mem)
    refine ⟨⟨by omega, kept.distinct, earlier⟩, ?_⟩
    rcases countIff.mp (by omega) with none | careful
    · exact ((taken.byDestination earlier).mp byDestination).resolve_left (by simp [none])
    · exact careful
  · rintro ⟨⟨count, -, byDestination⟩, careful⟩
    refine ⟨?_, (kept.step taken).distinct, (taken.byDestination byDestination).mpr (.inr careful)⟩
    rw [List.length_append, countIff.mpr (.inr careful), count]

/-- The ledger of a run is exact exactly when the run is careful: no text is sent while the same
text is pending, which takes the same sender and the same stamp, and no node but the destination
of a pending text reports it. -/
theorem exact_iff (pubOf : NodeName → List ℕ) (run : Run step anyStep init m attempts) :
    Exact pubOf m attempts ↔ Run step (Careful pubOf) init m attempts := by
  constructor
  · induction run with
    | start => exact fun _ => .start
    | next before _ stepped ih =>
        intro exact_
        obtain ⟨earlier, careful⟩ :=
          (exact_step_iff (accounted before) (.of_step stepped)).mp exact_
        exact (ih earlier).next careful stepped
  · intro careful
    induction careful with
    | start => exact ⟨rfl, List.nil_subperm, nofun⟩
    | next before careful stepped ih =>
        have here := before.mono fun _ _ _ => trivial
        exact (exact_step_iff (accounted here) (.of_step stepped)).mpr ⟨ih here, careful⟩

/-! ### A small cell -/

/-- `alice` knows `bob`. -/
def aliceEndpoint : Endpoint := ⟨"alice", points "a1", [points "b0"]⟩

/-- The keys of two nodes. -/
def cellPubOf (nodeName : NodeName) : List ℕ :=
  if nodeName = "alice" then points "a1" else points "b0"

/-- `alice` sends a text to `bob` at a time in seconds. -/
def aliceSends (clock : ℚ) : TrafficEvent :=
  .sendRandom clock clock (1 / 2) aliceEndpoint [points "a1", points "b0"] 0

/-- One text and another one a second later: the ledger is exact. -/
theorem exact_iff_secondLater : ∃ m attempts, Run step anyStep init m attempts ∧
    attempts.length = 2 ∧ Exact cellPubOf m attempts := by
  have careful : Run step (Careful cellPubOf) init _ _ :=
    (Run.start.next (e := aliceSends 1) (fun _ _ => by decide +kernel) rfl).next
      (e := aliceSends 2) (fun _ _ => by decide +kernel) rfl
  have run := careful.mono fun _ _ _ => trivial
  exact ⟨_, _, run, by decide +kernel, (exact_iff cellPubOf run).mpr careful⟩

/-- The ledger is exact in every run. -/
def LedgerExact (pubOf : NodeName → List ℕ) : Prop :=
  ∀ m attempts, Run step anyStep init m attempts → Exact pubOf m attempts

/-- Two texts in the same millisecond modulo 1000 s, while the first one is pending: one attempt
is lost. -/
theorem not_ledgerExact : ¬ LedgerExact cellPubOf := by
  intro claim
  have run : Run step anyStep init _ _ :=
    (Run.start.next (e := aliceSends 1000) trivial rfl).next (e := aliceSends 2000) trivial rfl
  have count := (claim _ _ run).count
  exact absurd count (by decide +kernel)

end DeliveryMetrics

end MeshcoreSim
