import Mathlib.Data.List.Induction
import MeshcoreSim.Nexthop.Calls

/-!
The routing table and the adverts that it was made from.

After a sequence of adverts the slot of each key is a function of that sequence (`slot_concat`), and
does not depend on the other keys. What is in a slot goes back to one advert of it, the best one
since the entry was admitted, and of the equally good ones the last.

* `entry_history` — metric, path and age of a live entry by the adverts received.
-/

namespace MeshcoreSim.Nexthop

open Lib

/-- An advert as it reaches a node. -/
structure Advert where
  packet : Packet
  id : PubKey
  appData : Bytes

namespace Advert

variable (a : Advert)

def call : Node.Call := .onAdvertRecv a.packet a.id a.appData

def dest : Bytes := a.id.dest

def metric : ℕ := a.packet.metric

end Advert

/-- The adverts that a node does not ignore: those of other nodes. -/
def received (selfId : PubKey) (adverts : List Advert) : List Advert :=
  adverts.filter fun a => a.id ≠ selfId

/-- The table after a sequence of adverts of other nodes. -/
def Table.hearAll (table : Table) (adverts : List Advert) : Option Table :=
  adverts.foldlM (fun table a => (table.hear a.id a.packet).map Prod.fst) table

/-- The entry for a key after these adverts. -/
def slot (adverts : List Advert) (dest : Bytes) : Option RouteEntry :=
  (Table.empty.hearAll adverts).bind fun table => rtFind table.routes dest

/-- The entry for a key that `rt_upsert` finds with the advert that follows these ones. -/
def found (adverts : List Advert) (dest : Bytes) : Option RouteEntry :=
  (Table.empty.hearAll adverts).bind fun table =>
    table.tick.bind fun ticked => rtFind ticked.routes dest

/-- The number of rounds of ageing that go with the first `n` adverts. -/
def rounds (n : ℕ) : ℕ := n / rtAgeEvery

/-! ### Slots -/

section

variable {adverts : List Advert}

theorem hearAll_concat (adverts : List Advert) (a : Advert) :
    Table.empty.hearAll (adverts ++ [a]) =
      (Table.empty.hearAll adverts).bind fun table =>
        (table.hear a.id a.packet).map Prod.fst := by
  unfold Table.hearAll
  rw [List.foldlM_append]
  simp

theorem hearAll_good (adverts : List Advert) :
    ∃ table, Table.empty.hearAll adverts = some table ∧ table.Good ∧
      table.advertSeen = adverts.length % 2 ^ 32 := by
  induction adverts using List.reverseRecOn with
  | nil => exact ⟨_, rfl, Table.good_empty, rfl⟩
  | append_singleton adverts a ih =>
      obtain ⟨table, heard, good, seen⟩ := ih
      obtain ⟨-, table', upsert, -, heard', -, good', -, seen', -⟩ :=
        Table.hear_eq good a.id a.packet
      refine ⟨table', ?_, good', ?_⟩
      · rw [hearAll_concat, heard, Option.bind_some, heard', Option.map_some]
      · rw [seen', seen, List.length_append, List.length_singleton, Nat.mod_add_mod]

theorem found_eq (adverts : List Advert) (dest : Bytes) :
    found adverts dest =
      if (adverts.length + 1) % rtAgeEvery = 0 then (slot adverts dest).bind aged
      else slot adverts dest := by
  obtain ⟨table, heard, good, seen⟩ := hearAll_good adverts
  obtain ⟨ticked, tick, seen', -, slots⟩ := Table.tick_eq good
  have every : rtAgeEvery = 16 := rfl
  have due : ticked.advertSeen % rtAgeEvery = (adverts.length + 1) % rtAgeEvery := by
    rw [seen', seen, every]
    omega
  rw [found, slot, heard, Option.bind_some, Option.bind_some, tick, Option.bind_some, slots, due]

/-- An advert changes the slot of its key. -/
theorem slot_concat (adverts : List Advert) (a : Advert) (dest : Bytes) :
    slot (adverts ++ [a]) dest =
      if dest = a.dest then some (a.packet.offered a.dest (found adverts a.dest))
      else found adverts dest := by
  obtain ⟨table, heard, good, seen⟩ := hearAll_good adverts
  obtain ⟨-, table', upsert, -, heard', -, -, -, -, slots⟩ := Table.hear_eq good a.id a.packet
  have every : rtAgeEvery = 16 := rfl
  have due : (table.advertSeen + 1) % 2 ^ 32 % rtAgeEvery = (adverts.length + 1) % rtAgeEvery := by
    rw [seen, every]
    omega
  have before (dest : Bytes) : slot adverts dest = rtFind table.routes dest := by
    rw [slot, heard, Option.bind_some]
  rw [slot, hearAll_concat, heard, Option.bind_some, heard', Option.map_some, Option.bind_some,
    slots]
  simp only [found_eq, before, due]
  rfl

theorem dest_of_slot {dest : Bytes} {e : RouteEntry} (live : slot adverts dest = some e) :
    e.dest = dest := by
  obtain ⟨table, -, isEntry⟩ := Option.bind_eq_some_iff.mp live
  simpa using List.find?_some isEntry

theorem good_of_slot {dest : Bytes} {e : RouteEntry} (live : slot adverts dest = some e) :
    e.Good := by
  obtain ⟨table, heard, good, -⟩ := hearAll_good adverts
  rw [slot, heard, Option.bind_some] at live
  exact good.good e (List.mem_of_find?_eq_some live)

/-- What an advert finds is what was there before, at most one round older. -/
theorem found_eq_some {dest : Bytes} {e : RouteEntry} (isFound : found adverts dest = some e) :
    ∃ e₀, slot adverts dest = some e₀ ∧
      e = { e₀ with age := e₀.age + (rounds (adverts.length + 1) - rounds adverts.length) } := by
  have every : rtAgeEvery = 16 := rfl
  rw [found_eq] at isFound
  simp only [rounds, every] at isFound ⊢
  split_ifs at isFound with ageing
  · obtain ⟨e₀, live, kept⟩ := Option.bind_eq_some_iff.mp isFound
    have one : (adverts.length + 1) / 16 - adverts.length / 16 = 1 := by omega
    unfold aged at kept
    split_ifs at kept
    exact ⟨e₀, live, by rw [one, ← Option.some.inj kept]⟩
  · have none : (adverts.length + 1) / 16 - adverts.length / 16 = 0 := by omega
    exact ⟨e, isFound, by rw [none, Nat.add_zero]⟩

end

/-! ### The history of an entry -/

/-- The entry goes back to the advert `best`: it was admitted after the adverts `before`, with the
first one of `upto ++ best :: later`, and has been there ever since. -/
structure GoesBack (before upto : List Advert) (best : Advert) (later : List Advert)
    (e : RouteEntry) : Prop where
  key : best.dest = e.dest
  admitted : found before e.dest = none ∧
    ∃ first rest, upto ++ best :: later = first :: rest ∧ first.dest = e.dest
  stayed : ∀ mid a rest, upto ++ best :: later = mid ++ a :: rest → mid ≠ [] →
    (found (before ++ mid) e.dest).isSome = true
  /-- No advert before `best` had a shorter path. -/
  least : ∀ a ∈ upto, a.dest = e.dest → best.metric ≤ a.metric
  /-- All adverts after `best` had longer ones. -/
  last : ∀ a ∈ later, a.dest = e.dest → best.metric < a.metric
  /-- The advert was at least as good as the entry at that moment. -/
  asGood : ∀ e₀ ∈ found (before ++ upto) e.dest, best.metric ≤ e₀.metric
  /-- None of the later ones was. -/
  worse : ∀ mid a rest, later = mid ++ a :: rest → a.dest = e.dest →
    ∃ e₀, found (before ++ upto ++ best :: mid) e.dest = some e₀ ∧ e₀.metric < a.metric
  metric : e.metric = best.metric
  path : e.path = best.packet.stored ∧ e.pathBytes = best.packet.stored.length
  hashSz : e.hashSz = best.packet.info.pathSize
  age : e.age = rounds (before ++ upto ++ best :: later).length -
    rounds (before ++ upto ++ [best]).length

namespace GoesBack

variable {before upto later : List Advert} {best : Advert} {e e₀ : RouteEntry}

/-- An entry that an advert admits. -/
theorem start {a : Advert} (new : found before a.dest = none) :
    GoesBack before [] a [] (a.packet.entry a.dest) where
  key := rfl
  admitted := ⟨new, a, [], rfl, rfl⟩
  stayed := by
    rintro mid b rest whole nonempty
    cases mid with
    | nil => exact absurd rfl nonempty
    | cons c mid => simp at whole
  least := nofun
  last := nofun
  asGood := by
    intro e₀ isFound
    rw [List.append_nil, show (a.packet.entry a.dest).dest = a.dest from rfl, new] at isFound
    cases isFound
  worse := by simp
  metric := rfl
  path := ⟨rfl, rfl⟩
  hashSz := rfl
  age := (Nat.sub_self _).symm

/-- Where a list with one more element splits. -/
theorem split_concat {l mid rest : List Advert} {a b : Advert}
    (whole : l ++ [a] = mid ++ b :: rest) :
    (mid = l ∧ b = a) ∨ ∃ rest', l = mid ++ b :: rest' := by
  rcases List.eq_nil_or_concat rest with rfl | ⟨rest', last, rfl⟩
  · obtain ⟨same, last⟩ := List.append_inj' whole rfl
    exact Or.inl ⟨same.symm, (List.singleton_inj.mp last).symm⟩
  · rw [List.concat_eq_append, ← List.cons_append, ← List.append_assoc] at whole
    exact Or.inr ⟨rest', (List.append_inj' whole rfl).1⟩

variable {a : Advert} (back : GoesBack before upto best later e₀)
  (isFound : found (before ++ upto ++ best :: later) e₀.dest = some e)
  (older : e = { e₀ with
    age := e₀.age + (rounds ((before ++ upto ++ best :: later).length + 1) -
      rounds (before ++ upto ++ best :: later).length) })
include back isFound

/-- The entry is found with the next advert as well. -/
theorem stayed_concat {mid rest : List Advert} {b : Advert}
    (whole : (upto ++ best :: later) ++ [a] = mid ++ b :: rest) (nonempty : mid ≠ []) :
    (found (before ++ mid) e₀.dest).isSome = true := by
  rcases split_concat whole with ⟨rfl, -⟩ | ⟨rest', inner⟩
  · rw [← List.append_assoc, isFound]
    rfl
  · exact back.stayed mid b rest' inner nonempty

include older

/-- An advert of another key, or with a longer path, leaves the entry. -/
theorem keep (longer : a.dest = e.dest → e.metric < a.metric) :
    GoesBack before upto best (later ++ [a]) e := by
  have same : e.dest = e₀.dest := by rw [older]
  have metric : e.metric = best.metric := by rw [older, ← back.metric]
  have every : rtAgeEvery = 16 := rfl
  refine ⟨by rw [same]; exact back.key, ?_, ?_, ?_, ?_, ?_, ?_, metric, ?_, ?_, ?_⟩
  · obtain ⟨new, first, rest, whole, key⟩ := back.admitted
    rw [same]
    refine ⟨new, first, rest ++ [a], ?_, key⟩
    rw [← List.cons_append, ← List.append_assoc, whole, List.cons_append]
  · intro mid b rest whole nonempty
    rw [← List.cons_append, ← List.append_assoc] at whole
    rw [same]
    exact back.stayed_concat isFound whole nonempty
  · rw [same]
    exact back.least
  · intro b mem key
    rcases List.mem_append.mp mem with old | new
    · exact back.last b old (same ▸ key)
    · rw [List.mem_singleton.mp new] at key ⊢
      exact metric ▸ longer key
  · rw [same]
    exact back.asGood
  · intro mid b rest whole key
    rw [same]
    rcases split_concat whole with ⟨rfl, rfl⟩ | ⟨rest', inner⟩
    · exact ⟨e, isFound, longer key⟩
    · exact back.worse mid b rest' inner (same ▸ key)
  · rw [older]
    exact back.path
  · rw [older]
    exact back.hashSz
  · have age := back.age
    have total : e.age = e₀.age + (rounds ((before ++ upto ++ best :: later).length + 1) -
        rounds (before ++ upto ++ best :: later).length) := by rw [older]
    simp only [rounds, every, List.length_append, List.length_cons, List.length_nil] at age total ⊢
    omega

/-- An advert at least as good as the entry takes its place. -/
theorem replace (key : a.dest = e.dest) (better : a.metric ≤ e.metric) :
    GoesBack before (upto ++ best :: later) a [] (a.packet.refresh e) := by
  have same : e.dest = e₀.dest := by rw [older]
  have metric : e.metric = best.metric := by rw [older, ← back.metric]
  have dest : (a.packet.refresh e).dest = e₀.dest := same
  have whole : before ++ (upto ++ best :: later) = before ++ upto ++ best :: later :=
    (List.append_assoc ..).symm
  refine ⟨key, ?_, ?_, ?_, nofun, ?_, by simp, rfl, ⟨rfl, rfl⟩, rfl, ?_⟩
  · obtain ⟨new, first, rest, split, isKey⟩ := back.admitted
    rw [dest]
    exact ⟨new, first, rest ++ [a], by rw [split, List.cons_append], isKey⟩
  · intro mid b rest split nonempty
    rw [dest]
    exact back.stayed_concat isFound split nonempty
  · intro b mem isKey
    rw [dest] at isKey
    refine better.trans (metric.trans_le ?_)
    rcases List.mem_append.mp mem with old | later
    · exact back.least b old isKey
    · rcases List.mem_cons.mp later with rfl | later
      · exact Nat.le_refl _
      · exact (back.last b later isKey).le
  · intro e₁ found₁
    rw [dest, whole, isFound] at found₁
    cases found₁
    exact better
  · exact (Nat.sub_self _).symm

end GoesBack

/-- Every entry goes back to one of the adverts. -/
theorem goesBack_of_slot {adverts : List Advert} {dest : Bytes} {e : RouteEntry}
    (live : slot adverts dest = some e) :
    ∃ before upto best later, adverts = before ++ upto ++ best :: later ∧
      GoesBack before upto best later e := by
  induction adverts using List.reverseRecOn generalizing dest e with
  | nil => cases live
  | append_singleton adverts a ih =>
      rw [slot_concat] at live
      -- What the advert finds goes back to an advert before it.
      have earlier {dest : Bytes} {e : RouteEntry} (isFound : found adverts dest = some e) :
          ∃ before upto best later e₀, adverts = before ++ upto ++ best :: later ∧
            GoesBack before upto best later e₀ ∧ dest = e₀.dest ∧
            e = { e₀ with
              age := e₀.age + (rounds (adverts.length + 1) - rounds adverts.length) } := by
        obtain ⟨e₀, live₀, older⟩ := found_eq_some isFound
        obtain ⟨before, upto, best, later, whole, back⟩ := ih live₀
        exact ⟨before, upto, best, later, e₀, whole, back, (dest_of_slot live₀).symm, older⟩
      have kept {e : RouteEntry} (isFound : found adverts dest = some e)
          (longer : a.dest = dest → e.metric < a.metric) :
          ∃ before upto best later, adverts ++ [a] = before ++ upto ++ best :: later ∧
            GoesBack before upto best later e := by
        obtain ⟨before, upto, best, later, e₀, rfl, back, rfl, older⟩ := earlier isFound
        have same : e.dest = e₀.dest := by rw [older]
        refine ⟨before, upto, best, later ++ [a], by simp, ?_⟩
        exact back.keep isFound older fun key => longer (key.trans same)
      split_ifs at live with here
      · subst here
        cases isFound : found adverts a.dest with
        | none =>
            rw [isFound] at live
            cases live
            exact ⟨adverts, [], a, [], by simp, GoesBack.start isFound⟩
        | some e₁ =>
            rw [isFound, Packet.offered] at live
            split_ifs at live with better
            · cases live
              obtain ⟨before, upto, best, later, e₀, rfl, back, same, older⟩ := earlier isFound
              have key : a.dest = e₁.dest := by rw [older]; exact same
              rw [same] at isFound
              exact ⟨before, upto ++ best :: later, a, [], by simp,
                back.replace isFound older key better⟩
            · cases live
              exact kept isFound fun _ => Nat.lt_of_not_le better
      · exact kept live fun key => absurd key.symm here

/-! ### Runs -/

/-- Adverts from the empty table: the node hears those of other nodes. -/
theorem exec_adverts {node : Node} (good : node.Good) (adverts : List Advert) :
    ∃ node' effects, exec Node.step node (adverts.map Advert.call) = some (node', effects) ∧
      node.table.hearAll (received node.selfId adverts) = some node'.table := by
  induction adverts generalizing node with
  | nil => exact ⟨node, [], rfl, rfl⟩
  | cons a adverts ih =>
      by_cases own : a.id = node.selfId
      · obtain ⟨node', effects, run, heard⟩ := ih good
        refine ⟨node', effects, ?_, ?_⟩
        · have ignored : node.step a.call = some (node, []) := if_pos own
          rw [List.map_cons, exec, ignored]
          simp only [run, Option.map_some, List.nil_append]
        · rw [received, List.filter_cons_of_neg (by simp [own])]
          exact heard
      · obtain ⟨contacts, table, upsert, effects, heard, called, good', -⟩ :=
          Node.onAdvertRecv_eq good a.packet a.appData own
        obtain ⟨node', more, run, rest⟩ := ih good'
        refine ⟨node', effects ++ more, ?_, ?_⟩
        · have stepped : node.step a.call = some ({ node with contacts, table }, effects) := called
          rw [List.map_cons, exec, stepped]
          simp only [run, Option.map_some]
        · rw [received, List.filter_cons_of_pos (by simp [own]), Table.hearAll, List.foldlM_cons,
            heard]
          exact rest

/-- Every live entry, after any sequence of adverts from the empty table: its metric is the least
one of the adverts of its key since it was admitted, its path that of the last such advert, and its
age, never more than 3, the rounds of ageing since then. -/
theorem entry_history (selfId : PubKey) (adverts : List Advert) :
    ∃ node effects,
      exec Node.step (Node.init selfId) (adverts.map Advert.call) = some (node, effects) ∧
      ∀ e ∈ node.table.routes, e.age ≤ rtMaxAge ∧
        ∃ before upto best later,
          received selfId adverts = before ++ upto ++ best :: later ∧
          GoesBack before upto best later e := by
  obtain ⟨node, effects, run, heard⟩ := exec_adverts (Node.good_init selfId) adverts
  obtain ⟨table, heard', good, -⟩ := hearAll_good (received selfId adverts)
  obtain rfl : node.table = table := Option.some.inj (heard.symm.trans heard')
  refine ⟨node, effects, run, fun e mem => ⟨(good.good e mem).age, ?_⟩⟩
  have live : slot (received selfId adverts) e.dest = some e := by
    rw [slot, heard', Option.bind_some]
    exact (find?_eq_some_iff_mem good.distinct).mpr ⟨mem, rfl⟩
  exact goesBack_of_slot live

end MeshcoreSim.Nexthop
