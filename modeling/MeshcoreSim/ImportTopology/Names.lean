import Mathlib.Data.List.Perm.Subperm
import MeshcoreSim.ImportTopology

/-!
The node names of an imported topology.

The renaming loop tries names with different counters, so it ends before it has gone through
the names of the other nodes (`uniqueName_isSome`), and `importedFrom` says what the nodes are
that it leaves: their names are distinct, and a name without underscore is one of them when a
surviving node has it before renaming. Nothing renames the companions: `uniquely_named_iff`
says that all names are distinct exactly when no such node has the name of a companion that is
added.
-/

namespace MeshcoreSim.ImportTopology

open Lib

/-! ### The renaming loop -/

theorem numbered_injective (base : NodeName) : Function.Injective (numbered base) := by
  intro i j same
  have chars := congrArg String.toList same
  simp only [numbered, String.toList_append] at chars
  have digits := congrArg (Nat.ofDigitChars 10 · 0) (List.append_cancel_left chars)
  simpa [Nat.toString_eq_ofList_toDigits] using digits

theorem underscore_mem_numbered (base : NodeName) (counter : ℕ) :
    '_' ∈ (numbered base counter).toList := by
  simp [numbered]

section Loop

variable {existing : List NodeName} {base name fresh : NodeName}

/-- A loop that runs out of fuel has found all names taken that it tried. -/
theorem numbered_mem_of_renameLoop {fuel counter : ℕ}
    (out : renameLoop existing base fuel name counter = none) {i : ℕ} (tried : i + 1 < fuel) :
    numbered base (counter + i) ∈ existing := by
  induction fuel generalizing name counter i with
  | zero => omega
  | succ fuel ih =>
      rw [renameLoop] at out
      split at out
      · cases i with
        | zero =>
            cases fuel with
            | zero => omega
            | succ fuel =>
                rw [renameLoop] at out
                split at out
                · assumption
                · exact nomatch out
        | succ i =>
            have later := ih out (i := i) (by omega)
            rwa [show counter + (i + 1) = counter + 1 + i by omega]
      · exact nomatch out

/-- The loop ends: it tries one name more than there are. -/
theorem uniqueName_isSome (existing : List NodeName) (base : NodeName) :
    (uniqueName existing base).isSome := by
  rw [Option.isSome_iff_ne_none]
  intro out
  have taken : (List.range (existing.length + 1)).map (fun i => numbered base (2 + i)) ⊆
      existing := by
    intro name mem
    obtain ⟨i, below, rfl⟩ := List.mem_map.mp mem
    have := List.mem_range.mp below
    exact numbered_mem_of_renameLoop out (by omega)
  have distinct : ((List.range (existing.length + 1)).map fun i => numbered base (2 + i)).Nodup :=
    List.nodup_range.map fun i j same => Nat.add_left_cancel (numbered_injective base same)
  have count := (distinct.subperm taken).length_le
  rw [List.length_map, List.length_range] at count
  omega

theorem renameLoop_eq_some {fuel counter : ℕ}
    (found : renameLoop existing base fuel name counter = some fresh) :
    fresh ∉ existing ∧ (fresh = name ∨ ∃ k, fresh = numbered base k) := by
  induction fuel generalizing name counter with
  | zero => exact nomatch found
  | succ fuel ih =>
      rw [renameLoop] at found
      split at found
      · obtain ⟨free, rfl | numbered⟩ := ih found
        · exact ⟨free, .inr ⟨counter, rfl⟩⟩
        · exact ⟨free, .inr numbered⟩
      · rename_i free
        cases found
        exact ⟨free, .inl rfl⟩

/-- A name that is free is kept. -/
theorem uniqueName_of_free (free : base ∉ existing) : uniqueName existing base = some base := by
  rw [uniqueName, renameLoop, if_neg free]

end Loop

/-! ### The nodes -/

/-- The names of the nodes. -/
def nodeNames (nodes : Dict String ImportedNode) : List NodeName :=
  nodes.values.map ImportedNode.name

/-- What the nodes are after the entries `done`. -/
structure ImportedFrom (done : List (String × RawNode)) (nodes : Dict String ImportedNode) :
    Prop where
  survivors : ∀ pfx, (nodes.get? pfx).isSome ↔
    ∃ entry ∈ done, survives entry.1 entry.2 ∧ entry.1 = pfx
  count : nodes.entries.length = done.countP fun entry => survives entry.1 entry.2
  distinct : (nodeNames nodes).Nodup
  /-- a name without underscore is the name of a node that had it from the start -/
  plain : ∀ name : NodeName, '_' ∉ name.toList →
    (name ∈ nodeNames nodes ↔
      ∃ entry ∈ done, survives entry.1 entry.2 ∧ baseName entry.1 entry.2 = name)
  places : ∀ pfx n, nodes.get? pfx = some n → ∃ raw, (pfx, raw) ∈ done ∧ survives pfx raw ∧
    n = ⟨n.name, pfx, roundTo raw.lat 6, roundTo raw.lon 6⟩

theorem nodeNames_set {nodes : Dict String ImportedNode} {pfx : String} (node : ImportedNode)
    (new : nodes.get? pfx = none) :
    nodeNames (nodes.set pfx node) = nodeNames nodes ++ [node.name] := by
  simp [nodeNames, Dict.values, nodes.entries_set_of_none node new]

theorem exists_mem_concat {α : Type} {P : α → Prop} {l : List α} {last : α} :
    (∃ x ∈ l ++ [last], P x) ↔ (∃ x ∈ l, P x) ∨ P last := by
  simp [or_and_right, exists_or]

section AddNode

variable {done : List (String × RawNode)} {nodes : Dict String ImportedNode} {pfx : String}
  {raw : RawNode}

theorem ImportedFrom.stub (imported : ImportedFrom done nodes) (stub : ¬ survives pfx raw) :
    ImportedFrom (done ++ [(pfx, raw)]) nodes where
  survivors p := by
    rw [imported.survivors, exists_mem_concat]
    simp [stub]
  count := by
    rw [imported.count]
    simp [stub]
  distinct := imported.distinct
  plain name noUnderscore := by
    rw [imported.plain name noUnderscore, exists_mem_concat]
    simp [stub]
  places p n known := by
    obtain ⟨raw', mem, kept, eq⟩ := imported.places p n known
    exact ⟨raw', List.mem_append_left _ mem, kept, eq⟩

theorem ImportedFrom.set (imported : ImportedFrom done nodes) (kept : survives pfx raw)
    (new : pfx ∉ done.map Prod.fst) {node : ImportedNode}
    (unique : uniqueName (nodeNames nodes) (baseName pfx raw) = some node.name)
    (place : node = ⟨node.name, pfx, roundTo raw.lat 6, roundTo raw.lon 6⟩) :
    ImportedFrom (done ++ [(pfx, raw)]) (nodes.set pfx node) := by
  have absent : nodes.get? pfx = none := by
    rw [← Option.not_isSome_iff_eq_none, imported.survivors]
    rintro ⟨entry, mem, -, rfl⟩
    exact new (List.mem_map_of_mem mem)
  obtain ⟨free, source⟩ := renameLoop_eq_some unique
  refine ⟨fun p => ?_, ?_, ?_, fun name noUnderscore => ?_, fun p n known => ?_⟩
  · rw [exists_mem_concat, ← imported.survivors, Dict.get?_set]
    by_cases same : p = pfx
    · simp [same, kept]
    · have other : ¬ pfx = p := fun eq => same eq.symm
      simp [same, other]
  · rw [nodes.entries_set_of_none node absent, List.length_append, imported.count]
    simp [kept]
  · rw [nodeNames_set _ absent]
    apply List.nodup_append.mpr
    refine ⟨imported.distinct, List.nodup_singleton _, ?_⟩
    rintro a mem b last rfl
    exact free (List.mem_singleton.mp last ▸ mem)
  · rw [nodeNames_set _ absent, List.mem_append, List.mem_singleton, exists_mem_concat,
      ← imported.plain name noUnderscore]
    constructor
    · rintro (old | rfl)
      · exact .inl old
      · -- A renamed node has an underscore in its name.
        rcases source with same | ⟨k, same⟩
        · exact .inr ⟨kept, same.symm⟩
        · exact absurd (same ▸ underscore_mem_numbered _ k) noUnderscore
    · rintro (old | ⟨-, rfl⟩)
      · exact .inl old
      · by_cases taken : baseName pfx raw ∈ nodeNames nodes
        · exact .inl taken
        · rw [uniqueName_of_free taken] at unique
          exact .inr (Option.some.inj unique)
  · rw [Dict.get?_set] at known
    split_ifs at known with here
    · cases known
      subst here
      exact ⟨raw, List.mem_append_right _ List.mem_cons_self, kept, place⟩
    · obtain ⟨raw', mem, kept', eq⟩ := imported.places p n known
      exact ⟨raw', List.mem_append_left _ mem, kept', eq⟩

theorem ImportedFrom.addNode (imported : ImportedFrom done nodes)
    (new : pfx ∉ done.map Prod.fst) :
    ∃ nodes', addNode nodes (pfx, raw) = some nodes' ∧
      ImportedFrom (done ++ [(pfx, raw)]) nodes' := by
  unfold ImportTopology.addNode
  by_cases kept : survives pfx raw
  · obtain ⟨name, unique⟩ := Option.isSome_iff_exists.mp
      (uniqueName_isSome (nodeNames nodes) (baseName pfx raw))
    refine ⟨nodes.set pfx ⟨name, pfx, roundTo raw.lat 6, roundTo raw.lon 6⟩, ?_,
      imported.set kept new unique rfl⟩
    unfold nodeNames at unique
    simp only [kept, if_true, unique, Option.map_some]
  · refine ⟨nodes, ?_, imported.stub kept⟩
    simp [kept]

end AddNode

/-- Importing the nodes ends for all nodes. -/
theorem importedFrom (rawNodes : Dict String RawNode) :
    ∃ nodes, importNodes rawNodes = some nodes ∧ ImportedFrom rawNodes.entries nodes := by
  obtain ⟨entries, distinct⟩ := rawNodes
  unfold importNodes
  simp only
  induction entries using List.reverseRecOn with
  | nil =>
      refine ⟨.empty, rfl, ?_, rfl, List.nodup_nil, ?_, fun p n known => by cases known⟩
      · simp [Dict.get?, Dict.empty]
      · simp [nodeNames, Dict.values, Dict.empty]
  | append_singleton done entry ih =>
      rw [List.map_append] at distinct
      obtain ⟨earlier, -, apart⟩ := List.nodup_append.mp distinct
      obtain ⟨nodes, run, imported⟩ := ih earlier
      have new : entry.1 ∉ done.map Prod.fst := fun mem =>
        apart entry.1 mem entry.1 (by simp) rfl
      obtain ⟨nodes', added, imported'⟩ := @ImportedFrom.addNode done nodes entry.1 entry.2
        imported new
      refine ⟨nodes', ?_, imported'⟩
      rw [List.foldlM_append, run]
      simpa using added

/-! ### The names of the output -/

theorem nodeNames_relays (nodes : Dict String ImportedNode) :
    ((relays nodes).map ImportedNode.name).Perm (nodeNames nodes) :=
  ((List.mergeSort_perm _ _).map Prod.snd).map _

/-- The companions have the first names of their list. -/
theorem names_companions (lib : ImportLib) (params : ImportParams)
    (nodes : Dict String ImportedNode) :
    (companions lib params nodes).map Prod.fst =
      companionNames.take (companionCount params nodes) := by
  set n := companionCount params nodes with count
  have enough : n ≤ (relays nodes).length := by
    unfold companionCount at count
    omega
  have named : n ≤ companionNames.length := by
    unfold companionCount at count
    omega
  have length : ((lib.sample (relays nodes).length n).filterMap fun i =>
      (relays nodes)[i]?).length = n := by
    have all : ∀ i ∈ lib.sample (relays nodes).length n, ((relays nodes)[i]?).isSome := by
      intro i mem
      simpa using lib.sample_lt _ _ enough i mem
    rw [List.filterMap_length_eq_length.mpr all, lib.sample_length _ _ enough]
  unfold companions
  rw [← count, List.zip_eq_zip_take_min, length, min_eq_right named, List.map_fst_zip]
  simp [length]

theorem names_outputNodes (lib : ImportLib) (params : ImportParams)
    (nodes : Dict String ImportedNode) :
    (outputNodes lib params nodes).map NodeConfig.name =
      (relays nodes).map ImportedNode.name ++
        companionNames.take (companionCount params nodes) := by
  rw [← names_companions lib params nodes]
  simp [outputNodes, Function.comp_def, NodeConfig.named]

/-- How many companions are added, from the nodes of the optimizer. -/
def companionsAdded (params : ImportParams) (rawNodes : Dict String RawNode) : ℕ :=
  min params.companions.toNat
    (min (rawNodes.entries.countP fun entry => survives entry.1 entry.2) companionNames.length)

theorem ImportedFrom.companionCount_eq {rawNodes : Dict String RawNode}
    {nodes : Dict String ImportedNode} (imported : ImportedFrom rawNodes.entries nodes)
    (params : ImportParams) :
    companionCount params nodes = companionsAdded params rawNodes := by
  unfold companionCount companionsAdded relays sortedNodes
  rw [List.length_map, List.length_mergeSort, imported.count]

theorem nodup_companionNames : companionNames.Nodup := by decide +kernel

theorem noUnderscore_of_companion : ∀ name ∈ companionNames, '_' ∉ name.toList := by
  decide +kernel

/-- Renaming ends for all nodes, and the nodes of the output have distinct names. -/
structure UniquelyNamed (lib : ImportLib) (params : ImportParams)
    (rawNodes : Dict String RawNode) : Prop where
  ends : (importNodes rawNodes).isSome
  distinct : ∀ nodes, importNodes rawNodes = some nodes →
    ((outputNodes lib params nodes).map NodeConfig.name).Nodup

/-- The names are distinct exactly when no surviving node has, before renaming, the name of a
companion that is added. -/
theorem uniquelyNamed_iff (lib : ImportLib) (params : ImportParams)
    (rawNodes : Dict String RawNode) :
    UniquelyNamed lib params rawNodes ↔
      ∀ entry ∈ rawNodes.entries, survives entry.1 entry.2 →
        baseName entry.1 entry.2 ∉ companionNames.take (companionsAdded params rawNodes) := by
  obtain ⟨nodes, run, imported⟩ := importedFrom rawNodes
  have relayNames := nodeNames_relays nodes
  have names : ((outputNodes lib params nodes).map NodeConfig.name).Nodup ↔
      ∀ name ∈ nodeNames nodes, name ∉ companionNames.take (companionsAdded params rawNodes) := by
    rw [names_outputNodes, imported.companionCount_eq, List.nodup_append]
    constructor
    · rintro ⟨-, -, apart⟩ name mem companion
      exact apart name (relayNames.mem_iff.mpr mem) name companion rfl
    · intro apart
      refine ⟨relayNames.nodup_iff.mpr imported.distinct,
        nodup_companionNames.sublist (List.take_sublist _ _), ?_⟩
      rintro name mem _ companion rfl
      exact apart name (relayNames.mem_iff.mp mem) companion
  constructor
  · intro unique entry mem survived companion
    have plain := noUnderscore_of_companion _ (List.mem_of_mem_take companion)
    exact names.mp (unique.distinct nodes run) _
      ((imported.plain _ plain).mpr ⟨entry, mem, survived, rfl⟩) companion
  · intro apart
    refine ⟨by rw [run]; rfl, fun nodes' run' => ?_⟩
    rw [run] at run'
    cases run'
    refine names.mpr fun name mem companion => ?_
    have plain := noUnderscore_of_companion _ (List.mem_of_mem_take companion)
    obtain ⟨entry, inRaw, survived, rfl⟩ := (imported.plain _ plain).mp mem
    exact apart entry inRaw survived companion

/-- A relay with the name of the first companion. -/
def oneAlice : Dict String RawNode := .ofList [("a1b2c3d4", ⟨some "alice", 54, 18⟩)]

/-- Places are picked from the first one on. No distance is computed for a single node. -/
def firstPlaces : ImportLib where
  radians := id
  sin := id
  cos := id
  asin := id
  sqrt := id
  log10 := id
  gauss _ _ := 0
  sample _ k := List.range k
  sample_length _ _ _ := List.length_range
  sample_lt _ _ enough _ mem := (List.mem_range.mp mem).trans_le enough

/-- The companion of the relay has its name as well. -/
theorem not_uniquelyNamed : ¬ ∀ lib params rawNodes, UniquelyNamed lib params rawNodes := by
  intro claim
  obtain ⟨nodes, run, imported⟩ := importedFrom oneAlice
  have names := (claim firstPlaces {} oneAlice).distinct nodes run
  rw [names_outputNodes, imported.companionCount_eq] at names
  have relay : "alice" ∈ nodeNames nodes :=
    (imported.plain _ (by decide +kernel)).mpr
      ⟨("a1b2c3d4", ⟨some "alice", 54, 18⟩), by decide +kernel, by decide +kernel,
        by decide +kernel⟩
  have companion : "alice" ∈ companionNames.take (companionsAdded {} oneAlice) := by decide +kernel
  exact (List.nodup_append.mp names).2.2 _ ((nodeNames_relays nodes).mem_iff.mpr relay) _ companion
    rfl

/-! ### What the names are for -/

/-- The tool returns these nodes. -/
theorem nodes_importTopology {lib : ImportLib} {params : ImportParams}
    {rawNodes : Dict String RawNode} {rawEdges : List RawEdge} {topology : ImportedTopology}
    (returned : importTopology lib params rawNodes rawEdges = .ok topology) :
    ∃ nodes, importNodes rawNodes = some nodes ∧
      topology.nodes = outputNodes lib params nodes := by
  obtain ⟨nodes, measured, filled, warmup, run, -, -, -, rfl⟩ := importTopology_eq_ok.mp returned
  exact ⟨nodes, run, rfl⟩

/-- `Topology`, which indexes the nodes by name, keeps all of them. -/
theorem UniquelyNamed.keys_index {lib : ImportLib} {params : ImportParams}
    {rawNodes : Dict String RawNode} {nodes : Dict String ImportedNode}
    (unique : UniquelyNamed lib params rawNodes) (run : importNodes rawNodes = some nodes) :
    (Dict.ofList ((outputNodes lib params nodes).map fun n => (n.name, n))).keys =
      (outputNodes lib params nodes).map NodeConfig.name := by
  rw [Dict.keys_ofList_of_nodup]
  · simp [Function.comp_def]
  · simpa [Function.comp_def] using unique.distinct nodes run

end MeshcoreSim.ImportTopology
