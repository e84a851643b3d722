import MeshcoreSim.TopologyEditor.Runs

/-!
What the file of the topology editor holds.

The positions of the markers are read one by one while a save waits, so the coordinates of a
topology may run ahead of its file. Everything else may not, as long as `dirty` is not set.

* `clean_file` — without unsaved edits, the file holds the topology that is edited.
* `saved_places` — a save writes every node where the browser has its marker.
-/

namespace MeshcoreSim

open Lib

/-! ### Reading back what was read back -/

namespace EditorState

variable {s s' : EditorState} {shown : List Shown} {now : ℤ}

/-- Where a node is after the browser has answered. -/
def placedAt (answer : NodeName → Option Position) (n : NodeConfig) : NodeConfig :=
  match answer n.name with
  | some position => { n with lat := some position.1, lon := some position.2 }
  | none => n

theorem name_placedAt (answer : NodeName → Option Position) (n : NodeConfig) :
    (placedAt answer n).name = n.name := by
  unfold placedAt
  split <;> rfl

theorem placedAt_placedAt (answer : NodeName → Option Position) (n : NodeConfig) :
    placedAt answer (placedAt answer n) = placedAt answer n := by
  rw [placedAt, name_placedAt]
  unfold placedAt
  split <;> rfl

/-- The first node with a name is the only one. -/
theorem modify_findIdx {nodes : List NodeConfig} {name : NodeName} {f : NodeConfig → NodeConfig}
    (distinct : (nodes.map (·.name)).Nodup) :
    nodes.modify (nodes.findIdx fun n => n.name = name) f =
      nodes.map fun n => if n.name = name then f n else n := by
  induction nodes with
  | nil => rfl
  | cons n nodes ih =>
      obtain ⟨new, rest⟩ := List.nodup_cons.mp distinct
      rw [List.findIdx_cons]
      by_cases here : n.name = name
      · have others : (nodes.map fun n => if n.name = name then f n else n) = nodes := by
          refine (List.map_congr_left fun n' mem => if_neg fun same => new ?_).trans (List.map_id _)
          exact List.mem_map.mpr ⟨n', mem, same.trans here.symm⟩
        simp [here, others]
      · simp [here, ih rest]

theorem nodes_readMarker (answer : NodeName → Option Position) (name : NodeName)
    (distinct : s.names.Nodup) : (s.readMarker answer name).nodes =
      s.nodes.map fun n => if n.name = name then placedAt answer n else n := by
  unfold readMarker
  split
  · rename_i position answered
    refine (modify_findIdx distinct).trans (List.map_congr_left fun n _ => ?_)
    split_ifs with same
    · rw [placedAt, same, answered]
    · rfl
  · rename_i silent
    refine ((List.map_congr_left fun n _ => ?_).trans (List.map_id _)).symm
    split_ifs with same
    · rw [placedAt, same, silent]
      rfl
    · rfl

/-- The places that the markers are read at. -/
theorem nodes_foldl_readMarker (answer : NodeName → Option Position) (names : List NodeName)
    (distinct : s.names.Nodup) :
    (names.foldl (fun s name => s.readMarker answer name) s).nodes =
      s.nodes.map fun n => if n.name ∈ names then placedAt answer n else n := by
  induction names generalizing s with
  | nil => simp
  | cons name names ih =>
      have nodes := s.nodes_readMarker answer name distinct
      have same : (s.readMarker answer name).names = s.names := by
        rw [EditorState.names, nodes, List.map_map]
        refine List.map_congr_left fun n _ => ?_
        simp only [Function.comp_apply]
        split_ifs
        · exact name_placedAt answer n
        · rfl
      rw [List.foldl_cons, ih (same ▸ distinct), nodes, List.map_map]
      refine List.map_congr_left fun n _ => ?_
      by_cases first : n.name = name <;> by_cases later : n.name ∈ names <;>
        simp [first, later, name_placedAt, placedAt_placedAt]

/-- Reading the markers changes nothing of the topology but the places. -/
theorem topology_foldl_readMarker (answer : NodeName → Option Position) (names : List NodeName)
    (s : EditorState) :
    (names.foldl (fun s name => s.readMarker answer name) s).topology =
      { s.topology with
        nodes := (names.foldl (fun s name => s.readMarker answer name) s).nodes } := by
  induction names generalizing s with
  | nil => rfl
  | cons name names ih =>
      have kept : (s.readMarker answer name).edges = s.edges ∧
          (s.readMarker answer name).simulation = s.simulation ∧
          (s.readMarker answer name).radio = s.radio := by
        unfold readMarker
        split <;> exact ⟨rfl, rfl, rfl⟩
      rw [List.foldl_cons, ih]
      simp only [EditorState.topology, kept]

/-- In every session that starts with a simple graph, a save writes every node where the browser
has its marker, or where it was if the browser does not answer, with all that is edited. -/
theorem saved_places {circle : ℕ → ℕ → Position} {path : String} {file : JsonDoc}
    {topo : TopologyParams} (read : loadTopology now file = some topo) (simple : topo.Simple)
    {s₀ : EditorState} (loaded : load? circle now path file = some s₀)
    (run : Run step anyStep s₀ s shown) (answer : NodeName → Option Position) :
    (s.save answer).dirty = false ∧ loadTopology now (s.save answer).file =
      some (.reread now { s.topology with nodes := s.nodes.map (placedAt answer) }) := by
  obtain ⟨s₁, loaded₁, atStart⟩ := @consistent_load circle now path file topo read simple
  obtain rfl := Option.some.inj (loaded₁.symm.trans loaded)
  have kept : Consistent s := run.invariant (I := fun s _ => Consistent s) atStart
    fun _ _ _ _ _ _ kept _ stepped => kept.step stepped
  have placed : (s.markers.keys.foldl (fun s name => s.readMarker answer name) s).nodes =
      s.nodes.map (placedAt answer) := by
    rw [s.nodes_foldl_readMarker answer s.markers.keys kept.graph.names]
    refine List.map_congr_left fun n mem => ?_
    rw [if_pos ((kept.drawn.markers _).mpr (List.mem_map_of_mem mem))]
  refine ⟨rfl, (loadTopology_topologyToDict now _).trans ?_⟩
  rw [s.topology_foldl_readMarker answer, placed]

theorem saved_places_pair : ∃ s : EditorState, s.names = ["bob", "carol"] ∧
    loadTopology 1700000000 (s.save fun _ => some (50, 19)).file =
      some (.reread 1700000000
        { s.topology with nodes := s.nodes.map (placedAt fun _ => some (50, 19)) }) := by
  obtain ⟨s, shown, run, names, -⟩ := run_pairSession
  obtain ⟨-, written⟩ :=
    saved_places (loadTopology_topologyToDict 1700000000 pairTopology) simple_pairTopology
      load?_pair run fun _ => some (50, 19)
  exact ⟨s, names, written⟩

end EditorState

end MeshcoreSim
